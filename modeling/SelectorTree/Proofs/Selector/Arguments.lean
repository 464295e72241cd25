import SelectorTree.Proofs.Text.Plain
import SelectorTree.Proofs.Text.Trimming
import SelectorTree.Selector.Parser

/-!
# Arguments of pseudo-classes

Without backslashes an argument is a text in which parentheses and quotes are balanced, and
it is taken as it stands up to the parenthesis that closes it.  Blanks at its ends can be
taken away without disturbing the balance.
-/

namespace SelectorTree.PseudoClass

open Text

variable {c : Char} {depth : Nat} {chars argument rest more : List Char}

/-- A character of an argument that stands for nothing but itself. -/
def isOrdinary (c : Char) : Bool :=
  !(c == '(' || c == ')' || c == '"' || c == '\'' || c == '\\')

/-- A text that closes all its strings, and all parentheses that it or `depth` before it
opened. -/
inductive Balanced : Nat → List Char → Prop where
  | nil : Balanced 0 []
  | closing {depth : Nat} {rest : List Char} (behind : Balanced depth rest) :
      Balanced (depth + 1) (')' :: rest)
  | opening {depth : Nat} {rest : List Char} (behind : Balanced (depth + 1) rest) :
      Balanced depth ('(' :: rest)
  | quoted {depth : Nat} {rest body : List Char} {quote : Char}
      (quotes : quote = '"' ∨ quote = '\'') (plain : Plain body) (unquoted : quote ∉ body)
      (behind : Balanced depth rest) : Balanced depth (quote :: (body ++ quote :: rest))
  | ordinary {depth : Nat} {rest : List Char} {c : Char} (single : isOrdinary c = true)
      (behind : Balanced depth rest) : Balanced depth (c :: rest)

theorem isOrdinary_iff : isOrdinary c = true ↔
    c ≠ ')' ∧ c ≠ '(' ∧ ¬(c = '"' ∨ c = '\'') ∧ c ≠ '\\' := by
  simp [isOrdinary, and_assoc, and_left_comm]

theorem readArgument_of_balanced (balanced : Balanced depth argument) :
    readArgument depth (argument ++ ')' :: rest) = .ok (argument, rest) := by
  induction balanced with
  | nil =>
      rw [List.nil_append, readArgument.eq_def]
      simp only [if_true]
  | closing _ ih =>
      rw [List.cons_append, readArgument.eq_def]
      simp only [if_true, ih, Except.map]
  | opening _ ih =>
      rw [List.cons_append, readArgument.eq_def]
      simp only [show '(' ≠ ')' by decide, if_false, if_true, ih, Except.map]
  | @quoted depth behind body quote quotes plain unquoted _ ih =>
      have inside : readQuoted .selector quote (body ++ quote :: (behind ++ ')' :: rest)) =
          (body, .closed, behind ++ ')' :: rest) :=
        readQuoted_of_plain plain unquoted fun stops => absurd stops Bool.false_ne_true
      have notClosing : quote ≠ ')' := by rcases quotes with rfl | rfl <;> decide
      have notOpening : quote ≠ '(' := by rcases quotes with rfl | rfl <;> decide
      rw [List.cons_append, List.append_assoc, List.cons_append, readArgument.eq_def]
      simp only [if_neg notClosing, if_neg notOpening, if_pos quotes, inside, if_true, ih,
        Except.map, List.cons_append]
  | ordinary single _ ih =>
      obtain ⟨notClosing, notOpening, notQuote, notBackslash⟩ := isOrdinary_iff.mp single
      rw [List.cons_append, readArgument.eq_def]
      simp only [if_neg notClosing, if_neg notOpening, if_neg notQuote, if_neg notBackslash, ih,
        Except.map]

theorem balanced_of_readArgument (plain : Plain chars)
    (read : readArgument depth chars = .ok (argument, rest)) :
    Balanced depth argument ∧ chars = argument ++ ')' :: rest := by
  fun_induction readArgument depth chars generalizing argument rest with
  | case1 => cases read
  | case2 chars =>
      cases read
      exact ⟨.nil, rfl⟩
  | case3 chars outer ih =>
      obtain ⟨tail, tailRead, equal⟩ := map_eq_ok read
      cases equal
      obtain ⟨balanced, split⟩ := ih (plain_cons.mp plain).2 tailRead
      exact ⟨.closing balanced, congrArg (')' :: ·) split⟩
  | case4 depth chars _ ih =>
      obtain ⟨tail, tailRead, equal⟩ := map_eq_ok read
      cases equal
      obtain ⟨balanced, split⟩ := ih (plain_cons.mp plain).2 tailRead
      exact ⟨.opening balanced, congrArg ('(' :: ·) split⟩
  | case5 depth c chars =>
      rename_i notClosing notOpening quotes string closed ih
      obtain ⟨tail, tailRead, equal⟩ := map_eq_ok read
      cases equal
      have others := (plain_cons.mp plain).2
      obtain ⟨balanced, behindSplit⟩ :=
        ih (others.suffix (readQuoted_suffix .selector c chars)) tailRead
      obtain ⟨⟨body, ending, behind⟩, found⟩ :
          ∃ found, readQuoted .selector c chars = found := ⟨_, rfl⟩
      simp only [string, found] at closed behindSplit ⊢
      subst closed
      obtain ⟨split, unquoted, -⟩ := quoted_of_readQuoted others found
      have inside : Plain body := others.sublist (sublist_of_readQuoted others found)
      have whole : chars = body ++ c :: (tail.1 ++ ')' :: tail.2) := by
        rw [← behindSplit]
        exact split
      refine ⟨?_, ?_⟩
      · simpa using Balanced.quoted quotes inside unquoted balanced
      · simp [whole]
  | case6 => cases read
  | case7 => cases read
  | case8 => exact absurd List.mem_cons_self plain
  | case9 depth c chars notClosing notOpening notQuote notBackslash ih =>
      obtain ⟨tail, tailRead, equal⟩ := map_eq_ok read
      cases equal
      obtain ⟨balanced, split⟩ := ih (plain_cons.mp plain).2 tailRead
      have single := isOrdinary_iff.mpr ⟨notClosing, notOpening, notQuote, notBackslash⟩
      exact ⟨.ordinary single balanced, congrArg (c :: ·) split⟩

/-- An argument is read alike whatever stands behind its parenthesis. -/
theorem readArgument_append (plain : Plain chars)
    (read : readArgument depth chars = .ok (argument, rest)) :
    readArgument depth (chars ++ more) = .ok (argument, rest ++ more) := by
  obtain ⟨balanced, split⟩ := balanced_of_readArgument plain read
  rw [split, List.append_assoc, List.cons_append]
  exact readArgument_of_balanced balanced

/-! ## Trimmed arguments -/

theorem Balanced.of_blank_cons (balanced : Balanced depth (c :: rest)) (blank : isBlank c = true) :
    Balanced depth rest := by
  cases balanced with
  | closing behind => cases blank
  | opening behind => cases blank
  | quoted quotes => rcases quotes with rfl | rfl <;> cases blank
  | ordinary single behind => exact behind

theorem Balanced.of_concat_blank {whole : List Char} (balanced : Balanced depth whole)
    (blank : isBlank c = true) (split : whole = chars ++ [c]) : Balanced depth chars := by
  induction balanced generalizing chars with
  | nil => simp at split
  | closing behind ih =>
      cases chars with
      | nil =>
          cases split
          cases blank
      | cons first chars =>
          cases split
          exact .closing (ih rfl)
  | opening behind ih =>
      cases chars with
      | nil =>
          cases split
          cases blank
      | cons first chars =>
          cases split
          exact .opening (ih rfl)
  | @quoted depth rest body quote quotes plain unquoted behind ih =>
      obtain rfl | ⟨init, last, rfl⟩ := List.eq_nil_or_concat' rest
      · have same : quote = c := by
          have ends := congrArg List.getLast? split
          rw [List.getLast?_concat, ← List.cons_append, List.getLast?_concat] at ends
          exact Option.some.inj ends
        subst same
        rcases quotes with rfl | rfl <;> cases blank
      · have parts : (quote :: (body ++ quote :: init)) ++ [last] = chars ++ [c] := by
          rw [← split]
          simp
        obtain ⟨rfl, single⟩ := List.append_inj' parts rfl
        cases single
        exact .quoted quotes plain unquoted (ih rfl)
  | ordinary single behind ih =>
      cases chars with
      | nil =>
          cases split
          exact behind
      | cons first chars =>
          cases split
          exact .ordinary single (ih rfl)

theorem Balanced.dropWhile (balanced : Balanced depth chars) :
    Balanced depth (chars.dropWhile isBlank) := by
  induction chars with
  | nil => exact balanced
  | cons c chars ih =>
      rw [List.dropWhile_cons]
      split
      · next blank => exact ih (balanced.of_blank_cons blank)
      · exact balanced

theorem Balanced.dropTrailing (balanced : Balanced depth chars) :
    Balanced depth (dropTrailing isBlank chars) := by
  induction chars using List.reverseRecOn with
  | nil => exact balanced
  | append_singleton chars c ih =>
      cases blank : isBlank c with
      | true =>
          rw [dropTrailing_concat_of_blank blank]
          exact ih (balanced.of_concat_blank blank rfl)
      | false =>
          rw [dropTrailing_concat_of_not_blank blank]
          exact balanced

theorem Balanced.trim (balanced : Balanced depth chars) : Balanced depth (trimChars chars) :=
  balanced.dropWhile.dropTrailing

end SelectorTree.PseudoClass
