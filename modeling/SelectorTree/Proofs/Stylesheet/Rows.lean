import SelectorTree.Proofs.Stylesheet.Conservation

/-!
# Rows of values and what is seen ahead of them

A row of values goes on where a shorter one inside it ended, if nothing in the shorter one stops
it.  The brackets in a row are closed where it ends, so whether the lookahead finds a block depends
on the values of the row alone and not on what stands behind them.
-/

namespace SelectorTree

variable {stops goes : Token → Bool} {first token : Token} {tokens used rest : List Token}
  {values : List ComponentValue} {depth : Nat}

namespace ComponentValue

/-! ## Rows -/

theorem row_of_stop (stop : stops first = true) : row stops (first :: rest) = [] := by
  rw [row, readRow_of_stop stop]

theorem afterRow_of_stop (stop : stops first = true) :
    afterRow stops (first :: rest) = first :: rest := by
  rw [afterRow, readRow_of_stop stop]

theorem row_of_single (goes : stops first = false) (single : Enclosure.ofToken? first = none) :
    row stops (first :: rest) = .token first :: row stops rest := by
  rw [row, readRow_of_single goes single]
  rfl

theorem afterRow_of_single (goes : stops first = false)
    (single : Enclosure.ofToken? first = none) :
    afterRow stops (first :: rest) = afterRow stops rest := by
  rw [afterRow, readRow_of_single goes single]
  rfl

theorem row_of_opening {enclosure : Enclosure} (goes : stops first = false)
    (opens : Enclosure.ofToken? first = some enclosure) :
    row stops (first :: rest) = .enclosed enclosure (row (· == enclosure.closing) rest) ::
      row stops (afterRow (· == enclosure.closing) rest).tail := by
  rw [row, readRow_of_opening goes opens]

theorem afterRow_of_opening {enclosure : Enclosure} (goes : stops first = false)
    (opens : Enclosure.ofToken? first = some enclosure) :
    afterRow stops (first :: rest) =
      afterRow stops (afterRow (· == enclosure.closing) rest).tail := by
  rw [afterRow, readRow_of_opening goes opens]

theorem row_nil (stops : Token → Bool) : row stops [] = [] := by
  rw [row, readRow]

theorem afterRow_nil (stops : Token → Bool) : afterRow stops [] = [] := by
  rw [afterRow, readRow]

theorem stops_of_afterRow (stops : Token → Bool) (tokens : List Token) :
    ∀ next ∈ (afterRow stops tokens).head?, stops next = true := by
  obtain ⟨-, -, -, last⟩ := turns_row stops tokens
  exact last

/-- The token that a value begins with. -/
def firstToken : ComponentValue → Token
  | .token single => single
  | .enclosed enclosure _ => enclosure.opening

theorem eq_token_of_first {value : ComponentValue} (starts : value.firstToken = token)
    (single : Enclosure.ofToken? token = none) : value = .token token := by
  subst starts
  cases value with
  | token single => rfl
  | enclosed enclosure contents =>
      rw [firstToken, Enclosure.ofToken?_eq_some_iff.mpr rfl] at single
      cases single

/-- A row begins with the value that its first token begins. -/
theorem exists_row_cons (goes : stops first = false) (rest : List Token) :
    ∃ value values, row stops (first :: rest) = value :: values ∧ value.firstToken = first := by
  cases opens : Enclosure.ofToken? first with
  | none => exact ⟨_, _, row_of_single goes opens, rfl⟩
  | some enclosure =>
      exact ⟨_, _, row_of_opening goes opens, (Enclosure.ofToken?_eq_some_iff.mp opens).symm⟩

theorem eq_of_isWhitespace {value : ComponentValue} (blank : value.isWhitespace = true) :
    value = .token .whitespace := by
  unfold isWhitespace at blank
  split at blank
  · rfl
  · cases blank

/-- Blanks before a row are blanks in front of its values. -/
theorem row_skipWhitespace (visible : stops .whitespace = false) (tokens : List Token) :
    row stops (Declaration.skipWhitespace tokens) = (row stops tokens).dropWhile isWhitespace ∧
      afterRow stops (Declaration.skipWhitespace tokens) = afterRow stops tokens := by
  induction tokens with
  | nil => exact ⟨by simp [Declaration.skipWhitespace, row_nil], rfl⟩
  | cons first rest ih =>
      by_cases blank : first = .whitespace
      · subst blank
        rw [row_of_single visible rfl, afterRow_of_single visible rfl]
        exact ih
      have kept : Declaration.skipWhitespace (first :: rest) = first :: rest :=
        List.dropWhile_cons_of_neg (by simpa [Token.isWhitespace] using blank)
      rw [kept]
      refine ⟨?_, rfl⟩
      cases stop : stops first with
      | true => rw [row_of_stop stop, List.dropWhile_nil]
      | false =>
          obtain ⟨value, values, begins, starts⟩ := exists_row_cons stop rest
          rw [begins, List.dropWhile_cons_of_neg]
          intro whitespace
          rw [eq_of_isWhitespace whitespace] at starts
          exact blank starts.symm

/-- A row goes on where another one ended that held nothing to stop it. -/
theorem afterRow_afterRow (opening : ∀ enclosure : Enclosure, goes enclosure.opening = false)
    (tokens : List Token)
    (inside : ∀ token, .token token ∈ row stops tokens → goes token = false) :
    afterRow goes tokens = afterRow goes (afterRow stops tokens) := by
  match tokens with
  | [] => rw [afterRow_nil stops]
  | first :: rest =>
      cases stop : stops first with
      | true => rw [afterRow_of_stop stop]
      | false =>
          cases opens : Enclosure.ofToken? first with
          | none =>
              rw [row_of_single stop opens] at inside
              have here := inside first List.mem_cons_self
              rw [afterRow_of_single stop opens, afterRow_of_single here opens]
              exact afterRow_afterRow opening rest
                fun token member => inside token (List.mem_cons_of_mem _ member)
          | some enclosure =>
              have here : goes first = false := by
                rw [Enclosure.ofToken?_eq_some_iff.mp opens]
                exact opening enclosure
              have shorter := afterRow_length_le (· == enclosure.closing) rest
              rw [row_of_opening stop opens] at inside
              rw [afterRow_of_opening stop opens, afterRow_of_opening here opens]
              exact afterRow_afterRow opening _
                fun token member => inside token (List.mem_cons_of_mem _ member)
termination_by tokens.length
decreasing_by
  · exact Nat.lt_succ_self _
  · exact Nat.lt_succ_of_le (Nat.le_trans (List.tail_suffix _).length_le shorter)

end ComponentValue

/-! ## Depths -/

namespace Rule

open ComponentValue (Written tokensOfAll)

theorem depthAfter_le (single : Enclosure.ofToken? token = none) (depth : Nat) :
    depthAfter depth token ≤ depth := by
  unfold depthAfter
  split <;> first | exact Nat.sub_le _ _ | exact Nat.le_refl _ | cases single

/-- A bracket closes at most what it opened. -/
theorem depthAfter_closing_le {inside : Nat} (enclosure : Enclosure)
    (within : inside ≤ depthAfter depth enclosure.opening) :
    depthAfter inside enclosure.closing ≤ depth := by
  cases enclosure with
  | function name => exact Nat.sub_le_of_le_add within
  | block bracket =>
      cases bracket with
      | brace => exact within
      | square => exact Nat.sub_le_of_le_add within
      | paren => exact Nat.sub_le_of_le_add within

mutual

/-- Values that do not reach the end of the input leave no bracket open. -/
theorem foldl_depthAfter_le {value : ComponentValue} {used rest : List Token} :
    Written value used rest → rest ≠ [] → ∀ depth, used.foldl depthAfter depth ≤ depth
  | .token single, _, depth => depthAfter_le single depth
  | @Written.closed enclosure _ inner _ inside, _, depth => by
      have within := foldl_depthAfter_le_of_turns inside (by simp)
        (depthAfter depth enclosure.opening)
      rw [List.cons_append, List.foldl_cons, List.foldl_append]
      exact depthAfter_closing_le enclosure within
  | .unclosed _, more, _ => absurd rfl more

theorem foldl_depthAfter_le_of_turns {values : List ComponentValue} {used rest : List Token} :
    Turns Written values used rest → rest ≠ [] → ∀ depth, used.foldl depthAfter depth ≤ depth
  | .done, _, depth => Nat.le_refl depth
  | .turn _ first later, more, depth => by
      have here := foldl_depthAfter_le first (by simp [more]) depth
      have there := foldl_depthAfter_le_of_turns later more
      rw [List.foldl_append]
      exact Nat.le_trans (there _) here

end

/-! ## The lookahead -/

theorem opensBlock_append_of_opens (opens : opensBlock depth used = true) (rest : List Token) :
    opensBlock depth (used ++ rest) = true := by
  induction used generalizing depth with
  | nil => cases opens
  | cons token used ih =>
      rw [List.cons_append]
      rw [opensBlock] at opens ⊢
      split
      · rfl
      next noBrace =>
      rw [if_neg noBrace] at opens
      split
      · next ends =>
          rw [if_pos ends] at opens
          cases opens
      · next noEnd =>
          rw [if_neg noEnd] at opens
          exact ih opens

/-- The lookahead finds no block in what holds none, whether it stops there or goes on. -/
theorem not_opensBlock_append (none : opensBlock depth used = false)
    (later : opensBlock (used.foldl depthAfter depth) rest = false) :
    opensBlock depth (used ++ rest) = false := by
  induction used generalizing depth with
  | nil => exact later
  | cons token used ih =>
      rw [List.cons_append]
      rw [opensBlock] at none ⊢
      split
      · next brace =>
          rw [if_pos brace] at none
          cases none
      next noBrace =>
      rw [if_neg noBrace] at none
      split
      · rfl
      · next noEnd =>
          rw [if_neg noEnd] at none
          exact ih none later

theorem opensBlock_append_eq (later : opensBlock (used.foldl depthAfter depth) rest = false) :
    opensBlock depth (used ++ rest) = opensBlock depth used := by
  cases here : opensBlock depth used with
  | true => exact opensBlock_append_of_opens here rest
  | false => exact not_opensBlock_append here later

theorem not_opensBlock_of_noBrace (noBrace : .leftBrace ∉ tokens) :
    opensBlock depth tokens = false :=
  Bool.eq_false_iff.mpr fun opens => noBrace (leftBrace_mem_of_opensBlock opens)

theorem ne_leftBrace_of_closing (enclosure : Enclosure) : enclosure.closing ≠ .leftBrace := by
  cases enclosure with
  | function name => simp [Enclosure.closing]
  | block bracket => cases bracket <;> simp [Enclosure.closing, Bracket.closing]

/-- What ends a declaration ends the lookahead, too. -/
theorem not_opensBlock_of_ends (ends : ∀ next ∈ tokens.head?, Declaration.ends next = true) :
    opensBlock 0 tokens = false := by
  cases tokens with
  | nil => rfl
  | cons first rest =>
      have here := ends first rfl
      rw [opensBlock, if_neg, if_pos ⟨rfl, here⟩]
      rintro ⟨-, rfl⟩
      cases here

/-- Whether the lookahead finds a block in front of the end of a declaration is decided by the
values that stand there. -/
theorem opensBlock_row (tokens : List Token) :
    opensBlock 0 tokens =
      opensBlock 0 (tokensOfAll (ComponentValue.row Declaration.ends tokens)) := by
  obtain ⟨used, split, turns, ends⟩ := ComponentValue.turns_row Declaration.ends tokens
  obtain ⟨missing, closing, written, last⟩ := ComponentValue.writesBack_of_turns turns
  have noBrace : .leftBrace ∉ missing := by
    intro member
    obtain ⟨enclosure, same⟩ := closing _ member
    exact ne_leftBrace_of_closing enclosure same.symm
  have here : opensBlock 0 tokens = opensBlock 0 used := by
    rw [split]
    cases behind : ComponentValue.afterRow Declaration.ends tokens with
    | nil => rw [List.append_nil]
    | cons next rest =>
        rw [behind] at turns ends
        have closed := foldl_depthAfter_le_of_turns turns (by simp) 0
        refine opensBlock_append_eq ?_
        rw [Nat.le_zero.mp closed]
        exact not_opensBlock_of_ends ends
  rw [here, written, opensBlock_append_eq (not_opensBlock_of_noBrace noBrace)]

end Rule

end SelectorTree
