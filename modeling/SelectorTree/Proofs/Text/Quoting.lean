import SelectorTree.Proofs.Text.Spelling
import SelectorTree.Text.Quoted

/-!
# Strings are read back as they were written

The writer escapes the quote, the backslash and the control characters of a string.
Both readers of strings undo that, up to the closing quote.
-/

namespace SelectorTree.Text

variable {c next : Char} {text rest : List Char} {style : QuoteStyle} {quote : Char}

theorem readQuoted_escape (notBackslash : '\\' ≠ quote) (inLine : next ≠ '\n') :
    readQuoted style quote ('\\' :: next :: rest) =
      ((readEscape style.blank (next :: rest)).1 ::
          (readQuoted style quote (readEscape style.blank (next :: rest)).2).1,
        (readQuoted style quote (readEscape style.blank (next :: rest)).2).2) := by
  rw [readQuoted]
  · simp [notBackslash]
  · exact inLine

theorem readQuoted_cons (notQuote : c ≠ quote) (notBackslash : c ≠ '\\') (inLine : c ≠ '\n') :
    readQuoted style quote (c :: rest) =
      (c :: (readQuoted style quote rest).1, (readQuoted style quote rest).2) := by
  rw [readQuoted.eq_def]
  simp only [if_neg notQuote, inLine, false_and, if_false, if_neg notBackslash]

theorem readQuoted_quote : readQuoted style quote (quote :: rest) = ([], .closed, rest) := by
  rw [readQuoted.eq_def]
  simp only [if_true]

/-- A written character is read as itself. -/
theorem readQuoted_writeQuotedChar (swallows : style.blank ' ' = true) (notNul : c.toNat ≠ 0) :
    readQuoted style '"' (writeQuotedChar c ++ rest) =
      (c :: (readQuoted style '"' rest).1, (readQuoted style '"' rest).2) := by
  rw [writeQuotedChar, if_neg notNul]
  split
  · next control =>
      obtain ⟨small, notNul⟩ := code_of_special (Or.inl control)
      have escape :=
        readEscape_shortHex style.blank small notNul (not_isHexDigit_head_space rest)
      obtain ⟨digit, others, written, -, inLine⟩ := exists_shortHex_eq_cons small
      rw [written, List.cons_append, dropOne, if_pos swallows] at escape
      rw [hexEscape, written, List.append_assoc, List.cons_append, List.cons_append,
        List.singleton_append, readQuoted_escape (by decide) inLine, escape]
  · next ordinary =>
      split
      · next special =>
          have inLine := ne_lineFeed_of_not_isControl (Bool.eq_false_iff.mpr ordinary)
          have notHex : isHexDigit c = false := by
            rcases special with rfl | rfl <;> rfl
          rw [List.cons_append, List.singleton_append, readQuoted_escape (by decide) inLine,
            readEscape, if_neg (by simp [notHex])]
      · next plain =>
          rw [not_or] at plain
          exact readQuoted_cons plain.1 plain.2
            (ne_lineFeed_of_not_isControl (Bool.eq_false_iff.mpr ordinary))

theorem not_isControl_of_mem_writeQuotedChar (notNul : c.toNat ≠ 0) :
    ∀ other ∈ writeQuotedChar c, isControl other = false := by
  rw [writeQuotedChar, if_neg notNul]
  split
  · next control => exact not_isControl_of_mem_hexEscape (code_of_special (Or.inl control)).1
  · next ordinary =>
      have here := Bool.eq_false_iff.mpr ordinary
      split
      · rw [List.forall_mem_cons, List.forall_mem_singleton]
        exact ⟨rfl, here⟩
      · simpa using here

theorem readQuoted_writeQuoted (swallows : style.blank ' ' = true)
    (noNul : ∀ c ∈ text, c.toNat ≠ 0) :
    readQuoted style '"' (text.flatMap writeQuotedChar ++ '"' :: rest) = (text, .closed, rest) := by
  induction text with
  | nil => exact readQuoted_quote
  | cons first text ih =>
      obtain ⟨notNul, others⟩ := List.forall_mem_cons.mp noNul
      rw [List.flatMap_cons, List.append_assoc, readQuoted_writeQuotedChar swallows notNul,
        ih others]

theorem not_isControl_of_mem_writeQuoted (noNul : ∀ c ∈ text, c.toNat ≠ 0) :
    ∀ other ∈ writeQuoted text, isControl other = false := by
  intro other member
  rw [writeQuoted, List.cons_append, List.mem_cons, List.mem_append, List.mem_singleton,
    List.mem_flatMap] at member
  rcases member with rfl | ⟨c, inside, written⟩ | rfl
  · rfl
  · exact not_isControl_of_mem_writeQuotedChar (noNul c inside) other written
  · rfl

/-! ## What the writer leaves as it is -/

/-- A character that a string shows as itself. -/
def isShown (c : Char) : Bool := !(isControl c || c == '"' || c == '\\')

theorem writeQuotedChar_of_isShown (notNul : c.toNat ≠ 0) (shown : isShown c = true) :
    writeQuotedChar c = [c] := by
  simp only [isShown, Bool.not_eq_true', Bool.or_eq_false_iff, beq_eq_false_iff_ne] at shown
  obtain ⟨⟨ordinary, notQuote⟩, notBackslash⟩ := shown
  rw [writeQuotedChar, if_neg notNul, if_neg (Bool.eq_false_iff.mp ordinary),
    if_neg (not_or.mpr ⟨notQuote, notBackslash⟩)]

theorem length_writeQuotedChar (notNul : c.toNat ≠ 0) (hidden : isShown c = false) :
    2 ≤ (writeQuotedChar c).length := by
  rw [writeQuotedChar, if_neg notNul]
  split
  · simp [hexEscape]
  · next ordinary =>
      have special : c = '"' ∨ c = '\\' :=
        Decidable.or_iff_not_imp_left.mpr (by simpa [isShown, ordinary] using hidden)
      rw [if_pos special]
      exact Nat.le_refl 2

theorem length_le_writeQuoted (noNul : ∀ c ∈ text, c.toNat ≠ 0) :
    text.length ≤ (text.flatMap writeQuotedChar).length := by
  induction text with
  | nil => exact Nat.le_refl 0
  | cons first text ih =>
      obtain ⟨notNul, others⟩ := List.forall_mem_cons.mp noNul
      have tail := ih others
      rw [List.flatMap_cons, List.length_append, List.length_cons]
      cases shown : isShown first with
      | true =>
          rw [writeQuotedChar_of_isShown notNul shown, List.length_singleton]
          omega
      | false =>
          have escaped := length_writeQuotedChar notNul shown
          omega

/-- Between its quotes a text stands as it is if it needs no escape, and only then. -/
theorem flatMap_writeQuotedChar_eq_self_iff (noNul : ∀ c ∈ text, c.toNat ≠ 0) :
    text.flatMap writeQuotedChar = text ↔ ∀ c ∈ text, isShown c = true := by
  induction text with
  | nil => simp
  | cons first text ih =>
      obtain ⟨notNul, others⟩ := List.forall_mem_cons.mp noNul
      rw [List.flatMap_cons, List.forall_mem_cons, ← ih others]
      cases shown : isShown first with
      | true => simp [writeQuotedChar_of_isShown notNul shown]
      | false =>
          have escaped := length_writeQuotedChar notNul shown
          have tail := length_le_writeQuoted others
          refine iff_of_false (fun same => ?_) (fun both => Bool.false_ne_true both.1)
          have sameLength := congrArg List.length same
          rw [List.length_append, List.length_cons] at sameLength
          omega

end SelectorTree.Text
