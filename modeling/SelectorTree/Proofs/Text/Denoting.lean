import SelectorTree.Text.Name

/-!
# What a name was read from

A reader takes more spellings of a name than the writer makes: an escape may have up to six
digits, leading zeros included, and need not be closed by a blank.  Whatever stands behind a
name, the reader takes a text off the input that denotes the name character by character.
-/

namespace SelectorTree.Text

variable {blank : Char → Bool} {c next : Char} {rest : List Char}

/-- What a character of a name may be read from: itself, the character behind a backslash, or a
backslash and up to six hexadecimal digits for its code, with a blank that belongs to them. -/
inductive Denotes (blank : Char → Bool) (c : Char) : List Char → Prop where
  | plain (named : isNameChar c = true) : Denotes blank c [c]
  | escaped (notHex : isHexDigit c = false) (inLine : c ≠ '\n') : Denotes blank c ['\\', c]
  | coded {digits gap : List Char} (some : digits ≠ []) (few : digits.length ≤ 6)
      (hex : ∀ digit ∈ digits, isHexDigit digit = true) (code : c = charOfCode (hexValue digits))
      (closed : gap = [] ∨ ∃ space, blank space = true ∧ gap = [space]) :
      Denotes blank c ('\\' :: (digits ++ gap))

/-- What a name may be read from. -/
inductive DenotesName (blank : Char → Bool) : List Char → List Char → Prop where
  | nil : DenotesName blank [] []
  | cons {c : Char} {name part text : List Char} (first : Denotes blank c part)
      (others : DenotesName blank name text) : DenotesName blank (c :: name) (part ++ text)

theorem startsEscape_iff {chars : List Char} : startsEscape chars = true ↔
    ∃ next rest, chars = '\\' :: next :: rest ∧ next ≠ '\n' := by
  unfold startsEscape
  split
  · simp
  · next other =>
      refine ⟨fun impossible => absurd impossible Bool.false_ne_true, ?_⟩
      rintro ⟨next, rest, rfl, -⟩
      exact absurd rfl (other next rest)

theorem length_splitHex_le (limit : Nat) (chars : List Char) :
    (splitHex limit chars).1.length ≤ limit := by
  fun_induction splitHex limit chars with
  | case1 => exact Nat.le_refl 0
  | case2 => exact Nat.zero_le _
  | case3 limit c rest _ _ ih => exact Nat.succ_le_succ ih
  | case4 => exact Nat.zero_le _

theorem isHexDigit_of_mem_splitHex {digit : Char} {limit : Nat} {chars : List Char}
    (member : digit ∈ (splitHex limit chars).1) : isHexDigit digit = true := by
  fun_induction splitHex limit chars with
  | case1 => cases member
  | case2 => cases member
  | case3 limit c rest hex _ ih =>
      rcases List.mem_cons.mp member with rfl | later
      · exact hex
      · exact ih later
  | case4 => cases member

theorem exists_gap_dropOne (blank : Char → Bool) (chars : List Char) :
    ∃ gap, chars = gap ++ dropOne blank chars ∧
      (gap = [] ∨ ∃ space, blank space = true ∧ gap = [space]) := by
  cases chars with
  | nil => exact ⟨[], rfl, Or.inl rfl⟩
  | cons c rest =>
      rw [dropOne]
      split
      · next closes => exact ⟨[c], rfl, Or.inr ⟨c, closes, rfl⟩⟩
      · exact ⟨[], rfl, Or.inl rfl⟩

theorem denotes_readEscape (blank : Char → Bool) (inLine : next ≠ '\n') (rest : List Char) :
    ∃ part, next :: rest = part ++ (readEscape blank (next :: rest)).2 ∧
      Denotes blank (readEscape blank (next :: rest)).1 ('\\' :: part) := by
  rw [readEscape]
  split
  · next hex =>
      obtain ⟨gap, behind, closed⟩ := exists_gap_dropOne blank (splitHex 5 rest).2
      refine ⟨(next :: (splitHex 5 rest).1) ++ gap, ?_, ?_⟩
      · rw [List.append_assoc, List.cons_append, ← behind, splitHex_append]
      · refine .coded (List.cons_ne_nil _ _) (Nat.succ_le_succ (length_splitHex_le 5 rest)) ?_ rfl
          closed
        exact List.forall_mem_cons.mpr ⟨hex, fun _ => isHexDigit_of_mem_splitHex⟩
  · next notHex => exact ⟨[next], rfl, .escaped (Bool.eq_false_iff.mpr notHex) inLine⟩

/-- A name is read from a text that denotes it, and the rest of the input is what is left. -/
theorem denotesName_readName (blank : Char → Bool) (chars : List Char) :
    ∃ text, chars = text ++ (readName blank chars).2 ∧
      DenotesName blank (readName blank chars).1 text := by
  fun_induction readName blank chars with
  | case1 => exact ⟨[], rfl, .nil⟩
  | case2 c rest named tail ih =>
      obtain ⟨text, whole, denotes⟩ := ih
      refine ⟨[c] ++ text, ?_, .cons (.plain named) denotes⟩
      rw [List.append_assoc, ← whole]
      rfl
  | case3 c rest _ escapes escape tail ih =>
      obtain ⟨next, behind, split, inLine⟩ := startsEscape_iff.mp escapes
      cases split
      obtain ⟨part, front, first⟩ := denotes_readEscape blank inLine behind
      obtain ⟨text, whole, denotes⟩ := ih
      refine ⟨('\\' :: part) ++ text, ?_, .cons first denotes⟩
      rw [List.append_assoc, List.cons_append, ← whole, ← front]
  | case4 => exact ⟨[], rfl, .nil⟩

end SelectorTree.Text
