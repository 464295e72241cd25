import SelectorTree.Sanitizer
import SelectorTree.Proofs.Text.Trimming
import SelectorTree.Url.Path

/-!
# Addresses that run scripts

Whoever follows an address takes no notice of the control characters and spaces in
front of it and of the breaks within it.  The sanitizer looks for the schemes that
run scripts behind the white space in front instead.  So it finds such a scheme
unless a control character that is no white space stands before it.
-/

namespace SelectorTree.Sanitizer

open Text

variable {chars : List Char} {address : String}

/-- Whether characters begin with a scheme that runs scripts, in any case of its
letters. -/
def BeginsWithScript (chars : List Char) : Prop :=
  ∃ scheme ∈ scriptSchemes, scheme.toList <+: chars.map Char.toLower

instance (chars : List Char) : Decidable (BeginsWithScript chars) :=
  inferInstanceAs (Decidable (∃ _ ∈ _, _))

/-- The control characters and the space, which do not belong to an address when they
stand in front of it. -/
def isFrontal (c : Char) : Bool := c.toNat ≤ 0x20

/-- Whether an address names a scheme that runs scripts, once it is read as the
standard for addresses has it. -/
def RunsScript (address : String) : Prop :=
  BeginsWithScript (Url.withoutBreaks (address.toList.dropWhile isFrontal))

instance (address : String) : Decidable (RunsScript address) :=
  inferInstanceAs (Decidable (BeginsWithScript _))

/-! ## What the sanitizer reads -/

/-- Nothing is lost by looking at a few characters only: they hold either scheme. -/
theorem hasScriptScheme_iff :
    hasScriptScheme address = true ↔
      BeginsWithScript (Url.withoutBreaks (address.toList.dropWhile isBlank)) := by
  have short : ∀ scheme ∈ scriptSchemes, scheme.toList.length ≤ 16 := by decide
  have same : schemeText address.toList =
      ((Url.withoutBreaks (address.toList.dropWhile isBlank)).map Char.toLower).take 16 := by
    rw [schemeText, List.map_take]
    rfl
  rw [hasScriptScheme, List.any_eq_true, BeginsWithScript, same]
  refine exists_congr fun scheme => and_congr_right fun listed => ?_
  rw [List.isPrefixOf_iff_prefix, List.prefix_take_iff]
  exact and_iff_left (short scheme listed)

/-! ## What stands before a scheme -/

theorem isAlpha_head_of_mem_scriptSchemes :
    ∀ scheme ∈ scriptSchemes, scheme.toList.head?.any Char.isAlpha = true := by
  decide

/-- Either scheme begins with a letter. -/
theorem BeginsWithScript.exists_letter (begins : BeginsWithScript chars) :
    ∃ c rest, chars = c :: rest ∧ c.isAlpha = true := by
  obtain ⟨scheme, listed, front⟩ := begins
  have letter := isAlpha_head_of_mem_scriptSchemes scheme listed
  cases text : scheme.toList with
  | nil =>
      rw [text] at letter
      cases letter
  | cons first others =>
      rw [text] at letter front
      cases chars with
      | nil => simp at front
      | cons c rest =>
          have same : first = c.toLower := (List.cons_prefix_cons.mp front).1
          refine ⟨c, rest, rfl, ?_⟩
          rw [← isAlpha_toLower, ← same]
          exact letter

theorem not_isFrontal_of_isAlpha {c : Char} (letter : c.isAlpha = true) :
    isFrontal c = false := by
  rw [isAlpha_iff] at letter
  rw [isFrontal, decide_eq_false_iff_not]
  omega

theorem isBlank_of_isBreak {c : Char} (breaking : Url.isBreak c = true) : isBlank c = true := by
  simp only [Url.isBreak, Bool.or_eq_true, beq_iff_eq] at breaking
  rcases breaking with (rfl | rfl) | rfl <;> decide

theorem isFrontal_of_isBreak {c : Char} (breaking : Url.isBreak c = true) :
    isFrontal c = true := by
  simp only [Url.isBreak, Bool.or_eq_true, beq_iff_eq] at breaking
  rcases breaking with (rfl | rfl) | rfl <;> decide

/-- What is left in front of a scheme shows, once breaks are dropped, if breaks are among
what has been taken off. -/
theorem BeginsWithScript.exists_head {taken : Char → Bool}
    (breaks : ∀ c, Url.isBreak c = true → taken c = true)
    (begins : BeginsWithScript (Url.withoutBreaks (chars.dropWhile taken))) :
    ∃ c rest, chars.dropWhile taken = c :: rest ∧ c.isAlpha = true := by
  cases left : chars.dropWhile taken with
  | nil =>
      rw [left] at begins
      obtain ⟨c, rest, filled, -⟩ := begins.exists_letter
      cases filled
  | cons c rest =>
      have visible : taken c = false := by
        have head := List.head?_dropWhile_not taken chars
        simpa [left] using head
      have kept : Url.isBreak c = false := by
        rw [← Bool.not_eq_true] at visible ⊢
        exact fun isBreak => visible (breaks c isBreak)
      rw [left, Url.withoutBreaks, List.filter_cons_of_pos (by simp [kept])] at begins
      obtain ⟨first, others, split, letter⟩ := begins.exists_letter
      cases split
      exact ⟨c, rest, rfl, letter⟩

/-- A scheme that runs scripts is found if and only if all that stands in front of it is
white space. -/
theorem RunsScript.hasScriptScheme_iff_blank (runs : RunsScript address) :
    hasScriptScheme address = true ↔
      ∀ c ∈ address.toList.takeWhile isFrontal, isBlank c = true := by
  obtain ⟨letter, rest, behind, isLetter⟩ :=
    BeginsWithScript.exists_head (fun _ => isFrontal_of_isBreak) runs
  have split : address.toList = address.toList.takeWhile isFrontal ++ letter :: rest := by
    rw [← behind, List.takeWhile_append_dropWhile]
  have visible : isBlank letter = false := not_isBlank_of_isAlpha isLetter
  rw [hasScriptScheme_iff]
  constructor
  · intro begins
    obtain ⟨first, others, left, firstLetter⟩ :=
      BeginsWithScript.exists_head (fun _ => isBlank_of_isBreak) begins
    rw [← List.dropWhile_eq_nil_iff]
    rw [split, List.dropWhile_append] at left
    cases front : (address.toList.takeWhile isFrontal).dropWhile isBlank with
    | nil => rfl
    | cons stray more =>
        rw [front] at left
        cases left
        have inFront : first ∈ address.toList.takeWhile isFrontal :=
          (List.dropWhile_sublist isBlank).subset (by simp [front])
        have frontal := List.mem_takeWhile_imp inFront
        rw [not_isFrontal_of_isAlpha firstLetter] at frontal
        cases frontal
  · intro blanks
    have found : address.toList.dropWhile isBlank = letter :: rest := by
      rw [split, List.dropWhile_append_of_pos blanks, List.dropWhile_cons, visible]
      rfl
    rw [found, ← behind]
    exact runs

/-- The sanitizer takes an address for one that runs scripts if and only if a scheme that
does stands behind the white space in front, breaks aside; and of the addresses that do run
scripts it misses those with a control character in front that is no white space. -/
theorem hasScriptScheme_iff_blank_front (address : String) :
    (hasScriptScheme address = true ↔
        BeginsWithScript (Url.withoutBreaks (address.toList.dropWhile isBlank))) ∧
      (RunsScript address →
        (hasScriptScheme address = true ↔
          ∀ c ∈ address.toList.takeWhile isFrontal, isBlank c = true)) :=
  ⟨hasScriptScheme_iff, RunsScript.hasScriptScheme_iff_blank⟩

/-- White space in front and breaks within do not hide a scheme. -/
theorem hasScriptScheme_spaced :
    RunsScript " \u000cJava\tScript\n:alert(1)" ∧
      hasScriptScheme " \u000cJava\tScript\n:alert(1)" = true := by
  have runs : RunsScript " \u000cJava\tScript\n:alert(1)" := by decide
  refine ⟨runs, ?_⟩
  rw [(hasScriptScheme_iff_blank_front _).2 runs, ← List.all_eq_true]
  decide

/-- A control character in front hides the scheme from the sanitizer, although it does not
belong to the address. -/
theorem not_hasScriptScheme_control :
    RunsScript "\u0001javascript:alert(1)" ∧
      hasScriptScheme "\u0001javascript:alert(1)" = false := by
  decide

end SelectorTree.Sanitizer
