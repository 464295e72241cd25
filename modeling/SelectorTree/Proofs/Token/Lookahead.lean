import SelectorTree.Proofs.Text.Plain
import SelectorTree.Proofs.Token.Numerals

/-!
# How far the lexer looks ahead

Where a token ends depends on three characters behind it at most, and of these on little more
than their kind.  Inputs that look alike that far are split in the same way: blanks count as
one, nothing behind a quote is looked at, and the case of letters is of no account.
-/

namespace SelectorTree.Token

open Text

variable {n : Nat} {c d : Char} {front left right : List Char}

theorem not_startsIdentifier_of_head (foreign : front.head?.any leads = false) :
    startsIdentifier front = false := by
  rw [← Bool.not_eq_true]
  intro starts
  cases front with
  | nil => cases starts
  | cons c front =>
      rw [List.head?_cons, Option.any_some, leads_of_startsIdentifier starts] at foreign
      cases foreign

/-! ## The case of letters -/

/-- What is asked of a character without regard to its case. -/
def IgnoresCase (test : Char → Bool) : Prop := ∀ c : Char, test c.toLower = test c

namespace IgnoresCase

variable {test other : Char → Bool}

theorem eq_of_sameLetter (ignores : IgnoresCase test) (same : c.toLower = d.toLower) :
    test c = test d := by
  rw [← ignores c, same, ignores d]

theorem or (ignores : IgnoresCase test) (others : IgnoresCase other) :
    IgnoresCase fun c => test c || other c := fun c =>
  congrArg₂ (· || ·) (ignores c) (others c)

end IgnoresCase

theorem ignoresCase_beq {fixed : Char} (noLetter : fixed.isAlpha = false) :
    IgnoresCase (· == fixed) := beq_toLower noLetter

theorem ignoresCase_isTokenBlank : IgnoresCase isTokenBlank :=
  ((ignoresCase_beq rfl).or (ignoresCase_beq rfl)).or (ignoresCase_beq rfl)

theorem ignoresCase_isQuote : IgnoresCase isQuote := (ignoresCase_beq rfl).or (ignoresCase_beq rfl)

theorem ignoresCase_isSign : IgnoresCase NumberParts.isSign :=
  (ignoresCase_beq rfl).or (ignoresCase_beq rfl)

theorem ignoresCase_isExponentLetter : IgnoresCase isExponentLetter := fun c => by
  rw [Bool.eq_iff_iff]
  simp only [isExponentLetter, Bool.or_eq_true, beq_iff_eq, ← Char.toNat_inj, toNat_toLower,
    Char.reduceToNat]
  split <;> omega

theorem not_startsExponent_of_head (foreign : front.head?.any isExponentLetter = false) :
    startsExponent front = false := by
  cases front with
  | nil => rfl
  | cons c front =>
      rw [List.head?_cons, Option.any_some] at foreign
      rw [startsExponent, foreign, Bool.false_and]

/-! ## Inputs that look alike -/

/-- Two inputs that look alike for a number of characters. -/
inductive Alike : Nat → List Char → List Char → Prop where
  | zero {left right : List Char} : Alike 0 left right
  | nil {n : Nat} : Alike n [] []
  | blank {n : Nat} {c d : Char} {left right : List Char} (here : isTokenBlank c = true)
      (there : isTokenBlank d = true)
      (behind : Alike n (left.dropWhile isTokenBlank) (right.dropWhile isTokenBlank)) :
      Alike (n + 1) (c :: left) (d :: right)
  | quote {n : Nat} {c d : Char} {left right : List Char} (here : isQuote c = true)
      (there : isQuote d = true) : Alike (n + 1) (c :: left) (d :: right)
  | letter {n : Nat} {c d : Char} {left right : List Char} (same : c.toLower = d.toLower)
      (behind : Alike n left right) : Alike (n + 1) (c :: left) (d :: right)

namespace Alike

theorem symm (alike : Alike n left right) : Alike n right left := by
  induction alike with
  | zero => exact .zero
  | nil => exact .nil
  | blank here there _ ih => exact .blank there here ih
  | quote here there => exact .quote there here
  | letter same _ ih => exact .letter same.symm ih

theorem mono {m : Nat} (alike : Alike n left right) (fewer : m ≤ n) : Alike m left right := by
  induction alike generalizing m with
  | zero => exact Nat.le_zero.mp fewer ▸ .zero
  | nil => exact .nil
  | blank here there _ ih =>
      cases m with
      | zero => exact .zero
      | succ m => exact .blank here there (ih (Nat.le_of_succ_le_succ fewer))
  | quote here there =>
      cases m with
      | zero => exact .zero
      | succ m => exact .quote here there
  | letter same _ ih =>
      cases m with
      | zero => exact .zero
      | succ m => exact .letter same (ih (Nat.le_of_succ_le_succ fewer))

theorem append (front : List Char) (alike : Alike n left right) :
    Alike n (front ++ left) (front ++ right) := by
  induction front with
  | nil => exact alike
  | cons c front ih =>
      cases n with
      | zero => exact .zero
      | succ n => exact .letter rfl (ih.mono (Nat.le_succ n))

/-- Behind a front that is long enough nothing is seen, and of the front not the case. -/
theorem of_sameLetters {front other : List Char}
    (same : front.map Char.toLower = other.map Char.toLower) (enough : n ≤ front.length)
    (left right : List Char) : Alike n (front ++ left) (other ++ right) := by
  induction front generalizing n other with
  | nil => exact Nat.le_zero.mp enough ▸ .zero
  | cons c front ih =>
      cases other with
      | nil => cases same
      | cons d other =>
          obtain ⟨here, behind⟩ := List.cons.inj same
          cases n with
          | zero => exact .zero
          | succ n => exact .letter here (ih behind (Nat.le_of_succ_le_succ enough))

/-! ## The next character -/

/-- A test that neither blanks nor quotes pass finds the same letter on both sides or fails on
both. -/
theorem head_cases {test : Char → Bool} (refused : ['\n', '\t', ' ', '\'', '"'].any test = false)
    (alike : Alike (n + 1) left right) :
    (left.head?.any test = false ∧ right.head?.any test = false) ∨
      ∃ c d inner other, left = c :: inner ∧ right = d :: other ∧ c.toLower = d.toLower ∧
        Alike n inner other := by
  rw [← Bool.not_eq_true, List.any_eq_true] at refused
  have refused : ∀ c ∈ ['\n', '\t', ' ', '\'', '"'], test c = false := fun c member =>
    Bool.eq_false_iff.mpr fun passes => refused ⟨c, member, passes⟩
  have blank : ∀ c, isTokenBlank c = true → test c = false := fun c blank =>
    refused c (by rcases eq_of_isTokenBlank blank with rfl | rfl | rfl <;> simp)
  have quote : ∀ c, isQuote c = true → test c = false := fun c quote =>
    refused c (by rcases eq_of_isQuote quote with rfl | rfl <;> simp)
  cases alike with
  | nil => exact Or.inl ⟨rfl, rfl⟩
  | blank here there => exact Or.inl ⟨blank _ here, blank _ there⟩
  | quote here there => exact Or.inl ⟨quote _ here, quote _ there⟩
  | letter same behind => exact Or.inr ⟨_, _, _, _, rfl, rfl, same, behind⟩

/-- What is asked of the next character has the same answer on both sides, if neither blanks nor
quotes pass and the case of letters does not matter. -/
theorem any_head {test : Char → Bool} (alike : Alike (n + 1) left right)
    (refused : ['\n', '\t', ' ', '\'', '"'].any test = false) (ignores : IgnoresCase test) :
    left.head?.any test = right.head?.any test := by
  rcases alike.head_cases refused with ⟨here, there⟩ | ⟨c, d, _, _, rfl, rfl, same, -⟩
  · rw [here, there]
  · exact ignores.eq_of_sameLetter same

/-- A character that looks like no other. -/
def isFixed (c : Char) : Bool := !(isTokenBlank c || isQuote c || c.isAlpha)

theorem of_cons {fixed : Char} (own : isFixed fixed = true)
    (alike : Alike (n + 1) (fixed :: left) right) :
    ∃ behind, right = fixed :: behind ∧ Alike n left behind := by
  simp only [isFixed, Bool.not_eq_true', Bool.or_eq_false_iff] at own
  obtain ⟨⟨visible, noQuote⟩, noLetter⟩ := own
  cases alike with
  | blank here =>
      rw [visible] at here
      cases here
  | quote here =>
      rw [noQuote] at here
      cases here
  | @letter _ _ d _ right same behind =>
      have equal := (ignoresCase_beq noLetter).eq_of_sameLetter same
      obtain rfl : d = fixed := by simpa using equal
      exact ⟨right, rfl, behind⟩

theorem head?_eq_iff {fixed : Char} (own : isFixed fixed = true)
    (alike : Alike (n + 1) left right) : left.head? = some fixed ↔ right.head? = some fixed := by
  constructor
  · intro head
    obtain ⟨behind, rfl⟩ := List.head?_eq_some_iff.mp head
    obtain ⟨_, rfl, -⟩ := alike.of_cons own
    rfl
  · intro head
    obtain ⟨behind, rfl⟩ := List.head?_eq_some_iff.mp head
    obtain ⟨_, rfl, -⟩ := alike.symm.of_cons own
    rfl

/-- A row of such characters is seen on both sides. -/
theorem isPrefixOf_eq (own : front.all isFixed = true) (near : front.length ≤ n)
    (alike : Alike n left right) : front.isPrefixOf left = front.isPrefixOf right := by
  suffices within : ∀ {left right : List Char}, Alike n left right → front <+: left →
      front <+: right by
    rw [Bool.eq_iff_iff, List.isPrefixOf_iff_prefix, List.isPrefixOf_iff_prefix]
    exact ⟨within alike, within alike.symm⟩
  clear alike
  induction front generalizing n with
  | nil => exact fun _ _ => List.nil_prefix
  | cons c front ih =>
      obtain ⟨here, others⟩ := Bool.and_eq_true_iff.mp own
      rintro left right alike ⟨behind, rfl⟩
      cases n with
      | zero => cases near
      | succ n =>
          obtain ⟨inner, rfl, further⟩ := alike.of_cons here
          exact List.cons_prefix_cons.mpr
            ⟨rfl, ih others (Nat.le_of_succ_le_succ near) further (List.prefix_append front behind)⟩

/-- Blanks are blank on both sides. -/
theorem isTokenBlank_head (alike : Alike (n + 1) left right)
    (visible : right.head?.any isTokenBlank = false) : left.head?.any isTokenBlank = false := by
  cases alike with
  | nil => rfl
  | blank here there =>
      rw [List.head?_cons, Option.any_some, there] at visible
      cases visible
  | quote here => rcases eq_of_isQuote here with rfl | rfl <;> rfl
  | letter same => exact (ignoresCase_isTokenBlank.eq_of_sameLetter same).trans visible

theorem any_isQuote (alike : Alike (n + 1) left right) :
    left.head?.any isQuote = right.head?.any isQuote := by
  cases alike with
  | nil => rfl
  | blank here there =>
      exact (not_isQuote_of_isTokenBlank here).trans (not_isQuote_of_isTokenBlank there).symm
  | quote here there => exact here.trans there.symm
  | letter same => exact ignoresCase_isQuote.eq_of_sameLetter same

/-! ## Names -/

theorem any_isNameChar (alike : Alike (n + 1) left right) :
    left.head?.any isNameChar = right.head?.any isNameChar :=
  alike.any_head rfl isNameChar_toLower

theorem not_startsEscape (alike : Alike (n + 1) left right) (plain : Plain right) :
    startsEscape left = false := by
  rw [← Bool.not_eq_true]
  intro escape
  cases left with
  | nil => cases escape
  | cons c left =>
      obtain rfl := eq_backslash_of_startsEscape escape
      obtain ⟨_, rfl, -⟩ := alike.of_cons rfl
      exact plain List.mem_cons_self

theorem stopsName (alike : Alike (n + 1) left right) (stops : StopsName right) :
    StopsName left := by
  have unnamed : right.head?.any isNameChar = false := by
    rw [← Bool.not_eq_true, Option.any_eq_true]
    rintro ⟨next, head, named⟩
    rw [(stops next head).1] at named
    cases named
  intro next head
  rw [Option.mem_def] at head
  constructor
  · rwa [← alike.any_isNameChar, head] at unnamed
  · rintro rfl
    exact (stops '\\' ((alike.head?_eq_iff rfl).mp head)).2 rfl

theorem startsName_eq (alike : Alike (n + 1) left right) (plain : Plain right) :
    startsName left = startsName right := by
  rw [startsName_of_plain plain, ← alike.any_isNameChar]
  have noEscape := alike.not_startsEscape plain
  cases left with
  | nil => rfl
  | cons c left => simp [startsName, noEscape]

theorem startsIdentifier_eq (alike : Alike (n + 2) left right) (plain : Plain right) :
    startsIdentifier left = startsIdentifier right := by
  have leading : ['\n', '\t', ' ', '\'', '"'].any leads = false := rfl
  rcases alike.head_cases leading with ⟨here, there⟩ | ⟨c, d, left, right, rfl, rfl, same, behind⟩
  · rw [not_startsIdentifier_of_head here, not_startsIdentifier_of_head there]
  · have plainBehind := (plain_cons.mp plain).2
    have hyphen : IgnoresCase (· == '-') := ignoresCase_beq rfl
    have second : left.head?.any (fun next => isNameStart next || next == '-') =
        right.head?.any (fun next => isNameStart next || next == '-') :=
      behind.any_head rfl (.or isNameStart_toLower hyphen)
    rw [startsIdentifier, startsIdentifier, second, hyphen.eq_of_sameLetter same,
      alike.not_startsEscape plain, plain.not_startsEscape, behind.not_startsEscape plainBehind,
      plainBehind.not_startsEscape, ← isNameStart_toLower c, ← isNameStart_toLower d, same]

/-! ## Numbers -/

theorem startsDigit_eq (alike : Alike (n + 1) left right) :
    NumberParts.startsDigit left = NumberParts.startsDigit right :=
  alike.any_head rfl isDigit_toLower

theorem any_isSign (alike : Alike (n + 1) left right) :
    left.head?.any NumberParts.isSign = right.head?.any NumberParts.isSign :=
  alike.any_head rfl ignoresCase_isSign

/-- A sign is the same sign on both sides, and what is behind it looks alike. -/
theorem splitSign_eq (alike : Alike (n + 1) left right) :
    (NumberParts.splitSign left).1 = (NumberParts.splitSign right).1 ∧
      Alike n (NumberParts.splitSign left).2 (NumberParts.splitSign right).2 := by
  have signed := alike.any_isSign
  cases sign : left.head?.any NumberParts.isSign with
  | false =>
      rw [splitSign_of_unsigned sign, splitSign_of_unsigned (signed ▸ sign)]
      exact ⟨rfl, alike.mono (Nat.le_succ n)⟩
  | true =>
      obtain ⟨c, head, isSign⟩ := (Option.any_eq_true _ _).mp sign
      obtain ⟨left, rfl⟩ := List.head?_eq_some_iff.mp head
      have own : isFixed c = true := by
        rcases eq_of_isSign isSign with rfl | rfl <;> rfl
      obtain ⟨right, rfl, behind⟩ := alike.of_cons own
      simp only [NumberParts.splitSign, isSign, if_true]
      exact ⟨trivial, behind⟩

theorem startsFraction_eq (alike : Alike (n + 2) left right) :
    startsFraction left = startsFraction right := by
  unfold startsFraction
  split
  · obtain ⟨_, rfl, behind⟩ := alike.of_cons rfl
    exact behind.startsDigit_eq
  · next noPoint =>
      split
      · obtain ⟨other, point, -⟩ := alike.symm.of_cons rfl
        exact absurd point (noPoint other)
      · rfl

theorem starts_eq (alike : Alike (n + 3) left right) :
    NumberParts.starts left = NumberParts.starts right := by
  have unsigned := alike.splitSign_eq.2
  rw [starts_eq_or, starts_eq_or, unsigned.startsFraction_eq, unsigned.startsDigit_eq]

theorem startsExponent_eq (alike : Alike (n + 3) left right) :
    startsExponent left = startsExponent right := by
  have exponent : ['\n', '\t', ' ', '\'', '"'].any isExponentLetter = false := rfl
  rcases alike.head_cases exponent with ⟨here, there⟩ | ⟨c, d, left, right, rfl, rfl, same, behind⟩
  · rw [not_startsExponent_of_head here, not_startsExponent_of_head there]
  · rw [startsExponent, startsExponent, ignoresCase_isExponentLetter.eq_of_sameLetter same,
      behind.splitSign_eq.2.startsDigit_eq]

end Alike

/-- A number is split off in the same way, whatever alike stands behind it. -/
theorem split_of_alike {chars next : List Char} (number : NumberParts.starts chars = true)
    (alike : Alike 3 next (NumberParts.split chars).2) :
    NumberParts.split ((NumberParts.split chars).1.spelling ++ next) =
      ((NumberParts.split chars).1, next) := by
  have ends := NumberParts.ends_split chars
  refine (NumberParts.isNumber_split number).split_spelling ⟨?_, ?_, ?_⟩
  · exact alike.startsDigit_eq.trans ends.noDigit
  · exact fun whole none => alike.startsFraction_eq.trans (ends.noPoint whole none)
  · exact fun none => alike.startsExponent_eq.trans (ends.noExponent none)

/-! ## Characters that are tokens of their own -/

theorem standsAlone_eq {left right : List Char} (alike : Alike 3 left right)
    (plain : Plain (c :: right)) : standsAlone c left = standsAlone c right := by
  have behind := (plain_cons.mp plain).2
  have whole : Alike 3 (c :: left) (c :: right) := alike.append [c]
  rw [standsAlone, standsAlone, alike.startsName_eq behind, alike.startsIdentifier_eq behind,
    whole.starts_eq, alike.isPrefixOf_eq rfl (by decide),
    alike.isPrefixOf_eq rfl (by decide), whole.startsIdentifier_eq plain]

end SelectorTree.Token
