import SelectorTree.Proofs.Selector.RoundTrip
import SelectorTree.Proofs.Selector.Unescaping
import SelectorTree.Proofs.Text.Denoting

/-!
# Attribute selectors that are written and read

The text of an attribute selector holds its name as an identifier and its value between double
quotes.  The name comes back unless it begins with white space beyond ASCII: the writer takes that
for a part of the name, and the reader skips it.  In the value only the double quotes are escaped,
so that it comes back if and only if no backslash is in it.
-/

namespace SelectorTree

open Text

variable {c : Char} {chars text value rest taken left part : List Char} {name : String}

/-! ## Values between quotes -/

namespace AttributeTest

/-- What is left of a text that begins inside a written value. -/
def valueText (value rest : List Char) : List Char :=
  value.flatMap (fun c => if c = '"' then ['\\', c] else [c]) ++ '"' :: rest

theorem valueText_cons (c : Char) (value rest : List Char) :
    valueText (c :: value) rest =
      (if c = '"' then ['\\', c] else [c]) ++ valueText value rest := by
  rw [valueText, List.flatMap_cons, List.append_assoc, ← valueText]

theorem valueText_of_ne (other : c ≠ '"') :
    valueText (c :: value) rest = c :: valueText value rest := by
  rw [valueText_cons, if_neg other]
  rfl

/-- A text that holds neither quotes nor backslashes is taken from the value alone. -/
theorem exists_suffix_of_split (kept : ∀ c ∈ taken, c ≠ '"' ∧ c ≠ '\\')
    (split : valueText value rest = taken ++ left) :
    ∃ behind, behind <:+ value ∧ left = valueText behind rest := by
  induction taken generalizing value with
  | nil => exact ⟨value, List.suffix_rfl, split.symm⟩
  | cons c taken ih =>
      obtain ⟨⟨notQuote, notBackslash⟩, others⟩ := List.forall_mem_cons.mp kept
      cases value with
      | nil =>
          cases split
          exact absurd rfl notQuote
      | cons first value =>
          by_cases quote : first = '"'
          · subst quote
            exact absurd (List.cons.inj split).1.symm notBackslash
          · rw [valueText_of_ne quote] at split
            obtain ⟨behind, within, same⟩ := ih others (List.cons.inj split).2
            exact ⟨behind, within.trans (List.suffix_cons first value), same⟩

/-- Behind its first character an escape takes neither a quote nor a backslash. -/
theorem exists_cons_of_denotes (denotes : Denotes isBlank c ('\\' :: part)) :
    ∃ first others, part = first :: others ∧ ∀ other ∈ others, other ≠ '"' ∧ other ≠ '\\' := by
  have ofHex : ∀ {digit : Char}, isHexDigit digit = true → digit ≠ '"' ∧ digit ≠ '\\' := by
    intro digit hex
    constructor <;> rintro rfl <;> cases hex
  cases denotes with
  | plain named => cases named
  | escaped => exact ⟨c, [], rfl, by simp⟩
  | @coded digits gap some _ hex _ closed =>
      obtain ⟨first, others, rfl⟩ := List.exists_cons_of_ne_nil some
      refine ⟨first, others ++ gap, rfl, List.forall_mem_append.mpr ⟨?_, ?_⟩⟩
      · exact fun other member => ofHex (hex other (List.mem_cons_of_mem first member))
      · intro other member
        rcases closed with rfl | ⟨space, blank, rfl⟩
        · cases member
        · rw [List.mem_singleton.mp member]
          constructor <;> rintro rfl <;> cases blank

/-- Behind an escape the text goes on inside the value. -/
theorem exists_suffix_readEscape (inLine : c ≠ '\n') (value rest : List Char) :
    ∃ behind, behind <:+ value ∧
      (readEscape isBlank (c :: valueText value rest)).2 = valueText behind rest := by
  obtain ⟨part, whole, denotes⟩ := denotes_readEscape isBlank inLine (valueText value rest)
  obtain ⟨first, others, rfl, kept⟩ := exists_cons_of_denotes denotes
  exact exists_suffix_of_split kept (List.cons.inj whole).2

end AttributeTest

theorem Text.mem_of_readQuoted_closed {style : QuoteStyle} {quote : Char} {chars : List Char}
    (closed : (readQuoted style quote chars).2.1 = .closed) : quote ∈ chars := by
  fun_induction readQuoted style quote chars with
  | case1 => cases closed
  | case2 => exact List.mem_cons_self
  | case3 => cases closed
  | case4 => cases closed
  | case5 _ _ _ ih => exact List.mem_cons_of_mem _ (List.mem_cons_of_mem _ (ih closed))
  | case6 _ _ _ _ _ _ _ ih =>
      exact List.mem_cons_of_mem _ ((readEscape_suffix style.blank _).subset (ih closed))
  | case7 _ _ _ _ _ _ ih => exact List.mem_cons_of_mem _ (ih closed)

namespace AttributeTest

/-- A backslash takes at least one more character of the value with it: the line feed that it
continues, the quote that it leaves open, or what it escapes. -/
theorem exists_lt_of_backslash (unquoted : '"' ∉ rest)
    (closed : (readQuoted .selector '"' (valueText ('\\' :: value) rest)).2.1 = .closed) :
    ∃ behind, behind.length < value.length ∧
      (readQuoted .selector '"' (valueText behind rest)).2.1 = .closed ∧
      (readQuoted .selector '"' (valueText ('\\' :: value) rest)).1.length ≤
        (readQuoted .selector '"' (valueText behind rest)).1.length + 1 := by
  rw [valueText_of_ne (by decide)] at closed ⊢
  cases value with
  | nil =>
      -- The quote that should close the value is escaped, and there is no other.
      rw [valueText, List.flatMap_nil, List.nil_append, readQuoted_escape (by decide) (by decide)]
        at closed
      exact absurd (mem_of_readQuoted_closed closed) unquoted
  | cons next value =>
      by_cases quote : next = '"'
      · -- The backslash that should escape the quote is escaped itself.
        subst quote
        refine ⟨[], Nat.zero_lt_succ _, ?_, ?_⟩
        · rw [valueText, List.flatMap_nil, List.nil_append, readQuoted_quote]
        · rw [valueText_cons, if_pos rfl, List.cons_append, List.singleton_append,
            readQuoted_escape (by decide) (by decide), readEscape, if_neg (by decide),
            readQuoted_quote]
          exact Nat.le_add_left _ _
      · rw [valueText_of_ne quote] at closed ⊢
        by_cases feed : next = '\n'
        · subst feed
          have continued : readQuoted .selector '"' ('\\' :: '\n' :: valueText value rest) =
              readQuoted .selector '"' (valueText value rest) := by
            rw [readQuoted]
            simp
          rw [continued] at closed ⊢
          exact ⟨value, Nat.lt_succ_self _, closed, Nat.le_succ _⟩
        · obtain ⟨behind, within, goesOn⟩ := exists_suffix_readEscape feed value rest
          have escaped := @readQuoted_escape _ (valueText value rest) .selector '"'
            (by decide) feed
          rw [show QuoteStyle.selector.blank = isBlank from rfl, goesOn] at escaped
          rw [escaped] at closed ⊢
          exact ⟨behind, Nat.lt_succ_of_le within.length_le, closed, Nat.le_refl _⟩

theorem length_le_of_plain_or_lt (shorter : Plain value ∨
      (readQuoted .selector '"' (valueText value rest)).1.length < value.length) :
    (readQuoted .selector '"' (valueText value rest)).1.length ≤ value.length := by
  rcases shorter with plain | lt
  · rw [valueText, readQuoted_quotedValue plain rest]
  · exact Nat.le_of_lt lt

/-- With a backslash in it the value that is read is shorter than the one that was written. -/
theorem plain_or_lt_of_closed (unquoted : '"' ∉ rest) (value : List Char)
    (closed : (readQuoted .selector '"' (valueText value rest)).2.1 = .closed) :
    Plain value ∨
      (readQuoted .selector '"' (valueText value rest)).1.length < value.length := by
  match value with
  | [] => exact Or.inl List.not_mem_nil
  | c :: value =>
      by_cases backslash : c = '\\'
      · subst backslash
        obtain ⟨behind, less, behindClosed, bound⟩ := exists_lt_of_backslash unquoted closed
        have tail := length_le_of_plain_or_lt (plain_or_lt_of_closed unquoted behind behindClosed)
        right
        rw [List.length_cons]
        omega
      · rw [valueText_cons, readQuoted_char backslash] at closed ⊢
        rcases plain_or_lt_of_closed unquoted value closed with plain | lt
        · exact Or.inl (plain_cons.mpr ⟨backslash, plain⟩)
        · exact Or.inr (Nat.succ_lt_succ lt)
termination_by value.length
decreasing_by
  · exact Nat.lt_succ_of_lt less
  · exact Nat.lt_succ_self _

/-- A value comes back only if there is no backslash in it. -/
theorem plain_of_readQuoted (unquoted : '"' ∉ rest)
    (read : readQuoted .selector '"' (valueText value rest) = (value, .closed, left)) :
    Plain value := by
  rcases plain_or_lt_of_closed unquoted value (by rw [read]) with plain | lt
  · exact plain
  · rw [read] at lt
    exact absurd lt (Nat.lt_irrefl _)

theorem plain_of_readTest {test : AttributeTest} (unquoted : '"' ∉ rest)
    (read : AttributeSelector.readTest test.operator
      ((quotedValue test.value).toList ++ rest) = .ok (test, left)) :
    Plain test.value.toList := by
  obtain ⟨found, valueRead, read⟩ := bind_eq_ok read
  obtain ⟨closing, -, read⟩ := bind_eq_ok read
  rw [skipBlanks_quotedValue, AttributeSelector.readValue, if_pos (Or.inl rfl),
    AttributeSelector.readString] at valueRead
  split at valueRead
  · next closed =>
      have same : found.1 = test.value.toList := by
        have value := congrArg (fun result => result.1.value.toList) (Except.ok.inj read)
        rwa [String.toList_ofList] at value
      have quoted : readQuoted .selector '"' (valueText test.value.toList rest) =
          (test.value.toList, .closed, found.2) := by
        cases valueRead
        exact Prod.ext same (Prod.ext closed rfl)
      exact plain_of_readQuoted unquoted quoted
  · cases valueRead

end AttributeTest

/-! ## Names behind a bracket -/

/-- A name does not begin with white space beyond ASCII. -/
def Text.Shown (name : List Char) : Prop :=
  ∀ first ∈ name.head?, isBlank first = true → first.toNat < 128

instance Text.decidableShown : (name : List Char) → Decidable (Shown name)
  | [] => isTrue (by simp [Shown])
  | first :: _ => decidable_of_iff (isBlank first = true → first.toNat < 128) (by simp [Shown])

/-- A blank is a character of a name only beyond ASCII. -/
theorem Text.le_toNat_of_isBlank (blank : isBlank c = true) (named : isNameChar c = true) :
    128 ≤ c.toNat := by
  rw [isNameChar_iff, isNameStart_iff] at named
  simp only [isBlank, Bool.or_eq_true, Bool.and_eq_true, decide_eq_true_eq, beq_iff_eq] at blank
  omega

/-- A spelling begins with a backslash unless it is the character itself. -/
theorem Text.Spelling.eq_or_backslash (spelling : Spelling c part) :
    (isNameChar c = true ∧ part = [c]) ∨ ∃ behind, part = '\\' :: behind := by
  cases spelling with
  | plain named => exact Or.inl ⟨named, rfl⟩
  | escaped => exact Or.inr ⟨_, rfl⟩
  | coded => exact Or.inr ⟨_, rfl⟩

namespace Text.Spells

/-- The reader skips the blanks at the start that are spelled as they are. -/
theorem skipBlanks_append (spells : Spells chars text)
    (shown : ∀ next ∈ rest.head?, isBlank next = false) :
    ∃ behind left, behind <:+ chars ∧ Spells behind left ∧
      skipBlanks (text ++ rest) = left ++ rest := by
  induction spells with
  | nil => exact ⟨[], [], List.suffix_rfl, .nil, skipBlanks_eq_self_iff.mpr shown⟩
  | @cons c chars part text first others ih =>
      have whole := Spells.cons first others
      rcases first.eq_or_backslash with ⟨-, rfl⟩ | ⟨_, rfl⟩
      · cases blank : isBlank c with
        | true =>
            obtain ⟨behind, left, within, spellsBehind, skipped⟩ := ih
            refine ⟨behind, left, within.trans (List.suffix_cons c chars), spellsBehind, ?_⟩
            rw [List.append_assoc, List.singleton_append, skipBlanks, List.dropWhile_cons,
              if_pos blank]
            exact skipped
        | false =>
            have kept : skipBlanks ([c] ++ text ++ rest) = [c] ++ text ++ rest :=
              skipBlanks_eq_self_iff.mpr (by simp [blank])
            exact ⟨c :: chars, [c] ++ text, List.suffix_rfl, whole, kept⟩
      · exact ⟨c :: chars, _, List.suffix_rfl, whole, rfl⟩

/-- Nothing is skipped at the start of a name that does not begin with wide white space. -/
theorem skipBlanks_eq (spells : Spells chars text) (named : chars ≠ []) (shown : Shown chars) :
    skipBlanks (text ++ rest) = text ++ rest := by
  cases spells with
  | nil => exact absurd rfl named
  | @cons c _ _ _ first others =>
      rcases first.eq_or_backslash with ⟨nameChar, rfl⟩ | ⟨_, rfl⟩
      · refine skipBlanks_eq_self_iff.mpr ?_
        rintro _ ⟨⟩
        rw [← Bool.not_eq_true]
        intro blank
        exact absurd (le_toNat_of_isBlank blank nameChar) (Nat.not_le.mpr (shown c rfl blank))
      · rfl

end Text.Spells

/-- Wide white space at the start is written as it is. -/
theorem Text.writeIdentifier_of_wide (wide : 128 ≤ c.toNat) :
    writeIdentifier (c :: chars) = c :: writeName chars := by
  have notDigit : ¬c.isDigit = true := by
    rw [isDigit_iff]
    omega
  have named : isNameChar c = true := isNameChar_iff.mpr (Or.inl (isNameStart_iff.mpr (by omega)))
  have leading : writeLeadingChar c = [c] := by
    rw [writeLeadingChar, if_neg notDigit, writeNameChar_of_isNameChar named]
  unfold writeIdentifier
  split
  · next same => cases same
  · next same =>
      cases same
      exact absurd wide (by decide)
  · next same =>
      cases same
      exact absurd wide (by decide)
  · next same =>
      cases same
      rw [leading, List.singleton_append]

section written

variable (named : chars ≠ []) (noNul : ∀ c ∈ chars, c.toNat ≠ 0) (stops : StopsName rest)
  (ends : ∀ next ∈ rest.head?, isBlank next = false)
include noNul stops ends

/-- The name is read up to its end; only some of its beginning can be missing. -/
theorem Text.readName_skipBlanks_writeIdentifier : ∃ behind, behind <:+ chars ∧
    readName isBlank (skipBlanks (writeIdentifier chars ++ rest)) = (behind, rest) := by
  obtain ⟨behind, left, within, spells, skipped⟩ :=
    (spells_writeIdentifier noNul).skipBlanks_append ends
  refine ⟨behind, within, ?_⟩
  rw [skipped, spells.readName_append rfl, stops.readName_eq, List.append_nil]

include named

/-- The whole name is read if and only if it does not begin with wide white space. -/
theorem Text.readName_skipBlanks_writeIdentifier_iff :
    readName isBlank (skipBlanks (writeIdentifier chars ++ rest)) = (chars, rest) ↔
      Shown chars := by
  constructor
  · intro read first head blank
    by_contra wide
    rw [Nat.not_lt] at wide
    obtain ⟨others, rfl⟩ := List.head?_eq_some_iff.mp head
    obtain ⟨-, noNulOthers⟩ := List.forall_mem_cons.mp noNul
    obtain ⟨behind, left, within, spells, skipped⟩ :=
      (spells_writeName noNulOthers).skipBlanks_append ends
    rw [writeIdentifier_of_wide wide, List.cons_append, skipBlanks, List.dropWhile_cons,
      if_pos blank, ← skipBlanks, skipped, spells.readName_append rfl, stops.readName_eq,
      List.append_nil] at read
    cases read
    exact absurd within.length_le (Nat.not_succ_le_self _)
  · intro shown
    have spells := spells_writeIdentifier noNul
    rw [spells.skipBlanks_eq named shown, spells.readName_append rfl, stops.readName_eq,
      List.append_nil]

end written

/-! ## Attribute selectors -/

variable {test : AttributeTest}

namespace AttributeSelector

theorem not_isBlank_test :
    ∀ next ∈ (test.toText.toList ++ rest).head?, isBlank next = false := by
  rw [AttributeTest.toList_toText_append]
  cases test.operator <;> rintro _ ⟨⟩ <;> rfl

theorem quote_not_mem_closing (ignoresCase : Bool) :
    '"' ∉ (if ignoresCase then " i" else "").toList ++ [']'] := by
  cases ignoresCase <;> decide

theorem startsIdentifier_of_read {found : AttributeSelector × List Char}
    (read : AttributeSelector.read chars = .ok found) :
    startsIdentifier (skipBlanks chars) = true := by
  rw [← Bool.not_eq_false]
  intro unnamed
  simp only [AttributeSelector.read, unnamed, Bool.false_eq_true, if_false] at read
  split at read <;> cases read

section written

variable (named : name ≠ "") (noNul : ∀ c ∈ name.toList, c.toNat ≠ 0)
include named noNul

theorem read_written (plain : Plain test.value.toList) (shown : Shown name.toList) :
    AttributeSelector.read (writeIdentifier name.toList ++ (test.toText.toList ++ [']'])) =
      .ok (⟨name, some test⟩, []) := by
  have some := mt String.toList_eq_nil_iff.mp named
  have stops : StopsName (test.toText.toList ++ [']']) := stopsName_test
  have whole := readName_skipBlanks_writeIdentifier_iff some noNul stops not_isBlank_test
  have starts := startsIdentifier_writeIdentifier some noNul (test.toText.toList ++ [']'])
  rw [← (spells_writeIdentifier noNul).skipBlanks_eq some shown] at starts
  rw [read_eq_readTest starts (whole.mpr shown), readTest_toText plain, String.ofList_toList]
  rfl

/-- Wherever the reader stops, if it finds the name and the test, both were legible. -/
theorem plain_and_shown_of_read
    (read : AttributeSelector.read
      (writeIdentifier name.toList ++ (test.toText.toList ++ [']'])) =
        .ok (⟨name, some test⟩, left)) :
    Plain test.value.toList ∧ Shown name.toList := by
  have some := mt String.toList_eq_nil_iff.mp named
  have stops : StopsName (test.toText.toList ++ [']']) := stopsName_test
  obtain ⟨behind, -, nameRead⟩ := readName_skipBlanks_writeIdentifier noNul stops not_isBlank_test
  have starts := startsIdentifier_of_read read
  rw [read_eq_readTest starts nameRead] at read
  obtain ⟨found, testRead, same⟩ := map_eq_ok read
  have sameName : behind = name.toList := by
    have label := congrArg (fun result => result.1.name.toList) same
    rwa [String.toList_ofList] at label
  have sameTest : found = (test, left) := by
    cases same
    rfl
  rw [sameName] at nameRead
  rw [sameTest] at testRead
  have whole := readName_skipBlanks_writeIdentifier_iff some noNul stops not_isBlank_test
  exact ⟨AttributeTest.plain_of_readTest (quote_not_mem_closing _) testRead, whole.mp nameRead⟩

end written

end AttributeSelector

/-! ## Compounds of one condition -/

variable {compound : Compound} {selector : AttributeSelector}

namespace Compound

theorem toText_ofAttribute (selector : AttributeSelector) :
    (ofCondition (.attribute selector)).toText = selector.toText := by
  simp [toText, ofCondition, add, ofType?]

theorem attributes_prefix_add (compound : Compound) (condition : SimpleSelector) :
    compound.attributes <+: (compound.add condition).attributes := by
  cases condition with
  | «attribute» selector => exact List.prefix_append _ _
  | _ => exact List.prefix_rfl

/-- A compound that begins with a bracket has what is read behind it as its first attribute. -/
theorem exists_attribute_of_read (read : Compound.read ('[' :: chars) = .ok (compound, rest)) :
    ∃ selector left, AttributeSelector.read chars = .ok (selector, left) ∧
      [selector] <+: compound.attributes := by
  rw [read_of_starts rfl] at read
  obtain ⟨condition, behind, first, read⟩ := exists_read_of_readConditions rfl read
  obtain ⟨⟨selector, left⟩, selectorRead, same⟩ := map_eq_ok first
  cases same
  exact ⟨selector, left, selectorRead, prefix_of_readConditions attributes_prefix_add read⟩

end Compound

namespace SelectorList

theorem exists_read_of_readAll_attribute
    (read : readAll ('[' :: chars) = .ok [⟨.ofCondition (.attribute selector), []⟩]) :
    ∃ left, AttributeSelector.read chars = .ok (selector, left) := by
  obtain ⟨compound, behind, compoundRead, alone | ⟨inner, combinator, further⟩⟩ :=
    ComplexSelector.exists_of_readFrom (read_of_readAll_single read)
  · cases alone
    obtain ⟨first, left, firstRead, within⟩ := Compound.exists_attribute_of_read compoundRead
    obtain rfl : first = selector := (List.cons_prefix_cons.mp within).1
    exact ⟨left, firstRead⟩
  · cases inner <;> cases further

/-- The text of an attribute selector with a test is read as that selector by itself if and only if
no backslash is in the value and the name does not begin with white space beyond ASCII. -/
theorem ofText_toText_attribute (name : String) (test : AttributeTest) (named : name ≠ "")
    (noNul : '\x00' ∉ name.toList) :
    ofText (Compound.ofCondition (.attribute ⟨name, some test⟩)).toText =
        .ok [⟨.ofCondition (.attribute ⟨name, some test⟩), []⟩] ↔
      Plain test.value.toList ∧ Shown name.toList := by
  have noNul := toNat_ne_zero_of_not_mem noNul
  have written : (Compound.ofCondition (.attribute ⟨name, some test⟩)).toText.toList =
      '[' :: (writeIdentifier name.toList ++ (test.toText.toList ++ [']'])) := by
    simp [Compound.toText_ofAttribute, AttributeSelector.toList_toText, identifier]
  rw [ofText_eq_ok_iff, written]
  constructor
  · intro read
    obtain ⟨left, selectorRead⟩ := exists_read_of_readAll_attribute read
    exact AttributeSelector.plain_and_shown_of_read named noNul selectorRead
  · rintro ⟨plain, shown⟩
    refine readAll_condition rfl ?_
    rw [SimpleSelector.read, if_neg (by decide), if_neg (by decide), if_pos rfl,
      AttributeSelector.read_written named noNul plain shown]
    rfl

/-- A name that begins with a digit and ends with a no-break space, and a value with quotes, a line
end and what looks like a flag. -/
theorem ofText_toText_attribute_mixed :
    ("1 b\u00a0" ≠ "" ∧ '\x00' ∉ "1 b\u00a0".toList) ∧
      ofText (Compound.ofCondition
          (.attribute ⟨"1 b\u00a0", some ⟨.contains, "it\"s\na0\" i]", true⟩⟩)).toText =
        .ok [⟨.ofCondition
          (.attribute ⟨"1 b\u00a0", some ⟨.contains, "it\"s\na0\" i]", true⟩⟩), []⟩] :=
  ⟨by decide, (ofText_toText_attribute _ _ (by decide) (by decide)).mpr (by decide)⟩

/-- A value of one backslash escapes the quote that should close it. -/
theorem not_ofText_toText_attribute :
    ("a" ≠ "" ∧ '\x00' ∉ "a".toList ∧ '\x00' ∉ "\\".toList) ∧
      (Compound.ofCondition (.attribute ⟨"a", some ⟨.equals, "\\", false⟩⟩)).toText =
        "[a=\"\\\"]" ∧
      ofText (Compound.ofCondition (.attribute ⟨"a", some ⟨.equals, "\\", false⟩⟩)).toText =
        .error .unterminatedString := by
  decide +kernel

/-- Wide white space in front of a name is written as it is and skipped. -/
example :
    ofText (Compound.ofCondition (.attribute ⟨"\u00a0a", some ⟨.equals, "b", false⟩⟩)).toText =
      .ok [⟨.ofCondition (.attribute ⟨"a", some ⟨.equals, "b", false⟩⟩), []⟩] := by
  decide +kernel

end SelectorList

end SelectorTree
