import SelectorTree.Proofs.Selector.Reading
import SelectorTree.Proofs.Token.Reading

/-!
# Both readers undo the escapes of the writer

Identifiers and strings are read in two places, among the tokens of a stylesheet and in the
text of a selector, where other characters are blank and other things end a name.  The writer
escapes so that either reader gives back the name or the text, whatever characters it has.
-/

namespace SelectorTree

open Text

variable {c : Char} {name text rest : List Char} {condition : SimpleSelector}

/-! ## Tokens by themselves -/

namespace Token

theorem endsName_nil : EndsName [] := by simp [EndsName]

/-- A written identifier is one token. -/
theorem tokenize_identifier {v : String} (named : v ≠ "") (noNul : ∀ c ∈ v.toList, c.toNat ≠ 0) :
    tokenize (identifier v) = [.ident v, .endOfFile] := by
  have ordinary := (spells_writeIdentifier noNul).not_isControl
  have read := readAll_writeIdentifier_append (mt String.toList_eq_nil_iff.mp named) noNul
    endsName_nil
  rw [List.append_nil, readAll_nil, String.ofList_toList] at read
  rw [identifier, tokenize_of_not_isControl (by simpa using ordinary), String.toList_ofList, read]

/-- A written string is one token. -/
theorem tokenize_string {v : String} (noNul : ∀ c ∈ v.toList, c.toNat ≠ 0) :
    tokenize (toText (.string v)) = [.string v, .endOfFile] := by
  have ordinary := not_isControl_of_mem_writeQuoted noNul
  have read : readAll (writeQuoted v.toList ++ []) = _ := readAll_writeQuoted noNul
  rw [List.append_nil, readAll_nil, String.ofList_toList] at read
  rw [← toList_toText_string] at ordinary read
  rw [tokenize_of_not_isControl ordinary, read]

end Token

/-! ## Selectors of one condition -/

/-- The compound of one condition. -/
def Compound.ofCondition (condition : SimpleSelector) : Compound := (ofType? none).add condition

theorem SimpleSelector.eq_of_starts (begins : starts c = true) :
    c = '#' ∨ c = '.' ∨ c = '[' ∨ c = ':' := by
  simpa [starts, or_assoc] using begins

/-- What a condition begins with begins no name. -/
theorem Compound.read_of_starts (begins : SimpleSelector.starts c = true) :
    Compound.read (c :: rest) = readConditions (ofType? none) (c :: rest) := by
  rcases SimpleSelector.eq_of_starts begins with rfl | rfl | rfl | rfl <;> rfl

/-- A text that is one condition is read as an alternative of a single compound. -/
theorem SelectorList.readAll_condition (begins : SimpleSelector.starts c = true)
    (read : SimpleSelector.read c text = .ok (condition, [])) :
    readAll (c :: text) = .ok [⟨.ofCondition condition, []⟩] := by
  have compound : Compound.read (c :: text) = .ok (.ofCondition condition, []) := by
    rw [Compound.read_of_starts begins, Compound.readConditions_of_read begins read,
      Compound.readConditions_nil]
    rfl
  have starts : Compound.starts (c :: text) = true := by simp [Compound.starts, begins]
  have visible : skipBlanks (c :: text) = c :: text := by
    rcases SimpleSelector.eq_of_starts begins with rfl | rfl | rfl | rfl <;> rfl
  refine readAll_single ?_
  rw [ComplexSelector.read, visible]
  exact ComplexSelector.readFrom_last starts compound

/-! ## Conditions with a written name or text -/

section identifier

variable (named : name ≠ []) (noNul : ∀ c ∈ name, c.toNat ≠ 0)
include named noNul

theorem startsIdentifier_written : startsIdentifier (writeIdentifier name) = true := by
  have starts := startsIdentifier_writeIdentifier named noNul []
  rwa [List.append_nil] at starts

theorem SimpleSelector.read_writtenClass :
    SimpleSelector.read '.' (writeIdentifier name) =
      .ok (.className (String.ofList name), []) := by
  have read := (spells_writeIdentifier noNul).readName_eq
  simp [SimpleSelector.read, readClass, startsIdentifier_written named noNul, read]

theorem SimpleSelector.read_writtenId :
    SimpleSelector.read '#' (writeIdentifier name) = .ok (.id (String.ofList name), []) := by
  have starts := startsName_of_startsIdentifier (startsIdentifier_written named noNul)
  have read := (spells_writeIdentifier noNul).readName_eq
  simp [SimpleSelector.read, readId, starts, read]

end identifier

/-- A quoted value that the bracket follows is compared with regard to case. -/
theorem AttributeSelector.readTest_quoted {operator : AttributeOperator} {value : List Char}
    (read : readQuoted .selector '"' text = (value, .closed, ']' :: rest)) :
    readTest operator ('"' :: text) = .ok (⟨operator, String.ofList value, false⟩, rest) := by
  have found : readValue ('"' :: text) = .ok (value, ']' :: rest) := by
    rw [readValue, if_pos (Or.inl rfl), readString]
    simp only [read, if_true]
  have visible : skipBlanks ('"' :: text) = '"' :: text := rfl
  have closing : readFlag (skipBlanks (']' :: rest)) = (false, ']' :: rest) := rfl
  simp only [readTest, visible, found, bind, Except.bind, closing, readClosing, pure, Except.pure]

theorem SimpleSelector.read_writtenValue (noNul : ∀ c ∈ text, c.toNat ≠ 0) :
    SimpleSelector.read '[' ('a' :: '=' :: (writeQuoted text ++ [']'])) =
      .ok (.attribute ⟨"a", some ⟨.equals, String.ofList text, false⟩⟩, []) := by
  have value : readQuoted .selector '"' (text.flatMap writeQuotedChar ++ '"' :: [']']) =
      (text, .closed, [']']) := readQuoted_writeQuoted rfl noNul
  have test := @AttributeSelector.readTest_quoted _ _ .equals _ value
  have name : readName isBlank ('a' :: '=' :: (writeQuoted text ++ [']'])) =
      (['a'], '=' :: (writeQuoted text ++ [']'])) := by
    have ends : Token.EndsName ('=' :: (writeQuoted text ++ [']'])) := Token.endsName_cons rfl
    rw [readName_cons rfl, ends.readName_eq]
  have selector : AttributeSelector.read ('a' :: '=' :: (writeQuoted text ++ [']'])) =
      .ok (⟨"a", some ⟨.equals, String.ofList text, false⟩⟩, []) := by
    have visible : skipBlanks ('a' :: '=' :: (writeQuoted text ++ [']'])) =
        'a' :: '=' :: (writeQuoted text ++ [']']) := rfl
    have starts : startsIdentifier ('a' :: '=' :: (writeQuoted text ++ [']'])) = true := rfl
    have operator : AttributeSelector.readOperator
        (skipBlanks ('=' :: (writeQuoted text ++ [']']))) =
          .ok (some .equals, writeQuoted text ++ [']']) := rfl
    rw [← Token.writeQuoted_append] at test
    simp only [AttributeSelector.read, visible, starts, if_true, name, operator, bind,
      Except.bind, test]
    rfl
  simp [SimpleSelector.read, selector, Except.map]

/-! ## The two readers -/

/-- A written identifier is read as one token and, behind a point or a hash, as one class or id; a
written string is read as one token and, in brackets, as the value of an attribute.  Each time
the name or the text comes back unchanged. -/
theorem reads_written (v : String) (noNul : '\x00' ∉ v.toList) :
    (v ≠ "" →
      Token.tokenize (identifier v) = [.ident v, .endOfFile] ∧
      SelectorList.ofText ("." ++ identifier v) = .ok [⟨.ofCondition (.className v), []⟩] ∧
      SelectorList.ofText ("#" ++ identifier v) = .ok [⟨.ofCondition (.id v), []⟩]) ∧
    Token.tokenize (Token.toText (.string v)) = [.string v, .endOfFile] ∧
    SelectorList.ofText ("[a=" ++ Token.toText (.string v) ++ "]") =
      .ok [⟨.ofCondition (.attribute ⟨"a", some ⟨.equals, v, false⟩⟩), []⟩] := by
  have noNul := Text.toNat_ne_zero_of_not_mem noNul
  refine ⟨fun some => ?_, Token.tokenize_string noNul, ?_⟩
  · have named := mt String.toList_eq_nil_iff.mp some
    refine ⟨Token.tokenize_identifier some noNul, ?_, ?_⟩
    · have read := SelectorList.readAll_condition rfl (SimpleSelector.read_writtenClass named noNul)
      simpa [SelectorList.ofText_eq_ok_iff, identifier] using read
    · have read := SelectorList.readAll_condition rfl (SimpleSelector.read_writtenId named noNul)
      simpa [SelectorList.ofText_eq_ok_iff, identifier] using read
  · have read := SelectorList.readAll_condition rfl (SimpleSelector.read_writtenValue noNul)
    simpa [SelectorList.ofText_eq_ok_iff, Token.toList_toText_string] using read

/-- A hyphen before a digit, a line end, a hexadecimal digit behind an escape, a quote and a blank
at the end are all spelled so that they come back. -/
theorem reads_written_mixed :
    identifier "-1\r\nb\"\\ " = "-\\31 \\d \\a b\\\"\\\\\\ " ∧
      Token.tokenize (identifier "-1\r\nb\"\\ ") = [.ident "-1\r\nb\"\\ ", .endOfFile] ∧
      SelectorList.ofText ("." ++ identifier "-1\r\nb\"\\ ") =
        .ok [⟨.ofCondition (.className "-1\r\nb\"\\ "), []⟩] ∧
      SelectorList.ofText ("[a=" ++ Token.toText (.string "-1\r\nb\"\\ ") ++ "]") =
        .ok [⟨.ofCondition (.attribute ⟨"a", some ⟨.equals, "-1\r\nb\"\\ ", false⟩⟩), []⟩] := by
  obtain ⟨name, -, string⟩ := reads_written "-1\r\nb\"\\ " (by decide)
  exact ⟨by decide, (name (by decide)).1, (name (by decide)).2.1, string⟩

end SelectorTree
