import SelectorTree.Proofs.Import.Collecting
import SelectorTree.Proofs.Selector.Reading
import SelectorTree.Proofs.Stylesheet.Reading
import SelectorTree.Proofs.Synthesis.Alone
import SelectorTree.Proofs.Token.Reading

/-!
# Content strings through tokens and declarations

The string of a declaration is read as a token and written again with its escapes, and
then only its quotes are taken off.  So an element shows a string as it is only if the
writer escapes nothing in it.
-/

namespace SelectorTree

open Text

variable {t v : String}

/-- A sheet with one rule for a type, which has a string as its content. -/
def contentSheet (t v : String) : String :=
  t ++ " \x7b content: " ++ Token.toText (.string v) ++ " \x7d"

theorem toList_contentSheet : (contentSheet t v).toList =
    t.toList ++ ' ' :: '\x7b' :: ' ' :: ("content".toList ++ ':' :: ' ' ::
      (writeQuoted v.toList ++ ' ' :: ['\x7d'])) := by
  simp [contentSheet, Token.toText, Token.chars]

/-! ## Reading the sheet -/

theorem noNul_of_letters {name : List Char} (letters : ∀ c ∈ name, c.isAlpha = true) :
    ∀ c ∈ name, c.toNat ≠ 0 := by
  intro c member
  have start := isNameStart_iff.mp (isNameStart_of_isAlpha (letters c member))
  omega

theorem tokenize_contentSheet (named : t ≠ "") (letters : ∀ c ∈ t.toList, c.isAlpha = true)
    (noNul : ∀ c ∈ v.toList, c.toNat ≠ 0) :
    Token.tokenize (contentSheet t v) =
      [.ident t, .whitespace, .leftBrace, .whitespace, .ident "content", .colon, .whitespace,
        .string v, .whitespace, .rightBrace] ++ [.endOfFile] := by
  have tNamed : t.toList ≠ [] := mt String.toList_eq_nil_iff.mp named
  have tNoNul := noNul_of_letters letters
  have written := writeIdentifier_of_letters letters
  have property : writeIdentifier "content".toList = "content".toList := by decide
  have ordinary : ∀ c ∈ (contentSheet t v).toList, isControl c = false := by
    have type := (spells_writeIdentifier tNoNul).not_isControl
    have string := not_isControl_of_mem_writeQuoted noNul
    rw [written] at type
    rw [toList_contentSheet]
    simp only [List.forall_mem_cons, List.forall_mem_append]
    exact ⟨type, rfl, rfl, rfl, by simp [isControl], rfl, rfl, string, rfl, rfl, by simp⟩
  have beforeProperty (rest : List Char) :
      Token.readAll (' ' :: ("content".toList ++ rest)) =
        .whitespace :: Token.readAll ("content".toList ++ rest) :=
    @Token.readAll_space 'c' ("ontent".toList ++ rest) rfl
  have beforeString (rest : List Char) :
      Token.readAll (' ' :: (writeQuoted v.toList ++ rest)) =
        .whitespace :: Token.readAll (writeQuoted v.toList ++ rest) :=
    @Token.readAll_space '"' (v.toList.flatMap writeQuotedChar ++ ['"'] ++ rest) rfl
  rw [Token.tokenize_of_not_isControl ordinary, toList_contentSheet, ← written,
    Token.readAll_writeIdentifier tNamed tNoNul rfl, Token.readAll_space rfl,
    Token.readAll_punctuation rfl, beforeProperty, ← property,
    Token.readAll_writeIdentifier (by decide) (by simp) rfl, Token.readAll_punctuation rfl,
    beforeString, Token.readAll_writeQuoted noNul, Token.readAll_space rfl,
    Token.readAll_punctuation rfl, Token.readAll_nil, String.ofList_toList, String.ofList_toList,
    String.ofList_toList]
  rfl

theorem declaration_read (v : String) :
    Declaration.read "content" [.colon, .whitespace, .string v, .whitespace, .rightBrace] =
      (some ⟨"content", [.token (.string v)], false⟩, [.rightBrace]) := by
  have values : (ComponentValue.readRow Declaration.ends
      [.string v, .whitespace, .rightBrace]).1 =
        ([.token (.string v), .token .whitespace], [.rightBrace]) := by
    have goes : Declaration.ends (.string v) = false := by simp [Declaration.ends]
    rw [ComponentValue.readRow_of_single goes rfl, ComponentValue.readRow_of_single rfl rfl,
      ComponentValue.readRow_of_stop rfl]
  have row : ComponentValue.row Declaration.ends [.string v, .whitespace, .rightBrace] =
      [.token (.string v), .token .whitespace] := congrArg Prod.fst values
  have behind : ComponentValue.afterRow Declaration.ends [.string v, .whitespace, .rightBrace] =
      [.rightBrace] := congrArg Prod.snd values
  have colon : Declaration.skipWhitespace
      [.colon, .whitespace, .string v, .whitespace, .rightBrace] =
        [.colon, .whitespace, .string v, .whitespace, .rightBrace] := rfl
  have start : Declaration.skipWhitespace [.whitespace, .string v, .whitespace, .rightBrace] =
      [.string v, .whitespace, .rightBrace] := by
    simp [Declaration.skipWhitespace, Token.isWhitespace]
  rw [Declaration.read, colon]
  simp only [start, row, behind]
  rfl

theorem readBlock_contentSheet (v : String) :
    (Rule.readBlock [.whitespace, .ident "content", .colon, .whitespace, .string v, .whitespace,
      .rightBrace]).1 = (⟨[⟨"content", [.token (.string v)], false⟩], []⟩, [.rightBrace]) := by
  have noBlock : Rule.opensBlock 0 [.ident "content", .colon, .whitespace, .string v, .whitespace,
      .rightBrace] = false := by
    simp [Rule.opensBlock, Rule.depthAfter, Declaration.ends]
  rw [Rule.readBlock_passed (Or.inl rfl), Rule.readBlock_declaration noBlock, declaration_read]
  simp only [Rule.readBlock_rightBrace]
  rfl

theorem plain_type (t : String) : ∀ token ∈ [.ident t, .whitespace], Rule.Plain token := by
  rw [List.forall_mem_cons, List.forall_mem_singleton]
  exact ⟨Rule.plain_ident t, Rule.plain_whitespace⟩

theorem selectorTexts_type (letters : ∀ c ∈ t.toList, c.isAlpha = true) (named : t ≠ "") :
    Rule.selectorTexts [.ident t, .whitespace] = [t] := by
  have trimmed : trim (Token.write [.ident t, .whitespace]) = t := by
    have written : (Token.write [.ident t, .whitespace]).toList = t.toList ++ [' '] := by
      simp [Token.write, Token.chars, writeIdentifier_of_letters letters]
    rw [trim, written, trimChars_concat_space fun c member => not_isBlank_of_isAlpha
      (letters c member), String.ofList_toList]
  rw [Rule.selectorTexts_of_plain (plain_type t) (by rwa [trimmed]), trimmed]

theorem ofText_contentSheet (named : t ≠ "") (letters : ∀ c ∈ t.toList, c.isAlpha = true)
    (noNul : ∀ c ∈ v.toList, c.toNat ≠ 0) :
    Stylesheet.ofText (contentSheet t v) =
      ⟨[.style [t] [⟨"content", [.token (.string v)], false⟩] []]⟩ := by
  have rules := @Rule.readAll_style (.ident t) [.whitespace] [.whitespace, .ident "content", .colon,
    .whitespace, .string v, .whitespace, .rightBrace] (Rule.begins_ident t)
    (plain_type t)
  simp only [readBlock_contentSheet, selectorTexts_type letters named, Rule.dropBrace,
    Rule.readAll_nil] at rules
  have tokenized := tokenize_contentSheet named letters noNul
  rw [Stylesheet.ofText_of_tokenize tokenized (by simp), ← rules]
  rfl

/-! ## The rule of the sheet -/

theorem textOfAll_string (v : String) :
    ComponentValue.textOfAll [.token (.string v)] = String.ofList (writeQuoted v.toList) := by
  have written : (Token.write (ComponentValue.tokensOfAll [.token (.string v)])).toList =
      '"' :: (v.toList.flatMap writeQuotedChar ++ ['"']) := by
    simp [Token.write, Token.chars, ComponentValue.tokensOfAll, ComponentValue.tokens, writeQuoted]
  rw [ComponentValue.textOfAll, trim, written, trimChars_cons_of_not_blank rfl,
    dropTrailing_concat_of_not_blank rfl]
  rfl

theorem stripQuotes_writeQuoted (text : List Char) :
    stripQuotes (String.ofList (writeQuoted text)) =
      String.ofList (text.flatMap writeQuotedChar) := by
  simp [stripQuotes, stripQuoteChars, writeQuoted, isQuote]

theorem readAll_type {name : List Char} (named : name ≠ [])
    (letters : ∀ c ∈ name, c.isAlpha = true) :
    SelectorList.readAll name = .ok [⟨.ofType? (some (.name (String.ofList name))), []⟩] := by
  have noNul := noNul_of_letters letters
  have written := writeIdentifier_of_letters letters
  have starts := startsIdentifier_writeIdentifier named noNul []
  have read := (spells_writeIdentifier noNul).readName_eq
  rw [List.append_nil, written] at starts
  rw [written] at read
  have begins : Compound.starts name = true := by
    cases name with
    | nil => cases starts
    | cons c rest => simp [Compound.starts, starts]
  have visible : skipBlanks name = name := by
    cases name with
    | nil => rfl
    | cons c rest =>
        have letter := not_isBlank_of_isAlpha (letters c List.mem_cons_self)
        rw [skipBlanks, List.dropWhile_cons, if_neg (Bool.eq_false_iff.mp letter)]
  refine SelectorList.readAll_single ?_
  rw [ComplexSelector.read, visible]
  exact ComplexSelector.readFrom_last begins (Compound.read_type starts read)

theorem resolveRules_contentSheet (source : Source) (options : Options) (limit : Nat)
    (named : t ≠ "") (letters : ∀ c ∈ t.toList, c.isAlpha = true)
    (noNul : ∀ c ∈ v.toList, c.toNat ≠ 0) :
    (resolveRules source options (limit + 1) (.ofText (contentSheet t v))).1 =
      .ok [⟨[⟨.ofType? (some (.name t)), []⟩], some (String.ofList (writeQuoted v.toList)),
        false⟩] := by
  have type := readAll_type (mt String.toList_eq_nil_iff.mp named) letters
  rw [String.ofList_toList] at type
  have rule : TreeRule.ofFlat? ⟨t, some (String.ofList (writeQuoted v.toList)), false⟩ =
      some ⟨[⟨.ofType? (some (.name t)), []⟩], some (String.ofList (writeQuoted v.toList)),
        false⟩ :=
    TreeRule.ofFlat?_eq_some_iff.mpr ⟨type, rfl, rfl⟩
  rw [ofText_contentSheet named letters noNul,
    resolveRules_of_styles source options limit (by simp [Rule.isStyle])]
  have property : sameLetters "content" "content" = true := by decide
  simp [Flattened.ofRule, Flattened.ofRules, Flattened.qualify, Flattened.append, Flattened.empty,
    Declaration.last?, Declaration.valueText, textOfAll_string, property, rule]

/-- The element shows the string as the writer escapes it, and the string itself exactly if
the writer escapes nothing. -/
theorem isSingle_contentSheet (source : Source) (options : Options) (limit : Nat)
    (named : t ≠ "") (letters : ∀ c ∈ t.toList, c.isAlpha = true)
    (noNul : ∀ c ∈ v.toList, c.toNat ≠ 0) :
    ∃ rules, (resolveRules source options (limit + 1) (.ofText (contentSheet t v))).1 = .ok rules ∧
      (synthesize options rules).IsSingle (lower t)
        (String.ofList (v.toList.flatMap writeQuotedChar)) ∧
      ((synthesize options rules).IsSingle (lower t) v ↔ ∀ c ∈ v.toList, isShown c = true) := by
  have single := isSingle_synthesize options t (String.ofList (writeQuoted v.toList)) false
  rw [stripQuotes_writeQuoted] at single
  refine ⟨_, resolveRules_contentSheet source options limit named letters noNul, single, ?_⟩
  rw [← flatMap_writeQuotedChar_eq_self_iff noNul]
  constructor
  · intro whole
    have same := congrArg String.toList (single.content_unique whole)
    rwa [String.toList_ofList] at same
  · intro same
    rw [same, String.ofList_toList] at single
    exact single

theorem isSingle_contentSheet_anchor :
    ∃ rules, (resolveRules .offline .standard 1 (.ofText (contentSheet "A" "it's"))).1 = .ok rules ∧
      (synthesize .standard rules).IsSingle "a" "it's" := by
  obtain ⟨rules, read, -, shown⟩ := @isSingle_contentSheet "A" "it's" .offline .standard 0
    (by decide) (List.all_eq_true.mp (by decide)) (by simp)
  exact ⟨rules, read, shown.mpr (List.all_eq_true.mp (by decide))⟩

/-- A quote in a string is shown with the backslash that the writer puts before it. -/
theorem not_isSingle_contentSheet_quote :
    contentSheet "p" "it\"s" = "p \x7b content: \"it\\\"s\" \x7d" ∧
      ∃ rules, (resolveRules .offline .standard 1 (.ofText (contentSheet "p" "it\"s"))).1 =
          .ok rules ∧
        (synthesize .standard rules).IsSingle "p" "it\\\"s" ∧
        ¬(synthesize .standard rules).IsSingle "p" "it\"s" := by
  have single : (synthesize .standard [⟨[⟨.ofType? (some (.name "p")), []⟩],
      some "\"it\\\"s\"", false⟩]).IsSingle "p" "it\\\"s" :=
    isSingle_synthesize .standard "p" "\"it\\\"s\"" false
  refine ⟨by decide, _, ?_, single, fun whole => ?_⟩
  · exact resolveRules_contentSheet .offline .standard 0 (by decide)
      (List.all_eq_true.mp (by decide)) (by simp)
  · exact absurd (single.content_unique whole) (by decide)

end SelectorTree
