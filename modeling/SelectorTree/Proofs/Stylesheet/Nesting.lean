import SelectorTree.Proofs.Import.Collecting
import SelectorTree.Proofs.Selector.Reading
import SelectorTree.Proofs.Stylesheet.Reading
import SelectorTree.Proofs.Token.Reading

/-!
# Class names through tokens, nesting and selectors

A class name is written as an identifier, read as a token, written again, trimmed,
joined to the selector around it and read as a selector.  All but trimming keep it:
trimming cuts into the spelling of a name that ends with a blank, and takes the space
that closes a hexadecimal escape, in whose place the escape then swallows the space
before a nested selector.
-/

namespace SelectorTree

open Text

/-! ## Nothing to substitute -/

namespace Nesting

variable {parent chars rest : List Char} {c : Char} {part text name shorter : List Char}
  {quote : Option Char}

/-- A character that neither begins an escape or a string nor is replaced. -/
def passes (c : Char) : Bool := !(c == '\\' || c == '&' || isQuote c)

theorem substitute_cons (pass : passes c = true) :
    (substitute parent none (c :: rest)).2 = (substitute parent none rest).2 := by
  simp only [passes, Bool.not_eq_true', Bool.or_eq_false_iff, beq_eq_false_iff_ne] at pass
  obtain ⟨⟨notBackslash, notParent⟩, notQuote⟩ := pass
  rw [substitute]
  · simp [notParent, notQuote]
  · rintro rfl
    exact absurd rfl notBackslash
  · rintro _ _ rfl
    exact absurd rfl notBackslash

theorem substitute_append (pass : ∀ c ∈ chars, passes c = true) :
    (substitute parent none (chars ++ rest)).2 = (substitute parent none rest).2 := by
  induction chars with
  | nil => rfl
  | cons c chars ih =>
      obtain ⟨first, others⟩ := List.forall_mem_cons.mp pass
      rw [List.cons_append, substitute_cons first, ih others]

theorem passes_of_isNameChar (named : isNameChar c = true) : passes c = true := by
  have notOther : ∀ other, isNameChar other = false → c ≠ other := by
    rintro other unnamed rfl
    rw [named] at unnamed
    cases unnamed
  simp [passes, isQuote, notOther '\\' rfl, notOther '&' rfl, notOther '\'' rfl, notOther '"' rfl]

theorem substitute_spelling (spelling : Spelling c part) :
    (substitute parent none (part ++ rest)).2 = (substitute parent none rest).2 := by
  cases spelling with
  | plain named => exact substitute_cons (passes_of_isNameChar named)
  | escaped => rfl
  | coded special =>
      have digits := isHexDigit_of_mem_shortHex (code_of_special special).1
      obtain ⟨digit, others, written, -⟩ := exists_shortHex_eq_cons (code_of_special special).1
      rw [written] at digits
      have pass : ∀ c ∈ others ++ [' '], passes c = true := by
        rw [List.forall_mem_append, List.forall_mem_singleton]
        refine ⟨fun c member => ?_, rfl⟩
        exact passes_of_isNameChar
          (isNameChar_of_isHexDigit (digits c (List.mem_cons_of_mem digit member)))
      rw [hexEscape, written]
      exact @substitute_append parent (others ++ [' ']) rest pass

theorem substitute_spells (spells : Spells name text) :
    (substitute parent none (text ++ rest)).2 = (substitute parent none rest).2 := by
  induction spells with
  | nil => rfl
  | cons first _ ih => rw [List.append_assoc, substitute_spelling first, ih]

/-- Where nothing is replaced in a text, nothing is in a beginning of it. -/
theorem substitute_of_prefix (begins : shorter <+: text)
    (unchanged : (substitute parent quote text).2 = false) :
    (substitute parent quote shorter).2 = false := by
  fun_induction substitute parent quote text generalizing shorter with
  | case1 =>
      rw [List.prefix_nil.mp begins]
      rfl
  | case2 =>
      rcases List.prefix_cons_iff.mp begins with rfl | ⟨_, rfl, inside⟩
      · rfl
      · rw [List.prefix_nil.mp inside]
        rfl
  | case3 quote escaped rest =>
      rename_i ih
      rcases List.prefix_cons_iff.mp begins with rfl | ⟨_, rfl, inside⟩
      · rfl
      rcases List.prefix_cons_iff.mp inside with rfl | ⟨_, rfl, further⟩
      · rfl
      have inner := ih further unchanged
      exact inner
  | case4 => cases unchanged
  | case5 quote c rest notLone notEscape kept =>
      rename_i ih
      rcases List.prefix_cons_iff.mp begins with rfl | ⟨shorter, rfl, further⟩
      · rfl
      have notBackslash : c ≠ '\\' := by
        rintro rfl
        cases rest with
        | nil => exact notLone rfl rfl
        | cons escaped rest => exact notEscape escaped rest rfl rfl
      have inner := ih further unchanged
      rw [substitute.eq_def]
      split
      · rfl
      · rfl
      · next same => exact absurd (List.cons.inj same).1 notBackslash
      · next same =>
          cases same
          rw [if_neg kept]
          exact inner

end Nesting

/-! ## Two nested classes -/

variable {v w : String} {name text front rest : List Char} {source : Source} {options : Options}
  {limit : Nat}

/-- A sheet with a rule for a class nested in a rule for a class. -/
def nestedClasses (v w : String) : String :=
  "." ++ identifier v ++ " \x7b ." ++ identifier w ++ " \x7b \x7d \x7d"

/-- What is left of a class selector once its prelude is trimmed. -/
def trimmedClass (name : String) : List Char :=
  '.' :: dropTrailing isBlank (writeIdentifier name.toList)

theorem toList_nestedClasses : (nestedClasses v w).toList =
    '.' :: writeIdentifier v.toList ++ ' ' :: '\x7b' :: ' ' :: '.' :: writeIdentifier w.toList ++
      ' ' :: '\x7b' :: ' ' :: '\x7d' :: ' ' :: ['\x7d'] := by
  simp [nestedClasses, identifier]

theorem tokenize_nestedClasses (vNamed : v ≠ "") (wNamed : w ≠ "")
    (vNoNul : ∀ c ∈ v.toList, c.toNat ≠ 0) (wNoNul : ∀ c ∈ w.toList, c.toNat ≠ 0) :
    Token.tokenize (nestedClasses v w) =
      [.delim '.', .ident v, .whitespace, .leftBrace, .whitespace, .delim '.', .ident w,
        .whitespace, .leftBrace, .whitespace, .rightBrace, .whitespace, .rightBrace] ++
      [.endOfFile] := by
  have ordinary : ∀ c ∈ (nestedClasses v w).toList, isControl c = false := by
    have inside := (spells_writeIdentifier vNoNul).not_isControl
    have nested := (spells_writeIdentifier wNoNul).not_isControl
    rw [toList_nestedClasses]
    simp only [List.cons_append, List.append_assoc, List.forall_mem_cons, List.forall_mem_append]
    exact ⟨rfl, inside, rfl, rfl, rfl, rfl, nested, rfl, rfl, rfl, rfl, rfl, rfl, by simp⟩
  have vSome : v.toList ≠ [] := mt String.toList_eq_nil_iff.mp vNamed
  have wSome : w.toList ≠ [] := mt String.toList_eq_nil_iff.mp wNamed
  rw [Token.tokenize_of_not_isControl ordinary, toList_nestedClasses]
  simp only [List.append_assoc, List.cons_append]
  rw [Token.readAll_writeClass vSome vNoNul rfl, Token.readAll_space rfl,
    Token.readAll_punctuation rfl, Token.readAll_space rfl,
    Token.readAll_writeClass wSome wNoNul rfl, Token.readAll_space rfl,
    Token.readAll_punctuation rfl, Token.readAll_space rfl, Token.readAll_punctuation rfl,
    Token.readAll_space rfl, Token.readAll_punctuation rfl, Token.readAll_nil,
    String.ofList_toList, String.ofList_toList]
  rfl

theorem trim_write_class (name : String) :
    trim (Token.write [.delim '.', .ident name, .whitespace]) =
      String.ofList (trimmedClass name) := by
  have written : (Token.write [.delim '.', .ident name, .whitespace]).toList =
      '.' :: (writeIdentifier name.toList ++ [' ']) := by
    simp [Token.write, Token.chars]
  rw [trim, written, trimChars_cons_of_not_blank rfl, dropTrailing_concat_of_blank rfl,
    trimmedClass]

theorem plain_class (name : String) :
    ∀ token ∈ [.delim '.', .ident name, .whitespace], Rule.Plain token := by
  rw [List.forall_mem_cons, List.forall_mem_cons, List.forall_mem_singleton]
  exact ⟨Rule.plain_delim '.', Rule.plain_ident name, Rule.plain_whitespace⟩

theorem selectorTexts_class (name : String) :
    Rule.selectorTexts [.delim '.', .ident name, .whitespace] =
      [String.ofList (trimmedClass name)] := by
  have nonempty : trim (Token.write [.delim '.', .ident name, .whitespace]) ≠ "" := by
    rw [trim_write_class, trimmedClass]
    simp [← String.toList_inj]
  rw [Rule.selectorTexts_of_plain (plain_class name) nonempty, trim_write_class]

theorem ofText_nestedClasses (vNamed : v ≠ "") (wNamed : w ≠ "")
    (vNoNul : ∀ c ∈ v.toList, c.toNat ≠ 0) (wNoNul : ∀ c ∈ w.toList, c.toNat ≠ 0) :
    Stylesheet.ofText (nestedClasses v w) =
      ⟨[.style [String.ofList (trimmedClass v)] []
        [.style [String.ofList (trimmedClass w)] [] []]]⟩ := by
  have inner : (Rule.readBlock [.whitespace, .delim '.', .ident w, .whitespace, .leftBrace,
      .whitespace, .rightBrace, .whitespace, .rightBrace]).1 =
      (⟨[], [.style [String.ofList (trimmedClass w)] [] []]⟩, [.rightBrace]) := by
    have nested := @Rule.readBlock_style (.delim '.') [.ident w, .whitespace]
      [.whitespace, .rightBrace, .whitespace, .rightBrace] (Rule.begins_delim '.') (plain_class w)
    rw [Rule.readBlock_passed (Or.inl rfl), Rule.readBlock_rightBrace] at nested
    simp only [Rule.dropBrace] at nested
    rw [Rule.readBlock_passed (Or.inl rfl), Rule.readBlock_rightBrace,
      selectorTexts_class] at nested
    rw [Rule.readBlock_passed (Or.inl rfl)]
    exact nested
  have outer := @Rule.readAll_style (.delim '.') [.ident v, .whitespace]
    [.whitespace, .delim '.', .ident w, .whitespace, .leftBrace, .whitespace, .rightBrace,
      .whitespace, .rightBrace] (Rule.begins_delim '.') (plain_class v)
  simp only [inner, selectorTexts_class, Rule.dropBrace, Rule.readAll_nil] at outer
  have tokenized := tokenize_nestedClasses vNamed wNamed vNoNul wNoNul
  rw [Stylesheet.ofText_of_tokenize tokenized (by simp), ← outer]
  rfl

theorem nest_trimmedClass (parent : String) (noNul : ∀ c ∈ w.toList, c.toNat ≠ 0) :
    Nesting.nest parent (String.ofList (trimmedClass w)) =
      parent ++ " " ++ String.ofList (trimmedClass w) := by
  have whole : (Nesting.substitute parent.toList none ('.' :: writeIdentifier w.toList)).2 =
      false := by
    have spelled := @Nesting.substitute_spells parent.toList [] _ _ (spells_writeIdentifier noNul)
    rw [Nesting.substitute_cons rfl, ← List.append_nil (writeIdentifier w.toList), spelled]
    rfl
  have begins : trimmedClass w <+: '.' :: writeIdentifier w.toList :=
    List.cons_prefix_cons.mpr ⟨rfl, dropTrailing_prefix _⟩
  have unchanged := Nesting.substitute_of_prefix begins whole
  rw [Nesting.nest, String.toList_ofList, if_neg (by simp [unchanged])]

/-- The sheet stands for two flat rules, the second with both trimmed texts. -/
theorem resolveRules_nestedClasses (vNamed : v ≠ "") (wNamed : w ≠ "")
    (vNoNul : ∀ c ∈ v.toList, c.toNat ≠ 0) (wNoNul : ∀ c ∈ w.toList, c.toNat ≠ 0) :
    (resolveRules source options (limit + 1) (.ofText (nestedClasses v w))).1 =
      .ok ([⟨String.ofList (trimmedClass v), none, false⟩,
        ⟨String.ofList (trimmedClass v ++ ' ' :: trimmedClass w), none, false⟩].filterMap
          TreeRule.ofFlat?) := by
  have joined : String.ofList (trimmedClass v) ++ " " ++ String.ofList (trimmedClass w) =
      String.ofList (trimmedClass v ++ ' ' :: trimmedClass w) := by
    simp [← String.toList_inj]
  rw [ofText_nestedClasses vNamed wNamed vNoNul wNoNul,
    resolveRules_of_styles source options limit (by simp [Rule.isStyle])]
  simp [Flattened.ofRule, Flattened.ofRules, Flattened.qualify, Flattened.append, Flattened.empty,
    Declaration.last?, nest_trimmedClass _ wNoNul, joined]

/-! ## What the trimmed texts are read as -/

/-- If both texts read as they should, the outer name has lost nothing. -/
theorem dropTrailing_eq_of_reads {chars : List Char} {subject : Compound} (named : name ≠ [])
    (spells : Spells name text)
    (outer : SelectorList.readAll ('.' :: dropTrailing isBlank text) =
      .ok [⟨.ofClass (String.ofList name), []⟩])
    (inner : SelectorList.readAll ('.' :: (dropTrailing isBlank text ++ ' ' :: '.' :: chars)) =
      .ok [⟨subject, [(.descendant, .ofClass (String.ofList name))]⟩]) :
    dropTrailing isBlank text = text := by
  obtain ⟨_, outerRead⟩ := SelectorList.exists_read_of_readAll outer
  obtain ⟨_, innerRead⟩ := SelectorList.exists_read_of_readAll inner
  have whole := ComplexSelector.readName_of_readFrom outerRead
  obtain ⟨init, c, rfl⟩ := (List.eq_nil_or_concat' name).resolve_left named
  cases spells.trimmed with
  | whole visible kept => exact kept
  | coded special spellsFront written kept =>
      -- The escape swallows the space, and the point behind it begins a second class.
      have swallowed : dropTrailing isBlank text ++ ' ' :: '.' :: chars = text ++ '.' :: chars := by
        rw [kept, written]
        simp [hexEscape]
      rw [swallowed] at innerRead
      have point : (readName isBlank (text ++ '.' :: chars)).2 = '.' :: chars := by
        rw [spells.readName_append rfl, Token.readName_of_endsName rfl]
      exact absurd point (ComplexSelector.readName_ne_point_of_readFrom innerRead)
  | spoilt blank ordinary spellsFront kept =>
      have shorter := spellsFront.length_readName_spoilt kept
      rw [whole, List.length_append] at shorter
      exact absurd shorter (Nat.not_succ_le_self _)

theorem starts_point (chars : List Char) : Compound.starts ('.' :: chars) = true := by
  simp [Compound.starts, SimpleSelector.starts]

theorem readFrom_class {chars : List Char} {outer : List (Combinator × Compound)}
    (starts : startsIdentifier chars = true) (named : readName isBlank chars = (name, [])) :
    ComplexSelector.readFrom outer ('.' :: chars) =
      .ok (⟨.ofClass (String.ofList name), outer⟩, []) :=
  ComplexSelector.readFrom_last (starts_point _) (Compound.read_class starts named (by simp))

theorem readFrom_class_space {chars : List Char} {outer : List (Combinator × Compound)}
    (spells : Spells name text)
    (starts : startsIdentifier (text ++ ' ' :: '.' :: chars) = true) :
    ComplexSelector.readFrom outer ('.' :: (text ++ ' ' :: '.' :: chars)) =
      ComplexSelector.readFrom ((.descendant, .ofClass (String.ofList name)) :: outer)
        ('.' :: chars) := by
  have named : readName isBlank (text ++ ' ' :: '.' :: chars) = (name, ' ' :: '.' :: chars) := by
    rw [spells.readName_append rfl, Token.readName_of_endsName rfl, List.append_nil]
  have compound := Compound.read_class starts named (by simp [SimpleSelector.starts])
  exact ComplexSelector.readFrom_descendant (starts_point _) compound

theorem filterMap_pair_eq_iff {α β : Type} {f : α → Option β} {a b : α} {c d : β} :
    [a, b].filterMap f = [c, d] ↔ f a = some c ∧ f b = some d := by
  cases first : f a <;> cases second : f b <;> simp [first, second]

theorem readAll_trimmed_iff {outerName innerName outerText innerText : List Char}
    (outerNamed : outerName ≠ []) (innerNamed : innerName ≠ [])
    (outerSpells : Spells outerName outerText) (innerSpells : Spells innerName innerText)
    (outerStarts : ∀ rest, startsIdentifier (outerText ++ rest) = true)
    (innerStarts : startsIdentifier innerText = true) :
    (SelectorList.readAll ('.' :: dropTrailing isBlank outerText) =
        .ok [⟨.ofClass (String.ofList outerName), []⟩] ∧
      SelectorList.readAll ('.' :: (dropTrailing isBlank outerText ++
          ' ' :: '.' :: dropTrailing isBlank innerText)) =
        .ok [⟨.ofClass (String.ofList innerName),
          [(.descendant, .ofClass (String.ofList outerName))]⟩]) ↔
      dropTrailing isBlank outerText = outerText ∧
        ∀ last ∈ innerName.getLast?, isBlank last = true → isControl last = true := by
  have joined (chars : List Char) := @readFrom_class_space _ _ chars [] outerSpells (outerStarts _)
  obtain ⟨init, c, rfl⟩ := (List.eq_nil_or_concat' innerName).resolve_left innerNamed
  rw [List.getLast?_concat]
  constructor
  · rintro ⟨outer, inner⟩
    have kept := dropTrailing_eq_of_reads outerNamed outerSpells outer inner
    obtain ⟨rest, innerRead⟩ := SelectorList.exists_read_of_readAll inner
    have nested := (joined _).symm.trans (kept ▸ innerRead)
    refine ⟨kept, ?_⟩
    rintro last ⟨⟩ blank
    exact innerSpells.isControl_of_readName_trimmed
      (ComplexSelector.readName_of_readFrom nested) blank
  · rintro ⟨kept, survives⟩
    obtain ⟨innerRead, starts⟩ := innerSpells.readName_trimmed (survives c rfl) innerStarts
    have outerStart := outerStarts []
    rw [List.append_nil] at outerStart
    rw [kept]
    refine ⟨SelectorList.readAll_single (readFrom_class outerStart outerSpells.readName_eq),
      SelectorList.readAll_single ((joined _).trans (readFrom_class starts innerRead))⟩

/-- Two nested classes are read as such exactly if the spelling of the outer name does not
end with a blank, and the inner name ends with no blank but a control character. -/
theorem resolveRules_nestedClasses_iff (source : Source) (options : Options) (limit : Nat)
    (vNamed : v ≠ "") (wNamed : w ≠ "") (vNoNul : ∀ c ∈ v.toList, c.toNat ≠ 0)
    (wNoNul : ∀ c ∈ w.toList, c.toNat ≠ 0) :
    (resolveRules source options (limit + 1) (.ofText (nestedClasses v w))).1 =
        .ok [⟨[⟨.ofClass v, []⟩], none, false⟩,
          ⟨[⟨.ofClass w, [(.descendant, .ofClass v)]⟩], none, false⟩] ↔
      (∀ last ∈ (writeIdentifier v.toList).getLast?, isBlank last = false) ∧
        ∀ last ∈ w.toList.getLast?, isBlank last = true → isControl last = true := by
  have vSome : v.toList ≠ [] := mt String.toList_eq_nil_iff.mp vNamed
  have wSome : w.toList ≠ [] := mt String.toList_eq_nil_iff.mp wNamed
  have wStarts := startsIdentifier_writeIdentifier wSome wNoNul []
  rw [List.append_nil] at wStarts
  have reads := readAll_trimmed_iff vSome wSome (spells_writeIdentifier vNoNul)
    (spells_writeIdentifier wNoNul) (startsIdentifier_writeIdentifier vSome vNoNul) wStarts
  rw [String.ofList_toList, String.ofList_toList] at reads
  rw [resolveRules_nestedClasses vNamed wNamed vNoNul wNoNul, Except.ok.injEq,
    filterMap_pair_eq_iff, TreeRule.ofFlat?_eq_some_iff, TreeRule.ofFlat?_eq_some_iff,
    ← dropTrailing_eq_self_iff]
  simp only [String.toList_ofList, trimmedClass, List.cons_append, and_true]
  exact reads

theorem resolveRules_nestedClasses_tab :
    (resolveRules .offline .standard 1 (.ofText (nestedClasses "a b" "c\t"))).1 =
      .ok [⟨[⟨.ofClass "a b", []⟩], none, false⟩,
        ⟨[⟨.ofClass "c\t", [(.descendant, .ofClass "a b")]⟩], none, false⟩] :=
  (resolveRules_nestedClasses_iff .offline .standard 0 (by decide) (by decide) (by simp)
    (by simp)).mpr ⟨by rintro last ⟨⟩; rfl, by rintro last ⟨⟩ -; rfl⟩

/-- A digit is written with a space that closes its escape.  Once that is trimmed, the
escape takes the space before the nested class, and both classes fall on one element. -/
theorem resolveRules_nestedClasses_digit :
    (resolveRules .offline .standard 1 (.ofText (nestedClasses "1" "a"))).1 =
        .ok [⟨[⟨.ofClass "1", []⟩], none, false⟩,
          ⟨[⟨(Compound.ofClass "1").add (.className "a"), []⟩], none, false⟩] ∧
      (resolveRules .offline .standard 1 (.ofText (nestedClasses "1" "a"))).1 ≠
        .ok [⟨[⟨.ofClass "1", []⟩], none, false⟩,
          ⟨[⟨.ofClass "a", [(.descendant, .ofClass "1")]⟩], none, false⟩] := by
  decide +kernel

end SelectorTree
