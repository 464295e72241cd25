import SelectorTree.Stylesheet.Parser

/-!
# What the stylesheet reader does at one token

A block is read token by token: blanks and semicolons are passed over, and what
follows is a nested rule if it reaches an opening brace, and else a declaration if it
begins with a name.  Each equation says what one such step adds to the block.
-/

namespace SelectorTree

variable {first token : Token} {rest prelude body : List Token} {stops : Token → Bool}
  {name : String}

/-! ## Rows of values -/

namespace ComponentValue

theorem readRow_of_stop (stop : stops first = true) :
    (readRow stops (first :: rest)).1 = ([], first :: rest) := by
  rw [readRow, if_pos stop]

theorem readRow_of_single (goes : stops first = false)
    (single : Enclosure.ofToken? first = none) :
    (readRow stops (first :: rest)).1 =
      (.token first :: (readRow stops rest).1.1, (readRow stops rest).1.2) := by
  rw [readRow, if_neg (Bool.eq_false_iff.mp goes)]
  split
  · rfl
  · next enclosure opens =>
      rw [single] at opens
      cases opens

theorem readRow_of_opening {enclosure : Enclosure} (goes : stops first = false)
    (opens : Enclosure.ofToken? first = some enclosure) :
    (readRow stops (first :: rest)).1 =
      let behind := (afterRow (· == enclosure.closing) rest).tail
      (.enclosed enclosure (row (· == enclosure.closing) rest) :: row stops behind,
        afterRow stops behind) := by
  rw [readRow, if_neg (Bool.eq_false_iff.mp goes)]
  split
  · next single =>
      rw [opens] at single
      cases single
  · next other otherOpens =>
      cases opens.symm.trans otherOpens
      rfl

end ComponentValue

namespace Rule

/-! ## Preludes -/

/-- A token that neither opens nor ends anything. -/
structure Plain (token : Token) : Prop where
  level : depthAfter 0 token = 0
  notOpening : token ≠ .leftBrace
  notEnd : Declaration.ends token = false
  notComma : token ≠ .comma

theorem plain_ident (name : String) : Plain (.ident name) :=
  ⟨rfl, by simp, by simp [Declaration.ends], by simp⟩

theorem plain_delim (c : Char) : Plain (.delim c) :=
  ⟨rfl, by simp, by simp [Declaration.ends], by simp⟩

theorem plain_whitespace : Plain .whitespace :=
  ⟨rfl, by simp, rfl, by simp⟩

theorem splitPrelude?_append (plain : ∀ token ∈ prelude, Plain token) :
    splitPrelude? (prelude ++ .leftBrace :: body) = some (prelude, body) := by
  induction prelude with
  | nil => rfl
  | cons token prelude ih =>
      obtain ⟨first, others⟩ := List.forall_mem_cons.mp plain
      rw [List.cons_append, splitPrelude?, ih others]
      · rfl
      · exact first.notOpening

theorem opensBlock_cons (plain : Plain token) (rest : List Token) :
    opensBlock 0 (token :: rest) = opensBlock 0 rest := by
  rw [opensBlock, if_neg (by simp [plain.notOpening]), if_neg (by simp [plain.notEnd]),
    plain.level]

theorem opensBlock_append (plain : ∀ token ∈ prelude, Plain token) :
    opensBlock 0 (prelude ++ .leftBrace :: body) = true := by
  induction prelude with
  | nil => rfl
  | cons token prelude ih =>
      obtain ⟨first, others⟩ := List.forall_mem_cons.mp plain
      rw [List.cons_append, opensBlock_cons first, ih others]

theorem splitAtCommas_of_plain (plain : ∀ token ∈ prelude, Plain token) :
    splitAtCommas 0 prelude = [prelude] := by
  induction prelude with
  | nil => rfl
  | cons token prelude ih =>
      obtain ⟨first, others⟩ := List.forall_mem_cons.mp plain
      rw [splitAtCommas, if_neg (by simp [first.notComma]), first.level, ih others]

theorem selectorTexts_of_plain (plain : ∀ token ∈ prelude, Plain token)
    (nonempty : Text.trim (Token.write prelude) ≠ "") :
    selectorTexts prelude = [Text.trim (Token.write prelude)] := by
  simp [selectorTexts, splitAtCommas_of_plain plain, nonempty]

/-! ## Blocks -/

/-- A token that is not passed over and with which neither a block ends nor an at-rule
begins. -/
structure Begins (token : Token) : Prop where
  notBrace : token ≠ .rightBrace
  notPassed : ¬(token = .whitespace ∨ token = .semicolon)
  notSkipped : ¬(token = .whitespace ∨ token = .commentOpen ∨ token = .commentClose)
  notAt : ∀ name, token ≠ .atKeyword name

theorem begins_delim (c : Char) : Begins (.delim c) :=
  ⟨by simp, by simp, by simp, by simp⟩

theorem begins_ident (name : String) : Begins (.ident name) :=
  ⟨by simp, by simp, by simp, by simp⟩

theorem readBlock_rightBrace :
    (readBlock (.rightBrace :: rest)).1 = (⟨[], []⟩, .rightBrace :: rest) := by
  rw [readBlock.eq_def]
  simp only [if_true]

theorem readBlock_passed (passed : first = .whitespace ∨ first = .semicolon) :
    (readBlock (first :: rest)).1 = (readBlock rest).1 := by
  have notBrace : first ≠ .rightBrace := by
    rintro rfl
    simp at passed
  rw [readBlock.eq_def]
  simp only [if_neg notBrace, if_pos passed]

theorem readBlock_atRule : (readBlock (.atKeyword name :: rest)).1 =
    let read := AtRule.read name rest
    let following := (readBlock read.2).1
    ({ following.1 with rules := .atRule read.1 :: following.1.rules }, following.2) := by
  rw [readBlock.eq_def]
  simp

/-- What reaches an opening brace is read as a nested rule. -/
theorem readBlock_nested (notBrace : first ≠ .rightBrace)
    (notPassed : ¬(first = .whitespace ∨ first = .semicolon))
    (notAt : ∀ name, first ≠ .atKeyword name) (opens : opensBlock 0 (first :: rest) = true)
    (found : splitPrelude? (first :: rest) = some (prelude, body)) :
    (readBlock (first :: rest)).1 =
      let inner := (readBlock body).1
      let following := (readBlock (dropBrace inner.2)).1
      ({ following.1 with
          rules := .style (selectorTexts prelude) inner.1.declarations inner.1.rules ::
            following.1.rules },
        following.2) := by
  rw [readBlock.eq_def]
  simp only [if_neg notBrace, if_neg notPassed]
  split
  · split
    · next split =>
        rw [found] at split
        cases split
    · next split =>
        rw [found] at split
        cases split
        rfl
  · next noBlock => exact absurd opens noBlock

/-- A rule with a prelude and a block is read as a nested rule. -/
theorem readBlock_style (begins : Begins first) (plain : ∀ token ∈ first :: prelude, Plain token) :
    (readBlock (first :: prelude ++ .leftBrace :: body)).1 =
      let inner := (readBlock body).1
      let following := (readBlock (dropBrace inner.2)).1
      ({ following.1 with
          rules := .style (selectorTexts (first :: prelude)) inner.1.declarations inner.1.rules ::
            following.1.rules },
        following.2) :=
  readBlock_nested begins.notBrace begins.notPassed begins.notAt (opensBlock_append plain)
    (splitPrelude?_append plain)

/-- A name that no block follows begins a declaration. -/
theorem readBlock_declaration (noBlock : opensBlock 0 (.ident name :: rest) = false) :
    (readBlock (.ident name :: rest)).1 =
      let declaration := Declaration.read name rest
      let following := (readBlock declaration.2).1
      ({ following.1 with
          declarations := declaration.1.toList ++ following.1.declarations },
        following.2) := by
  have begins := begins_ident name
  rw [readBlock.eq_def]
  simp only [if_neg begins.notBrace, if_neg begins.notPassed, noBlock, Bool.false_eq_true, if_false]

/-- What begins with no name and reaches no block is passed over as a whole. -/
theorem readBlock_dropped (notBrace : first ≠ .rightBrace)
    (notPassed : ¬(first = .whitespace ∨ first = .semicolon))
    (notAt : ∀ name, first ≠ .atKeyword name) (notName : ∀ name, first ≠ .ident name)
    (noBlock : opensBlock 0 (first :: rest) = false) :
    (readBlock (first :: rest)).1 =
      (readBlock (ComponentValue.afterRow Declaration.ends rest)).1 := by
  rw [readBlock.eq_def]
  simp only [if_neg notBrace, if_neg notPassed]
  split
  · next opens =>
      rw [noBlock] at opens
      cases opens
  · rfl

/-! ## Sheets -/

theorem readAll_nil : readAll [] = [] := by
  rw [readAll]

theorem readAll_style (begins : Begins first) (plain : ∀ token ∈ first :: prelude, Plain token) :
    readAll (first :: prelude ++ .leftBrace :: body) =
      let block := (readBlock body).1
      .style (selectorTexts (first :: prelude)) block.1.declarations block.1.rules ::
        readAll (dropBrace block.2) := by
  have found := @splitPrelude?_append _ body plain
  rw [List.cons_append] at found ⊢
  have read : readStyle? (first :: (prelude ++ .leftBrace :: body)) =
      some (.style (selectorTexts (first :: prelude)) (readBlock body).1.1.declarations
        (readBlock body).1.1.rules, dropBrace (readBlock body).1.2) := by
    rw [readStyle?, found]
    rfl
  rw [readAll.eq_def]
  simp only [if_neg begins.notSkipped]
  split
  · next name => exact absurd rfl (begins.notAt name)
  · split
    · next none =>
        rw [read] at none
        cases none
    · next some =>
        rw [read] at some
        cases some
        rfl

end Rule

theorem Stylesheet.ofText_of_tokenize {text : String} {tokens : List Token}
    (tokenized : Token.tokenize text = tokens ++ [.endOfFile])
    (noEnd : .endOfFile ∉ tokens) : ofText text = ⟨Rule.readAll tokens⟩ := by
  have inside : ∀ token ∈ tokens, (!token.isEndOfFile) = true := by
    intro token member
    have notEnd : token ≠ .endOfFile := fun same => noEnd (same ▸ member)
    simp [Token.isEndOfFile, notEnd]
  rw [ofText, ofTokens, tokenized, List.takeWhile_append_of_pos inside]
  simp [Token.isEndOfFile]

end SelectorTree
