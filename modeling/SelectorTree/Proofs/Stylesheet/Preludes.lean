import SelectorTree.Proofs.Stylesheet.Conservation

/-!
# The brace that is seen ahead and the brace that is taken

Whether a nested rule begins is decided by a look ahead that passes over parentheses and square
brackets.  The rule is then read up to the first brace of all, wherever it stands.  So the prelude
of a nested rule is what was seen ahead unless there is a brace inside, where it is cut short.
-/

namespace SelectorTree.Rule

variable {depth : Nat} {token : Token} {tokens ahead body prelude inner : List Token}

/-! ## The brace ahead -/

/-- What stands in front of the first opening brace outside all parentheses and square brackets,
`depth` of which are open at the start, if no semicolon and no closing brace comes before it. -/
structure EndsAhead (depth : Nat) (ahead : List Token) : Prop where
  outside : ahead.foldl depthAfter depth = 0
  passes : ∀ front token behind, ahead = front ++ token :: behind →
    front.foldl depthAfter depth = 0 → token ≠ .leftBrace ∧ Declaration.ends token = false

theorem endsAhead_nil_iff : EndsAhead depth [] ↔ depth = 0 := by
  constructor
  · exact EndsAhead.outside
  · intro outside
    exact ⟨outside, fun front token behind split => absurd split (by simp)⟩

theorem endsAhead_cons_iff : EndsAhead depth (token :: ahead) ↔
    (depth = 0 → token ≠ .leftBrace ∧ Declaration.ends token = false) ∧
      EndsAhead (depthAfter depth token) ahead := by
  constructor
  · intro ends
    refine ⟨ends.passes [] token ahead rfl, ends.outside, ?_⟩
    intro front other behind split
    exact ends.passes (token :: front) other behind (congrArg (token :: ·) split)
  · rintro ⟨first, later⟩
    refine ⟨later.outside, ?_⟩
    intro front other behind split outside
    cases front with
    | nil =>
        obtain ⟨rfl, -⟩ := List.cons.inj split
        exact first outside
    | cons _ front =>
        obtain ⟨rfl, inside⟩ := List.cons.inj split
        exact later.passes front other behind inside outside

/-- The lookahead finds a block if and only if there is such a brace. -/
theorem opensBlock_iff : opensBlock depth tokens = true ↔
    ∃ ahead body, tokens = ahead ++ .leftBrace :: body ∧ EndsAhead depth ahead := by
  induction tokens generalizing depth with
  | nil => simp [opensBlock]
  | cons token tokens ih =>
      rw [opensBlock]
      split
      · next brace =>
          obtain ⟨outside, rfl⟩ := brace
          simp only [true_iff]
          exact ⟨[], tokens, rfl, endsAhead_nil_iff.mpr outside⟩
      next noBrace =>
      split
      · next ends =>
          simp only [Bool.false_eq_true, false_iff]
          rintro ⟨_ | ⟨first, ahead⟩, body, split, passes⟩
          · exact noBrace ⟨ends.1, (List.cons.inj split).1⟩
          · obtain ⟨rfl, -⟩ := List.cons.inj split
            have notEnd := ((endsAhead_cons_iff.mp passes).1 ends.1).2
            rw [notEnd] at ends
            cases ends.2
      · next noEnd =>
          rw [ih]
          constructor
          · rintro ⟨ahead, body, rfl, later⟩
            refine ⟨token :: ahead, body, rfl, endsAhead_cons_iff.mpr ⟨fun outside => ?_, later⟩⟩
            exact ⟨fun brace => noBrace ⟨outside, brace⟩,
              Bool.eq_false_iff.mpr fun ends => noEnd ⟨outside, ends⟩⟩
          · rintro ⟨_ | ⟨first, ahead⟩, body, split, passes⟩
            · exact absurd ⟨endsAhead_nil_iff.mp passes, (List.cons.inj split).1⟩ noBrace
            · obtain ⟨rfl, rfl⟩ := List.cons.inj split
              exact ⟨ahead, body, rfl, (endsAhead_cons_iff.mp passes).2⟩

/-! ## The prelude -/

theorem takeWhile_ne_leftBrace (noBrace : .leftBrace ∉ prelude) (body : List Token) :
    (prelude ++ .leftBrace :: body).takeWhile (· != .leftBrace) = prelude := by
  rw [List.takeWhile_append_of_pos, List.takeWhile_cons_of_neg (by simp), List.append_nil]
  intro token member
  exact bne_iff_ne.mpr fun brace => noBrace (brace ▸ member)

/-- A prelude is all that stands before the first brace of whatever is seen ahead. -/
theorem prelude_eq_takeWhile (found : splitPrelude? (ahead ++ .leftBrace :: body) =
    some (prelude, inner)) : prelude = ahead.takeWhile (· != .leftBrace) := by
  obtain ⟨same, noBrace⟩ := splitPrelude?_eq_some found
  have taken := takeWhile_ne_leftBrace noBrace inner
  rw [← same, List.takeWhile_append, List.takeWhile_cons_of_neg (by simp), List.append_nil] at taken
  split at taken
  · next whole => rw [← taken, (List.takeWhile_prefix _).eq_of_length whole]
  · exact taken.symm

theorem takeWhile_eq_self_iff_noBrace :
    ahead.takeWhile (· != .leftBrace) = ahead ↔ .leftBrace ∉ ahead := by
  rw [List.takeWhile_eq_self_iff]
  constructor
  · intro noBrace brace
    exact absurd rfl (bne_iff_ne.mp (noBrace _ brace))
  · intro noBrace token member
    exact bne_iff_ne.mpr fun brace => noBrace (brace ▸ member)

/-- The rule that is read where the lookahead finds a block. -/
theorem head?_rules_of_opensBlock (opens : opensBlock 0 tokens = true)
    (found : splitPrelude? tokens = some (prelude, inner))
    (visible : tokens.head? ≠ some .whitespace)
    (notAt : ∀ name, tokens.head? ≠ some (.atKeyword name)) :
    (readBlock tokens).1.1.rules.head? = some (.style (selectorTexts prelude)
      (readBlock inner).1.1.declarations (readBlock inner).1.1.rules) := by
  cases tokens with
  | nil => cases opens
  | cons first rest =>
      have notEnd : ¬Declaration.ends first = true := by
        intro ends
        rw [opensBlock, if_neg, if_pos ⟨rfl, ends⟩] at opens
        · cases opens
        · rintro ⟨-, rfl⟩
          cases ends
      have notBrace : first ≠ .rightBrace := by
        rintro rfl
        exact notEnd rfl
      have notPassed : ¬(first = .whitespace ∨ first = .semicolon) := by
        rintro (rfl | rfl)
        · exact visible rfl
        · exact notEnd rfl
      have notKeyword : ∀ name, first ≠ .atKeyword name := fun name same =>
        notAt name (same ▸ rfl)
      rw [readBlock_nested notBrace notPassed notKeyword opens found]
      rfl

/-- Where the lookahead finds a block, the rule takes as its prelude what was seen ahead up to the
first brace in it, and so all of it if and only if there is none. -/
theorem prelude_of_opensBlock (opens : opensBlock 0 tokens = true) :
    ∃ ahead body prelude inner, tokens = ahead ++ .leftBrace :: body ∧ EndsAhead 0 ahead ∧
      splitPrelude? tokens = some (prelude, inner) ∧
      prelude = ahead.takeWhile (· != .leftBrace) ∧ (prelude = ahead ↔ .leftBrace ∉ ahead) ∧
      (tokens.head? ≠ some .whitespace → (∀ name, tokens.head? ≠ some (.atKeyword name)) →
        (readBlock tokens).1.1.rules.head? = some (.style (selectorTexts prelude)
          (readBlock inner).1.1.declarations (readBlock inner).1.1.rules)) := by
  obtain ⟨ahead, body, split, ends⟩ := opensBlock_iff.mp opens
  cases found : splitPrelude? tokens with
  | none => exact absurd (leftBrace_mem_of_opensBlock opens) (splitPrelude?_eq_none_iff.mp found)
  | some taken =>
      obtain ⟨prelude, inner⟩ := taken
      have cut : prelude = ahead.takeWhile (· != .leftBrace) := prelude_eq_takeWhile (split ▸ found)
      refine ⟨ahead, body, prelude, inner, split, ends, rfl, cut, ?_, ?_⟩
      · rw [cut, takeWhile_eq_self_iff_noBrace]
      · exact head?_rules_of_opensBlock opens found

/-- A semicolon in parentheses belongs to the prelude. -/
theorem prelude_of_opensBlock_semicolon :
    ∃ ahead body prelude inner,
      [.function "a", .semicolon, .rightParen, .leftBrace] = ahead ++ .leftBrace :: body ∧
      EndsAhead 0 ahead ∧
      splitPrelude? [.function "a", .semicolon, .rightParen, .leftBrace] =
        some (prelude, inner) ∧
      prelude = ahead.takeWhile (· != .leftBrace) ∧ (prelude = ahead ↔ .leftBrace ∉ ahead) ∧
      prelude = [.function "a", .semicolon, .rightParen] ∧ inner = [] ∧
      (readBlock [.function "a", .semicolon, .rightParen, .leftBrace]).1.1.rules.head? =
        some (.style (selectorTexts prelude) (readBlock inner).1.1.declarations
          (readBlock inner).1.1.rules) := by
  obtain ⟨ahead, body, prelude, inner, split, ends, found, cut, whole, read⟩ :=
    @prelude_of_opensBlock [.function "a", .semicolon, .rightParen, .leftBrace] (by decide)
  obtain ⟨taken, rest⟩ : [.function "a", .semicolon, .rightParen] = prelude ∧ [] = inner :=
    Prod.mk.inj (Option.some.inj found)
  exact ⟨ahead, body, prelude, inner, split, ends, found, cut, whole, taken.symm, rest.symm,
    read (by simp) (by simp)⟩

/-- A brace in parentheses cuts the prelude short: the rule that `a({}) {}` begins has the
prelude `a(`. -/
theorem prelude_cut_short :
    opensBlock 0 [.function "a", .leftBrace, .rightBrace, .rightParen, .whitespace, .leftBrace,
        .rightBrace] = true ∧
      EndsAhead 0 [.function "a", .leftBrace, .rightBrace, .rightParen, .whitespace] ∧
      splitPrelude? [.function "a", .leftBrace, .rightBrace, .rightParen, .whitespace, .leftBrace,
          .rightBrace] =
        some ([.function "a"],
          [.rightBrace, .rightParen, .whitespace, .leftBrace, .rightBrace]) := by
  refine ⟨by decide, ?_, rfl⟩
  simp [endsAhead_cons_iff, endsAhead_nil_iff, depthAfter, Declaration.ends]

end SelectorTree.Rule
