import Mathlib.Data.List.Forall2
import SelectorTree.Proofs.Import.Collecting
import SelectorTree.Proofs.Selector.Continuing
import SelectorTree.Stylesheet.Nesting

/-!
# Nested rules as chains of selectors

A nested rule is flattened by pasting texts: each of its selectors is put behind each
selector of the rule around it.  The reader takes such a text apart where it was pasted, so an
alternative of a flat rule is a choice of one selector on every level, and its chain is made of
the chains of those selectors, one behind the other.
-/

namespace SelectorTree

open Text

/-- Compounds from the outermost inwards, each with the combinator on its left. -/
abbrev Chain : Type := List (Combinator × Compound)

/-- A chain that is joined by a combinator to what stands before it. -/
def Chain.lead (combinator : Combinator) : Chain → Chain
  | [] => []
  | (_, compound) :: inner => (combinator, compound) :: inner

/-! ## What a nested rule stands for -/

/-- The chain of a text that is read as a single alternative. -/
def soleChain? (text : String) : Option Chain :=
  match SelectorList.ofText text with
  | .ok [selector] => some selector.chain
  | _ => none

/-- The chain of a nested selector, which may begin with the combinator that joins it to the
selector around it. -/
def relativeChain? (text : String) : Option Chain :=
  match text.toList with
  | [] => none
  | first :: rest =>
    match Combinator.ofChar? first with
    | some combinator => (soleChain? (String.ofList rest)).map (Chain.lead combinator)
    | none => soleChain? text

/-- The chain of selectors nested in one another, outermost first. -/
def nestedChain? : List String → Option Chain
  | [] => none
  | outermost :: nested => do
    let front ← soleChain? outermost
    let behind ← nested.mapM relativeChain?
    return front ++ behind.flatten

/-- The ways to choose one item on every level, those that agree on the first level next to
one another. -/
def combinations {α : Type} : List (List α) → List (List α)
  | [] => [[]]
  | level :: levels => level.flatMap fun choice => (combinations levels).map (choice :: ·)

/-- A style rule with the selectors of the rules around it: `levels` holds their texts, the
outermost first and its own last. -/
structure NestedRule where
  levels : List (List String)
  declarations : List Declaration

mutual

/-- The style rules that a rule consists of, each before those nested in it; `around` holds
the selector texts of the rules around it. -/
def Rule.styles (around : List (List String)) : Rule → List NestedRule
  | .style selectors declarations nested =>
    ⟨around ++ [selectors], declarations⟩ :: stylesOfAll (around ++ [selectors]) nested
  | .atRule _ => []

def Rule.stylesOfAll (around : List (List String)) : List Rule → List NestedRule
  | [] => []
  | rule :: rest => rule.styles around ++ stylesOfAll around rest

end

/-- The characters outside strings; `quote` is the quote of the string that is open. -/
def Nesting.outside : Option Char → List Char → List Char
  | _, [] => []
  | none, c :: rest => if isQuote c then outside (some c) rest else c :: outside none rest
  | some quote, c :: rest => outside (if c = quote then none else some quote) rest

/-- Selectors that can be combined with others by pasting: nothing in them is escaped or stands
for the selector around them, and each has a chain. -/
def Nesting.Nests (chain? : String → Option Chain) (selectors : List String) : Prop :=
  selectors ≠ [] ∧ ∀ text ∈ selectors,
    Plain text.toList ∧ '&' ∉ outside none text.toList ∧ (chain? text).isSome = true

mutual

/-- A rule all of whose selectors can be pasted; `chain?` says how its own are read, those of
the rules in it are relative. -/
def Rule.Nestable (chain? : String → Option Chain) : Rule → Prop
  | .style selectors _ nested => Nesting.Nests chain? selectors ∧ NestableAll nested
  | .atRule _ => True

def Rule.NestableAll : List Rule → Prop
  | [] => True
  | rule :: rest => rule.Nestable relativeChain? ∧ NestableAll rest

end

/-- A flat rule that stands for a style rule: it is read, and its alternatives are the
combinations of one selector on every level, in order. -/
def FlatRule.StandsFor (imported : Bool) (flat : FlatRule) (nested : NestedRule) : Prop :=
  ∃ rule, TreeRule.ofFlat? flat = some rule ∧
    (rule.selectors.map fun selector => some selector.chain) =
      (combinations nested.levels).map nestedChain? ∧
    rule.content =
      (Declaration.last? nested.declarations "content").map Declaration.valueText ∧
    rule.imported = imported

/-! ## Chains -/

theorem Chain.lead_append {front behind : Chain} {combinator : Combinator} (some : front ≠ []) :
    lead combinator (front ++ behind) = lead combinator front ++ behind := by
  cases front with
  | nil => exact absurd rfl some
  | cons first front => rfl

theorem ComplexSelector.chainFrom_append {subject joined : Compound} {combinator : Combinator}
    {inner outer : List (Combinator × Compound)} :
    chainFrom subject (inner ++ (combinator, joined) :: outer) =
      chainFrom joined outer ++ Chain.lead combinator (chainFrom subject inner) := by
  induction inner generalizing subject with
  | nil => rfl
  | cons step inner ih =>
      obtain ⟨between, compound⟩ := step
      rw [List.cons_append, chainFrom, chainFrom, ih, Chain.lead_append chainFrom_ne_nil,
        List.append_assoc]

/-- The first compound of an alternative counts as a descendant. -/
theorem ComplexSelector.chain_lead (selector : ComplexSelector) :
    Chain.lead .descendant selector.chain = selector.chain := by
  suffices inside : ∀ subject outer,
      Chain.lead .descendant (chainFrom subject outer) = chainFrom subject outer from inside _ _
  intro subject outer
  induction outer generalizing subject with
  | nil => rfl
  | cons step outer ih => rw [chainFrom, Chain.lead_append chainFrom_ne_nil, ih]

theorem combinations_concat {α : Type} (levels : List (List α)) (level : List α) :
    combinations (levels ++ [level]) =
      (combinations levels).flatMap fun outer => level.map fun choice => outer ++ [choice] := by
  induction levels with
  | nil => simp [combinations, List.map_eq_flatMap]
  | cons first levels ih =>
      simp [combinations, ih, List.flatMap_assoc, List.map_flatMap, List.flatMap_map,
        Function.comp_def]

theorem nestedChain?_concat {outer : List String} {text : String} {front behind : Chain}
    (frontChain : nestedChain? outer = some front) (chain : relativeChain? text = some behind) :
    nestedChain? (outer ++ [text]) = some (front ++ behind) := by
  cases outer with
  | nil => cases frontChain
  | cons outermost nested =>
      simp only [nestedChain?, Option.bind_eq_bind, Option.bind_eq_some_iff] at frontChain
      obtain ⟨first, firstChain, others, othersChains, joined⟩ := frontChain
      cases joined
      simp [nestedChain?, firstChain, othersChains, chain]

/-! ## Pasted texts -/

variable {chars : List Char} {parent text : String} {outer : ComplexSelector} {chain : Chain}

theorem read_of_soleChain? (sole : soleChain? text = some chain) :
    ∃ selector, ComplexSelector.read text.toList = .ok (selector, []) ∧
      selector.chain = chain := by
  unfold soleChain? at sole
  split at sole
  · next selector found =>
      cases sole
      have read := SelectorList.ofText_eq_ok_iff.mp found
      exact ⟨selector, SelectorList.read_of_readAll_single read, rfl⟩
  · cases sole

/-- A selector behind another one: what is read between them joins their chains. -/
theorem ComplexSelector.read_joined {front behind between : List Char} {inner : ComplexSelector}
    {combinator : Combinator} (plain : Plain front)
    (frontRead : ComplexSelector.read front = .ok (outer, []))
    (behindRead : ComplexSelector.read behind = .ok (inner, []))
    (joins : readCombinator (' ' :: between) = .ok (some combinator, skipBlanks behind)) :
    ∃ selector, ComplexSelector.read (front ++ ' ' :: between) = .ok (selector, []) ∧
      selector.chain = outer.chain ++ Chain.lead combinator inner.chain := by
  refine ⟨⟨inner.subject, inner.outer ++ (combinator, outer.subject) :: outer.outer⟩, ?_,
    chainFrom_append⟩
  have visible : skipBlanks front ≠ [] := by
    intro blanks
    rw [ComplexSelector.read, blanks, readFrom.eq_def] at frontRead
    cases frontRead
  have longer : readFrom [] (skipBlanks front ++ ' ' :: between) = resume outer (' ' :: between) :=
    readFrom_append (plain.suffix (skipBlanks_suffix front)) endsCompound_space frontRead
  rw [ComplexSelector.read, skipBlanks_append visible, longer, resume, joins]
  exact @readFrom_outer _ _ (_ :: _) [] _ behindRead

/-- A nested selector behind the selector around it. -/
theorem ComplexSelector.read_nested (plain : Plain parent.toList)
    (outerRead : ComplexSelector.read parent.toList = .ok (outer, []))
    (relative : relativeChain? text = some chain) :
    ∃ selector, ComplexSelector.read (parent.toList ++ ' ' :: text.toList) = .ok (selector, []) ∧
      selector.chain = outer.chain ++ chain := by
  unfold relativeChain? at relative
  split at relative
  · cases relative
  · next first rest characters =>
      split at relative
      · next combinator joins =>
          obtain ⟨_, sole, rfl⟩ := Option.map_eq_some_iff.mp relative
          obtain ⟨inner, innerRead, rfl⟩ := read_of_soleChain? sole
          rw [String.toList_ofList] at innerRead
          rw [characters]
          exact read_joined plain outerRead innerRead (readCombinator_space_combinator joins)
      · obtain ⟨inner, innerRead, rfl⟩ := read_of_soleChain? relative
        rw [← chain_lead inner]
        exact read_joined plain outerRead innerRead
          (readCombinator_space (starts_of_readFrom innerRead))

/-! ## Nothing to substitute -/

namespace Nesting

theorem substitute_of_outside {parent : List Char} {quote : Option Char} (plain : Plain chars)
    (kept : '&' ∉ outside quote chars) : (substitute parent quote chars).2 = false := by
  fun_induction substitute parent quote chars with
  | case1 => rfl
  | case2 => rfl
  | case3 => exact absurd List.mem_cons_self plain
  | case4 quote c rest _ _ stands =>
      obtain ⟨rfl, rfl⟩ := stands
      exact absurd List.mem_cons_self kept
  | case5 quote c rest _ _ stays inside tail ih =>
      refine ih (plain_cons.mp plain).2 fun member => kept ?_
      cases quote with
      | none =>
          simp only [inside] at member
          rw [outside]
          split
          · next opens => rwa [if_pos opens] at member
          · next opensNot =>
              rw [if_neg opensNot] at member
              exact List.mem_cons_of_mem c member
      | some opened => exact member

/-- Where nothing stands for the selector around it, the two are joined by a space. -/
theorem nest_of_outside (plain : Plain text.toList) (kept : '&' ∉ outside none text.toList) :
    nest parent text = parent ++ " " ++ text := by
  rw [nest, if_neg (Bool.eq_false_iff.mp (substitute_of_outside plain kept))]

end Nesting

/-! ## Flattened rules -/

/-- A text without backslashes that is read as an alternative with a chain. -/
def ReadsAs (text : String) (chain : Chain) : Prop :=
  Plain text.toList ∧
    ∃ selector, ComplexSelector.read text.toList = .ok (selector, []) ∧ selector.chain = chain

theorem ReadsAs.nest (outer : ReadsAs parent chain) {behind : Chain} (plain : Plain text.toList)
    (kept : '&' ∉ Nesting.outside none text.toList)
    (relative : relativeChain? text = some behind) :
    ReadsAs (Nesting.nest parent text) (chain ++ behind) := by
  obtain ⟨parentPlain, selector, read, rfl⟩ := outer
  have pasted : (parent ++ " " ++ text).toList = parent.toList ++ ' ' :: text.toList := by simp
  rw [Nesting.nest_of_outside plain kept, ReadsAs, pasted]
  exact ⟨plain_append.mpr ⟨parentPlain, plain_cons.mpr ⟨by decide, plain⟩⟩,
    ComplexSelector.read_nested parentPlain read relative⟩

/-- Texts for all combinations of one selector on every level. -/
def Covers (levels : List (List String)) (texts : List String) : Prop :=
  texts ≠ [] ∧ List.Forall₂
    (fun text combination => ∃ chain, nestedChain? combination = some chain ∧ ReadsAs text chain)
    texts (combinations levels)

variable {selectors : List String} {imported : Bool}

theorem covers_outermost (nests : Nesting.Nests soleChain? selectors) :
    Covers [selectors] selectors := by
  obtain ⟨some, each⟩ := nests
  have single : combinations [selectors] = selectors.map fun choice => [choice] := by
    simp [combinations, List.map_eq_flatMap]
  refine ⟨some, ?_⟩
  rw [single, List.forall₂_map_right_iff, List.forall₂_same]
  intro text member
  obtain ⟨plain, -, readable⟩ := each text member
  obtain ⟨chain, sole⟩ := Option.isSome_iff_exists.mp readable
  exact ⟨chain, by simp [nestedChain?, sole], plain, read_of_soleChain? sole⟩

theorem Covers.nest {levels : List (List String)} {parents : List String}
    (around : Covers levels parents) (nests : Nesting.Nests relativeChain? selectors) :
    Covers (levels ++ [selectors]) (Flattened.qualify parents selectors) := by
  obtain ⟨some, each⟩ := nests
  obtain ⟨parentsSome, parentsRead⟩ := around
  rw [Flattened.qualify, if_neg parentsSome]
  refine ⟨?_, ?_⟩
  · obtain ⟨parent, parents, rfl⟩ := List.exists_cons_of_ne_nil parentsSome
    simp [some]
  · rw [combinations_concat]
    refine List.rel_flatMap parentsRead fun parent combination front => ?_
    obtain ⟨frontChain, frontFound, frontReads⟩ := front
    rw [List.forall₂_map_left_iff, List.forall₂_map_right_iff, List.forall₂_same]
    intro text member
    obtain ⟨plain, kept, readable⟩ := each text member
    obtain ⟨behind, relative⟩ := Option.isSome_iff_exists.mp readable
    exact ⟨frontChain ++ behind, nestedChain?_concat frontFound relative,
      frontReads.nest plain kept relative⟩

theorem exists_selectors {texts : List String} {choices : List (List String)}
    (each : List.Forall₂
      (fun text combination => ∃ chain, nestedChain? combination = some chain ∧ ReadsAs text chain)
      texts choices) :
    ∃ selectors : SelectorList,
      List.Forall₂ (fun text selector => ComplexSelector.IsText selector text.toList)
        texts selectors ∧
      (selectors.map fun selector => some selector.chain) = choices.map nestedChain? := by
  induction each with
  | nil => exact ⟨[], .nil, rfl⟩
  | cons first _ ih =>
      obtain ⟨selectors, areTexts, chains⟩ := ih
      obtain ⟨_, found, plain, selector, read, rfl⟩ := first
      refine ⟨selector :: selectors, .cons (ComplexSelector.isText_of_read plain read) areTexts, ?_⟩
      rw [List.map_cons, List.map_cons, found, chains]

theorem Covers.standsFor {levels : List (List String)} {texts : List String}
    {declarations : List Declaration} (covers : Covers levels texts) :
    FlatRule.StandsFor imported
      ⟨", ".intercalate texts,
        (Declaration.last? declarations "content").map Declaration.valueText, imported⟩
      ⟨levels, declarations⟩ := by
  obtain ⟨some, each⟩ := covers
  obtain ⟨selectors, areTexts, chains⟩ := exists_selectors each
  exact ⟨⟨selectors, _, imported⟩,
    TreeRule.ofFlat?_eq_some_iff.mpr ⟨SelectorList.readAll_intercalate some areTexts, rfl, rfl⟩,
    chains, rfl, rfl⟩

mutual

theorem Rule.standsFor_of_nested {levels : List (List String)} {parents : List String}
    (rule : Rule) (around : Covers levels parents) (nestable : rule.Nestable relativeChain?) :
    List.Forall₂ (FlatRule.StandsFor imported) (Flattened.ofRule imported parents rule).rules
      (rule.styles levels) := by
  match rule, nestable with
  | .atRule rule, _ => exact .nil
  | .style selectors declarations nested, ⟨nests, inside⟩ =>
      have covers := around.nest nests
      rw [Flattened.ofRule, if_neg covers.1]
      exact .cons covers.standsFor (standsForAll_of_nested nested covers inside)

theorem Rule.standsForAll_of_nested {levels : List (List String)} {parents : List String}
    (rules : List Rule) (around : Covers levels parents) (nestable : NestableAll rules) :
    List.Forall₂ (FlatRule.StandsFor imported) (Flattened.ofRules imported parents rules).rules
      (stylesOfAll levels rules) := by
  match rules, nestable with
  | [], _ => exact .nil
  | rule :: rest, ⟨first, others⟩ =>
      exact List.rel_append (standsFor_of_nested rule around first)
        (standsForAll_of_nested rest around others)

end

/-- Flattening gives one flat rule for each style rule, in the order in which the style rules
begin, and nesting is concatenation: the alternatives of a flat rule have the chains of all
combinations of one selector on every level, those of the outermost level counting most. -/
theorem Flattened.standsFor_ofRule {rule : Rule} (imported : Bool)
    (nestable : rule.Nestable soleChain?) :
    List.Forall₂ (FlatRule.StandsFor imported) (ofRule imported [] rule).rules
      (rule.styles []) := by
  match rule, nestable with
  | .atRule rule, _ => exact .nil
  | .style selectors declarations nested, ⟨nests, inside⟩ =>
      have covers := covers_outermost nests
      rw [ofRule, qualify, if_pos rfl, if_neg covers.1]
      exact .cons covers.standsFor (Rule.standsForAll_of_nested nested covers inside)

/-- A rule with strings, arguments and leading combinators, nested to three levels. -/
def threeLevels : Rule :=
  .style ["a [title='&, >']", "b"] []
    [.style ["> :is(c, d)", "e"] [] [.style ["+f", ":nth-child( 2n )"] [] []],
      .atRule ⟨"media", [], none⟩, .style ["~ g::before"] [] []]

theorem Flattened.standsFor_ofRule_threeLevels :
    ((ofRule false [] threeLevels).rules.map (·.selectorText)).getLast? =
        some "a [title='&, >'] ~ g::before, b ~ g::before" ∧
      List.Forall₂ (FlatRule.StandsFor false) (ofRule false [] threeLevels).rules
        (threeLevels.styles []) := by
  refine ⟨by decide +kernel, standsFor_ofRule false ?_⟩
  simp only [threeLevels, Rule.Nestable, Rule.NestableAll, Nesting.Nests]
  decide +kernel

end SelectorTree
