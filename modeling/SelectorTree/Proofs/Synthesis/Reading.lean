import SelectorTree.Proofs.Synthesis.Trie

/-!
# Runs read as tries

A ledger follows a run without looking at the tree: it notes the paths that
have occurred, the path of the last descriptor, and the contents shown on each
path.  While rules ask for no positions and no attributes, the tree mirrors the
ledger at every moment, and in the end it is the trie of all paths.
-/

namespace SelectorTree

/-! ## Plain rules -/

/-- A compound without attribute selectors and without positions. -/
def Compound.Plain (compound : Compound) : Prop :=
  compound.attributes = [] ∧
    ∀ pseudoClass ∈ compound.pseudoClasses, isPositional pseudoClass.name = false

/-- A rule whose accepted alternatives have plain compounds. -/
def TreeRule.Plain (rule : TreeRule) : Prop :=
  ∀ alternative ∈ rule.selectors, ∀ descriptors, Descriptor.chain alternative = .ok descriptors →
    ∀ step ∈ alternative.chain, step.2.Plain

/-- A descriptor that asks for no position and no attributes. -/
structure Descriptor.Plain (descriptor : Descriptor) : Prop where
  position : descriptor.position? = none
  attributes : descriptor.element.attributes = .empty
  value : descriptor.element.value = none
  classes : descriptor.element.ProperClasses

theorem Descriptor.plain_of_ofCompound {compound : Compound} {combinator : Combinator}
    {descriptor : Descriptor} (built : ofCompound compound combinator = .ok descriptor)
    (plain : compound.Plain) : descriptor.Plain := by
  obtain ⟨noAttributes, noPositions⟩ := plain
  obtain ⟨tag, position?, -, -, -, rfl⟩ := ofCompound_eq_ok_iff.mp built
  have element : elementOf tag compound =
      (if compound.ids = [] then Element.ofTag tag
        else { Element.ofTag tag with
          id? := some (" ".intercalate compound.ids) }).addClasses compound.classes := by
    rw [elementOf, noAttributes]
    rfl
  refine ⟨position?_of_ofCompound built noPositions, ?_, ?_,
    Element.properClasses_elementOf tag compound⟩
  · rw [element, Element.attributes_addClasses]
    split <;> rfl
  · rw [element, Element.value_addClasses]
    split <;> rfl

def Action.Plain : Action → Prop
  | .place descriptor _ => descriptor.Plain
  | .beginRule | .skipAlternative | .beginAlternative | .write _ => True

variable {options : Options} {rules : List TreeRule} {action : Action} {actions : List Action}

theorem plain_of_mem_runActions (plain : ∀ rule ∈ rules, rule.Plain)
    (member : action ∈ runActions rules) : action.Plain := by
  cases action with
  | place descriptor imported =>
      obtain ⟨rule, listedRule, -, alternative, listed, chain, built, step, inChain, single⟩ :=
        exists_compound_of_place member
      exact Descriptor.plain_of_ofCompound single
        (plain rule listedRule alternative listed chain built step inChain)
  | _ => trivial

/-! ## The ledger -/

structure Ledger where
  seen : List Path
  current : Path
  contents : Path → List String

namespace Ledger

def start : Ledger := ⟨[], [], fun _ => []⟩

def perform (ledger : Ledger) : Action → Ledger
  | .beginRule | .skipAlternative => ledger
  | .beginAlternative => { ledger with current := [] }
  | .place descriptor _ =>
      { ledger with
        seen := ledger.seen ++ [descriptor.path ledger.current]
        current := descriptor.path ledger.current }
  | .write content =>
      { ledger with
        contents := fun path =>
          ledger.contents path ++ if ledger.current = path then content.toList else [] }

def performAll (ledger : Ledger) (actions : List Action) : Ledger := actions.foldl perform ledger

theorem performAll_append (ledger : Ledger) (early late : List Action) :
    ledger.performAll (early ++ late) = (ledger.performAll early).performAll late :=
  List.foldl_append

theorem performAll_places (ledger : Ledger) (imported : Bool) (chain : List Descriptor) :
    ledger.performAll (chain.map (.place · imported)) =
      { ledger with
        seen := ledger.seen ++ chainPaths ledger.current chain
        current := (chainPaths ledger.current chain).getLast?.getD ledger.current } := by
  induction chain generalizing ledger with
  | nil => simp [performAll, chainPaths]
  | cons descriptor rest ih =>
      refine (ih (ledger.perform (.place descriptor imported))).trans ?_
      simp [perform, chainPaths, List.getLast?_cons]

/-- What is read off one alternative. -/
theorem performAll_alternative (ledger : Ledger) (rule : TreeRule)
    (alternative : ComplexSelector) :
    (ledger.performAll (rule.alternativeActions alternative)).seen =
        ledger.seen ++ alternativePaths alternative ∧
      ∀ path, path ≠ [] →
        (ledger.performAll (rule.alternativeActions alternative)).contents path =
          ledger.contents path ++
            if (alternativePaths alternative).getLast? = some path then rule.content.toList
            else [] := by
  cases result : Descriptor.chain alternative with
  | error reason =>
      simp [TreeRule.alternativeActions, alternativePaths, result, performAll, perform]
  | ok chain =>
      have actions : rule.alternativeActions alternative =
          [.beginAlternative] ++ (chain.map (.place · rule.imported) ++ [.write rule.content]) := by
        simp [TreeRule.alternativeActions, result]
      have paths : alternativePaths alternative = chainPaths [] chain := by
        simp [alternativePaths, result]
      rw [actions, paths, performAll_append, performAll_append, performAll_places]
      refine ⟨rfl, fun path nonempty => ?_⟩
      change ledger.contents path ++ _ = _
      congr 1
      refine if_congr ?_ rfl rfl
      change (chainPaths [] chain).getLast?.getD [] = path ↔ _
      cases (chainPaths [] chain).getLast? with
      | none => simp [Ne.symm nonempty]
      | some last => simp

theorem performAll_alternatives (ledger : Ledger) (rule : TreeRule) (selectors : SelectorList) :
    (ledger.performAll (selectors.flatMap rule.alternativeActions)).seen =
        ledger.seen ++ selectors.flatMap alternativePaths ∧
      ∀ path, path ≠ [] →
        (ledger.performAll (selectors.flatMap rule.alternativeActions)).contents path =
          ledger.contents path ++
            selectors.flatMap fun alternative =>
              if (alternativePaths alternative).getLast? = some path then rule.content.toList
              else [] := by
  induction selectors generalizing ledger with
  | nil => simp [performAll]
  | cons alternative rest ih =>
      obtain ⟨seen, contents⟩ := ledger.performAll_alternative rule alternative
      obtain ⟨seenRest, contentsRest⟩ :=
        ih (ledger.performAll (rule.alternativeActions alternative))
      rw [List.flatMap_cons, performAll_append]
      refine ⟨?_, fun path nonempty => ?_⟩
      · rw [seenRest, seen, List.append_assoc, List.flatMap_cons]
      · rw [contentsRest path nonempty, contents path nonempty, List.append_assoc,
          List.flatMap_cons]

/-- What is read off whole rules. -/
theorem performAll_runActions (ledger : Ledger) (rules : List TreeRule) :
    (ledger.performAll (runActions rules)).seen = ledger.seen ++ occurrences rules ∧
      ∀ path, path ≠ [] →
        (ledger.performAll (runActions rules)).contents path =
          ledger.contents path ++ contentsAt rules path := by
  induction rules generalizing ledger with
  | nil => simp [performAll, runActions, occurrences, contentsAt]
  | cons rule rest ih =>
      obtain ⟨seen, contents⟩ := ledger.performAll_alternatives rule rule.selectors
      obtain ⟨seenRest, contentsRest⟩ :=
        ih (ledger.performAll (rule.selectors.flatMap rule.alternativeActions))
      have split : ledger.performAll (runActions (rule :: rest)) =
          (ledger.performAll (rule.selectors.flatMap rule.alternativeActions)).performAll
            (runActions rest) :=
        performAll_append (ledger.perform .beginRule) _ _
      rw [split]
      refine ⟨?_, fun path nonempty => ?_⟩
      · rw [seenRest, seen, List.append_assoc]
        rfl
      · rw [contentsRest path nonempty, contents path nonempty, List.append_assoc]
        rfl

end Ledger

/-! ## The tree mirrors the ledger -/

/-- The tree is the trie of the ledger, and both stand at the same node. -/
structure Cursor.Mirrors (cursor : Cursor) (ledger : Ledger) : Prop where
  trie : cursor.builder.Trie ledger.seen ledger.contents
  node : ∀ id, cursor.node? = some id →
    ledger.current ≠ [] ∧ cursor.builder.tree.PathTo cursor.builder.body ledger.current id
  noNode : cursor.node? = none → ledger.current = []

namespace Builder

variable {before after : Builder} {seen : List Path} {contents changed : Path → List String}

theorem Trie.report (trie : before.Trie seen contents) (report : Report) :
    ({ before with report } : Builder).Trie seen contents :=
  ⟨trie.sound.report report, trie.noFiller, trie.seen_iff, trie.injective, trie.ordered,
    trie.holds, trie.written⟩

/-- Nothing is shown at the body, so the contents of the empty path do not
count. -/
theorem Trie.congr (trie : before.Trie seen contents)
    (same : ∀ path, path ≠ [] → changed path = contents path) : before.Trie seen changed where
  sound := trie.sound
  noFiller := trie.noFiller
  seen_iff := trie.seen_iff
  injective := trie.injective
  ordered := trie.ordered
  holds path id data nonempty reached found := by
    rw [same path nonempty]
    exact trie.holds path id data nonempty reached found
  written path nonempty shown := by
    rw [same path nonempty] at shown
    exact trie.written path nonempty shown

theorem trie_start : start.Trie [] fun _ => [] := by
  have noPath : ∀ path id, path ≠ [] → ¬ start.tree.PathTo start.body path id := by
    intro path id nonempty reached
    obtain ⟨below, element⟩ := reached.element_below nonempty
    rw [eq_body_of_start element] at below
    exact sound_start.linked.not_below_self _ below
  refine ⟨sound_start, fun _ => rfl, ?_, ?_, ?_, ?_, ?_⟩
  · intro path
    refine iff_of_false List.not_mem_nil ?_
    rintro ⟨nonempty, id, reached⟩
    exact noPath path id nonempty reached
  · intro path first second atFirst atSecond
    by_cases empty : path = []
    · subst empty
      rw [atFirst.eq_top, atSecond.eq_top]
    · exact absurd atFirst (noPath path first empty)
  · intro parent
    have onlyBody : ∀ {id}, id ∈ start.tree.elementChildren parent → id = start.body :=
      fun listed => eq_body_of_start (List.mem_filter.mp listed).2
    have distinct := (sound_start.linked.nodup_children parent).filter start.tree.isElement
    exact List.Pairwise.imp_of_mem (fun leftListed rightListed different =>
      absurd ((onlyBody leftListed).trans (onlyBody rightListed).symm) different) distinct
  · exact fun path id _ nonempty reached => absurd reached (noPath path id nonempty)
  · exact fun _ _ shown => absurd rfl shown

end Builder

namespace Cursor

variable {cursor : Cursor} {ledger : Ledger}

theorem mirrors_start : start.Mirrors .start where
  trie := Builder.trie_start
  node _ found := absurd found (by simp [start])
  noNode _ := rfl

theorem Mirrors.sound (mirrors : cursor.Mirrors ledger) : cursor.Sound where
  builder := mirrors.trie.sound
  node id found := by
    obtain ⟨nonempty, reached⟩ := mirrors.node id found
    obtain ⟨below, element⟩ := reached.element_below nonempty
    exact ⟨below, element, mirrors.trie.noFiller id⟩

/-- A descriptor goes below the node of its path without its last key. -/
theorem Mirrors.above (mirrors : cursor.Mirrors ledger) (descriptor : Descriptor) :
    cursor.builder.tree.PathTo cursor.builder.body
      (if descriptor.combinator.isSibling then ledger.current.dropLast else ledger.current)
      (cursor.builder.parentFor descriptor cursor.node?) := by
  cases found : cursor.node? with
  | none =>
      rw [mirrors.noNode found, List.dropLast_nil, ite_self]
      exact .top
  | some previous =>
      obtain ⟨nonempty, reached⟩ := mirrors.node previous found
      rw [Builder.parentFor]
      split
      · obtain ⟨front, key, split⟩ := (List.eq_nil_or_concat _).resolve_left nonempty
        rw [split, List.concat_eq_append] at reached ⊢
        obtain ⟨parent, _, above, attached, -, -⟩ := reached.exists_last
        rw [List.dropLast_concat, attached]
        exact above
      · exact reached

section Placing

variable (mirrors : cursor.Mirrors ledger) {descriptor : Descriptor} (plain : descriptor.Plain)
  (removes : options.duplicates = .remove)

include mirrors plain removes

theorem Mirrors.place (imported : Bool) :
    (cursor.perform options (.place descriptor imported)).Mirrors
      (ledger.perform (.place descriptor imported)) := by
  have trie := mirrors.trie
  have sound := trie.sound
  have host := mirrors.sound.host_parentFor descriptor
  have above := mirrors.above descriptor
  have noType : descriptor.element.kind = none := by
    simp [Element.kind, Element.getAttribute, plain.attributes]
  have placed : cursor.perform options (.place descriptor imported) =
      ⟨(cursor.builder.place options (cursor.builder.parentFor descriptor cursor.node?)
          descriptor.element imported).1,
        some (cursor.builder.place options (cursor.builder.parentFor descriptor cursor.node?)
          descriptor.element imported).2⟩ := by
    simp only [perform, Builder.placeDescriptor, plain.position]
  rw [placed]
  rcases Builder.place_cases sound host removes plain.classes noType imported with
    ⟨target, data, listed, unregistered, found, sameKey, merged, result⟩ | ⟨fresh, result⟩
  · rw [result]
    have attached := sound.linked.parent_of_mem (List.mem_filter.mp listed).1
    have reached := Tree.PathTo.child above attached found
    rw [sameKey] at reached
    obtain ⟨stillTrie, stillReached⟩ := trie.merged (by simp) reached found merged
    refine ⟨stillTrie, ?_, fun none => absurd none (by simp)⟩
    intro id same
    cases same
    exact ⟨by simp [Ledger.perform, Descriptor.path], stillReached⟩
  · rw [result]
    have growth := Builder.grown_append sound.linked (sound.host_lt_size host)
      descriptor.element imported
    have freshKeys := fun id listed => fresh id listed (trie.noFiller id)
    refine ⟨?_, ?_, fun none => absurd none (by simp)⟩
    · exact trie.appended growth above freshKeys host plain.classes plain.attributes plain.value
    · intro id same
      cases same
      exact ⟨by simp [Ledger.perform, Descriptor.path],
        Builder.pathTo_node_of_appended growth trie above⟩

end Placing

theorem Mirrors.write (mirrors : cursor.Mirrors ledger) (content : Option String) :
    (cursor.perform options (.write content)).Mirrors (ledger.perform (.write content)) := by
  have unshown : ∀ {contents : Path → List String},
      (∀ path, path ≠ [] → contents path = ledger.contents path) →
      cursor.Mirrors { ledger with contents } :=
    fun same => ⟨mirrors.trie.congr same, mirrors.node, mirrors.noNode⟩
  cases found : cursor.node? with
  | none =>
      have unchanged : cursor.perform options (.write content) = cursor := by
        obtain ⟨builder, node?⟩ := cursor
        cases found
        rfl
      rw [unchanged]
      refine unshown fun path nonempty => ?_
      rw [mirrors.noNode found, if_neg (Ne.symm nonempty), List.append_nil]
  | some target =>
      cases content with
      | none =>
          have unchanged : cursor.perform options (.write none) = cursor := by
            obtain ⟨builder, node?⟩ := cursor
            cases found
            rfl
          rw [unchanged]
          refine unshown fun path _ => ?_
          rw [Option.toList_none, ite_self, List.append_nil]
      | some text =>
          obtain ⟨nonempty, reached⟩ := mirrors.node target found
          obtain ⟨trie, stillReached⟩ := mirrors.trie.setContent nonempty reached text
          have shown : cursor.perform options (.write (some text)) =
              ⟨cursor.builder.edit (·.setContent target (stripQuotes text)), cursor.node?⟩ := by
            simp only [perform, Builder.showContent, found]
          rw [shown]
          refine ⟨trie, ?_, mirrors.noNode⟩
          intro id atNode
          cases found.symm.trans atNode
          exact ⟨nonempty, stillReached⟩

/-- One action keeps the tree in step with the ledger. -/
theorem Mirrors.perform (mirrors : cursor.Mirrors ledger) (plain : action.Plain)
    (removes : options.duplicates = .remove) :
    (cursor.perform options action).Mirrors (ledger.perform action) := by
  cases action with
  | beginRule => exact ⟨mirrors.trie.report _, mirrors.node, mirrors.noNode⟩
  | skipAlternative => exact ⟨mirrors.trie.report _, mirrors.node, mirrors.noNode⟩
  | beginAlternative => exact ⟨mirrors.trie.report _, (by simp [Cursor.perform]), fun _ => rfl⟩
  | place descriptor imported => exact mirrors.place plain removes imported
  | write content => exact mirrors.write content

theorem Mirrors.performAll (mirrors : cursor.Mirrors ledger) (options : Options)
    (plain : ∀ action ∈ actions, action.Plain) (removes : options.duplicates = .remove) :
    (cursor.performAll options actions).Mirrors (ledger.performAll actions) := by
  induction actions generalizing cursor ledger with
  | nil => exact mirrors
  | cons action rest ih =>
      refine ih (mirrors.perform (plain action List.mem_cons_self) removes) ?_
      exact fun later member => plain later (List.mem_cons_of_mem action member)

end Cursor

/-! ## The finished tree -/

/-- The tree is the trie of the paths of some rules: elements are paths,
siblings stand as their paths first occur, and each element shows the last
content that ends on its path and nothing else. -/
structure Synthesis.IsTrie (synthesis : Synthesis) (rules : List TreeRule) : Prop where
  path_unique : ∀ id, synthesis.tree.Below synthesis.body id →
    synthesis.tree.isElement id = true → ∃! path, synthesis.tree.PathTo synthesis.body path id
  occurs_iff : ∀ path, path ∈ occurrences rules ↔
    ∃ id, synthesis.tree.Below synthesis.body id ∧ synthesis.tree.isElement id = true ∧
      synthesis.tree.PathTo synthesis.body path id
  element_unique : ∀ path first second, synthesis.tree.PathTo synthesis.body path first →
    synthesis.tree.PathTo synthesis.body path second → first = second
  ordered : ∀ parent, (synthesis.tree.elementChildren parent).Pairwise fun left right =>
    ∀ leftPath rightPath, synthesis.tree.PathTo synthesis.body leftPath left →
      synthesis.tree.PathTo synthesis.body rightPath right →
      (occurrences rules).idxOf leftPath < (occurrences rules).idxOf rightPath
  holds : ∀ path id data, path ∈ occurrences rules →
    synthesis.tree.PathTo synthesis.body path id → synthesis.tree.element? id = some data →
    synthesis.tree.Holds id data (shownAt rules path)

/-- Every element below the body has a path. -/
theorem Builder.Sound.exists_path {builder : Builder} (sound : builder.Sound) {id : NodeId}
    (below : builder.tree.Below builder.body id) (element : builder.tree.isElement id = true) :
    ∃ path, path ≠ [] ∧ builder.tree.PathTo builder.body path id := by
  obtain ⟨data, found⟩ := Tree.isElement_iff.mp element
  induction below generalizing data with
  | single attached => exact ⟨_, by simp, .child .top attached found⟩
  | @tail middle id below attached ih =>
      have inner : builder.tree.isElement middle = true := by
        refine (sound.inner middle below).resolve_right fun childless => ?_
        have listed := sound.linked.mem_children attached
        rw [childless] at listed
        cases listed
      obtain ⟨middleData, foundMiddle⟩ := Tree.isElement_iff.mp inner
      obtain ⟨path, -, reached⟩ := ih inner middleData foundMiddle
      exact ⟨path ++ [data.key], by simp, .child reached attached found⟩

/-- With duplicates removed, rules without positions and attribute selectors
build the trie of their paths. -/
theorem isTrie_synthesize (options : Options) (rules : List TreeRule)
    (removes : options.duplicates = .remove) (plain : ∀ rule ∈ rules, rule.Plain) :
    (synthesize options rules).IsTrie rules := by
  have mirrors := Cursor.mirrors_start.performAll options
    (fun _ member => plain_of_mem_runActions plain member) removes
  obtain ⟨seenEq, contentsEq⟩ := Ledger.start.performAll_runActions rules
  have trie := mirrors.trie
  rw [Cursor.builder_performAll_runActions, seenEq] at trie
  have trie : (Builder.ofRules options rules).Trie (occurrences rules) (contentsAt rules) :=
    trie.congr fun path nonempty => (contentsEq path nonempty).symm
  have sound := trie.sound
  refine ⟨?_, ?_, trie.injective, trie.ordered, ?_⟩
  · intro id below element
    obtain ⟨path, -, reached⟩ := sound.exists_path below element
    exact ⟨path, reached, fun other again => again.unique sound.linked reached⟩
  · intro path
    rw [trie.seen_iff]
    constructor
    · rintro ⟨nonempty, id, reached⟩
      exact ⟨id, (reached.element_below nonempty).1, (reached.element_below nonempty).2, reached⟩
    · rintro ⟨id, below, element, reached⟩
      refine ⟨?_, id, reached⟩
      rintro rfl
      rw [reached.eq_top] at below
      exact sound.linked.not_below_self _ below
  · intro path id data occurs reached found
    exact trie.holds path id data ((trie.seen_iff path).mp occurs).1 reached found

/-- The rules `ul > li` with a content, and `ul > li + b`. -/
def itemRules : List TreeRule :=
  let list := Compound.ofType? (some (.name "ul"))
  let item := Compound.ofType? (some (.name "li"))
  let bold := Compound.ofType? (some (.name "b"))
  [⟨[⟨item, [(.child, list)]⟩], some "one", false⟩,
   ⟨[⟨bold, [(.nextSibling, item), (.child, list)]⟩], none, false⟩]

theorem plain_itemRules : ∀ rule ∈ itemRules, rule.Plain := by
  have bare : ∀ rule ∈ itemRules, ∀ alternative ∈ rule.selectors, ∀ step ∈ alternative.chain,
      step.2.attributes = [] ∧ step.2.pseudoClasses = [] := by decide
  intro rule member alternative listed _ _ step inChain
  obtain ⟨noAttributes, noPseudoClasses⟩ := bare rule member alternative listed step inChain
  refine ⟨noAttributes, fun pseudoClass asked => ?_⟩
  rw [noPseudoClasses] at asked
  cases asked

/-- The body holds one list, and the list one item and the bold element behind it. -/
theorem isTrie_itemRules :
    Options.standard.duplicates = .remove ∧ (∀ rule ∈ itemRules, rule.Plain) ∧
      (synthesize .standard itemRules).IsTrie itemRules ∧
      (synthesize .standard itemRules).tree.children 1 = [2] ∧
      (synthesize .standard itemRules).tree.children 2 = [3, 5] := by
  have trie := isTrie_synthesize .standard itemRules rfl plain_itemRules
  exact ⟨rfl, plain_itemRules, trie, by decide +kernel, by decide +kernel⟩

end SelectorTree
