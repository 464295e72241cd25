import SelectorTree.Proofs.Sanitizer.Pruning
import SelectorTree.Proofs.Synthesis.Accounting
import SelectorTree.Proofs.Synthesis.Carrying
import SelectorTree.Selector.Parser

/-!
# Where elements come from

Imported rules mark the elements that they make and the elements that they merge
into, but not the fillers that they make on the way.  So a pass over imported
elements does what a pass over all elements does, except for the fillers.
-/

namespace SelectorTree

/-! ## Two policies -/

namespace Sanitizer

variable {policy : Sanitize} {tree : Tree} {root : NodeId}

/-- At a node that is harmless, or looked at anyway, it makes no difference what else a pass
looks at. -/
theorem step_eq_step_all {state : Tree × Nat} {id : NodeId}
    (harmless : ∀ data ∈ state.1.element? id, state.1.isDescendantOf id root = true →
      visits policy data = false → Harmless data) :
    step clean? policy root state id = step clean? .all root state id := by
  rw [step, step]
  split
  · next there =>
      cases found : state.1.element? id with
      | none => rfl
      | some data =>
          have looksAtAll : visits .all data = true := rfl
          cases looks : visits policy data with
          | true => simp only [looks, looksAtAll]
          | false =>
              have safe := harmless data found there looks
              simp only [looks, looksAtAll, Bool.false_eq_true, if_false, if_true, clean?_eq,
                if_neg safe.allowed, safe.strip_eq, Tree.setElement_self found]
  · rfl

/-- A pass agrees with a pass over everything as long as what it passes over is harmless. -/
theorem run_eq_run_all (linked : tree.Linked)
    (harmless : ∀ id data, tree.Below root id → tree.element? id = some data →
      ¬Gone policy tree root id → visits policy data = false → Harmless data) :
    run policy tree root = run .all tree root := by
  rw [run_eq_foldl, run_eq_foldl]
  suffices follows : ∀ {seen rest state}, Progress policy tree root seen state →
      tree.descendants root = seen ++ rest →
      rest.foldl (step clean? policy root) state = rest.foldl (step clean? .all root) state from
    follows (.start linked policy root) rfl
  intro seen rest state progress split
  induction rest generalizing seen state with
  | nil => rfl
  | cons id rest ih =>
      have next := progress.step linked split
      have same : step clean? policy root state id = step clean? .all root state id := by
        obtain ⟨fresh, below⟩ := Tree.notMem_front_of_split linked split
        refine step_eq_step_all fun data found there passed => ?_
        rw [Tree.element?_congr (progress.payload?_of_fresh fresh)] at found
        have unvisited : ¬Visited policy tree root id := by
          rw [visited_iff below found, passed]
          exact Bool.false_ne_true
        have remains : ¬Gone policy tree root id := by
          refine (not_gone_iff fun cut => unvisited cut.1.1).mpr ?_
          exact (progress.below_iff linked split fresh).mp
            ((Tree.isDescendantOf_iff progress.pruned.linked).mp there)
        exact harmless id data below found remains passed
      rw [List.foldl_cons, List.foldl_cons, ← same]
      exact ih next (by simp [split])

/-- A pass agrees with a pass over everything exactly if what it passes over is harmless or goes
with something above it. -/
theorem run_eq_run_all_iff (linked : tree.Linked) :
    run policy tree root = run .all tree root ↔
      ∀ id data, tree.Below root id → tree.element? id = some data →
        ¬Gone policy tree root id → visits policy data = false → Harmless data := by
  refine ⟨fun same id data below found remains passed => ?_, run_eq_run_all linked⟩
  have sanitized := sanitized_run linked policy root
  have belowAfter := (below_iff_not_gone sanitized.pruned linked).mpr ⟨below, remains⟩
  have unvisited : ¬Kept policy tree root id := by
    intro kept
    rw [(visited_iff below found).mp kept.1] at passed
    cases passed
  have foundAfter : (run policy tree root).1.element? id = some data := by
    refine (Tree.element?_congr ?_).trans found
    rw [sanitized.payload?_eq, if_neg unvisited]
  rw [same] at belowAfter foundAfter
  exact (sanitized_run linked .all root).harmless linked belowAfter foundAfter rfl

end Sanitizer

/-! ## Marks -/

/-- What all elements of imported rules carry: a mark, unless they are fillers. -/
def MarkedUnlessFiller (filler : Bool) (data : Element) : Prop := data.imported = !filler

/-- All elements below the body are marked. -/
def Synthesis.AllImported (result : Synthesis) : Prop :=
  ∀ id data, result.tree.Below result.body id → result.tree.element? id = some data →
    data.imported = true

variable {options : Options} {rules : List TreeRule}

theorem carries_marks (options : Options) (imported : ∀ rule ∈ rules, rule.imported = true) :
    (Builder.ofRules options rules).Carries MarkedUnlessFiller := by
  refine Builder.carries_ofRules options ?_ ?_
  · intro data content marked
    rw [MarkedUnlessFiller, Element.imported_withContent]
    exact marked
  · intro rule listed alternative _ step _ descriptor built
    obtain ⟨tag, position?, -, -, -, rfl⟩ := Descriptor.ofCompound_eq_ok_iff.mp built
    rw [imported rule listed]
    refine ⟨rfl, Descriptor.imported_elementOf tag step.2, fun target merged _ _ => ?_⟩
    exact Bool.or_true merged.imported

namespace Builder

variable {builder : Builder}

/-- The registry is empty exactly if all elements are marked. -/
theorem Carries.all_imported_iff (carries : builder.Carries MarkedUnlessFiller)
    (sound : builder.Sound) : builder.finish.AllImported ↔ builder.fillers.size = 0 := by
  constructor
  · intro marked
    refine List.length_eq_zero_iff.mpr (List.eq_nil_iff_forall_not_mem.mpr fun id listed => ?_)
    have registered : builder.fillers.contains id = true := List.contains_iff_mem.mpr listed
    obtain ⟨data, found, -⟩ := sound.filler_bare id registered
    have below := sound.filler_below id registered
    have unmarked := carries id data below found
    rw [registered, MarkedUnlessFiller, marked id data below found] at unmarked
    cases unmarked
  · intro none id data below found
    have registry : builder.fillers.nodes = [] := List.length_eq_zero_iff.mp none
    have mark := carries id data below found
    rw [Fillers.contains, registry] at mark
    exact mark

/-- Fillers are all that a pass over imported elements passes over. -/
theorem Carries.run_imports_eq_iff (carries : builder.Carries MarkedUnlessFiller)
    (sound : builder.Sound) :
    Sanitizer.run .imports builder.tree builder.body =
        Sanitizer.run .all builder.tree builder.body ↔
      ∀ id data, builder.fillers.contains id = true → builder.tree.element? id = some data →
        ¬Sanitizer.Gone .imports builder.tree builder.body id → Sanitizer.Harmless data := by
  rw [Sanitizer.run_eq_run_all_iff sound.linked]
  constructor
  · intro harmless id data registered found remains
    have below := sound.filler_below id registered
    have mark := carries id data below found
    rw [registered] at mark
    exact harmless id data below found remains mark
  · intro harmless id data below found remains passed
    have mark : data.imported = !builder.fillers.contains id := carries id data below found
    have unmarked : data.imported = false := passed
    rw [unmarked] at mark
    exact harmless id data (by simpa using mark.symm) found remains

end Builder

/-- If all rules are imported, exactly the elements that are no fillers are marked.  So all
elements are marked if no filler is left, and a pass over imported elements does what a pass
over all elements does exactly if the fillers that it leaves in the tree are harmless. -/
theorem marked_synthesize (options : Options) (imported : ∀ rule ∈ rules, rule.imported = true) :
    (∀ id data, (synthesize options rules).tree.Below (synthesize options rules).body id →
        (synthesize options rules).tree.element? id = some data →
        (data.imported = true ↔ (Builder.ofRules options rules).fillers.contains id = false)) ∧
      ((synthesize options rules).AllImported ↔ (synthesize options rules).report.fillers = 0) ∧
      (Sanitizer.run .imports (synthesize options rules).tree (synthesize options rules).body =
          Sanitizer.run .all (synthesize options rules).tree (synthesize options rules).body ↔
        ∀ id data, (Builder.ofRules options rules).fillers.contains id = true →
          (synthesize options rules).tree.element? id = some data →
          ¬Sanitizer.Gone .imports (synthesize options rules).tree
            (synthesize options rules).body id →
          Sanitizer.Harmless data) := by
  have sound := Builder.sound_ofRules options rules
  have carries := carries_marks options imported
  refine ⟨fun id data below found => ?_, carries.all_imported_iff sound,
    carries.run_imports_eq_iff sound⟩
  have mark : data.imported = !(Builder.ofRules options rules).fillers.contains id :=
    carries id data below found
  rw [mark, Bool.not_eq_true']

/-- The rule `script:nth-child(2)` of an imported stylesheet. -/
def secondScript : TreeRule :=
  ⟨[⟨{ Compound.ofType? (some (.name "script")) with
      pseudoClasses := [⟨"nth-child", some (.formula ⟨0, 2⟩)⟩] }, []⟩], none, true⟩

theorem below_secondScript {id : NodeId} (listed : id ∈ [2, 3]) :
    (synthesize .standard [secondScript]).tree.Below
      (synthesize .standard [secondScript]).body id := by
  have attached : ∀ id ∈ [2, 3], (synthesize .standard [secondScript]).tree.parent id =
      some (synthesize .standard [secondScript]).body := by decide
  exact .single (attached id listed)

/-- The element of the rule is marked, the filler before it is not. -/
theorem marked_secondScript :
    secondScript.imported = true ∧
      (Builder.ofRules .standard [secondScript]).fillers.nodes = [3] ∧
      (∀ data, (synthesize .standard [secondScript]).tree.element? 2 = some data →
        data.imported = true) ∧
      ¬(synthesize .standard [secondScript]).AllImported := by
  have imported : ∀ rule ∈ [secondScript], rule.imported = true := by decide
  obtain ⟨marked, all, -⟩ := marked_synthesize .standard imported
  refine ⟨rfl, by decide, fun data found => ?_, fun marks => ?_⟩
  · exact (marked 2 data (below_secondScript (by decide)) found).mpr (by decide)
  · exact absurd (all.mp marks) (by decide)

/-- An imported rule brings in an element without a mark, and a pass over imported elements
leaves a script that a pass over all elements cuts out. -/
theorem unmarked_secondScript :
    SelectorList.ofText "script:nth-child(2)" = .ok secondScript.selectors ∧
      secondScript.imported = true ∧
      (synthesize .standard [secondScript]).tree.Below
        (synthesize .standard [secondScript]).body 3 ∧
      ((synthesize .standard [secondScript]).tree.element? 3).map Element.imported =
        some false ∧
      ¬(synthesize .standard [secondScript]).AllImported ∧
      (Sanitizer.run .imports (synthesize .standard [secondScript]).tree 1).1.outerHtml 1 =
        "<body><script></script></body>" ∧
      (Sanitizer.run .all (synthesize .standard [secondScript]).tree 1).1.outerHtml 1 =
        "<body></body>" := by
  have below := @below_secondScript 3 (by decide)
  have unmarked : ((synthesize .standard [secondScript]).tree.element? 3).map Element.imported =
      some false := by decide
  refine ⟨by decide +kernel, rfl, below, unmarked, fun marks => ?_, by decide +kernel,
    by decide +kernel⟩
  obtain ⟨data, found, without⟩ := Option.map_eq_some_iff.mp unmarked
  rw [marks 3 data below found] at without
  cases without

end SelectorTree
