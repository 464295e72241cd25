import Mathlib.Data.Set.Card
import SelectorTree.Proofs.Tree.Leaves
import SelectorTree.Proofs.Tree.Pruning
import SelectorTree.Sanitizer
import SelectorTree.Tree.Html

/-!
# Sanitizing is pruning

A pass runs over the nodes that were below its root when it began, while it takes
some of them out.  What it does to a node depends on the old tree alone: forbidden
elements are cut off unless they are below another cut, the other elements that it
looks at lose their unsafe attributes, and all other nodes stay as they are.
-/

namespace SelectorTree.Sanitizer

/-! ## Elements -/

/-- Whether an element has to go. -/
def Forbidden (data : Element) : Prop := Text.lower data.tag ∈ forbiddenTags

instance : DecidablePred Forbidden := fun data =>
  inferInstanceAs (Decidable (Text.lower data.tag ∈ forbiddenTags))

/-- An element without its unsafe attributes. -/
def strip (data : Element) : Element :=
  { data with
    attributes := data.attributes.filter fun name value => !isUnsafeAttribute name value }

/-- An element that may stay as it is. -/
structure Harmless (data : Element) : Prop where
  allowed : ¬Forbidden data
  safe : ∀ entry ∈ data.attributes.entries, isUnsafeAttribute entry.1 entry.2 = false

variable {policy : Sanitize} {tree before : Tree} {root top id : NodeId} {data : Element}

theorem clean?_eq (data : Element) :
    clean? data = if Forbidden data then none else some (strip data) := by
  rw [clean?]
  by_cases forbidden : Forbidden data
  · rw [if_pos forbidden, if_pos (List.contains_iff_mem.mpr forbidden)]
  · rw [if_neg forbidden, if_neg fun listed => forbidden (List.contains_iff_mem.mp listed)]
    rfl

theorem harmless_strip (allowed : ¬Forbidden data) : Harmless (strip data) where
  allowed := allowed
  safe := by
    intro entry member
    have kept := (List.mem_filter.mp member).2
    simpa using kept

theorem Harmless.strip_eq (harmless : Harmless data) : strip data = data := by
  have attributes : data.attributes.filter (fun name value => !isUnsafeAttribute name value) =
      data.attributes := by
    apply Attributes.ext
    refine List.filter_eq_self.mpr fun entry member => ?_
    simp [harmless.safe entry member]
  rw [strip, attributes]

/-- The data of a node, without unsafe attributes. -/
def stripData : Payload → Payload
  | .element data => .element (strip data)
  | payload => payload

/-! ## Cuts -/

section Cuts

variable (policy : Sanitize) (tree : Tree) (root id : NodeId)

/-- Whether a pass looks at a node: at an element below the root, perhaps only if it
comes from an import. -/
def Visited : Prop := tree.Below root id ∧ ∃ data ∈ tree.element? id, visits policy data = true

/-- A forbidden element that is looked at. -/
def Condemned : Prop := Visited policy tree root id ∧ ∃ data ∈ tree.element? id, Forbidden data

/-- A forbidden element that is looked at, and not below another one. -/
def Cut : Prop :=
  Condemned policy tree root id ∧ ∀ top, tree.Below top id → ¬Condemned policy tree root top

/-- What a cut takes away: a cut node or a node below one. -/
def Gone : Prop := ∃ top, Cut policy tree root top ∧ tree.Within top id

/-- An element that is looked at and stays. -/
def Kept : Prop := Visited policy tree root id ∧ ¬Gone policy tree root id

noncomputable instance : DecidablePred (Cut policy tree root) := Classical.decPred _

noncomputable instance : DecidablePred (Gone policy tree root) := Classical.decPred _

noncomputable instance : DecidablePred (Kept policy tree root) := Classical.decPred _

end Cuts

theorem visited_iff (below : tree.Below root id) (found : tree.element? id = some data) :
    Visited policy tree root id ↔ visits policy data = true := by
  simp [Visited, below, found]

theorem condemned_iff (found : tree.element? id = some data) :
    Condemned policy tree root id ↔ Visited policy tree root id ∧ Forbidden data := by
  simp [Condemned, found]

theorem Visited.isElement (visited : Visited policy tree root id) : tree.isElement id = true := by
  obtain ⟨-, data, found, -⟩ := visited
  exact Tree.isElement_iff.mpr ⟨data, found⟩

theorem Cut.below (cut : Cut policy tree root id) : tree.Below root id := cut.1.1.1

theorem Cut.gone (cut : Cut policy tree root id) : Gone policy tree root id := ⟨id, cut, .refl⟩

/-- A forbidden element goes: the topmost one above it is cut off, by induction from
the top. -/
theorem Condemned.gone (condemned : Condemned policy tree root id) (linked : tree.Linked) :
    Gone policy tree root id := by
  induction id using linked.acyclic.transGen.induction with
  | h id ih =>
      by_cases higher : ∃ top, tree.Below top id ∧ Condemned policy tree root top
      · obtain ⟨top, above, condemned⟩ := higher
        obtain ⟨highest, cut, within⟩ := ih top above condemned
        exact ⟨highest, cut, within.trans above.to_reflTransGen⟩
      · have topmost : ∀ top, tree.Below top id → ¬Condemned policy tree root top :=
          fun top above condemned => higher ⟨top, above, condemned⟩
        exact Cut.gone ⟨condemned, topmost⟩

/-- A forbidden element is cut off exactly if nothing above it is. -/
theorem cut_iff (linked : tree.Linked) :
    Cut policy tree root id ↔ Condemned policy tree root id ∧
      ∀ top, tree.Below root top → tree.Below top id → ¬Cut policy tree root top := by
  constructor
  · intro cut
    exact ⟨cut.1, fun top _ above other => cut.2 top above other.1⟩
  · rintro ⟨condemned, spared⟩
    refine ⟨condemned, fun top above other => ?_⟩
    obtain ⟨highest, cut, within⟩ := other.gone linked
    exact spared highest cut.below (.trans_right within above) cut

theorem Kept.not_cut (kept : Kept policy tree root id) : ¬Cut policy tree root id :=
  fun cut => kept.2 cut.gone

theorem not_gone_iff (notCut : ¬Cut policy tree root id) :
    ¬Gone policy tree root id ↔ ∀ top, tree.Below top id → ¬Cut policy tree root top := by
  constructor
  · intro remains top above cut
    exact remains ⟨top, cut, above.to_reflTransGen⟩
  · rintro spared ⟨top, cut, within⟩
    rcases Relation.reflTransGen_iff_eq_or_transGen.mp within with rfl | above
    · exact notCut cut
    · exact spared top above cut

/-! ## One node -/

section Seen

variable {seen : List NodeId} {other : NodeId} {property : NodeId → Prop}

/-- Among the nodes seen, one more without a property makes no difference. -/
theorem seen_and_iff_of_not (without : ¬property id) :
    other ∈ seen ++ [id] ∧ property other ↔ other ∈ seen ∧ property other := by
  by_cases same : other = id <;> simp [same, without]

theorem seen_and_iff (holds : property id) :
    other ∈ seen ++ [id] ∧ property other ↔ (other ∈ seen ∧ property other) ∨ other = id := by
  by_cases same : other = id <;> simp [same, holds]

end Seen

/-- How far a pass has come once it has seen some of the nodes below its root. -/
structure Progress (policy : Sanitize) (before : Tree) (root : NodeId) (seen : List NodeId)
    (state : Tree × Nat) : Prop where
  pruned : before.Pruned (fun id => id ∈ seen ∧ Cut policy before root id) state.1
  payload?_eq : ∀ id, state.1.payload? id =
    if id ∈ seen ∧ Kept policy before root id then (before.payload? id).map stripData
    else before.payload? id
  removed_eq : state.2 = seen.countP fun id => Cut policy before root id

namespace Progress

variable {seen rest : List NodeId} {state : Tree × Nat} {parent : NodeId}

theorem start (linked : before.Linked) (policy : Sanitize) (root : NodeId) :
    Progress policy before root [] (before, 0) where
  pruned := .refl linked (by simp)
  payload?_eq := by simp
  removed_eq := rfl

theorem payload?_of_fresh (progress : Progress policy before root seen state)
    (fresh : id ∉ seen) : state.1.payload? id = before.payload? id := by
  rw [progress.payload?_eq, if_neg fun both => fresh both.1]

theorem parent_of_fresh (progress : Progress policy before root seen state)
    (fresh : id ∉ seen) : state.1.parent id = before.parent id := by
  rw [progress.pruned.parent_eq, if_neg fun both => fresh both.1]

/-- A node that has not been seen yet is still in the tree if nothing above it is cut off,
since a pass has seen everything above it. -/
theorem below_iff (progress : Progress policy before root seen state) (linked : before.Linked)
    (split : before.descendants root = seen ++ id :: rest) (fresh : id ∉ seen) :
    state.1.Below root id ↔ ∀ top, before.Below top id → ¬Cut policy before root top := by
  rw [progress.pruned.below_iff linked]
  constructor
  · rintro ⟨-, spared⟩ top above cut
    have seenTop := Tree.mem_front_of_below linked split cut.below above
    exact spared top cut.below above.to_reflTransGen ⟨seenTop, cut⟩
  · intro spared
    have below : before.Below root id := (Tree.mem_descendants_iff linked).mp (by simp [split])
    refine ⟨below, fun middle _ within both => ?_⟩
    rcases Relation.reflTransGen_iff_eq_or_transGen.mp within with rfl | above
    · exact fresh both.1
    · exact spared middle above both.2

/-- A node that is neither cut off nor stripped. -/
theorem skip (progress : Progress policy before root seen state)
    (notCut : ¬Cut policy before root id) (notKept : ¬Kept policy before root id) :
    Progress policy before root (seen ++ [id]) state where
  pruned := progress.pruned.congr fun other => seen_and_iff_of_not notCut
  payload?_eq other := by
    rw [progress.payload?_eq]
    simp only [seen_and_iff_of_not notKept]
  removed_eq := by
    rw [progress.removed_eq]
    simp [List.countP_append, notCut]

theorem strip (progress : Progress policy before root seen state) (fresh : id ∉ seen)
    (found : before.element? id = some data) (kept : Kept policy before root id) :
    Progress policy before root (seen ++ [id])
      (state.1.setElement id (Sanitizer.strip data), state.2) where
  pruned := (progress.pruned.setElement id _).congr fun other => seen_and_iff_of_not kept.not_cut
  payload?_eq other := by
    by_cases same : other = id
    · subst same
      have there : state.1.element? other = some data :=
        (Tree.element?_congr (progress.payload?_of_fresh fresh)).trans found
      rw [Tree.payload?_setElement_self (Tree.isElement_iff.mpr ⟨data, there⟩),
        Tree.payload?_eq_of_element? found]
      simp [kept, stripData]
    · rw [Tree.payload?_setElement_of_ne (Ne.symm same), progress.payload?_eq]
      simp [same]
  removed_eq := by
    rw [progress.removed_eq]
    simp [List.countP_append, kept.not_cut]

theorem cut (progress : Progress policy before root seen state)
    (attached : state.1.parent id = some parent) (cut : Cut policy before root id) :
    Progress policy before root (seen ++ [id]) (state.1.removeChild parent id, state.2 + 1) where
  pruned := progress.pruned.removeChild attached fun other => seen_and_iff cut
  payload?_eq other := by
    have notKept : ¬Kept policy before root id := fun kept => kept.not_cut cut
    rw [Tree.payload?_removeChild, progress.payload?_eq]
    simp only [seen_and_iff_of_not notKept]
  removed_eq := by
    rw [progress.removed_eq]
    simp [List.countP_append, cut]

theorem skip_of_unvisited (progress : Progress policy before root seen state)
    (unvisited : ¬Visited policy before root id) :
    Progress policy before root (seen ++ [id]) state := by
  apply progress.skip
  · exact fun cut => unvisited cut.1.1
  · exact fun kept => unvisited kept.1

/-- A node that is still in the tree is cut off, stripped or left alone, as its old data
say. -/
theorem step_of_spared (progress : Progress policy before root seen state)
    (linked : before.Linked) (fresh : id ∉ seen) (below : before.Below root id)
    (there : state.1.isDescendantOf id root = true)
    (spared : ∀ top, before.Below top id → ¬Cut policy before root top) :
    Progress policy before root (seen ++ [id]) (Sanitizer.step clean? policy root state id) := by
  rw [Sanitizer.step, if_pos there, Tree.element?_congr (progress.payload?_of_fresh fresh)]
  cases found : before.element? id with
  | none =>
      apply progress.skip_of_unvisited
      intro visited
      simpa [Tree.isElement, found] using visited.isElement
  | some data =>
      have visited : Visited policy before root id ↔ visits policy data = true :=
        visited_iff below found
      by_cases looks : visits policy data = true
      · by_cases forbidden : Forbidden data
        · have condemned := (condemned_iff found).mpr ⟨visited.mpr looks, forbidden⟩
          have cut := (cut_iff linked).mpr ⟨condemned, fun top _ => spared top⟩
          obtain ⟨parent, attached⟩ := Tree.Below.exists_parent below
          rw [← progress.parent_of_fresh fresh] at attached
          simpa only [if_pos looks, clean?_eq, if_pos forbidden, attached] using
            progress.cut attached cut
        · have notCut : ¬Cut policy before root id :=
            fun cut => forbidden ((condemned_iff found).mp cut.1).2
          have kept : Kept policy before root id :=
            ⟨visited.mpr looks, (not_gone_iff notCut).mpr spared⟩
          simpa only [if_pos looks, clean?_eq, if_neg forbidden] using
            progress.strip fresh found kept
      · simp only [if_neg looks]
        exact progress.skip_of_unvisited fun visit => looks (visited.mp visit)

theorem step (progress : Progress policy before root seen state) (linked : before.Linked)
    (split : before.descendants root = seen ++ id :: rest) :
    Progress policy before root (seen ++ [id]) (Sanitizer.step clean? policy root state id) := by
  obtain ⟨fresh, below⟩ := Tree.notMem_front_of_split linked split
  have there : state.1.isDescendantOf id root = true ↔
      ∀ top, before.Below top id → ¬Cut policy before root top :=
    (Tree.isDescendantOf_iff progress.pruned.linked).trans (progress.below_iff linked split fresh)
  by_cases spared : ∀ top, before.Below top id → ¬Cut policy before root top
  · exact progress.step_of_spared linked fresh below (there.mpr spared) spared
  · rw [Sanitizer.step, if_neg fun stays => spared (there.mp stays)]
    simp only [not_forall, not_not] at spared
    obtain ⟨top, above, cutTop⟩ := spared
    apply progress.skip
    · exact fun cut => cut.2 top above cutTop.1
    · exact fun kept => kept.2 ⟨top, cutTop, above.to_reflTransGen⟩

/-- The rest of a pass, by induction on what it has not seen yet. -/
theorem foldl (progress : Progress policy before root seen state) (linked : before.Linked)
    (split : before.descendants root = seen ++ rest) :
    Progress policy before root (before.descendants root)
      (rest.foldl (Sanitizer.step clean? policy root) state) := by
  induction rest generalizing seen state with
  | nil =>
      rw [split, List.append_nil]
      exact progress
  | cons id rest ih => exact ih (progress.step linked split) (by simp [split])

end Progress

/-! ## The whole pass -/

theorem step_off (clean : Element → Option Element) (root : NodeId) (state : Tree × Nat)
    (id : NodeId) : step clean .off root state id = state := by
  rw [step]
  split
  · cases state.1.element? id with
    | none => rfl
    | some data => rfl
  · rfl

/-- A pass that is switched off changes nothing at each of its steps. -/
theorem run_eq_foldl (policy : Sanitize) (tree : Tree) (root : NodeId) :
    run policy tree root = (tree.descendants root).foldl (step clean? policy root) (tree, 0) := by
  rw [run, runWith]
  split
  · next off =>
      subst off
      exact (List.foldl_fixed' (step_off clean? root (tree, 0)) _).symm
  · rfl

/-- What a pass makes of a tree. -/
structure Sanitized (policy : Sanitize) (before : Tree) (root : NodeId) (after : Tree)
    (removed : Nat) : Prop where
  pruned : before.Pruned (Cut policy before root) after
  descendants_eq : after.descendants root =
    (before.descendants root).filter fun id => ¬Gone policy before root id
  payload?_eq : ∀ id, after.payload? id =
    if Kept policy before root id then (before.payload? id).map stripData
    else before.payload? id
  removed_eq : removed = {id | Cut policy before root id}.ncard

theorem countP_cut (linked : before.Linked) :
    ((before.descendants root).countP fun id => Cut policy before root id) =
      {id | Cut policy before root id}.ncard := by
  let cuts := (before.descendants root).filter fun id => Cut policy before root id
  have distinct : cuts.Nodup := (Tree.nodup_descendants linked root).filter _
  have members : {id | Cut policy before root id} = (cuts.toFinset : Set NodeId) := by
    ext id
    simp only [cuts, Set.mem_ofPred_eq, List.coe_toFinset, List.mem_filter, decide_eq_true_iff,
      Tree.mem_descendants_iff linked]
    exact ⟨fun cut => ⟨cut.below, cut⟩, fun both => both.2⟩
  calc
    _ = cuts.length := List.countP_eq_length_filter
    _ = cuts.toFinset.card := (List.toFinset_card_of_nodup distinct).symm
    _ = _ := by rw [members, Set.ncard_coe_finset]

theorem below_iff_not_gone {after : Tree} (pruned : before.Pruned (Cut policy before root) after)
    (linked : before.Linked) :
    after.Below root id ↔ before.Below root id ∧ ¬Gone policy before root id := by
  rw [pruned.below_iff linked]
  apply and_congr_right
  intro _
  constructor
  · rintro spared ⟨top, cut, within⟩
    exact spared top cut.below within cut
  · exact fun remains middle _ within cut => remains ⟨middle, cut, within⟩

theorem sanitized_run (linked : before.Linked) (policy : Sanitize) (root : NodeId) :
    Sanitized policy before root (run policy before root).1 (run policy before root).2 := by
  have progress : Progress policy before root (before.descendants root) (run policy before root) :=
    run_eq_foldl policy before root ▸ (Progress.start linked policy root).foldl linked rfl
  have met : ∀ {id}, before.Below root id → id ∈ before.descendants root :=
    (Tree.mem_descendants_iff linked).mpr
  have pruned : before.Pruned (Cut policy before root) (run policy before root).1 :=
    progress.pruned.congr fun id => ⟨fun cut => ⟨met cut.below, cut⟩, fun both => both.2⟩
  refine ⟨pruned, ?_, ?_, ?_⟩
  · rw [pruned.descendants_eq linked]
    refine List.filter_congr fun id listed => decide_eq_decide.mpr ?_
    have below := (Tree.mem_descendants_iff linked).mp listed
    rw [below_iff_not_gone pruned linked]
    exact and_iff_right below
  · intro id
    rw [progress.payload?_eq]
    by_cases kept : Kept policy before root id
    · rw [if_pos ⟨met kept.1.1, kept⟩, if_pos kept]
    · rw [if_neg fun both => kept both.2, if_neg kept]
  · rw [progress.removed_eq]
    exact countP_cut linked

/-! ## What is left -/

/-- Whatever is still looked at afterwards is harmless. -/
theorem Sanitized.harmless {after : Tree} {removed : Nat}
    (sanitized : Sanitized policy before root after removed) (linked : before.Linked)
    (below : after.Below root id) (found : after.element? id = some data)
    (looks : visits policy data = true) : Harmless data := by
  obtain ⟨belowBefore, remains⟩ := (below_iff_not_gone sanitized.pruned linked).mp below
  have payload := Tree.payload?_eq_of_element? found
  rw [sanitized.payload?_eq] at payload
  by_cases kept : Kept policy before root id
  · obtain ⟨-, old, foundOld, looksOld⟩ := kept.1
    rw [if_pos kept, Tree.payload?_eq_of_element? foundOld] at payload
    cases payload
    apply harmless_strip
    intro forbidden
    exact remains (((condemned_iff foundOld).mpr ⟨kept.1, forbidden⟩).gone linked)
  · rw [if_neg kept] at payload
    have foundBefore := Tree.element?_eq_some_iff.mpr payload
    exact absurd ⟨(visited_iff belowBefore foundBefore).mpr looks, remains⟩ kept

/-- A pass leaves a node alone if it is harmless, or not looked at. -/
theorem step_eq_self (linked : tree.Linked) (removed : Nat)
    (harmless : ∀ data ∈ tree.element? id, tree.Below root id → visits policy data = true →
      Harmless data) :
    step clean? policy root (tree, removed) id = (tree, removed) := by
  rw [step]
  split
  · next there =>
      have below := (Tree.isDescendantOf_iff linked).mp there
      cases found : tree.element? id with
      | none => rfl
      | some data =>
          by_cases looks : visits policy data = true
          · have safe := harmless data found below looks
            simp only [if_pos looks, clean?_eq, if_neg safe.allowed, safe.strip_eq,
              Tree.setElement_self found]
          · simp only [if_neg looks]
  · rfl

/-- A pass prunes the tree.  Cuts are defined from above: a forbidden element that the pass looks
at is cut off if nothing above it is.  A pass over everything leaves nothing harmful, and
another pass finds nothing to do. -/
theorem run_prunes (linked : tree.Linked) (policy : Sanitize) (root : NodeId) :
    (∀ id, Cut policy tree root id ↔ Condemned policy tree root id ∧
        ∀ top, tree.Below root top → tree.Below top id → ¬Cut policy tree root top) ∧
      Sanitized policy tree root (run policy tree root).1 (run policy tree root).2 ∧
      (policy = .all → ∀ id, (run policy tree root).1.Below root id →
        ∀ data ∈ (run policy tree root).1.element? id, Harmless data) ∧
      run policy (run policy tree root).1 root = ((run policy tree root).1, 0) := by
  have sanitized := sanitized_run linked policy root
  refine ⟨fun id => cut_iff linked, sanitized, ?_, ?_⟩
  · rintro rfl id below data found
    exact sanitized.harmless linked below found rfl
  · rw [run_eq_foldl]
    apply List.foldl_fixed'
    intro id
    apply step_eq_self sanitized.pruned.linked
    intro data found below looks
    exact sanitized.harmless linked below found looks

/-- A script with an imported link, a text and an imported style, which has an imported
script and an imported paragraph below it. -/
def page : Tree :=
  let imported (tag : String) (attributes : Attributes) : Payload :=
    .element { Element.ofTag tag with attributes, imported := true }
  let handler : Attributes := .set .empty "onclick" "go()"
  Tree.withBody.1.addChild 1 (.element { Element.ofTag "script" with attributes := handler })
    |>.addChild 2 (imported "a" ((handler.set "href" "java\tscript:go()").set "title" "on"))
    |>.addChild 3 (.text "go")
    |>.addChild 2 (imported "style" .empty)
    |>.addChild 5 (imported "script" .empty)
    |>.addChild 5 (imported "p" handler)

/-- The outer script stays with its handler, the link keeps its title alone, and the style takes
the script and the paragraph along. -/
theorem sanitized_page :
    page.Linked ∧ (run .imports page 1).2 = 1 ∧
      (run .imports page 1).1.outerHtml 2 =
        "<script onclick=\"go()\"><a title=\"on\">go</a></script>" ∧
      Sanitized .imports page 1 (run .imports page 1).1 (run .imports page 1).2 ∧
      run .imports (run .imports page 1).1 1 = ((run .imports page 1).1, 0) := by
  have linked : page.Linked :=
    Tree.linked_withBody.addChild (by decide) _ |>.addChild (by decide) _
      |>.addChild (by decide) _ |>.addChild (by decide) _ |>.addChild (by decide) _
      |>.addChild (by decide) _
  obtain ⟨-, sanitized, -, again⟩ := run_prunes linked .imports 1
  exact ⟨linked, by decide +kernel, by decide +kernel, sanitized, again⟩

end SelectorTree.Sanitizer
