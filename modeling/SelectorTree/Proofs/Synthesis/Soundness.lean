import SelectorTree.Proofs.Synthesis.Frame
import SelectorTree.Proofs.Synthesis.Steps

/-!
# Sound builders

A builder is sound if its tree is linked, all its elements are below the body
except for fillers that were replaced, and its fillers are bare.  Placing an
element and showing a content keep that.  `Advance` says what else every action
guarantees: no element is lost, and no filler is touched before it goes.
-/

namespace SelectorTree

namespace Builder

/-- An element below the body that is no filler. -/
structure Real (builder : Builder) (id : NodeId) : Prop where
  below : builder.tree.Below builder.body id
  element : builder.tree.isElement id = true
  unregistered : builder.fillers.contains id = false

theorem Real.ne_of_registered {builder : Builder} {target id : NodeId}
    (real : builder.Real target) (registered : builder.fillers.contains id = true) :
    id ≠ target := by
  rintro rfl
  rw [real.unregistered] at registered
  cases registered

/-- A node that elements may be placed below. -/
def Host (builder : Builder) (id : NodeId) : Prop := id = builder.body ∨ builder.Real id

/-- What the data of a filler may be. -/
def Bare (data : Element) : Prop := data.id? = none ∧ data.value = none

structure Sound (builder : Builder) : Prop where
  linked : builder.tree.Linked
  body_element : builder.tree.isElement builder.body = true
  body_unregistered : builder.fillers.contains builder.body = false
  body_textless : builder.tree.texts builder.body = []
  attached : ∀ id, builder.tree.isElement id = true → id ≠ builder.body →
    builder.tree.Below builder.body id ∨
      (builder.tree.parent id = none ∧ builder.fillers.contains id = false)
  inner : ∀ id, builder.tree.Below builder.body id →
    builder.tree.isElement id = true ∨ builder.tree.children id = []
  filler_below : ∀ id, builder.fillers.contains id = true →
    builder.tree.Below builder.body id
  filler_childless : ∀ id, builder.fillers.contains id = true → builder.tree.children id = []
  filler_bare : ∀ id, builder.fillers.contains id = true →
    ∃ data, builder.tree.element? id = some data ∧ Bare data
  classes : ∀ id data, builder.tree.Below builder.body id →
    builder.tree.element? id = some data → data.ProperClasses
  texts : ∀ id, (builder.tree.texts id).length ≤ 1

/-- What one action guarantees about the nodes that were there. -/
structure Advance (before after : Builder) : Prop where
  body_eq : after.body = before.body
  size_le : before.tree.size ≤ after.tree.size
  kept : ∀ id, before.tree.Below before.body id → before.fillers.contains id = false →
    after.tree.Below after.body id ∧ after.fillers.contains id = false
  filler_payload : ∀ id, before.fillers.contains id = true →
    after.tree.payload? id = before.tree.payload? id
  filler_children : ∀ id, before.fillers.contains id = true →
    after.tree.children id = before.tree.children id
  isElement_of_lt : ∀ id : Nat, id < before.tree.size →
    after.tree.isElement id = before.tree.isElement id
  new_below : ∀ id : Nat, before.tree.size ≤ id → after.tree.isElement id = true →
    after.tree.Below after.body id

namespace Sound

variable {builder : Builder} {parent id : NodeId}

theorem lt_size_of_registered (sound : builder.Sound)
    (registered : builder.fillers.contains id = true) : id < builder.tree.size := by
  obtain ⟨data, found, -⟩ := sound.filler_bare id registered
  exact Tree.lt_size_of_element? found

theorem body_lt_size (sound : builder.Sound) : builder.body < builder.tree.size :=
  Tree.lt_size_of_isElement sound.body_element

theorem host_element (sound : builder.Sound) (host : builder.Host parent) :
    builder.tree.isElement parent = true := by
  rcases host with rfl | real
  · exact sound.body_element
  · exact real.element

theorem host_unregistered (sound : builder.Sound) (host : builder.Host parent) :
    builder.fillers.contains parent = false := by
  rcases host with rfl | real
  · exact sound.body_unregistered
  · exact real.unregistered

theorem host_lt_size (sound : builder.Sound) (host : builder.Host parent) :
    parent < builder.tree.size :=
  Tree.lt_size_of_isElement (sound.host_element host)

theorem above_host (host : builder.Host parent) :
    parent = builder.body ∨ builder.tree.Below builder.body parent :=
  host.imp_right Real.below

/-- A child of a host is below the body. -/
theorem below_of_host (host : builder.Host parent)
    (attached : builder.tree.parent id = some parent) :
    builder.tree.Below builder.body id := by
  rcases host with rfl | real
  · exact .single attached
  · exact .tail real.below attached

/-- The parent of an element below the body may have further children. -/
theorem host_of_parent (sound : builder.Sound) (below : builder.tree.Below builder.body id)
    (attached : builder.tree.parent id = some parent) : builder.Host parent := by
  have listed := sound.linked.mem_children attached
  cases below with
  | single atBody =>
      have same : some builder.body = some parent := by
        rw [← attached]
        exact atBody.symm
      exact Or.inl (Option.some.inj same).symm
  | @tail middle _ above atMiddle =>
      have same : some middle = some parent := by
        rw [← attached]
        exact atMiddle.symm
      cases same
      refine Or.inr ⟨above, ?_, ?_⟩
      · refine (sound.inner parent above).resolve_right fun childless => ?_
        rw [childless] at listed
        cases listed
      · refine Bool.eq_false_iff.mpr fun registered => ?_
        rw [sound.filler_childless parent registered] at listed
        cases listed

theorem child_real (host : builder.Host parent)
    (listed : id ∈ builder.tree.elementChildren parent) (linked : builder.tree.Linked)
    (unregistered : builder.fillers.contains id = false) : builder.Real id := by
  obtain ⟨child, element⟩ := List.mem_filter.mp listed
  exact ⟨below_of_host host (linked.parent_of_mem child), element, unregistered⟩

end Sound

/-! ## The empty body -/

theorem eq_body_of_start {id : NodeId} (element : start.tree.isElement id = true) :
    id = start.body := by
  rcases id with _ | _ | id
  · cases element
  · rfl
  · simp [start, Tree.withBody_eq, Tree.isElement, Tree.element?, Tree.payload?, Tree.get?]
      at element

theorem sound_start : start.Sound := by
  have children : ∀ id, start.tree.children id = if id = 0 then [1] else [] := by
    intro id
    rcases id with _ | _ | id <;> simp [start, Tree.withBody_eq, Tree.children, Tree.get?]
  have parents : ∀ id, start.tree.parent id = if id = 1 then some 0 else none := by
    intro id
    rcases id with _ | _ | id <;> simp [start, Tree.withBody_eq, Tree.parent, Tree.get?]
  have nothingBelow : ∀ id, ¬ start.tree.Below 1 id := by
    intro id below
    obtain ⟨child, attached⟩ := Tree.Below.exists_child below
    rw [parents] at attached
    split at attached <;> cases attached
  have unregistered : ∀ id, start.fillers.contains id = false := fun _ => rfl
  refine ⟨Tree.linked_withBody, rfl, rfl, rfl, ?_, ?_, ?_, ?_, ?_, ?_, ?_⟩
  · exact fun id element different => absurd (eq_body_of_start element) different
  · exact fun id below => absurd below (nothingBelow id)
  · exact fun id registered => absurd registered (by simp [unregistered])
  · exact fun id registered => absurd registered (by simp [unregistered])
  · exact fun id registered => absurd registered (by simp [unregistered])
  · exact fun id _ below => absurd below (nothingBelow id)
  · intro id
    rw [Tree.texts, children]
    split
    · exact Nat.zero_le 1
    · exact Nat.zero_le 1

/-! ## Placing an element -/

section Grown

variable {before after : Builder} {element : Element} {imported : Bool} {graft : Graft}

theorem Sound.gone_childless (sound : before.Sound)
    (grown : Grown before after element imported graft) :
    ∀ id ∈ graft.gone, before.tree.children id = [] :=
  fun id gone => sound.filler_childless id (grown.gone_registered id gone)

theorem Sound.gone_textless (sound : before.Sound)
    (grown : Grown before after element imported graft) :
    ∀ id ∈ graft.gone, before.tree.text? id = none := by
  intro id gone
  obtain ⟨data, found, -⟩ := sound.filler_bare id (grown.gone_registered id gone)
  exact Tree.text?_eq_none_of_element? found

theorem Sound.gone_elements (sound : before.Sound)
    (grown : Grown before after element imported graft) :
    ∀ id ∈ graft.gone, before.tree.isElement id = true := by
  intro id gone
  obtain ⟨data, found, -⟩ := sound.filler_bare id (grown.gone_registered id gone)
  exact Tree.isElement_iff.mpr ⟨data, found⟩

theorem Sound.host_not_gone (sound : before.Sound)
    (grown : Grown before after element imported graft) {top : NodeId}
    (host : before.Host top) : top ∉ graft.gone := by
  intro gone
  have registered := grown.gone_registered top gone
  rw [sound.host_unregistered host] at registered
  cases registered

theorem Grown.contains_eq_false (grown : Grown before after element imported graft) {id : Nat}
    (old : id < before.tree.size) (unregistered : before.fillers.contains id = false) :
    after.fillers.contains id = false := by
  refine Bool.eq_false_iff.mpr fun registered => ?_
  rcases (grown.contains_iff id).mp registered with lead | ⟨known, -⟩
  · exact (grown.not_mem_lead_of_lt old).2 lead
  · rw [unregistered] at known
    cases known

section Placed

variable (sound : before.Sound) (host : before.Host graft.parent)
  (grown : Grown before after element imported graft)

include sound host grown

theorem new_below_of_grown {id : NodeId} (new : id = graft.node ∨ id ∈ graft.lead) :
    after.tree.Below after.body id := by
  rw [grown.body_eq]
  exact grown.below_of_new sound.linked (sound.gone_childless grown) (Sound.above_host host)
    (sound.host_not_gone grown host) new

theorem advance_grown : Advance before after where
  body_eq := grown.body_eq
  size_le := grown.size_le
  kept id below unregistered := by
    have notGone : id ∉ graft.gone := fun gone => by
      simp [grown.gone_registered id gone] at unregistered
    refine ⟨?_, grown.contains_eq_false (Tree.lt_size_of_below below) unregistered⟩
    rw [grown.body_eq]
    exact grown.below_of_below sound.linked (sound.gone_childless grown) below notGone
  filler_payload id registered :=
    grown.payload?_of_lt id (sound.lt_size_of_registered registered)
  filler_children id registered := by
    refine grown.children_of_ne id ?_
    rintro rfl
    rw [sound.host_unregistered host] at registered
    cases registered
  isElement_of_lt id old := Tree.isElement_congr (grown.payload?_of_lt id old)
  new_below id new element :=
    new_below_of_grown sound host grown
      ((grown.new_iff id).mpr ⟨new, Tree.lt_size_of_isElement element⟩)

theorem real_node_of_grown : after.Real graft.node := by
  have new := (grown.new_iff graft.node).mp (Or.inl rfl)
  refine ⟨new_below_of_grown sound host grown (Or.inl rfl), ?_, ?_⟩
  · exact Tree.isElement_iff.mpr ⟨_, grown.element_node⟩
  · refine Bool.eq_false_iff.mpr fun registered => ?_
    rcases (grown.contains_iff graft.node).mp registered with lead | ⟨known, -⟩
    · have distinct : (graft.front ++ graft.lead ++ graft.node :: graft.back).Nodup := by
        rw [← grown.relisted, Side.nodup_orient]
        exact grown.linked.nodup_children graft.parent
      exact (List.nodup_append.mp distinct).2.2 _ (List.mem_append_right _ lead) _
        List.mem_cons_self rfl
    · exact Nat.not_le_of_lt (sound.lt_size_of_registered known) new.1

/-- A filler that goes is outside of the tree and no filler any more; all other
elements are where they were, or new. -/
private theorem attached_grown {id : NodeId} (element : after.tree.isElement id = true)
    (different : id ≠ after.body) :
    after.tree.Below after.body id ∨
      (after.tree.parent id = none ∧ after.fillers.contains id = false) := by
  have linked := sound.linked
  rcases grown.old_or_new (Tree.lt_size_of_isElement element) with old | new
  · rw [grown.body_eq] at different ⊢
    rw [Tree.isElement_congr (grown.payload?_of_lt id old)] at element
    by_cases gone : id ∈ graft.gone
    · right
      refine ⟨grown.parent_of_gone linked gone, Bool.eq_false_iff.mpr fun registered => ?_⟩
      rcases (grown.contains_iff id).mp registered with lead | ⟨-, kept⟩
      · exact (grown.not_mem_lead_of_lt old).2 lead
      · exact kept gone
    · rcases sound.attached id element different with below | ⟨detached, unregistered⟩
      · exact Or.inl (grown.below_of_below linked (sound.gone_childless grown) below gone)
      · right
        exact ⟨(grown.parent_of_kept linked old gone).trans detached,
          grown.contains_eq_false old unregistered⟩
  · exact Or.inl (new_below_of_grown sound host grown new)

private theorem inner_grown {id : NodeId} (below : after.tree.Below after.body id) :
    after.tree.isElement id = true ∨ after.tree.children id = [] := by
  rcases grown.old_or_new (Tree.lt_size_of_below below) with old | new
  · rw [Tree.isElement_congr (grown.payload?_of_lt id old)]
    by_cases atParent : id = graft.parent
    · exact Or.inl (atParent ▸ sound.host_element host)
    · rw [grown.children_of_ne id atParent]
      rw [grown.body_eq] at below
      exact sound.inner id (grown.below_before sound.linked below old)
  · obtain ⟨data, found, -⟩ := grown.element_new new
    exact Or.inl (Tree.isElement_iff.mpr ⟨data, found⟩)

/-- The fillers afterwards are the new ones and the old ones that stay. -/
private theorem filler_grown {id : NodeId} (registered : after.fillers.contains id = true) :
    after.tree.Below after.body id ∧ after.tree.children id = [] ∧
      ∃ data, after.tree.element? id = some data ∧ Bare data := by
  rcases (grown.contains_iff id).mp registered with lead | ⟨known, kept⟩
  · refine ⟨new_below_of_grown sound host grown (Or.inr lead), ?_, ?_⟩
    · exact grown.children_of_new (sound.host_lt_size host)
        ((grown.new_iff id).mp (Or.inr lead)).1
    · exact ⟨_, grown.element_lead id lead, rfl, rfl⟩
  · refine ⟨?_, ?_, ?_⟩
    · rw [grown.body_eq]
      exact grown.below_of_below sound.linked (sound.gone_childless grown)
        (sound.filler_below id known) kept
    · have different : id ≠ graft.parent := by
        rintro rfl
        simp [sound.host_unregistered host] at known
      rw [grown.children_of_ne id different, sound.filler_childless id known]
    · rw [Tree.element?_congr (grown.payload?_of_lt id (sound.lt_size_of_registered known))]
      exact sound.filler_bare id known

theorem sound_grown (proper : element.ProperClasses) : after.Sound := by
  have linked := sound.linked
  have bodyOld : before.body < before.tree.size := sound.body_lt_size
  refine ⟨grown.linked, ?_, ?_, ?_, ?_, ?_, ?_, ?_, ?_, ?_, ?_⟩
  · rw [grown.body_eq, Tree.isElement_congr (grown.payload?_of_lt _ bodyOld), sound.body_element]
  · rw [grown.body_eq]
    exact grown.contains_eq_false bodyOld sound.body_unregistered
  · rw [grown.body_eq, grown.texts_eq linked (sound.gone_textless grown), sound.body_textless]
  · exact fun id element different => attached_grown sound host grown element different
  · exact fun id below => inner_grown sound host grown below
  · exact fun id registered => (filler_grown sound host grown registered).1
  · exact fun id registered => (filler_grown sound host grown registered).2.1
  · exact fun id registered => (filler_grown sound host grown registered).2.2
  · intro id data below found
    rcases grown.old_or_new (Tree.lt_size_of_below below) with old | new
    · rw [grown.body_eq] at below
      rw [Tree.element?_congr (grown.payload?_of_lt id old)] at found
      exact sound.classes id data (grown.below_before linked below old) found
    · obtain ⟨_, foundNew, sameClasses⟩ := grown.element_new new
      cases found.symm.trans foundNew
      exact proper.congr sameClasses
  · intro id
    rw [grown.texts_eq linked (sound.gone_textless grown)]
    exact sound.texts id

end Placed

end Grown

/-! ## Changing a real element -/

/-- One real element has other data or another text, and nothing else
happened. -/
structure Rewritten (before after : Builder) (target : NodeId) : Prop where
  body_eq : after.body = before.body
  fillers_eq : after.fillers = before.fillers
  shown : before.tree.Shown after.tree target
  proper : ∃ data, after.tree.element? target = some data ∧ data.ProperClasses
  texts : (after.tree.texts target).length ≤ 1

section Rewritten

variable {before after : Builder} {target : NodeId}

theorem rewritten_of_tryMerge (sound : before.Sound) (real : before.Real target)
    {element : Element} {imported : Bool}
    (success : before.tryMerge element target imported = some after) :
    Rewritten before after target := by
  obtain ⟨data, merged, found, mergedEq, rfl⟩ := tryMerge_eq_some_iff.mp success
  have proper := sound.classes target data real.below found
  refine ⟨rfl, rfl, Tree.shown_setElement sound.linked found _, ?_, ?_⟩
  · exact ⟨_, Tree.element?_setElement_self found _, (proper.mergeInto mergedEq).congr rfl⟩
  · rw [Tree.texts_setElement]
    exact sound.texts target

theorem rewritten_of_setContent (sound : before.Sound) (real : before.Real target)
    (content : String) :
    Rewritten before (before.edit (·.setContent target content)) target := by
  obtain ⟨data, found⟩ := Tree.isElement_iff.mp real.element
  have proper := sound.classes target data real.below found
  refine ⟨rfl, rfl, Tree.shown_setContent sound.linked found content, ?_, ?_⟩
  · exact ⟨_, Tree.element?_setContent_self sound.linked found content,
      proper.congr (Element.classes_withContent data content)⟩
  · have few := sound.texts target
    change ((before.tree.setContent target content).texts target).length ≤ 1
    rw [Tree.texts_setContent_self sound.linked found]
    split
    · rw [List.length_cons, List.length_tail]
      omega
    · exact few

variable (sound : before.Sound) (real : before.Real target)
  (rewritten : Rewritten before after target)

include sound real rewritten

omit sound in
theorem isElement_of_rewritten (id : NodeId) :
    after.tree.isElement id = before.tree.isElement id := by
  obtain ⟨data, found, -⟩ := rewritten.proper
  have element := Tree.isElement_iff.mpr ⟨data, found⟩
  exact rewritten.shown.isElement_eq (real.element.trans element.symm) id

theorem advance_rewritten : Advance before after where
  body_eq := rewritten.body_eq
  size_le := rewritten.shown.size_le
  kept id below unregistered := by
    rw [rewritten.body_eq, rewritten.fillers_eq]
    exact ⟨(rewritten.shown.below_iff sound.linked (Tree.lt_size_of_below below)).mpr below,
      unregistered⟩
  filler_payload id registered := by
    obtain ⟨data, found, -⟩ := sound.filler_bare id registered
    have kept : after.tree.element? id = some data :=
      (rewritten.shown.element?_of_ne id (real.ne_of_registered registered)).trans found
    rw [Tree.payload?_eq_of_element? found, Tree.payload?_eq_of_element? kept]
  filler_children id registered :=
    rewritten.shown.children_of_ne id (real.ne_of_registered registered)
  isElement_of_lt id _ := isElement_of_rewritten real rewritten id
  new_below id new element := by
    rw [isElement_of_rewritten real rewritten] at element
    exact absurd (Tree.lt_size_of_isElement element) (Nat.not_lt_of_le new)

omit real in
private theorem below_rewritten {id : Nat} (old : id < before.tree.size) :
    after.tree.Below after.body id ↔ before.tree.Below before.body id := by
  rw [rewritten.body_eq]
  exact rewritten.shown.below_iff sound.linked old

private theorem inner_rewritten {id : NodeId} (below : after.tree.Below after.body id) :
    after.tree.isElement id = true ∨ after.tree.children id = [] := by
  rw [isElement_of_rewritten real rewritten]
  by_cases same : id = target
  · exact Or.inl (same ▸ real.element)
  · rw [rewritten.shown.children_of_ne id same]
    by_cases old : id < before.tree.size
    · exact sound.inner id ((below_rewritten sound rewritten old).mp below)
    · exact Or.inr (Tree.children_eq_nil_of_size_le (Nat.le_of_not_lt old))

private theorem classes_rewritten {id : NodeId} {data : Element}
    (below : after.tree.Below after.body id) (found : after.tree.element? id = some data) :
    data.ProperClasses := by
  by_cases same : id = target
  · obtain ⟨changed, foundChanged, proper⟩ := rewritten.proper
    subst same
    cases found.symm.trans foundChanged
    exact proper
  · rw [rewritten.shown.element?_of_ne id same] at found
    have old := Tree.lt_size_of_element? found
    exact sound.classes id data ((below_rewritten sound rewritten old).mp below) found

theorem sound_rewritten : after.Sound := by
  have shown := rewritten.shown
  have element := isElement_of_rewritten real rewritten
  refine ⟨shown.linked, ?_, ?_, ?_, ?_, ?_, ?_, ?_, ?_, ?_, ?_⟩
  · rw [rewritten.body_eq, element, sound.body_element]
  · rw [rewritten.body_eq, rewritten.fillers_eq, sound.body_unregistered]
  · have different : before.body ≠ target := by
      rintro rfl
      exact sound.linked.not_below_self _ real.below
    rw [rewritten.body_eq, shown.texts_of_ne _ different, sound.body_textless]
  · intro id isElement different
    rw [element] at isElement
    rw [rewritten.body_eq] at different
    have old := Tree.lt_size_of_isElement isElement
    rw [below_rewritten sound rewritten old, shown.parent_of_lt id old,
      rewritten.fillers_eq]
    exact sound.attached id isElement different
  · exact fun id below => inner_rewritten sound real rewritten below
  · intro id registered
    rw [rewritten.fillers_eq] at registered
    have old := sound.lt_size_of_registered registered
    exact (below_rewritten sound rewritten old).mpr (sound.filler_below id registered)
  · intro id registered
    rw [rewritten.fillers_eq] at registered
    rw [shown.children_of_ne id (real.ne_of_registered registered),
      sound.filler_childless id registered]
  · intro id registered
    rw [rewritten.fillers_eq] at registered
    rw [shown.element?_of_ne id (real.ne_of_registered registered)]
    exact sound.filler_bare id registered
  · exact fun id data below found => classes_rewritten sound real rewritten below found
  · intro id
    by_cases same : id = target
    · exact same ▸ rewritten.texts
    · rw [shown.texts_of_ne id same]
      exact sound.texts id

end Rewritten

end Builder

end SelectorTree
