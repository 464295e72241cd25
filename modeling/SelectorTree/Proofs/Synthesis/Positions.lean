import SelectorTree.Proofs.Synthesis.Runs

/-!
# Where positioned elements end up

An element that asks for a position gets it: the probe finds the element there
afterwards.  Only without fillers it may come nearer than it asked for, directly
behind the siblings that count.  How many children the parent gains depends on
what was at the position.
-/

namespace SelectorTree

namespace Builder

variable {builder before after : Builder} {options : Options} {parent : NodeId}
  {element : Element} {position : Position} {imported : Bool} {graft : Graft}

/-! ## Counting after growth -/

theorem Grown.countsAt_new (grown : Grown before after element imported graft) (scope : Scope)
    {id : NodeId} (new : id = graft.node ∨ id ∈ graft.lead) :
    after.tree.countsAt scope element.tag id = true := by
  rcases new with rfl | lead
  · exact Tree.countsAt_of_tag grown.element_node rfl
  · exact Tree.countsAt_of_tag (grown.element_lead id lead) rfl

theorem Grown.filter_countsAt (grown : Grown before after element imported graft)
    (linked : before.tree.Linked) (scope : Scope) (tag : String) {part : List NodeId}
    (listed : ∀ id ∈ part, id ∈ before.tree.children graft.parent) :
    part.filter (after.tree.countsAt scope tag) =
      part.filter (before.tree.countsAt scope tag) := by
  refine List.filter_congr fun id member => Tree.countsAt_congr ?_
  exact grown.payload?_of_lt id (linked.lt_size_of_mem (listed id member))

/-- A new element is where the siblings that count before it put it. -/
theorem Grown.probe_node (grown : Grown before after element imported graft)
    (linked : before.tree.Linked) (sameSide : graft.side = position.side)
    (index : (graft.front.filter (before.tree.countsAt position.scope element.tag)).length +
      graft.lead.length + 1 = position.index) :
    after.tree.probe graft.parent position element.tag = some graft.node := by
  have front := grown.filter_countsAt linked position.scope element.tag
    fun id member => grown.mem_children_parent_before.mpr (Or.inl member)
  have lead : graft.lead.filter (after.tree.countsAt position.scope element.tag) = graft.lead :=
    List.filter_eq_self.mpr fun id member => grown.countsAt_new position.scope (Or.inr member)
  have node := grown.countsAt_new position.scope (Or.inl rfl)
  have before : (graft.front.filter
      (after.tree.countsAt position.scope element.tag) ++ graft.lead).length =
        position.index - 1 := by
    rw [List.length_append, front]
    omega
  rw [Tree.probe, if_neg (by omega), Tree.siblingsAt_eq, ← sameSide, grown.relisted,
    List.filter_append, List.filter_append, lead, List.filter_cons_of_pos node, ← before]
  rw [List.getElem?_append_right (Nat.le_refl _), Nat.sub_self]
  rfl

/-- The parent gains the new nodes and loses the fillers that go. -/
theorem Grown.length_elementChildren (grown : Grown before after element imported graft)
    (linked : before.tree.Linked)
    (goneElements : ∀ id ∈ graft.gone, before.tree.isElement id = true) :
    (after.tree.elementChildren graft.parent).length + graft.gone.length =
      (before.tree.elementChildren graft.parent).length + graft.lead.length + 1 := by
  obtain ⟨listed, relisted⟩ := grown.elementChildren_parent linked goneElements
  rw [← graft.side.length_orient (after.tree.elementChildren _),
    ← graft.side.length_orient (before.tree.elementChildren _), listed, relisted]
  simp only [List.length_append, List.length_cons]
  omega

/-! ## Counting after a merge -/

theorem elementChildren_of_tryMerge {target : NodeId} (parent : NodeId)
    (success : before.tryMerge element target imported = some after) :
    after.tree.elementChildren parent = before.tree.elementChildren parent := by
  obtain ⟨data, merged, -, -, rfl⟩ := tryMerge_eq_some_iff.mp success
  exact Tree.elementChildren_setElement before.tree target parent _

/-- A merge moves no sibling. -/
theorem siblingsAt_of_tryMerge {target : NodeId} (tag : String)
    (success : before.tryMerge element target imported = some after) :
    after.tree.siblingsAt parent position tag = before.tree.siblingsAt parent position tag := by
  obtain ⟨data, merged, found, mergedEq, rfl⟩ := tryMerge_eq_some_iff.mp success
  have sameTag := Element.tag_mergeInto mergedEq
  have sameCounts : ∀ id,
      (before.tree.setElement target
        { merged with imported := merged.imported || imported }).counts position.scope tag id =
        before.tree.counts position.scope tag id := by
    intro id
    cases position.scope with
    | anyTag => rfl
    | sameTag =>
        by_cases same : target = id
        · subst same
          simp [Tree.counts, found, Tree.element?_setElement_self found, sameTag]
        · simp [Tree.counts, Tree.element?_setElement_of_ne same]
  simp only [Tree.siblingsAt, Tree.countedChildren_eq, Tree.elementChildren_setElement]
  exact congrArg _ (List.filter_congr fun id _ => sameCounts id)

/-! ## Cases of what is at the position -/

section Placing

variable (sound : before.Sound) (host : before.Host parent)

include sound

theorem Grown.length_of_kept (grown : Grown before after element imported graft)
    (nothingGone : graft.gone = []) :
    (after.tree.elementChildren graft.parent).length =
      (before.tree.elementChildren graft.parent).length + graft.lead.length + 1 := by
  have length := grown.length_elementChildren sound.linked (by simp [nothingGone])
  simpa [nothingGone] using length

include host

section Blocked

variable {blocker : NodeId}
  (found : before.tree.probe parent position element.tag = some blocker)

include found

theorem length_placeAt_of_filler (registered : before.fillers.contains blocker = true)
    (options : Options) (imported : Bool) :
    ((before.placeAt options parent element position imported).1.tree.elementChildren
      parent).length = (before.tree.elementChildren parent).length := by
  obtain ⟨front, back, -, -, growth⟩ :=
    grown_placeAt_of_filler sound.linked (sound.host_lt_size host) found registered options
      imported
  simpa using growth.length_elementChildren sound.linked (sound.gone_elements growth)

theorem length_placeAt_of_displace (real : before.fillers.contains blocker = false)
    (refused : options.mergeNth = .merge →
      before.tryMerge element blocker imported = none) :
    ((before.placeAt options parent element position imported).1.tree.elementChildren
      parent).length = (before.tree.elementChildren parent).length + 1 := by
  obtain ⟨front, back, -, -, growth⟩ :=
    grown_placeAt_of_displace sound.linked (sound.host_lt_size host) found real refused
  exact growth.length_of_kept sound rfl

/-- Whatever was at the position, the element is there now. -/
theorem probe_placeAt_of_blocked (options : Options) (imported : Bool) :
    (before.placeAt options parent element position imported).1.tree.probe parent position
        element.tag = some (before.placeAt options parent element position imported).2 := by
  have allocated := sound.host_lt_size host
  by_cases registered : before.fillers.contains blocker = true
  · obtain ⟨front, back, count, node, growth⟩ :=
      grown_placeAt_of_filler sound.linked allocated found registered options imported
    rw [node]
    exact growth.probe_node sound.linked rfl count
  · have real := Bool.eq_false_iff.mpr registered
    rcases before.merges_or_refuses options element blocker imported with
      ⟨merges, after, success⟩ | refused
    · rw [placeAt_of_merge found real merges success]
      rw [Tree.probe] at found ⊢
      rw [siblingsAt_of_tryMerge element.tag success, found]
    · obtain ⟨front, back, count, node, growth⟩ :=
        grown_placeAt_of_displace sound.linked allocated found real refused
      rw [node]
      exact growth.probe_node sound.linked rfl count

end Blocked

section Free

variable (free : before.tree.probe parent position element.tag = none)

include free

theorem placeAt_of_first (first : position.index = 1) (options : Options) (imported : Bool) :
    (before.placeAt options parent element position imported).1.tree.probe parent position
        element.tag = some (before.placeAt options parent element position imported).2 ∧
      ((before.placeAt options parent element position imported).1.tree.elementChildren
        parent).length = (before.tree.elementChildren parent).length + 1 := by
  obtain ⟨node, growth⟩ :=
    grown_placeAt_of_first sound.linked (sound.host_lt_size host) free first options imported
  rw [node]
  exact ⟨growth.probe_node sound.linked rfl first.symm, growth.length_of_kept sound rfl⟩

/-- At a free position the element stands behind all that count and the new
fillers. -/
theorem placeAt_of_free (later : position.index ≠ 1) (options : Options) (imported : Bool) :
    (before.placeAt options parent element position imported).1.tree.probe parent
        { position with
          index := (before.tree.siblingsAt parent position element.tag).length +
            before.gap options parent element position + 1 }
        element.tag = some (before.placeAt options parent element position imported).2 ∧
      ((before.placeAt options parent element position imported).1.tree.elementChildren
        parent).length = (before.tree.elementChildren parent).length +
          before.gap options parent element position + 1 := by
  obtain ⟨lead, length, node, growth⟩ :=
    grown_placeAt_of_free sound.linked (sound.host_lt_size host) free later options imported
  rw [node, ← length]
  refine ⟨growth.probe_node sound.linked rfl ?_, growth.length_of_kept sound rfl⟩
  rw [Tree.siblingsAt_eq]

end Free

variable (element) in
/-- The element stands where it asked to, or nearer: behind all siblings that
count and the fillers that came with it. -/
theorem probe_placeAt (positive : 0 < position.index) (options : Options) (imported : Bool) :
    (before.placeAt options parent element position imported).1.tree.probe parent
        { position with
          index := min position.index
            ((before.tree.siblingsAt parent position element.tag).length +
              before.gap options parent element position + 1) }
        element.tag = some (before.placeAt options parent element position imported).2 := by
  cases found : before.tree.probe parent position element.tag with
  | some blocker =>
      have enough := (Tree.index_le_of_probe found).2
      rw [Nat.min_eq_left (by omega)]
      exact probe_placeAt_of_blocked sound host found options imported
  | none =>
      have few := (Tree.probe_eq_none_iff positive).mp found
      by_cases first : position.index = 1
      · rw [Nat.min_eq_left (by omega)]
        exact (placeAt_of_first sound host found first options imported).1
      · have atMost : before.gap options parent element position ≤ position.index - 1 -
            (before.tree.siblingsAt parent position element.tag).length := by
          rw [gap]
          split
          · exact Nat.zero_le _
          · exact Nat.le_refl _
        rw [Nat.min_eq_right (by omega)]
        exact (placeAt_of_free sound host found first options imported).1

end Placing

/-! ## The position of the result -/

/-- What placing an element at a position does, for every case of what was
there. -/
structure Positioned (options : Options) (before : Builder) (parent : NodeId)
    (element : Element) (position : Position) (imported : Bool) (after : Builder)
    (node : NodeId) : Prop where
  unregistered : after.fillers.contains node = false
  filled : options.fill = .fill →
    after.tree.probe parent position element.tag = some node
  unfilled : options.fill = .noFill →
    after.tree.probe parent
      { position with
        index := min position.index
          ((before.tree.siblingsAt parent position element.tag).length + 1) }
      element.tag = some node
  evicted : ∀ blocker, before.tree.probe parent position element.tag = some blocker →
    before.fillers.contains blocker = true →
    (after.tree.elementChildren parent).length = (before.tree.elementChildren parent).length
  merged : ∀ blocker, before.tree.probe parent position element.tag = some blocker →
    before.fillers.contains blocker = false → options.mergeNth = .merge →
    (before.tryMerge element blocker imported).isSome = true →
    node = blocker ∧
      (after.tree.elementChildren parent).length = (before.tree.elementChildren parent).length
  displaced : ∀ blocker, before.tree.probe parent position element.tag = some blocker →
    before.fillers.contains blocker = false →
    (options.mergeNth = .merge → before.tryMerge element blocker imported = none) →
    (after.tree.elementChildren parent).length =
      (before.tree.elementChildren parent).length + 1
  first : before.tree.siblingsAt parent position element.tag = [] → position.index = 1 →
    (after.tree.elementChildren parent).length =
      (before.tree.elementChildren parent).length + 1
  behind : (before.tree.siblingsAt parent position element.tag).length < position.index →
    1 < position.index →
    (after.tree.elementChildren parent).length =
      (before.tree.elementChildren parent).length +
        match options.fill with
        | .fill =>
            position.index - (before.tree.siblingsAt parent position element.tag).length
        | .noFill => 1

/-- Every descriptor that asks for a position gets it, at every moment of every
run and below every parent that may have children. -/
theorem positioned_placeAt (reachable : before.Reachable options) (host : before.Host parent)
    {compound : Compound} {combinator : Combinator} {descriptor : Descriptor}
    (built : Descriptor.ofCompound compound combinator = .ok descriptor)
    (asked : descriptor.position? = some position) (imported : Bool) :
    Positioned options before parent descriptor.element position imported
      (before.placeAt options parent descriptor.element position imported).1
      (before.placeAt options parent descriptor.element position imported).2 := by
  have sound := reachable.sound
  have proper := Descriptor.proper_of_ofCompound built
  have positive := proper.positive position asked
  have outcome := outcome_placeAt sound.linked (sound.host_lt_size host) options
    descriptor.element position imported
  have real := (outcome.sound sound host proper.classes).2.2.1
  have freeIff : before.tree.probe parent position descriptor.element.tag = none ↔ _ :=
    Tree.probe_eq_none_iff positive
  refine ⟨real.unregistered, ?_, ?_, ?_, ?_, ?_, ?_, ?_⟩
  · intro fills
    have probed := probe_placeAt descriptor.element sound host positive options imported
    rw [gap, fills] at probed
    dsimp only at probed
    rwa [Nat.min_eq_left (by omega)] at probed
  · intro unfilled
    have probed := probe_placeAt descriptor.element sound host positive options imported
    rw [gap, unfilled] at probed
    exact probed
  · intro blocker found registered
    exact length_placeAt_of_filler sound host found registered options imported
  · intro blocker found unregistered policy succeeds
    obtain ⟨after, success⟩ := Option.isSome_iff_exists.mp succeeds
    rw [placeAt_of_merge found unregistered policy success]
    exact ⟨rfl, congrArg List.length (elementChildren_of_tryMerge parent success)⟩
  · intro blocker found unregistered refused
    exact length_placeAt_of_displace sound host found unregistered refused
  · intro noSibling first
    have free := freeIff.mpr (by simp [noSibling, first])
    exact (placeAt_of_first sound host free first options imported).2
  · intro few later
    have free := freeIff.mpr few
    rw [(placeAt_of_free sound host free (Nat.ne_of_gt later) options imported).2, gap]
    cases options.fill with
    | fill =>
        dsimp only
        omega
    | noFill => rfl

/-- The compound `li:nth-child(3)`. -/
def thirdItem : Compound :=
  ⟨some (.name "li"), [], [], [], [⟨"nth-child", some (.formula ⟨0, 3⟩)⟩], none⟩

/-- Two fillers stand before the third item. -/
theorem positioned_thirdItem :
    ∃ descriptor, Descriptor.ofCompound thirdItem .descendant = .ok descriptor ∧
      descriptor.position? = some ⟨.start, .anyTag, 3⟩ ∧ start.Reachable .standard ∧
      start.Host start.body ∧
      Positioned .standard start start.body descriptor.element ⟨.start, .anyTag, 3⟩ false
        (start.placeAt .standard start.body descriptor.element ⟨.start, .anyTag, 3⟩ false).1
        (start.placeAt .standard start.body descriptor.element ⟨.start, .anyTag, 3⟩ false).2 ∧
      (start.placeAt .standard start.body descriptor.element
        ⟨.start, .anyTag, 3⟩ false).1.tree.children start.body = [3, 4, 2] ∧
      (start.placeAt .standard start.body descriptor.element
        ⟨.start, .anyTag, 3⟩ false).1.fillers.nodes = [4, 3] := by
  have built : Descriptor.ofCompound thirdItem .descendant =
      .ok ⟨.ofTag "li", .descendant, some ⟨.start, .anyTag, 3⟩⟩ := by decide
  have reachable : start.Reachable .standard := ⟨[], [], [], rfl, rfl⟩
  have host : start.Host start.body := Or.inl rfl
  have positioned := positioned_placeAt reachable host built rfl false
  exact ⟨_, built, rfl, reachable, host, positioned, by decide +kernel, by decide +kernel⟩

end Builder

end SelectorTree
