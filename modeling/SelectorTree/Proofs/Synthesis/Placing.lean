import SelectorTree.Proofs.Element.Classes
import SelectorTree.Proofs.Synthesis.Growth

/-!
# Placing one element

An element that is placed below a parent either merges into a child of the
parent that is no filler, or comes in as a new child.  `Outcome` has one case
for each, and every way of placing ends in one of them.
-/

namespace SelectorTree

/-! ## Counted siblings -/

namespace Tree

/-- Whether a child counts toward positions. -/
def countsAt (tree : Tree) (scope : Scope) (tag : String) (id : NodeId) : Bool :=
  tree.isElement id && tree.counts scope tag id

variable {tree : Tree} {parent blocker : NodeId} {position : Position} {tag : String}

/-- Every element counts toward positions among all children. -/
theorem countsAt_anyTag (tree : Tree) (tag : String) :
    tree.countsAt .anyTag tag = tree.isElement := by
  funext id
  simp [countsAt, counts]

theorem siblingsAt_eq (tree : Tree) (parent : NodeId) (position : Position) (tag : String) :
    tree.siblingsAt parent position tag =
      (position.side.orient (tree.children parent)).filter (tree.countsAt position.scope tag) := by
  rw [siblingsAt, countedChildren_eq, elementChildren, List.filter_filter, Side.filter_orient]
  refine congrArg position.side.orient (List.filter_congr fun id _ => ?_)
  exact Bool.and_comm _ _

/-- A probed sibling splits the children at its position. -/
theorem exists_split_of_probe (found : tree.probe parent position tag = some blocker) :
    ∃ front back, position.side.orient (tree.children parent) = front ++ blocker :: back ∧
      (front.filter (tree.countsAt position.scope tag)).length + 1 = position.index ∧
      tree.countsAt position.scope tag blocker = true := by
  rw [probe] at found
  split at found
  · cases found
  · next nonzero =>
      rw [siblingsAt_eq] at found
      obtain ⟨inside, atIndex⟩ := List.getElem?_eq_some_iff.mp found
      have counted := List.take_append_drop (position.index - 1)
        ((position.side.orient (tree.children parent)).filter (tree.countsAt position.scope tag))
      rw [List.drop_eq_getElem_cons inside, atIndex] at counted
      obtain ⟨early, late, childrenEq, earlyEq, lateEq⟩ :=
        List.filter_eq_append_iff.mp counted.symm
      obtain ⟨skipped, back, lateSplit, skippedOut, counts, -⟩ := List.filter_eq_cons_iff.mp lateEq
      refine ⟨early ++ skipped, back, ?_, ?_, counts⟩
      · rw [childrenEq, lateSplit, List.append_assoc]
      · have noneSkipped : skipped.filter (tree.countsAt position.scope tag) = [] :=
          List.filter_eq_nil_iff.mpr skippedOut
        rw [List.filter_append, noneSkipped, List.append_nil, earlyEq, List.length_take,
          Nat.min_eq_left (Nat.le_of_lt inside)]
        omega

theorem probe_eq_none_iff (positive : 0 < position.index) :
    tree.probe parent position tag = none ↔
      (tree.siblingsAt parent position tag).length < position.index := by
  rw [probe, if_neg (Nat.ne_of_gt positive), List.getElem?_eq_none_iff]
  omega

theorem index_le_of_probe (found : tree.probe parent position tag = some blocker) :
    0 < position.index ∧ position.index ≤ (tree.siblingsAt parent position tag).length := by
  rw [probe] at found
  split at found
  · cases found
  · obtain ⟨inside, -⟩ := List.getElem?_eq_some_iff.mp found
    omega

theorem mem_elementChildren_of_probe (found : tree.probe parent position tag = some blocker) :
    blocker ∈ tree.elementChildren parent := by
  obtain ⟨front, back, split, -, counts⟩ := exists_split_of_probe found
  have listed : blocker ∈ tree.children parent := by
    rw [← Side.mem_orient position.side, split]
    simp
  have element : tree.isElement blocker = true := by
    rw [countsAt, Bool.and_eq_true] at counts
    exact counts.1
  exact List.mem_filter.mpr ⟨listed, element⟩

theorem countsAt_congr {before after : Tree} {scope : Scope} {id : NodeId}
    (same : after.payload? id = before.payload? id) :
    after.countsAt scope tag id = before.countsAt scope tag id := by
  simp only [countsAt, counts, isElement_congr same, element?_congr same]

/-- An element counts toward positions of its own tag. -/
theorem countsAt_of_tag {scope : Scope} {id : NodeId} {data : Element}
    (found : tree.element? id = some data) (same : data.tag = tag) :
    tree.countsAt scope tag id = true := by
  cases scope <;> simp [countsAt, counts, isElement, found, same, Text.sameLetters_refl]

end Tree

/-- A place behind all children, where nothing gives way. -/
structure Graft.Last (graft : Graft) : Prop where
  side_eq : graft.side = .start
  gone_eq : graft.gone = []
  lead_eq : graft.lead = []
  back_eq : graft.back = []

/-- A place where one child gives way at most. -/
def Graft.Single (graft : Graft) : Prop := graft.gone.length ≤ 1

theorem Graft.Last.single {graft : Graft} (last : graft.Last) : graft.Single := by
  rw [Graft.Single, last.gone_eq]
  exact Nat.zero_le 1

namespace Builder

variable {builder after : Builder} {options : Options} {parent target : NodeId}
  {element : Element} {position : Position} {imported : Bool}

/-! ## Merging -/

theorem tryMerge_eq_some_iff :
    builder.tryMerge element target imported = some after ↔
      ∃ data merged, builder.tree.element? target = some data ∧
        element.mergeInto data = .ok merged ∧
        after = { builder with
          tree := builder.tree.setElement target
            { merged with imported := merged.imported || imported }
          report := { builder.report with merged := builder.report.merged + 1 } } := by
  rw [tryMerge, Option.bind_eq_some_iff]
  constructor
  · rintro ⟨data, found, success⟩
    split at success
    · cases success
    · next merged mergedEq =>
        exact ⟨data, merged, found, mergedEq, (Option.some.inj success).symm⟩
  · rintro ⟨data, merged, found, mergedEq, rfl⟩
    exact ⟨data, found, by simp [mergedEq]⟩

/-- What has happened when an element was placed below a parent. -/
inductive Outcome (before : Builder) (parent : NodeId) (element : Element) (imported : Bool) :
    Builder × NodeId → Prop where
  | merged {after : Builder} {target : NodeId}
      (listed : target ∈ before.tree.elementChildren parent)
      (real : before.fillers.contains target = false)
      (success : before.tryMerge element target imported = some after) :
      Outcome before parent element imported (after, target)
  | grown {after : Builder} {graft : Graft} (atParent : graft.parent = parent)
      (growth : Grown before after element imported graft) :
      Outcome before parent element imported (after, graft.node)

/-- The same, with a condition on the place where a new child comes in. -/
inductive Placed (fits : Graft → Prop) (before : Builder) (parent : NodeId) (element : Element)
    (imported : Bool) : Builder × NodeId → Prop where
  | merged {after : Builder} {target : NodeId}
      (listed : target ∈ before.tree.elementChildren parent)
      (real : before.fillers.contains target = false)
      (success : before.tryMerge element target imported = some after) :
      Placed fits before parent element imported (after, target)
  | grown {after : Builder} {graft : Graft} (atParent : graft.parent = parent)
      (fitting : fits graft) (growth : Grown before after element imported graft) :
      Placed fits before parent element imported (after, graft.node)

section Placed

variable {fits weaker : Graft → Prop} {result : Builder × NodeId}

theorem Placed.outcome (placed : Placed fits builder parent element imported result) :
    Outcome builder parent element imported result := by
  cases placed with
  | merged listed real success => exact .merged listed real success
  | grown atParent _ growth => exact .grown atParent growth

theorem Placed.imp (placed : Placed fits builder parent element imported result)
    (weaken : ∀ graft, fits graft → weaker graft) :
    Placed weaker builder parent element imported result := by
  cases placed with
  | merged listed real success => exact .merged listed real success
  | grown atParent fitting growth => exact .grown atParent (weaken _ fitting) growth

end Placed

section Placing

variable (linked : builder.tree.Linked) (allocated : parent < builder.tree.size)

include linked allocated

theorem placed_append (element : Element) (imported : Bool) :
    Placed Graft.Last builder parent element imported (builder.append parent element imported) :=
  .grown rfl ⟨rfl, rfl, rfl, rfl⟩ (grown_append linked allocated element imported)

theorem placed_place (options : Options) (element : Element) (imported : Bool) :
    Placed Graft.Last builder parent element imported
      (builder.place options parent element imported) := by
  rw [place]
  split
  · exact placed_append linked allocated element imported
  · split
    · next result found =>
        obtain ⟨target, member, success⟩ := List.exists_of_findSome?_eq_some found
        obtain ⟨after, mergedEq, rfl⟩ := Option.map_eq_some_iff.mp success
        obtain ⟨listed, suits⟩ := List.mem_filter.mp member
        have real : builder.fillers.contains target = false := by
          simp only [Bool.and_eq_true, Bool.not_eq_true'] at suits
          exact suits.1
        exact .merged listed real mergedEq
    · exact placed_append linked allocated element imported

/-! ## Placing at a position -/

theorem grown_placeAt_of_filler {blocker : NodeId}
    (found : builder.tree.probe parent position element.tag = some blocker)
    (registered : builder.fillers.contains blocker = true) (options : Options)
    (imported : Bool) :
    ∃ front back, (front.filter (builder.tree.countsAt position.scope element.tag)).length + 1 =
        position.index ∧
      (builder.placeAt options parent element position imported).2 = builder.tree.size ∧
      Grown builder (builder.placeAt options parent element position imported).1 element imported
        ⟨parent, position.side, front, [blocker], [], builder.tree.size, back⟩ := by
  obtain ⟨front, back, split, count, -⟩ := Tree.exists_split_of_probe found
  refine ⟨front, back, count, ?_⟩
  rw [placeAt]
  simp only [found, registered, if_true]
  exact ⟨rfl, grown_evict linked allocated position.side element imported registered split⟩

omit linked allocated in
/-- A sibling at the position that is no filler takes the element if it may and
can. -/
theorem placeAt_of_merge {blocker : NodeId}
    (found : builder.tree.probe parent position element.tag = some blocker)
    (real : builder.fillers.contains blocker = false) (merges : options.mergeNth = .merge)
    (success : builder.tryMerge element blocker imported = some after) :
    builder.placeAt options parent element position imported = (after, blocker) := by
  rw [placeAt]
  simp only [found, real, Bool.false_eq_true, if_false, mergeOrDisplace, merges, success]

omit linked allocated in
/-- A sibling that may take an element takes it or refuses it. -/
theorem merges_or_refuses (builder : Builder) (options : Options) (element : Element)
    (blocker : NodeId) (imported : Bool) :
    (options.mergeNth = .merge ∧
        ∃ after, builder.tryMerge element blocker imported = some after) ∨
      (options.mergeNth = .merge → builder.tryMerge element blocker imported = none) := by
  cases builder.tryMerge element blocker imported with
  | none => exact Or.inr fun _ => rfl
  | some after =>
      cases options.mergeNth with
      | merge => exact Or.inl ⟨rfl, after, rfl⟩
      | noMerge => exact Or.inr fun merges => absurd merges (by decide)

theorem grown_placeAt_of_displace {blocker : NodeId}
    (found : builder.tree.probe parent position element.tag = some blocker)
    (real : builder.fillers.contains blocker = false)
    (refused : options.mergeNth = .merge →
      builder.tryMerge element blocker imported = none) :
    ∃ front back, (front.filter (builder.tree.countsAt position.scope element.tag)).length + 1 =
        position.index ∧
      (builder.placeAt options parent element position imported).2 = builder.tree.size ∧
      Grown builder (builder.placeAt options parent element position imported).1 element imported
        ⟨parent, position.side, front, [], [], builder.tree.size, blocker :: back⟩ := by
  obtain ⟨front, back, split, count, -⟩ := Tree.exists_split_of_probe found
  refine ⟨front, back, count, ?_⟩
  have displaced : builder.placeAt options parent element position imported =
      builder.insertAt parent blocker position.side element imported := by
    rw [placeAt]
    simp only [found, real, Bool.false_eq_true, if_false, mergeOrDisplace]
    cases policy : options.mergeNth with
    | merge => simp only [refused policy]
    | noMerge => rfl
  rw [displaced]
  exact ⟨rfl, grown_insertAt linked allocated position.side element imported split⟩

theorem grown_placeAt_of_first
    (free : builder.tree.probe parent position element.tag = none) (first : position.index = 1)
    (options : Options) (imported : Bool) :
    (builder.placeAt options parent element position imported).2 = builder.tree.size ∧
      Grown builder (builder.placeAt options parent element position imported).1 element imported
        ⟨parent, position.side, [], [], [], builder.tree.size,
          position.side.orient (builder.tree.children parent)⟩ := by
  rw [placeAt]
  simp only [free, extend, if_pos first]
  exact ⟨rfl, grown_insertNearest linked allocated position.side element imported⟩

/-- The number of fillers in front of an element at a free position. -/
def gap (builder : Builder) (options : Options) (parent : NodeId) (element : Element)
    (position : Position) : Nat :=
  match options.fill with
  | .noFill => 0
  | .fill =>
      position.index - 1 - (builder.tree.siblingsAt parent position element.tag).length

/-- Fillers come in after the element that they lead up to. -/
theorem grown_placeAt_of_gap
    (free : builder.tree.probe parent position element.tag = none) (later : position.index ≠ 1)
    (options : Options) (imported : Bool) :
    (builder.placeAt options parent element position imported).2 = builder.tree.size ∧
      Grown builder (builder.placeAt options parent element position imported).1 element imported
        ⟨parent, position.side, position.side.orient (builder.tree.children parent), [],
          position.side.orient (List.range' (builder.tree.size + 1)
            (builder.gap options parent element position)), builder.tree.size, []⟩ := by
  have placed := grown_insertFarthest linked allocated position.side element imported
  have size : ((builder.create element imported).1.edit
      (insertFarthest · parent (builder.create element imported).2 position.side)).tree.size =
        builder.tree.size + 1 :=
    placed.size_eq 0 rfl fun id => iff_of_false List.not_mem_nil (by omega)
  rw [placeAt, gap]
  simp only [free, extend, if_neg later]
  cases options.fill with
  | noFill =>
      rw [List.range'_zero, Side.orient_nil]
      exact ⟨rfl, placed⟩
  | fill =>
      have filled := placed.fillGap allocated
        (position.index - 1 - (builder.tree.siblingsAt parent position element.tag).length)
      rw [size] at filled
      exact ⟨rfl, filled⟩

theorem grown_placeAt_of_free
    (free : builder.tree.probe parent position element.tag = none) (later : position.index ≠ 1)
    (options : Options) (imported : Bool) :
    ∃ lead, lead.length = builder.gap options parent element position ∧
      (builder.placeAt options parent element position imported).2 = builder.tree.size ∧
      Grown builder (builder.placeAt options parent element position imported).1 element imported
        ⟨parent, position.side, position.side.orient (builder.tree.children parent), [], lead,
          builder.tree.size, []⟩ :=
  ⟨_, by simp, grown_placeAt_of_gap linked allocated free later options imported⟩

theorem placed_placeAt (options : Options) (element : Element) (position : Position)
    (imported : Bool) :
    Placed Graft.Single builder parent element imported
      (builder.placeAt options parent element position imported) := by
  have ofGrown : ∀ {graft : Graft}, graft.parent = parent →
      (builder.placeAt options parent element position imported).2 = graft.node →
      Grown builder (builder.placeAt options parent element position imported).1 element imported
        graft → graft.Single →
      Placed Graft.Single builder parent element imported
        (builder.placeAt options parent element position imported) := by
    intro graft atParent node growth single
    have placed := Placed.grown atParent single growth
    rwa [← node] at placed
  cases found : builder.tree.probe parent position element.tag with
  | none =>
      by_cases first : position.index = 1
      · obtain ⟨node, growth⟩ :=
          grown_placeAt_of_first linked allocated found first options imported
        exact ofGrown rfl node growth (Nat.zero_le 1)
      · obtain ⟨lead, -, node, growth⟩ :=
          grown_placeAt_of_free linked allocated found first options imported
        exact ofGrown rfl node growth (Nat.zero_le 1)
  | some blocker =>
      by_cases registered : builder.fillers.contains blocker = true
      · obtain ⟨front, back, -, node, growth⟩ :=
          grown_placeAt_of_filler linked allocated found registered options imported
        exact ofGrown rfl node growth (Nat.le_refl 1)
      · have real := Bool.eq_false_iff.mpr registered
        rcases builder.merges_or_refuses options element blocker imported with
          ⟨merges, after, success⟩ | refused
        · rw [placeAt_of_merge found real merges success]
          exact .merged (Tree.mem_elementChildren_of_probe found) real success
        · obtain ⟨front, back, -, node, growth⟩ :=
            grown_placeAt_of_displace linked allocated found real refused
          exact ofGrown rfl node growth (Nat.zero_le 1)

theorem outcome_placeAt (options : Options) (element : Element) (position : Position)
    (imported : Bool) :
    Outcome builder parent element imported
      (builder.placeAt options parent element position imported) :=
  (placed_placeAt linked allocated options element position imported).outcome

end Placing

end Builder

end SelectorTree
