import Mathlib.Logic.Equiv.Basic
import SelectorTree.Proofs.Synthesis.Mirroring

/-!
# Mirror images

Running mirrored rules gives the mirror image of the tree: the elements of both
trees correspond, and the children of corresponding elements stand in opposite
order.  New nodes get the same indices on both sides, but within a run of
fillers the order of the indices is not mirrored; the correspondence reverses
each run.
-/

namespace SelectorTree

namespace Side

variable {α : Type} (side : Side) (items : List α)

theorem orient_mirror : side.mirror.orient items = (side.orient items).reverse := by
  cases side <;> simp [orient, mirror]

theorem orient_reverse : side.orient items.reverse = (side.orient items).reverse := by
  cases side <;> simp [orient]

theorem orient_mirror_reverse : side.mirror.orient items.reverse = side.orient items := by
  rw [orient_mirror, orient_reverse, List.reverse_reverse]

end Side

/-! ## Reversing runs of indices -/

/-- The index that is as far from the end of a run as another from its
beginning; indices outside the run stay. -/
def reflect (first count id : Nat) : Nat :=
  if first ≤ id ∧ id < first + count then first + (first + count - 1 - id) else id

theorem reflect_reflect (first count : Nat) :
    Function.Involutive (reflect first count) := by
  intro id
  by_cases inside : first ≤ id ∧ id < first + count
  · have moved : reflect first count id = first + (first + count - 1 - id) := if_pos inside
    rw [moved, reflect, if_pos ⟨by omega, by omega⟩]
    omega
  · have stays : reflect first count id = id := if_neg inside
    rw [stays, stays]

def reflection (first count : Nat) : Equiv.Perm Nat :=
  (reflect_reflect first count).toPerm

theorem reflection_of_lt {first count id : Nat} (below : id < first) :
    reflection first count id = id :=
  if_neg fun inside => Nat.not_le_of_lt below inside.1

theorem reflection_of_le {first count id : Nat} (above : first + count ≤ id) :
    reflection first count id = id :=
  if_neg fun inside => Nat.not_le_of_lt inside.2 above

theorem reflection_mem_iff {first count id : Nat} :
    reflection first count id ∈ List.range' first count ↔ id ∈ List.range' first count := by
  change reflect first count id ∈ _ ↔ _
  rw [List.mem_range'_1, List.mem_range'_1, reflect]
  split <;> omega

theorem map_reflection (first count : Nat) :
    (List.range' first count).map (reflection first count) =
      (List.range' first count).reverse := by
  apply List.ext_getElem
  · simp
  · intro index inside _
    have bound : index < count := by simpa using inside
    simp only [List.getElem_map, List.getElem_reverse, List.getElem_range', List.length_range',
      Nat.one_mul]
    change reflect first count (first + index) = _
    rw [reflect, if_pos ⟨by omega, by omega⟩]
    omega

namespace Builder

/-- The elements of two builders correspond, and the children of corresponding
elements stand in opposite order. -/
structure MirrorImage (image : Equiv.Perm Nat) (left right : Builder) : Prop where
  size_eq : right.tree.size = left.tree.size
  fixed : ∀ id : Nat, left.tree.size ≤ id → image id = id
  body_eq : right.body = image left.body
  element?_eq : ∀ id, right.tree.element? (image id) = left.tree.element? id
  texts_eq : ∀ id, right.tree.texts (image id) = left.tree.texts id
  elementChildren_eq : ∀ id, right.tree.elementChildren (image id) =
    ((left.tree.elementChildren id).map image).reverse
  contains_eq : ∀ id, right.fillers.contains (image id) = left.fillers.contains id
  report_eq : right.report = left.report

variable {left right leftAfter rightAfter : Builder} {image : Equiv.Perm Nat}
  {parent blocker : NodeId} {element : Element} {position : Position} {imported : Bool}
  {side : Side} {front back frontImage backImage : List NodeId}

namespace MirrorImage

section Reading

variable (mirrored : MirrorImage image left right)

include mirrored

theorem lt_size_iff {id : Nat} : image id < left.tree.size ↔ id < left.tree.size := by
  constructor
  · intro inside
    by_contra outside
    have stays := mirrored.fixed id (Nat.le_of_not_lt outside)
    rw [stays] at inside
    exact outside inside
  · intro inside
    by_contra outside
    have stays := mirrored.fixed (image id) (Nat.le_of_not_lt outside)
    rw [image.injective stays] at outside
    exact outside inside

theorem isElement_eq (id : NodeId) :
    right.tree.isElement (image id) = left.tree.isElement id := by
  rw [Tree.isElement, mirrored.element?_eq, Tree.isElement]

theorem counts_eq (scope : Scope) (tag : String) (id : NodeId) :
    right.tree.counts scope tag (image id) = left.tree.counts scope tag id := by
  cases scope with
  | anyTag => rfl
  | sameTag => simp only [Tree.counts, mirrored.element?_eq]

theorem siblingsAt_eq (parent : NodeId) (position : Position) (tag : String) :
    right.tree.siblingsAt (image parent) position.mirror tag =
      (left.tree.siblingsAt parent position tag).map image := by
  have sameCounts : right.tree.counts position.scope tag ∘ image =
      left.tree.counts position.scope tag := funext (mirrored.counts_eq position.scope tag)
  rw [Tree.siblingsAt, Tree.siblingsAt, Tree.countedChildren_eq, Tree.countedChildren_eq,
    mirrored.elementChildren_eq, List.filter_reverse]
  change position.side.mirror.orient
    (List.filter (right.tree.counts position.scope tag) _).reverse = _
  rw [Side.orient_mirror_reverse, List.filter_map, sameCounts, Side.map_orient]

theorem probe_eq (parent : NodeId) (position : Position) (tag : String) :
    right.tree.probe (image parent) position.mirror tag =
      (left.tree.probe parent position tag).map image := by
  rw [Tree.probe, Tree.probe, mirrored.siblingsAt_eq]
  change (if position.index = 0 then none else _) = _
  split
  · rfl
  · exact List.getElem?_map

/-- The element children of a node and of its image, each read from its side. -/
theorem oriented_eq (parent : NodeId) (side : Side) :
    (side.mirror.orient (right.tree.children (image parent))).filter right.tree.isElement =
      ((side.orient (left.tree.children parent)).filter left.tree.isElement).map image := by
  have children := mirrored.elementChildren_eq parent
  rw [Side.filter_orient, Side.filter_orient, ← Side.map_orient]
  change side.mirror.orient (right.tree.elementChildren (image parent)) =
    side.orient ((left.tree.elementChildren parent).map image)
  rw [children, Side.orient_mirror_reverse]

theorem parent_eq (linked : left.tree.Linked) (linkedImage : right.tree.Linked) {id : NodeId}
    (isElement : left.tree.isElement id = true) (attached : left.tree.parent id = some parent) :
    right.tree.parent (image id) = some (image parent) := by
  have listed : id ∈ left.tree.elementChildren parent :=
    List.mem_filter.mpr ⟨linked.mem_children attached, isElement⟩
  have listedImage : image id ∈ right.tree.elementChildren (image parent) := by
    rw [mirrored.elementChildren_eq, List.mem_reverse]
    exact List.mem_map_of_mem listed
  exact linkedImage.parent_of_mem (List.mem_filter.mp listedImage).1

/-- A child splits the element children as its image does. -/
theorem split_eq (linkedImage : right.tree.Linked)
    (isElement : left.tree.isElement blocker = true)
    (split : side.orient (left.tree.children parent) = front ++ blocker :: back)
    (splitImage : side.mirror.orient (right.tree.children (image parent)) =
      frontImage ++ image blocker :: backImage) :
    frontImage.filter right.tree.isElement = (front.filter left.tree.isElement).map image ∧
      backImage.filter right.tree.isElement = (back.filter left.tree.isElement).map image := by
  have isElementImage : right.tree.isElement (image blocker) = true := by
    rw [mirrored.isElement_eq, isElement]
  have oriented := mirrored.oriented_eq parent side
  rw [split, splitImage, List.filter_append, List.filter_append,
    List.filter_cons_of_pos isElement, List.filter_cons_of_pos isElementImage,
    List.map_append, List.map_cons] at oriented
  have distinct : (frontImage.filter right.tree.isElement ++
      image blocker :: backImage.filter right.tree.isElement).Nodup := by
    have all := linkedImage.nodup_children (image parent)
    rw [← Side.nodup_orient side.mirror, splitImage] at all
    have some := all.filter right.tree.isElement
    rwa [List.filter_append, List.filter_cons_of_pos isElementImage] at some
  have once := (List.nodup_cons.mp (List.nodup_middle.mp distinct)).1
  obtain ⟨notFront, notBack⟩ := not_or.mp fun either => once (List.mem_append.mpr either)
  obtain ⟨frontEq, -, backEq⟩ := (List.append_cons_inj_of_notMem notFront notBack).mp oriented
  exact ⟨frontEq, backEq⟩

end Reading

/-! ## Growing on both sides -/

/-- The correspondence after an element came in behind a run of fillers. -/
def extend (left : Builder) (image : Equiv.Perm Nat) (gap : Nat) : Equiv.Perm Nat :=
  (reflection (left.tree.size + 1) gap).trans image

section Extend

variable (mirrored : MirrorImage image left right) {gap : Nat}

theorem extend_of_lt {id : Nat} (old : id < left.tree.size) :
    extend left image gap id = image id := by
  rw [extend, Equiv.trans_apply, reflection_of_lt (Nat.lt_succ_of_lt old)]

theorem map_extend_of_old {ids : List NodeId} (old : ∀ id : Nat, id ∈ ids → id < left.tree.size) :
    ids.map (extend left image gap) = ids.map image :=
  List.map_congr_left fun id member => extend_of_lt (old id member)

/-- Without fillers the correspondence is as it was. -/
theorem extend_zero : extend left image 0 = image := by
  ext id
  rw [extend, Equiv.trans_apply]
  change image (reflect (left.tree.size + 1) 0 id) = image id
  rw [reflect, if_neg (by omega)]

include mirrored

theorem extend_of_le {id : Nat} (new : left.tree.size ≤ id) :
    extend left image gap id = reflection (left.tree.size + 1) gap id := by
  rw [extend, Equiv.trans_apply]
  apply mirrored.fixed
  change left.tree.size ≤ reflect (left.tree.size + 1) gap id
  rw [reflect]
  split <;> omega

theorem extend_lt_iff {id : Nat} :
    extend left image gap id < left.tree.size ↔ id < left.tree.size := by
  constructor
  · intro inside
    by_contra outside
    rw [mirrored.extend_of_le (Nat.le_of_not_lt outside)] at inside
    change reflect (left.tree.size + 1) gap id < _ at inside
    rw [reflect] at inside
    split at inside <;> omega
  · intro old
    rw [extend_of_lt old]
    exact mirrored.lt_size_iff.mpr old

theorem extend_size : extend left image gap left.tree.size = left.tree.size := by
  rw [mirrored.extend_of_le (Nat.le_refl _), reflection_of_lt (Nat.lt_succ_self _)]

theorem extend_of_beyond {id : Nat} (beyond : left.tree.size + 1 + gap ≤ id) :
    extend left image gap id = id := by
  rw [mirrored.extend_of_le (by omega), reflection_of_le beyond]

theorem extend_mem_iff {id : Nat} :
    extend left image gap id ∈ List.range' (left.tree.size + 1) gap ↔
      id ∈ List.range' (left.tree.size + 1) gap := by
  by_cases old : id < left.tree.size
  · have oldImage : extend left image gap id < left.tree.size := mirrored.extend_lt_iff.mpr old
    rw [List.mem_range'_1, List.mem_range'_1]
    omega
  · rw [mirrored.extend_of_le (Nat.le_of_not_lt old), reflection_mem_iff]

theorem map_extend_run (side : Side) :
    (side.orient (List.range' (left.tree.size + 1) gap)).map (extend left image gap) =
      side.mirror.orient (List.range' (left.tree.size + 1) gap) := by
  have reflected : (List.range' (left.tree.size + 1) gap).map (extend left image gap) =
      (List.range' (left.tree.size + 1) gap).reverse := by
    rw [← map_reflection]
    refine List.map_congr_left fun id member => mirrored.extend_of_le ?_
    have bounds := List.mem_range'_1.mp member
    omega
  rw [← Side.map_orient, reflected, Side.orient_mirror, Side.orient_reverse]

end Extend

section Grown

variable (mirrored : MirrorImage image left right) (sound : left.Sound)
  (soundImage : right.Sound) (host : left.Host parent) {gap : Nat} {gone : List NodeId}
  (growth : Grown left leftAfter element imported
    ⟨parent, side, front, gone, side.orient (List.range' (left.tree.size + 1) gap),
      left.tree.size, back⟩)
  (growthImage : Grown right rightAfter element imported
    ⟨image parent, side.mirror, frontImage, gone.map image,
      side.mirror.orient (List.range' (left.tree.size + 1) gap), left.tree.size, backImage⟩)

include mirrored growth growthImage

private theorem sizes_of_grown :
    leftAfter.tree.size = left.tree.size + 1 + gap ∧
      rightAfter.tree.size = left.tree.size + 1 + gap := by
  have sameSize := mirrored.size_eq
  constructor
  · exact growth.size_eq gap rfl fun id => (Side.mem_orient side _).trans List.mem_range'_1
  · rw [← sameSize]
    refine growthImage.size_eq gap sameSize.symm fun id => ?_
    rw [sameSize]
    exact (Side.mem_orient side.mirror _).trans List.mem_range'_1

private theorem element?_of_grown (id : Nat) :
    rightAfter.tree.element? (extend left image gap id) = leftAfter.tree.element? id := by
  obtain ⟨size, sizeImage⟩ := sizes_of_grown mirrored growth growthImage
  by_cases old : id < left.tree.size
  · have oldImage : image id < right.tree.size := by
      rw [mirrored.size_eq]
      exact mirrored.lt_size_iff.mpr old
    rw [extend_of_lt old, Tree.element?_congr (growth.payload?_of_lt id old),
      Tree.element?_congr (growthImage.payload?_of_lt _ oldImage), mirrored.element?_eq]
  · by_cases inRun : id ∈ List.range' (left.tree.size + 1) gap
    · rw [growth.element_lead id ((Side.mem_orient side _).mpr inRun)]
      exact growthImage.element_lead _
        ((Side.mem_orient side.mirror _).mpr (mirrored.extend_mem_iff.mpr inRun))
    · by_cases atNode : id = left.tree.size
      · subst atNode
        rw [mirrored.extend_size]
        exact growthImage.element_node.trans growth.element_node.symm
      · have beyond : left.tree.size + 1 + gap ≤ id := by
          rw [List.mem_range'_1] at inRun
          omega
        rw [mirrored.extend_of_beyond beyond]
        rw [Tree.element?, Tree.element?, Tree.payload?_eq_none_of_size_le (by omega),
          Tree.payload?_eq_none_of_size_le (by omega)]

include sound soundImage

private theorem contains_of_grown (id : Nat) :
    rightAfter.fillers.contains (extend left image gap id) = leftAfter.fillers.contains id := by
  have sameRun := @extend_mem_iff left right image mirrored gap id
  have sameOld : (right.fillers.contains (extend left image gap id) = true ∧
        extend left image gap id ∉ gone.map image) ↔
      (left.fillers.contains id = true ∧ id ∉ gone) := by
    by_cases old : id < left.tree.size
    · rw [extend_of_lt old, mirrored.contains_eq, List.mem_map_of_injective image.injective]
    · constructor
      · intro registered
        have inside := soundImage.lt_size_of_registered registered.1
        rw [mirrored.size_eq, mirrored.extend_lt_iff] at inside
        exact absurd inside old
      · intro registered
        exact absurd (sound.lt_size_of_registered registered.1) old
  rw [Bool.eq_iff_iff, growthImage.contains_iff, growth.contains_iff, Side.mem_orient,
    Side.mem_orient, sameRun, sameOld]

private theorem texts_of_grown (id : Nat) :
    rightAfter.tree.texts (extend left image gap id) = leftAfter.tree.texts id := by
  rw [growth.texts_eq sound.linked (sound.gone_textless growth),
    growthImage.texts_eq soundImage.linked (soundImage.gone_textless growthImage)]
  by_cases old : id < left.tree.size
  · rw [extend_of_lt old, mirrored.texts_eq]
  · have newImage : right.tree.size ≤ extend left image gap id := by
      rw [mirrored.size_eq]
      exact Nat.le_of_not_lt fun inside => old (mirrored.extend_lt_iff.mp inside)
    rw [Tree.texts, Tree.texts, Tree.children_eq_nil_of_size_le (Nat.le_of_not_lt old),
      Tree.children_eq_nil_of_size_le newImage]
    rfl

variable (sameFront : frontImage.filter right.tree.isElement =
    (front.filter left.tree.isElement).map image)
  (sameBack : backImage.filter right.tree.isElement =
    (back.filter left.tree.isElement).map image)

include sameFront sameBack

private theorem elementChildren_parent_of_grown :
    rightAfter.tree.elementChildren (image parent) =
      ((leftAfter.tree.elementChildren parent).map (extend left image gap)).reverse := by
  have oldPart : ∀ part : List NodeId, (∀ id ∈ part, id ∈ left.tree.children parent) →
      (part.filter left.tree.isElement).map (extend left image gap) =
        (part.filter left.tree.isElement).map image := by
    intro part listed
    refine map_extend_of_old fun id member => ?_
    exact sound.linked.lt_size_of_mem (listed id (List.mem_filter.mp member).1)
  have frontOld := oldPart front fun id member =>
    growth.mem_children_parent_before.mpr (Or.inl member)
  have backOld := oldPart back fun id member =>
    growth.mem_children_parent_before.mpr (Or.inr (Or.inr member))
  have children := (growth.elementChildren_parent sound.linked (sound.gone_elements growth)).2
  have childrenImage := (growthImage.elementChildren_parent soundImage.linked
    (soundImage.gone_elements growthImage)).2
  apply side.mirror.eq_of_orient_eq
  dsimp only at children childrenImage
  rw [childrenImage, Side.orient_mirror_reverse, Side.map_orient, children, sameFront, sameBack,
    List.map_append, List.map_append, List.map_cons, frontOld, backOld,
    mirrored.map_extend_run, mirrored.extend_size]

include host

/-- An element that comes in at mirrored places keeps the mirror image. -/
theorem grown : MirrorImage (extend left image gap) leftAfter rightAfter := by
  have hostOld := sound.host_lt_size host
  obtain ⟨size, sizeImage⟩ := sizes_of_grown mirrored growth growthImage
  refine ⟨?_, ?_, ?_, ?_, ?_, ?_, ?_, ?_⟩
  · rw [size, sizeImage]
  · intro id beyond
    rw [size] at beyond
    exact mirrored.extend_of_beyond beyond
  · rw [growthImage.body_eq, growth.body_eq, extend_of_lt sound.body_lt_size, mirrored.body_eq]
  · exact element?_of_grown mirrored growth growthImage
  · exact texts_of_grown mirrored sound soundImage growth growthImage
  · intro id
    by_cases atParent : id = parent
    · subst atParent
      rw [extend_of_lt hostOld]
      exact elementChildren_parent_of_grown mirrored sound soundImage growth growthImage sameFront
        sameBack
    · by_cases old : id < left.tree.size
      · have apart : image id ≠ image parent := fun same => atParent (image.injective same)
        have listedOld : ∀ child : Nat, child ∈ left.tree.elementChildren id →
            child < left.tree.size :=
          fun child member => sound.linked.lt_size_of_mem (List.mem_filter.mp member).1
        rw [extend_of_lt old, growth.elementChildren_of_ne sound.linked atParent,
          growthImage.elementChildren_of_ne soundImage.linked apart, mirrored.elementChildren_eq,
          map_extend_of_old listedOld]
      · have hostOldImage : image parent < right.tree.size := by
          rw [mirrored.size_eq]
          exact mirrored.lt_size_iff.mpr hostOld
        have newImage : right.tree.size ≤ extend left image gap id := by
          rw [mirrored.size_eq]
          exact Nat.le_of_not_lt fun inside => old (mirrored.extend_lt_iff.mp inside)
        rw [Tree.elementChildren, Tree.elementChildren,
          growth.children_of_new hostOld (Nat.le_of_not_lt old),
          growthImage.children_of_new hostOldImage newImage]
        rfl
  · exact contains_of_grown mirrored sound soundImage growth growthImage
  · rw [growthImage.report_eq, growth.report_eq, mirrored.report_eq]

end Grown

end MirrorImage

end Builder

end SelectorTree
