import SelectorTree.Proofs.Synthesis.MirrorImage

/-!
# Symmetry of the sides

Mirrored rules give the mirror image of the tree, if all their compounds ask for
positions.  One action keeps the mirror image when both runs take it, one of
them mirrored; the correspondence of the nodes grows with the trees.
-/

namespace SelectorTree

namespace Builder

variable {left right leftAfter rightAfter : Builder} {image : Equiv.Perm Nat}
  {parent target : NodeId} {element : Element} {imported : Bool}

theorem MirrorImage.report (mirrored : MirrorImage image left right) {first second : Report}
    (same : second = first) :
    MirrorImage image { left with report := first } { right with report := second } :=
  ⟨mirrored.size_eq, mirrored.fixed, mirrored.body_eq, mirrored.element?_eq, mirrored.texts_eq,
    mirrored.elementChildren_eq, mirrored.contains_eq, same⟩

/-- The empty body is its own mirror image. -/
theorem mirrorImage_start : MirrorImage (Equiv.refl Nat) start start where
  size_eq := rfl
  fixed _ _ := rfl
  body_eq := rfl
  element?_eq _ := rfl
  texts_eq _ := rfl
  elementChildren_eq id := by
    rcases id with _ | _ | id
    · rfl
    · rfl
    · rfl
  contains_eq _ := rfl
  report_eq := rfl

namespace MirrorImage

variable (mirrored : MirrorImage image left right)

include mirrored

/-! ## Changing corresponding elements -/

/-- Corresponding elements that change in the same way still correspond. -/
theorem rewritten (changed : Rewritten left leftAfter target)
    (changedImage : Rewritten right rightAfter (image target))
    (size : rightAfter.tree.size = leftAfter.tree.size)
    (sameElement : rightAfter.tree.element? (image target) = leftAfter.tree.element? target)
    (sameTexts : rightAfter.tree.texts (image target) = leftAfter.tree.texts target)
    (sameReport : rightAfter.report = leftAfter.report) :
    MirrorImage image leftAfter rightAfter where
  size_eq := size
  fixed id beyond := mirrored.fixed id (Nat.le_trans changed.shown.size_le beyond)
  body_eq := by rw [changedImage.body_eq, changed.body_eq, mirrored.body_eq]
  element?_eq id := by
    by_cases same : id = target
    · rw [same, sameElement]
    · have apart : image id ≠ image target := fun equal => same (image.injective equal)
      rw [changedImage.shown.element?_of_ne _ apart, changed.shown.element?_of_ne id same,
        mirrored.element?_eq]
  texts_eq id := by
    by_cases same : id = target
    · rw [same, sameTexts]
    · have apart : image id ≠ image target := fun equal => same (image.injective equal)
      rw [changedImage.shown.texts_of_ne _ apart, changed.shown.texts_of_ne id same,
        mirrored.texts_eq]
  elementChildren_eq id := by
    rw [changedImage.shown.elementChildren_eq, changed.shown.elementChildren_eq,
      mirrored.elementChildren_eq]
  contains_eq id := by
    rw [changedImage.fillers_eq, changed.fillers_eq, mirrored.contains_eq]
  report_eq := sameReport

/-- An element merges into a node if and only if it merges into its image. -/
theorem tryMerge_eq_none_iff :
    right.tryMerge element (image target) imported = none ↔
      left.tryMerge element target imported = none := by
  simp only [Option.eq_none_iff_forall_ne_some, ne_eq, tryMerge_eq_some_iff,
    mirrored.element?_eq, not_exists, not_and]
  constructor
  · intro refused after data merged found mergedEq _
    exact refused _ data merged found mergedEq rfl
  · intro refused after data merged found mergedEq _
    exact refused _ data merged found mergedEq rfl

variable (sound : left.Sound) (soundImage : right.Sound) (real : left.Real target)
  (realImage : right.Real (image target))

include sound soundImage real realImage

theorem tryMerge (success : left.tryMerge element target imported = some leftAfter)
    (successImage : right.tryMerge element (image target) imported = some rightAfter) :
    MirrorImage image leftAfter rightAfter := by
  have changed := rewritten_of_tryMerge sound real success
  have changedImage := rewritten_of_tryMerge soundImage realImage successImage
  obtain ⟨data, merged, found, mergedEq, rfl⟩ := tryMerge_eq_some_iff.mp success
  obtain ⟨dataImage, mergedImage, foundImage, mergedImageEq, rfl⟩ :=
    tryMerge_eq_some_iff.mp successImage
  have sameData := foundImage
  rw [mirrored.element?_eq, found] at sameData
  cases sameData
  cases mergedEq.symm.trans mergedImageEq
  refine mirrored.rewritten changed changedImage ?_ ?_ ?_ ?_
  · simp [mirrored.size_eq]
  · rw [Tree.element?_setElement_self found, Tree.element?_setElement_self foundImage]
  · rw [Tree.texts_setElement, Tree.texts_setElement, mirrored.texts_eq]
  · simp only [mirrored.report_eq]

theorem setContent (content : String) :
    MirrorImage image (left.edit (·.setContent target content))
      (right.edit (·.setContent (image target) content)) := by
  obtain ⟨data, found⟩ := Tree.isElement_iff.mp real.element
  have foundImage := (mirrored.element?_eq target).trans found
  refine mirrored.rewritten (rewritten_of_setContent sound real content)
    (rewritten_of_setContent soundImage realImage content) ?_ ?_ ?_ mirrored.report_eq
  · change (right.tree.setContent (image target) content).size =
      (left.tree.setContent target content).size
    rw [Tree.size_setContent found, Tree.size_setContent foundImage, mirrored.texts_eq,
      mirrored.size_eq]
  · exact (Tree.element?_setContent_self soundImage.linked foundImage content).trans
      (Tree.element?_setContent_self sound.linked found content).symm
  · change (right.tree.setContent (image target) content).texts (image target) =
      (left.tree.setContent target content).texts target
    rw [Tree.texts_setContent_self sound.linked found,
      Tree.texts_setContent_self soundImage.linked foundImage, mirrored.texts_eq]

end MirrorImage

/-! ## Placing at mirrored positions -/

/-- Elements that were placed in mirror images: they correspond as well. -/
def MirrorPlaced (image : Equiv.Perm Nat) (result resultImage : Builder × NodeId) : Prop :=
  MirrorImage image result.1 resultImage.1 ∧ resultImage.2 = image result.2

namespace MirrorImage

variable {options : Options} {position : Position} {side : Side} {gone : List NodeId}
  {front back frontImage backImage : List NodeId}

/-- An element that comes in without fillers keeps the correspondence. -/
theorem grown_alone (mirrored : MirrorImage image left right) (sound : left.Sound)
    (soundImage : right.Sound) (host : left.Host parent)
    (growth : Grown left leftAfter element imported
      ⟨parent, side, front, gone, [], left.tree.size, back⟩)
    (growthImage : Grown right rightAfter element imported
      ⟨image parent, side.mirror, frontImage, gone.map image, [], right.tree.size, backImage⟩)
    (sameFront : frontImage.filter right.tree.isElement =
      (front.filter left.tree.isElement).map image)
    (sameBack : backImage.filter right.tree.isElement =
      (back.filter left.tree.isElement).map image) :
    MirrorImage image leftAfter rightAfter := by
  have noFillers : ∀ side : Side, ([] : List NodeId) =
      side.orient (List.range' (left.tree.size + 1) 0) := by simp
  rw [noFillers side] at growth
  rw [noFillers side.mirror, mirrored.size_eq] at growthImage
  have after := mirrored.grown sound soundImage host growth growthImage sameFront sameBack
  rwa [extend_zero] at after

variable (mirrored : MirrorImage image left right)

include mirrored

theorem gap_eq (options : Options) (parent : NodeId) (element : Element) (position : Position) :
    right.gap options (image parent) element position.mirror =
      left.gap options parent element position := by
  rw [gap, gap, mirrored.siblingsAt_eq, List.length_map]
  rfl

theorem image_size : image left.tree.size = right.tree.size := by
  rw [mirrored.fixed _ (Nat.le_refl _), mirrored.size_eq]

variable (sound : left.Sound) (soundImage : right.Sound) (host : left.Host parent)
  (hostImage : right.Host (image parent))

include sound soundImage host hostImage

/-- At a position that no sibling has, fillers may come in as well. -/
private theorem placeAt_of_free
    (free : left.tree.probe parent position element.tag = none) (options : Options)
    (imported : Bool) :
    ∃ imageAfter, MirrorPlaced imageAfter (left.placeAt options parent element position imported)
      (right.placeAt options (image parent) element position.mirror imported) := by
  have allocated := sound.host_lt_size host
  have allocatedImage := soundImage.host_lt_size hostImage
  have freeImage : right.tree.probe (image parent) position.mirror element.tag = none := by
    rw [mirrored.probe_eq, free]
    rfl
  by_cases first : position.index = 1
  · obtain ⟨node, growth⟩ :=
      grown_placeAt_of_first sound.linked allocated free first options imported
    obtain ⟨nodeImage, growthImage⟩ :=
      grown_placeAt_of_first soundImage.linked allocatedImage freeImage first options imported
    refine ⟨image, ?_, ?_⟩
    · exact mirrored.grown_alone sound soundImage host growth growthImage rfl
        (mirrored.oriented_eq parent position.side)
    · rw [node, nodeImage, mirrored.image_size]
  · obtain ⟨node, growth⟩ :=
      grown_placeAt_of_gap sound.linked allocated free first options imported
    obtain ⟨nodeImage, growthImage⟩ :=
      grown_placeAt_of_gap soundImage.linked allocatedImage freeImage first options imported
    -- Both sides count the same siblings, so they need the same number of fillers.
    rw [mirrored.gap_eq, mirrored.size_eq] at growthImage
    refine ⟨extend left image (left.gap options parent element position), ?_, ?_⟩
    · exact mirrored.grown sound soundImage host growth growthImage
        (mirrored.oriented_eq parent position.side) rfl
    · rw [node, nodeImage, mirrored.extend_size, mirrored.size_eq]

/-- A sibling at the position gives way, takes the element, or moves on. -/
private theorem placeAt_of_blocker {blocker : NodeId}
    (found : left.tree.probe parent position element.tag = some blocker) (options : Options)
    (imported : Bool) :
    MirrorPlaced image (left.placeAt options parent element position imported)
      (right.placeAt options (image parent) element position.mirror imported) := by
  have allocated := sound.host_lt_size host
  have allocatedImage := soundImage.host_lt_size hostImage
  have foundImage : right.tree.probe (image parent) position.mirror element.tag =
      some (image blocker) := by
    rw [mirrored.probe_eq, found]
    rfl
  have listed := Tree.mem_elementChildren_of_probe found
  have listedImage := Tree.mem_elementChildren_of_probe foundImage
  have isElement := (List.mem_filter.mp listed).2
  have isElementImage := (List.mem_filter.mp listedImage).2
  by_cases registered : left.fillers.contains blocker = true
  · have registeredImage : right.fillers.contains (image blocker) = true := by
      rw [mirrored.contains_eq, registered]
    obtain ⟨front, back, -, node, growth⟩ :=
      grown_placeAt_of_filler sound.linked allocated found registered options imported
    obtain ⟨frontImage, backImage, -, nodeImage, growthImage⟩ :=
      grown_placeAt_of_filler soundImage.linked allocatedImage foundImage registeredImage options
        imported
    obtain ⟨sameFront, sameBack⟩ := mirrored.split_eq soundImage.linked isElement
      (growth.listed.trans (List.append_assoc _ _ _))
      (growthImage.listed.trans (List.append_assoc _ _ _))
    refine ⟨?_, ?_⟩
    · exact mirrored.grown_alone sound soundImage host growth growthImage sameFront sameBack
    · rw [node, nodeImage, mirrored.image_size]
  · have unregistered := Bool.eq_false_iff.mpr registered
    have unregisteredImage : right.fillers.contains (image blocker) = false := by
      rw [mirrored.contains_eq, unregistered]
    rcases left.merges_or_refuses options element blocker imported with
      ⟨merges, leftAfter, success⟩ | refused
    · have accepted : right.tryMerge element (image blocker) imported ≠ none := by
        rw [ne_eq, mirrored.tryMerge_eq_none_iff, success]
        exact Option.some_ne_none leftAfter
      obtain ⟨rightAfter, successImage⟩ := Option.ne_none_iff_exists'.mp accepted
      have real := Sound.child_real host listed sound.linked unregistered
      have realImage := Sound.child_real hostImage listedImage soundImage.linked unregisteredImage
      rw [placeAt_of_merge found unregistered merges success,
        placeAt_of_merge foundImage unregisteredImage merges successImage]
      exact ⟨mirrored.tryMerge sound soundImage real realImage success successImage, rfl⟩
    · have refusedImage : options.mergeNth = .merge →
          right.tryMerge element (image blocker) imported = none :=
        fun merges => mirrored.tryMerge_eq_none_iff.mpr (refused merges)
      obtain ⟨front, back, -, node, growth⟩ :=
        grown_placeAt_of_displace sound.linked allocated found unregistered refused
      obtain ⟨frontImage, backImage, -, nodeImage, growthImage⟩ :=
        grown_placeAt_of_displace soundImage.linked allocatedImage foundImage unregisteredImage
          refusedImage
      obtain ⟨sameFront, sameBack⟩ := mirrored.split_eq soundImage.linked isElement
        (growth.listed.trans (List.append_assoc _ _ _))
        (growthImage.listed.trans (List.append_assoc _ _ _))
      refine ⟨mirrored.grown_alone sound soundImage host growth growthImage sameFront ?_, ?_⟩
      · rw [List.filter_cons_of_pos isElement, List.filter_cons_of_pos isElementImage, sameBack,
          List.map_cons]
      · rw [node, nodeImage, mirrored.image_size]

/-- Elements placed at mirrored positions below corresponding nodes correspond. -/
theorem placeAt (options : Options) (element : Element) (position : Position)
    (imported : Bool) :
    ∃ imageAfter, MirrorPlaced imageAfter (left.placeAt options parent element position imported)
      (right.placeAt options (image parent) element position.mirror imported) := by
  cases found : left.tree.probe parent position element.tag with
  | none =>
      exact placeAt_of_free mirrored sound soundImage host hostImage found options imported
  | some blocker =>
      exact ⟨image,
        placeAt_of_blocker mirrored sound soundImage host hostImage found options imported⟩

end MirrorImage

end Builder

/-! ## Runs -/

namespace Cursor

/-- Cursors at corresponding nodes of mirror images. -/
structure MirrorImage (image : Equiv.Perm Nat) (left right : Cursor) : Prop where
  builder : Builder.MirrorImage image left.builder right.builder
  node?_eq : right.node? = left.node?.map image

theorem mirrorImage_start : MirrorImage (Equiv.refl Nat) start start :=
  ⟨Builder.mirrorImage_start, rfl⟩

namespace MirrorImage

variable {left right : Cursor} {image : Equiv.Perm Nat} {action : Action}
  {actions : List Action}

section Step

variable (mirrored : MirrorImage image left right) (sound : left.Sound)
  (soundImage : right.Sound)

include mirrored sound soundImage

theorem parentFor_eq (descriptor : Descriptor) :
    right.builder.parentFor descriptor.mirror right.node? =
      image (left.builder.parentFor descriptor left.node?) := by
  rw [mirrored.node?_eq]
  cases found : left.node? with
  | none => exact mirrored.builder.body_eq
  | some previous =>
      have real := sound.node previous found
      obtain ⟨above, attached⟩ := Tree.Below.exists_parent real.below
      have attachedImage := mirrored.builder.parent_eq sound.builder.linked
        soundImage.builder.linked real.element attached
      rw [Option.map_some, Builder.parentFor, Builder.parentFor]
      change (if descriptor.combinator.isSibling = true then _ else _) = _
      split
      · rw [attachedImage, attached]
        rfl
      · rfl

/-- One action, taken by both runs, keeps the mirror image. -/
theorem perform (options : Options) (positional : action.Positional) :
    ∃ imageAfter, MirrorImage imageAfter (left.perform options action)
      (right.perform options action.mirror) := by
  have sameReport := mirrored.builder.report_eq
  cases action with
  | beginRule =>
      refine ⟨image, mirrored.builder.report ?_, mirrored.node?_eq⟩
      rw [sameReport]
  | skipAlternative =>
      refine ⟨image, mirrored.builder.report ?_, mirrored.node?_eq⟩
      rw [sameReport]
  | beginAlternative =>
      refine ⟨image, mirrored.builder.report ?_, rfl⟩
      rw [sameReport]
  | place descriptor imported =>
      obtain ⟨position, asked⟩ := positional
      have askedImage : descriptor.mirror.position? = some position.mirror :=
        congrArg (Option.map Position.mirror) asked
      have host := sound.host_parentFor descriptor
      have hostImage := soundImage.host_parentFor descriptor.mirror
      rw [mirrored.parentFor_eq sound soundImage] at hostImage
      obtain ⟨imageAfter, after, node⟩ := mirrored.builder.placeAt sound.builder
        soundImage.builder host hostImage options descriptor.element position imported
      refine ⟨imageAfter, ?_⟩
      simp only [Action.mirror, Cursor.perform, Builder.placeDescriptor, asked, askedImage,
        mirrored.parentFor_eq sound soundImage]
      exact ⟨after, congrArg some node⟩
  | write content =>
      refine ⟨image, ?_, mirrored.node?_eq⟩
      change Builder.MirrorImage image (left.builder.showContent left.node? content)
        (right.builder.showContent right.node? content)
      have realImage := soundImage.node
      rw [mirrored.node?_eq] at realImage ⊢
      cases found : left.node? with
      | none => exact mirrored.builder
      | some target =>
          cases content with
          | none => exact mirrored.builder
          | some content =>
              exact mirrored.builder.setContent sound.builder soundImage.builder
                (sound.node target found) (realImage (image target) (by rw [found]; rfl)) _

end Step

/-- Mirrored runs stay mirror images of each other. -/
theorem performAll (options : Options) (mirrored : MirrorImage image left right)
    (sound : left.Sound) (soundImage : right.Sound)
    (proper : ∀ action ∈ actions, action.Proper)
    (positional : ∀ action ∈ actions, action.Positional) :
    ∃ imageAfter, MirrorImage imageAfter (left.performAll options actions)
      (right.performAll options (actions.map Action.mirror)) := by
  -- Every action may extend the correspondence, so it varies along the induction.
  induction actions generalizing left right image with
  | nil => exact ⟨image, mirrored⟩
  | cons action rest ih =>
      obtain ⟨properFirst, properRest⟩ := List.forall_mem_cons.mp proper
      obtain ⟨positionalFirst, positionalRest⟩ := List.forall_mem_cons.mp positional
      obtain ⟨imageAfter, after⟩ := mirrored.perform sound soundImage options positionalFirst
      apply ih after
      · exact (sound_perform options sound properFirst).1
      · exact (sound_perform options soundImage properFirst.mirror).1
      · exact properRest
      · exact positionalRest

end MirrorImage

end Cursor

/-- Corresponding builders have as many fillers. -/
theorem Builder.MirrorImage.size_fillers {left right : Builder} {image : Equiv.Perm Nat}
    (mirrored : MirrorImage image left right) : right.fillers.size = left.fillers.size := by
  have distinct : (left.fillers.nodes.map image).Nodup :=
    left.fillers.nodup.map image.injective
  have sameNodes : right.fillers.nodes.Perm (left.fillers.nodes.map image) := by
    rw [List.perm_ext_iff_of_nodup right.fillers.nodup distinct]
    intro id
    obtain ⟨original, rfl⟩ := image.surjective id
    have same := mirrored.contains_eq original
    rw [Bool.eq_iff_iff] at same
    rw [List.mem_map_of_injective image.injective]
    simpa [Fillers.contains] using same
  rw [Fillers.size, Fillers.size, sameNodes.length_eq, List.length_map]

theorem Builder.MirrorImage.report_finish {left right : Builder} {image : Equiv.Perm Nat}
    (mirrored : MirrorImage image left right) : right.finish.report = left.finish.report := by
  rw [finish, finish]
  simp only [mirrored.report_eq, mirrored.size_fillers]

/-- If all compounds of some rules have pseudo-classes, the mirrored rules build
the mirror image, with the same data at corresponding nodes, and report the
same. -/
theorem mirrorImage_synthesize (options : Options) {rules : List TreeRule}
    (positional : ∀ rule ∈ rules, rule.Positional) :
    (∃ image, Builder.MirrorImage image (Builder.ofRules options rules)
      (Builder.ofRules options (rules.map TreeRule.mirror))) ∧
    (synthesize options (rules.map TreeRule.mirror)).report =
      (synthesize options rules).report := by
  have proper : ∀ action ∈ runActions rules, action.Proper :=
    fun _ member => proper_of_mem_runActions member
  obtain ⟨image, mirrored⟩ :=
    Cursor.mirrorImage_start.performAll options Cursor.sound_start Cursor.sound_start proper
      fun _ member => positional_of_mem_runActions positional member
  rw [← runActions_mirror] at mirrored
  have builders : Builder.MirrorImage image (Builder.ofRules options rules)
      (Builder.ofRules options (rules.map TreeRule.mirror)) := by
    rw [← Cursor.builder_after_runActions, ← Cursor.builder_after_runActions]
    exact mirrored.builder
  exact ⟨⟨image, builders⟩, builders.report_finish⟩

/-- The rules `ul:nth-child(2) > li:last-child` with a content and
`p:first-of-type`. -/
def positionedRules : List TreeRule :=
  [⟨[⟨⟨some (.name "li"), [], [], [], [⟨"last-child", none⟩], none⟩,
      [(.child, ⟨some (.name "ul"), [], [], [], [⟨"nth-child", some (.formula ⟨0, 2⟩)⟩], none⟩)]⟩],
    some "one", false⟩,
   ⟨[⟨⟨some (.name "p"), [], [], [], [⟨"first-of-type", none⟩], none⟩, []⟩], none, false⟩]

/-- The paragraph, the filler and the list come in the reverse order, and both runs create three
elements and leave one filler. -/
theorem mirrorImage_positionedRules :
    (∀ rule ∈ positionedRules, rule.Positional) ∧
      (∃ image, Builder.MirrorImage image (Builder.ofRules .standard positionedRules)
          (Builder.ofRules .standard (positionedRules.map TreeRule.mirror)) ∧
        (Builder.ofRules .standard positionedRules).tree.elementChildren 1 = [6, 3, 2] ∧
        (Builder.ofRules .standard (positionedRules.map TreeRule.mirror)).tree.elementChildren
          (image 1) = [image 2, image 3, image 6]) ∧
      (synthesize .standard (positionedRules.map TreeRule.mirror)).report =
        (synthesize .standard positionedRules).report ∧
      (synthesize .standard (positionedRules.map TreeRule.mirror)).report =
        ⟨2, 2, 0, 3, 0, 1⟩ := by
  have positional : ∀ rule ∈ positionedRules, rule.Positional := by decide
  obtain ⟨⟨image, mirrored⟩, reports⟩ := mirrorImage_synthesize .standard positional
  have children : (Builder.ofRules .standard positionedRules).tree.elementChildren 1 =
      [6, 3, 2] := by decide +kernel
  have report : (synthesize .standard positionedRules).report = ⟨2, 2, 0, 3, 0, 1⟩ := by
    decide +kernel
  have reversed := mirrored.elementChildren_eq 1
  rw [children] at reversed
  exact ⟨positional, ⟨image, mirrored, children, reversed⟩, reports, reports.trans report⟩

end SelectorTree
