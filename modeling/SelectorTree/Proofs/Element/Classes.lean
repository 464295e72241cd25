import SelectorTree.Synthesis.Descriptor
import SelectorTree.Synthesis.Merge

/-!
# Class lists

Classes enter a list one by one, each at most once and never without a name.
So every element that a compound describes has a proper class list, and merging
only extends it.
-/

namespace SelectorTree.Element

/-- A class list without repetitions and without the empty name. -/
structure ProperClasses (element : Element) : Prop where
  nodup : element.classes.Nodup
  named : "" ∉ element.classes

variable {element source target merged : Element} {name : String} {names : List String}

@[simp] theorem hasClass_iff : element.hasClass name = true ↔ name ∈ element.classes := by
  simp [hasClass]

/-! ## Adding classes -/

theorem addClass_eq (element : Element) (name : String) :
    element.addClass name =
      { element with
        classes := if name = "" ∨ name ∈ element.classes then element.classes
          else element.classes ++ [name] } := by
  rw [addClass]
  simp only [hasClass_iff]
  split <;> rfl

theorem addClasses_cons (element : Element) (name : String) (names : List String) :
    element.addClasses (name :: names) = (element.addClass name).addClasses names := rfl

/-- Adding classes changes the class list alone. -/
theorem addClasses_eq (element : Element) (names : List String) :
    element.addClasses names = { element with classes := (element.addClasses names).classes } := by
  induction names generalizing element with
  | nil => rfl
  | cons name names ih =>
      rw [addClasses_cons, ih (element.addClass name), addClass_eq]

@[simp] theorem tag_addClasses (element : Element) (names : List String) :
    (element.addClasses names).tag = element.tag := by
  rw [addClasses_eq]

@[simp] theorem id?_addClasses (element : Element) (names : List String) :
    (element.addClasses names).id? = element.id? := by
  rw [addClasses_eq]

@[simp] theorem attributes_addClasses (element : Element) (names : List String) :
    (element.addClasses names).attributes = element.attributes := by
  rw [addClasses_eq]

@[simp] theorem value_addClasses (element : Element) (names : List String) :
    (element.addClasses names).value = element.value := by
  rw [addClasses_eq]

@[simp] theorem imported_addClasses (element : Element) (names : List String) :
    (element.addClasses names).imported = element.imported := by
  rw [addClasses_eq]

theorem mem_classes_addClass {added : String} :
    name ∈ (element.addClass added).classes ↔
      name ∈ element.classes ∨ (name = added ∧ name ≠ "") := by
  rw [addClass_eq]
  by_cases known : added = "" ∨ added ∈ element.classes
  · rw [if_pos known]
    refine ⟨Or.inl, ?_⟩
    rintro (old | ⟨rfl, named⟩)
    · exact old
    · exact known.resolve_left named
  · have named : added ≠ "" := fun empty => known (Or.inl empty)
    rw [if_neg known, List.mem_append, List.mem_singleton]
    exact or_congr_right ⟨fun same => ⟨same, same ▸ named⟩, And.left⟩

/-- The classes afterwards are those of before and the names that were added. -/
theorem mem_classes_addClasses :
    name ∈ (element.addClasses names).classes ↔
      name ∈ element.classes ∨ (name ∈ names ∧ name ≠ "") := by
  induction names generalizing element with
  | nil => simp [addClasses]
  | cons first rest ih =>
      rw [addClasses_cons, ih, mem_classes_addClass, List.mem_cons, or_and_right, or_assoc]

theorem nodup_classes_addClass (distinct : element.classes.Nodup) (name : String) :
    (element.addClass name).classes.Nodup := by
  rw [addClass_eq]
  split
  · exact distinct
  · next fresh =>
      refine List.nodup_append.mpr ⟨distinct, List.pairwise_singleton _ _, ?_⟩
      intro old member new last
      rw [List.mem_singleton.mp last]
      exact fun same => fresh (Or.inr (same ▸ member))

theorem nodup_classes_addClasses (distinct : element.classes.Nodup) (names : List String) :
    (element.addClasses names).classes.Nodup := by
  induction names generalizing element with
  | nil => exact distinct
  | cons name names ih => exact ih (nodup_classes_addClass distinct name)

theorem ProperClasses.addClasses (proper : element.ProperClasses) (names : List String) :
    (element.addClasses names).ProperClasses where
  nodup := nodup_classes_addClasses proper.nodup names
  named member := by
    rcases mem_classes_addClasses.mp member with old | ⟨_, named⟩
    · exact proper.named old
    · exact named rfl

/-- Classes that are there, or have no name, add nothing. -/
theorem addClasses_of_known (known : ∀ name ∈ names, name = "" ∨ name ∈ element.classes) :
    element.addClasses names = element := by
  induction names with
  | nil => rfl
  | cons name names ih =>
      obtain ⟨first, rest⟩ := List.forall_mem_cons.mp known
      rw [addClasses_cons, addClass_eq, if_pos first]
      exact ih rest

theorem addClasses_of_subset (known : ∀ name ∈ names, name ∈ element.classes) :
    element.addClasses names = element :=
  addClasses_of_known fun name member => Or.inr (known name member)

/-! ## Elements of descriptors -/

theorem properClasses_ofTag (tag : String) : (ofTag tag).ProperClasses :=
  ⟨List.nodup_nil, List.not_mem_nil⟩

/-- Only the class list decides whether it is proper. -/
theorem ProperClasses.congr (proper : element.ProperClasses)
    (same : target.classes = element.classes) : target.ProperClasses :=
  ⟨same ▸ proper.nodup, same ▸ proper.named⟩

theorem ProperClasses.applyAttribute (proper : element.ProperClasses)
    (selector : AttributeSelector) :
    (Descriptor.applyAttribute element selector).ProperClasses := by
  simp only [Descriptor.applyAttribute]
  split
  · exact proper.congr rfl
  · split
    · exact proper.addClasses _
    · exact proper.congr rfl

theorem properClasses_elementOf (tag : String) (compound : Compound) :
    (Descriptor.elementOf tag compound).ProperClasses := by
  refine List.foldlRecOn _ _ (ProperClasses.addClasses ?_ compound.classes)
    fun element proper selector _ => proper.applyAttribute selector
  split
  · exact properClasses_ofTag tag
  · exact (properClasses_ofTag tag).congr rfl

/-! ## Merging -/

theorem mergeInto_eq_ok_iff :
    source.mergeInto target = .ok merged ↔
      conflict? source target = none ∧
        merged = ((target.takeId source).takeKind source).addClasses source.classes := by
  rw [mergeInto]
  split
  · next found => simp [found]
  · next found => simp [found, eq_comm]

theorem conflict?_eq_none_iff :
    conflict? source target = none ↔
      Text.sameLetters source.tag target.tag = true ∧
        conflicting source.id target.id = false ∧
        conflicting source.kind target.kind = false := by
  rw [conflict?]
  split
  · simp_all
  · split
    · simp_all
    · split <;> simp_all

@[simp] theorem classes_takeId : (target.takeId source).classes = target.classes := by
  rw [takeId]
  split <;> rfl

@[simp] theorem classes_takeKind : (target.takeKind source).classes = target.classes := by
  rw [takeKind]
  split <;> rfl

@[simp] theorem attributes_takeId : (target.takeId source).attributes = target.attributes := by
  rw [takeId]
  split <;> rfl

@[simp] theorem id?_takeKind : (target.takeKind source).id? = target.id? := by
  rw [takeKind]
  split <;> rfl

/-- A merge writes the id, the attributes and the classes alone. -/
theorem frame_mergeInto (success : source.mergeInto target = .ok merged) :
    merged =
      { target with
        id? := merged.id?
        attributes := merged.attributes
        classes := merged.classes } := by
  rw [(mergeInto_eq_ok_iff.mp success).2, addClasses_eq, takeKind, takeId]
  split <;> split <;> rfl

theorem tag_mergeInto (success : source.mergeInto target = .ok merged) :
    merged.tag = target.tag := by
  rw [frame_mergeInto success]

theorem value_mergeInto (success : source.mergeInto target = .ok merged) :
    merged.value = target.value := by
  rw [frame_mergeInto success]

theorem imported_mergeInto (success : source.mergeInto target = .ok merged) :
    merged.imported = target.imported := by
  rw [frame_mergeInto success]

theorem ProperClasses.mergeInto (proper : target.ProperClasses)
    (success : source.mergeInto target = .ok merged) : merged.ProperClasses := by
  rw [(mergeInto_eq_ok_iff.mp success).2]
  exact (proper.congr (by simp)).addClasses _

end SelectorTree.Element
