import SelectorTree.Proofs.Element.Keeping
import SelectorTree.Proofs.Selector.Names
import SelectorTree.Proofs.Selector.Tests

/-!
# Described elements

The element that is built from a compound meets the compound, as long as the
compound does not fix one thing twice and its tests can be passed.  No content that
is shown later changes that if the attributes are none that elements show contents
in.
-/

namespace SelectorTree

open Text

/-- The attributes that are kept apart or that contents are shown in. -/
def reservedNames : List String := ["id", "class", "href", "src", "placeholder", "value"]

/-- Whether an element keeps an attribute of this name in its attribute map. -/
def OrdinaryName (name : String) : Prop := name ≠ "id" ∧ name ≠ "class"

instance (name : String) : Decidable (OrdinaryName name) :=
  inferInstanceAs (Decidable (_ ∧ _))

theorem ordinaryName_of_notMem {name : String} (free : name ∉ reservedNames) :
    OrdinaryName name := by
  constructor <;> rintro rfl <;> exact free (by decide)

/-- A compound that does not contradict itself: it has one id at most, its attributes are
all different and kept in the attribute map, and its tests can be passed. -/
structure Compound.Coherent (compound : Compound) : Prop where
  ids : compound.ids.length ≤ 1
  tests : ∀ selector ∈ compound.attributes, ∀ test ∈ selector.test?, test.Meetable
  distinct : (compound.attributes.map fun selector => lower selector.name).Nodup
  ordinary : ∀ selector ∈ compound.attributes, OrdinaryName (lower selector.name)

/-- A compound with one id at most and with attributes that are all different,
not reserved, and tested for nothing but equality. -/
structure Compound.Steady (compound : Compound) : Prop where
  ids : compound.ids.length ≤ 1
  tests : ∀ selector ∈ compound.attributes, ∀ test ∈ selector.test?, test.operator = .equals
  distinct : (compound.attributes.map fun selector => lower selector.name).Nodup
  free : ∀ selector ∈ compound.attributes, lower selector.name ∉ reservedNames

theorem Compound.Steady.coherent {compound : Compound} (steady : compound.Steady) :
    compound.Coherent where
  ids := steady.ids
  tests selector member test asked :=
    AttributeTest.meetable_of_equals (steady.tests selector member test asked)
  distinct := steady.distinct
  ordinary selector member := ordinaryName_of_notMem (steady.free selector member)

theorem Compound.steady_iff {compound : Compound} :
    compound.Steady ↔
      compound.ids.length ≤ 1 ∧
        (∀ selector ∈ compound.attributes, ∀ test ∈ selector.test?, test.operator = .equals) ∧
        (compound.attributes.map fun selector => lower selector.name).Nodup ∧
        ∀ selector ∈ compound.attributes, lower selector.name ∉ reservedNames := by
  constructor
  · exact fun steady => ⟨steady.ids, steady.tests, steady.distinct, steady.free⟩
  · rintro ⟨ids, tests, distinct, free⟩
    exact ⟨ids, tests, distinct, free⟩

instance (compound : Compound) : Decidable compound.Steady :=
  decidable_of_iff _ Compound.steady_iff.symm

/-- A compound that looks at nothing but the data of an element, and at no
attribute that is reserved. -/
structure Compound.Immune (compound : Compound) : Prop where
  free : ∀ selector ∈ compound.attributes, lower selector.name ∉ reservedNames
  noClasses : compound.pseudoClasses = []

/-! ## Building an element -/

namespace Descriptor

variable {element : Element} {selector : AttributeSelector} {selectors : List AttributeSelector}

/-- The value that an attribute selector gives an element. -/
def attributeValue (selector : AttributeSelector) : String :=
  (selector.test?.map AttributeTest.value).getD ""

theorem applyAttribute_of_ordinary (ordinary : OrdinaryName (lower selector.name)) :
    applyAttribute element selector =
      element.setAttribute (lower selector.name) (attributeValue selector) := by
  simp only [applyAttribute, ordinary.1, ordinary.2, if_false, attributeValue]

/-- Attributes that are kept in the attribute map change nothing else. -/
theorem foldl_applyAttribute_eq (ordinary : ∀ selector ∈ selectors,
    OrdinaryName (lower selector.name)) :
    selectors.foldl applyAttribute element =
      { element with attributes := (selectors.foldl applyAttribute element).attributes } := by
  induction selectors generalizing element with
  | nil => rfl
  | cons first rest ih =>
      obtain ⟨ordinaryFirst, ordinaryRest⟩ := List.forall_mem_cons.mp ordinary
      rw [List.foldl_cons, ih ordinaryRest, applyAttribute_of_ordinary ordinaryFirst]
      rfl

theorem getAttribute_foldl_of_notMem (ordinary : ∀ selector ∈ selectors,
      OrdinaryName (lower selector.name)) {name : String}
    (absent : name ∉ selectors.map fun selector => lower selector.name) :
    (selectors.foldl applyAttribute element).getAttribute name = element.getAttribute name := by
  induction selectors generalizing element with
  | nil => rfl
  | cons first rest ih =>
      obtain ⟨ordinaryFirst, ordinaryRest⟩ := List.forall_mem_cons.mp ordinary
      rw [List.map_cons, List.mem_cons, not_or] at absent
      rw [List.foldl_cons, ih ordinaryRest absent.2, applyAttribute_of_ordinary ordinaryFirst,
        Element.getAttribute, Element.setAttribute, Attributes.get?_set, if_neg absent.1]
      rfl

/-- Every attribute has its value in the end, if no name is given twice. -/
theorem getAttribute_foldl_of_mem (ordinary : ∀ selector ∈ selectors,
      OrdinaryName (lower selector.name))
    (distinct : (selectors.map fun selector => lower selector.name).Nodup)
    (member : selector ∈ selectors) :
    (selectors.foldl applyAttribute element).getAttribute (lower selector.name) =
      some (attributeValue selector) := by
  induction selectors generalizing element with
  | nil => cases member
  | cons first rest ih =>
      obtain ⟨ordinaryFirst, ordinaryRest⟩ := List.forall_mem_cons.mp ordinary
      rw [List.map_cons, List.nodup_cons] at distinct
      rcases List.mem_cons.mp member with rfl | later
      · rw [List.foldl_cons, getAttribute_foldl_of_notMem ordinaryRest distinct.1,
          applyAttribute_of_ordinary ordinaryFirst, Element.getAttribute, Element.setAttribute,
          Attributes.get?_set, if_pos rfl]
      · exact ih ordinaryRest distinct.2 later

/-- What an element has before the attributes of its compound are added. -/
theorem elementOf_eq (tag : String) (compound : Compound) :
    ∃ base : Element, elementOf tag compound = compound.attributes.foldl applyAttribute base ∧
      base.tag = lower tag ∧
      base.id? = (if compound.ids = [] then none else some (" ".intercalate compound.ids)) ∧
      ∀ name ∈ compound.classes, name ≠ "" → name ∈ base.classes := by
  refine ⟨_, rfl, ?_, ?_, fun name member named =>
    Element.mem_classes_addClasses.mpr (Or.inr ⟨member, named⟩)⟩
  · rw [Element.tag_addClasses]
    split <;> rfl
  · rw [Element.id?_addClasses]
    split <;> rfl

end Descriptor

/-! ## Accepting it -/

/-- Attributes that are kept in the attribute map are looked up where they are set. -/
theorem Element.selectedAttribute_of_ordinary (element : Element) {name : String}
    (ordinary : OrdinaryName name) :
    element.selectedAttribute name = element.getAttribute name := by
  rw [selectedAttribute, if_neg ordinary.1, if_neg fun both => ordinary.2 both.1]

theorem TypeSelector.accepts_congr {left right : Element} (same : left.tag = right.tag)
    (selector : TypeSelector) : selector.accepts left = selector.accepts right := by
  cases selector with
  | name tag => rw [accepts, accepts, same]
  | wildcard => rfl

namespace Compound

variable {compound : Compound} {tag : String} {element : Element}

theorem accepts_type (typed : Descriptor.tagOf compound.type? = .ok tag)
    (tagged : element.tag = lower tag) : compound.type?.all (·.accepts element) = true := by
  cases type : compound.type? with
  | none => rfl
  | some selector =>
      rw [type] at typed
      cases selector with
      | wildcard => rfl
      | name written =>
          cases typed
          rw [Option.all_some, TypeSelector.accepts, tagged, sameLetters_iff, lower_lower]

theorem accepts_ids (named : compound.Named) (few : compound.ids.length ≤ 1)
    (given : element.id? =
      if compound.ids = [] then none else some (" ".intercalate compound.ids)) :
    compound.ids.all (fun name => element.id == some name) = true := by
  rw [List.all_eq_true]
  intro name member
  have single : compound.ids = [name] := by
    match ids : compound.ids with
    | [] => simp [ids] at member
    | [other] =>
        rw [ids] at member
        rw [List.mem_singleton.mp member]
    | _ :: _ :: _ => simp [ids] at few
  rw [Element.id, given, single]
  simp [named.ids name member]

theorem accepts_attributes (coherent : compound.Coherent) (element : Element) :
    compound.attributes.all
      (·.accepts (compound.attributes.foldl Descriptor.applyAttribute element)) = true := by
  rw [List.all_eq_true]
  intro selector member
  have found : (compound.attributes.foldl Descriptor.applyAttribute element).getAttribute
      (lower selector.name) = some (Descriptor.attributeValue selector) :=
    Descriptor.getAttribute_foldl_of_mem coherent.ordinary coherent.distinct member
  rw [AttributeSelector.accepts,
    Element.selectedAttribute_of_ordinary _ (coherent.ordinary selector member), found,
    Option.any_some]
  cases asked : selector.test? with
  | none => rfl
  | some test =>
      rw [Option.all_some, Descriptor.attributeValue, asked]
      exact AttributeTest.accepts_value_iff.mpr (coherent.tests selector member test asked)

/-- The element that is built from a compound is accepted wherever it stands. -/
theorem accepts_elementOf (typed : Descriptor.tagOf compound.type? = .ok tag)
    (named : compound.Named) (coherent : compound.Coherent)
    (noElement : compound.pseudoElement? = none) (noClasses : compound.pseudoClasses = [])
    (imported : Bool) (tree : Tree) (id : NodeId) :
    compound.accepts tree id { Descriptor.elementOf tag compound with imported } = true := by
  obtain ⟨base, built, tagged, given, classes⟩ := Descriptor.elementOf_eq tag compound
  have others : Descriptor.elementOf tag compound =
      { base with attributes := (Descriptor.elementOf tag compound).attributes } := by
    rw [built]
    exact Descriptor.foldl_applyAttribute_eq coherent.ordinary
  have type : compound.type?.all
      (·.accepts { Descriptor.elementOf tag compound with imported }) = true := by
    apply accepts_type typed
    rw [others]
    exact tagged
  have ids : compound.ids.all (fun name =>
      ({ Descriptor.elementOf tag compound with imported } : Element).id == some name) = true := by
    apply accepts_ids named coherent.ids
    rw [others]
    exact given
  have classesHeld : compound.classes.all
      ({ Descriptor.elementOf tag compound with imported } : Element).hasClass = true := by
    rw [List.all_eq_true]
    intro name member
    rw [Element.hasClass_iff, others]
    exact classes name member (named.classes name member)
  have attributes : compound.attributes.all
      (·.accepts { Descriptor.elementOf tag compound with imported }) = true := by
    rw [built]
    exact accepts_attributes coherent base
  simp [accepts, noElement, noClasses, type, ids, classesHeld, attributes]

namespace Immune

variable (immune : compound.Immune)

include immune

/-- Where an element stands does not matter. -/
theorem accepts_congr (before after : Tree) (id : NodeId) :
    compound.accepts after id element = compound.accepts before id element := by
  simp only [accepts, immune.noClasses, List.all_nil]

/-- Showing a content changes only what is reserved. -/
theorem accepts_withContent (tree : Tree) (id : NodeId) (content : String) :
    compound.accepts tree id (element.withContent content) = compound.accepts tree id element := by
  have type : compound.type?.all (·.accepts (element.withContent content)) =
      compound.type?.all (·.accepts element) := by
    simp only [TypeSelector.accepts_congr (Element.tag_withContent element content)]
  have classes : (element.withContent content).hasClass = element.hasClass := by
    funext name
    rw [Element.hasClass, Element.hasClass, Element.classes_withContent]
  have attributes : compound.attributes.all (·.accepts (element.withContent content)) =
      compound.attributes.all (·.accepts element) := by
    rw [Bool.eq_iff_iff, List.all_eq_true, List.all_eq_true]
    refine forall₂_congr fun selector member => ?_
    have free := immune.free selector member
    have ordinary := ordinaryName_of_notMem free
    have apart : (ElementKind.ofTag element.tag).attribute? ≠ some (lower selector.name) := by
      intro shown
      apply free
      revert shown
      cases ElementKind.ofTag element.tag <;>
        simp +contextual [ElementKind.attribute?, reservedNames, eq_comm]
    rw [AttributeSelector.accepts, AttributeSelector.accepts,
      Element.selectedAttribute_of_ordinary _ ordinary,
      Element.selectedAttribute_of_ordinary _ ordinary,
      Element.getAttribute_withContent, if_neg apart]
  simp only [accepts, type, classes, attributes, immune.noClasses, Element.id,
    Element.id?_withContent, List.all_nil]

theorem accepts_contents (tree : Tree) (id : NodeId) (contents : List String) :
    compound.accepts tree id (contents.foldl Element.withContent element) =
      compound.accepts tree id element := by
  induction contents generalizing element with
  | nil => rfl
  | cons content contents ih =>
      rw [List.foldl_cons, ih]
      exact immune.accepts_withContent tree id content

end Immune

end Compound

end SelectorTree
