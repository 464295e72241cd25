import SelectorTree.Proofs.Element.Content
import SelectorTree.Proofs.Element.Keys

/-!
# What an element keeps

Merging another element into one, or showing a content at it, adds to its data
and overwrites at most the value of an attribute.
-/

namespace SelectorTree.Element

/-- What stays of an element: its tag, an id that is not empty, the classes in
front of all later ones, and the names of its attributes. -/
structure Keeps (before after : Element) : Prop where
  tag_eq : after.tag = before.tag
  id_eq : ∀ name, before.id = some name → after.id = some name
  id?_isSome : before.id?.isSome = true → after.id?.isSome = true
  classes : before.classes <+: after.classes
  attributes : ∀ name, (before.getAttribute name).isSome = true →
    (after.getAttribute name).isSome = true
  kind_eq : ∀ name, before.kind = some name → after.kind = some name
  imported : before.imported = true → after.imported = true

variable {before middle after element source target merged : Element}

theorem Keeps.refl (element : Element) : Keeps element element :=
  ⟨rfl, fun _ same => same, fun known => known, List.prefix_refl _, fun _ known => known,
    fun _ same => same, fun known => known⟩

theorem Keeps.trans (first : Keeps before middle) (second : Keeps middle after) :
    Keeps before after where
  tag_eq := second.tag_eq.trans first.tag_eq
  id_eq name same := second.id_eq name (first.id_eq name same)
  id?_isSome known := second.id?_isSome (first.id?_isSome known)
  classes := first.classes.trans second.classes
  attributes name known := second.attributes name (first.attributes name known)
  kind_eq name same := second.kind_eq name (first.kind_eq name same)
  imported known := second.imported (first.imported known)

/-! ## Merging -/

theorem classes_prefix_addClasses (element : Element) (names : List String) :
    element.classes <+: (element.addClasses names).classes := by
  induction names generalizing element with
  | nil => exact List.prefix_refl _
  | cons name names ih =>
      have first : element.classes <+: (element.addClass name).classes := by
        rw [addClass_eq]
        split
        · exact List.prefix_refl _
        · exact List.prefix_append _ _
      exact first.trans (ih (element.addClass name))

theorem keeps_addClasses (element : Element) (names : List String) :
    Keeps element (element.addClasses names) := by
  have classes := classes_prefix_addClasses element names
  rw [addClasses_eq] at classes ⊢
  exact { Keeps.refl element with classes }

theorem keeps_takeId (target source : Element) : Keeps target (target.takeId source) := by
  rw [takeId]
  split
  · next name noId _ =>
      refine { Keeps.refl target with id_eq := ?_, id?_isSome := fun _ => rfl }
      intro name same
      rw [noId] at same
      cases same
  · exact Keeps.refl target

theorem kind_takeKind (target source : Element) :
    (target.takeKind source).kind = target.kind.or source.kind := by
  rw [takeKind]
  split
  · next kind noKind taken =>
      have nonempty : kind ≠ "" := by
        have filtered := Option.filter_eq_some_iff.mp taken
        simpa using filtered.2
      rw [noKind, taken, Option.none_or, Element.kind, getAttribute, setAttribute,
        Attributes.get?_set, if_pos rfl]
      simp [nonempty]
  · next notBoth =>
      cases own : target.kind with
      | some name => rfl
      | none =>
          cases other : source.kind with
          | some name => exact absurd other (notBoth name own)
          | none => rfl

/-- An element that asks for no other `type` leaves the `type` alone. -/
theorem takeKind_of_kind (kinds : source.kind = none ∨ target.kind = source.kind) :
    target.takeKind source = target := by
  rcases kinds with none | same
  · rw [takeKind, none]
    cases target.kind <;> rfl
  · rw [takeKind, same]
    cases source.kind <;> rfl

theorem conflicting_iff {left right : Option String} :
    conflicting left right = true ↔
      ∃ value other, left = some value ∧ right = some other ∧ value ≠ other := by
  cases left <;> cases right <;> simp [conflicting]

theorem conflicting_comm (left right : Option String) :
    conflicting left right = conflicting right left := by
  cases left <;> cases right <;> simp [conflicting, bne_comm]

theorem conflicting_self (kind : Option String) : conflicting kind kind = false := by
  cases kind <;> simp [conflicting]

theorem keeps_takeKind (target source : Element) : Keeps target (target.takeKind source) := by
  rw [takeKind]
  split
  · next kind noKind taken =>
      refine { Keeps.refl target with attributes := ?_, kind_eq := ?_ }
      · intro name known
        rw [getAttribute, setAttribute, Attributes.get?_set]
        split
        · rfl
        · exact known
      · intro name same
        rw [noKind] at same
        cases same
  · exact Keeps.refl target

theorem keeps_mergeInto (success : source.mergeInto target = .ok merged) :
    Keeps target merged := by
  rw [(mergeInto_eq_ok_iff.mp success).2]
  exact ((keeps_takeId target source).trans (keeps_takeKind _ source)).trans
    (keeps_addClasses _ source.classes)

theorem keeps_markImported (element : Element) (imported : Bool) :
    Keeps element { element with imported := element.imported || imported } :=
  { Keeps.refl element with imported := fun known => by simp [known] }

/-! ## Showing a content -/

/-- No content is shown in the `type`. -/
theorem attribute?_ne_type (kind : ElementKind) : kind.attribute? ≠ some "type" := by
  cases kind <;> decide

/-- Taking a `type` over leaves a content as it is. -/
theorem Displays.takeKind {content : String} (displays : target.Displays content)
    (source : Element) : (target.takeKind source).Displays content := by
  rw [Element.takeKind]
  split
  · next kind _ _ =>
      refine ⟨fun name shown => ?_, displays.inValue⟩
      have notType : name ≠ "type" := by
        rintro rfl
        exact attribute?_ne_type _ shown
      rw [getAttribute, setAttribute, Attributes.get?_set, if_neg notType]
      exact displays.inAttribute name shown
  · exact displays

theorem kind_withContent (element : Element) (content : String) :
    (element.withContent content).kind = element.kind := by
  rw [Element.kind, getAttribute_withContent, if_neg (attribute?_ne_type _), Element.kind]

@[simp] theorem key_withContent (element : Element) (content : String) :
    (element.withContent content).key = element.key := by
  simp [key, Element.id]

theorem keeps_withContent (element : Element) (content : String) :
    Keeps element (element.withContent content) where
  tag_eq := tag_withContent element content
  id_eq name same := by
    rw [Element.id, id?_withContent]
    exact same
  id?_isSome known := by
    rw [id?_withContent]
    exact known
  classes := by rw [classes_withContent]
  attributes name known := by
    rw [getAttribute_withContent]
    split
    · rfl
    · exact known
  kind_eq name same := by
    rw [kind_withContent]
    exact same
  imported known := by
    rw [imported_withContent]
    exact known

end SelectorTree.Element
