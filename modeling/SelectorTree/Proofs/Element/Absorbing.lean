import SelectorTree.Proofs.Element.Describing

/-!
# Elements that have taken another one

An element that another one was merged into has all that the other one could give it: its
id, its `type` and its classes.  Merging the other one once more changes nothing, and a
content that is shown meanwhile does not matter.
-/

namespace SelectorTree.Element

/-- What an element asks for is there already. -/
structure Absorbs (target source : Element) : Prop where
  tag : Text.sameLetters source.tag target.tag = true
  id : source.id = none ∨ target.id = source.id
  kind : source.kind = none ∨ target.kind = source.kind
  classes : ∀ name ∈ source.classes, name = "" ∨ name ∈ target.classes

/-- An element with other attributes or marks, but no other answer to what can keep a second
element from being merged. -/
structure Resembles (before after : Element) : Prop extends Keeps before after where
  key_eq : after.key = before.key
  sameKind : after.kind = before.kind

variable {before after source target merged : Element} {left right : Option String}

theorem Resembles.refl (element : Element) : Resembles element element :=
  ⟨Keeps.refl element, rfl, rfl⟩

theorem Resembles.trans {middle : Element} (first : Resembles before middle)
    (second : Resembles middle after) : Resembles before after :=
  ⟨first.toKeeps.trans second.toKeeps, second.key_eq.trans first.key_eq,
    second.sameKind.trans first.sameKind⟩

theorem resembles_withContent (element : Element) (content : String) :
    Resembles element (element.withContent content) :=
  ⟨keeps_withContent element content, key_withContent element content,
    kind_withContent element content⟩

theorem Absorbs.keeps (absorbs : before.Absorbs source) (keeps : Keeps before after) :
    after.Absorbs source where
  tag := by rw [keeps.tag_eq, absorbs.tag]
  id := by
    cases asked : source.id with
    | none => exact Or.inl rfl
    | some name =>
        have known := absorbs.id.resolve_left (by simp [asked])
        exact Or.inr (keeps.id_eq name (known.trans asked))
  kind := by
    cases asked : source.kind with
    | none => exact Or.inl rfl
    | some name =>
        have known := absorbs.kind.resolve_left (by simp [asked])
        exact Or.inr (keeps.kind_eq name (known.trans asked))
  classes name member := (absorbs.classes name member).imp_right fun known =>
    keeps.classes.subset known

theorem absorbs_self (element : Element) : element.Absorbs element :=
  ⟨Text.sameLetters_refl element.tag, Or.inr rfl, Or.inr rfl, fun _ member => Or.inr member⟩

/-! ## Merging once more -/

theorem conflicting_of_known (known : left = none ∨ right = left) :
    conflicting left right = false := by
  rcases known with rfl | rfl
  · rfl
  · exact conflicting_self _

theorem takeId_of_id (ids : source.id = none ∨ target.id = source.id) :
    target.takeId source = target := by
  rcases ids with none | same
  · rw [takeId, none]
    cases target.id <;> rfl
  · rw [takeId, same]
    cases source.id <;> rfl

theorem Absorbs.mergeInto_eq (absorbs : target.Absorbs source) :
    source.mergeInto target = .ok target := by
  refine mergeInto_eq_ok_iff.mpr ⟨?_, ?_⟩
  · exact conflict?_eq_none_iff.mpr
      ⟨absorbs.tag, conflicting_of_known absorbs.id, conflicting_of_known absorbs.kind⟩
  · rw [takeId_of_id absorbs.id, takeKind_of_kind absorbs.kind,
      addClasses_of_known absorbs.classes]

/-! ## After a merge -/

theorem or_eq_of_not_conflicting (agree : conflicting left right = false) :
    left = none ∨ right.or left = left := by
  cases left with
  | none => exact Or.inl rfl
  | some name =>
      right
      cases right with
      | none => rfl
      | some other =>
          have same : name = other := by simpa [conflicting] using agree
          rw [same, Option.some_or]

theorem id_takeId (target source : Element) :
    (target.takeId source).id = target.id.or source.id := by
  rw [takeId]
  split
  · next name noId taken =>
      have nonempty : name ≠ "" := by
        have filtered := Option.filter_eq_some_iff.mp taken
        simpa using filtered.2
      rw [noId, taken, Option.none_or, Element.id]
      simp [nonempty]
  · next notBoth =>
      cases own : target.id with
      | some name => rfl
      | none =>
          cases other : source.id with
          | some name => exact absurd other (notBoth name own)
          | none => rfl

theorem id_mergeInto (success : source.mergeInto target = .ok merged) :
    merged.id = target.id.or source.id := by
  rw [(mergeInto_eq_ok_iff.mp success).2, Element.id, id?_addClasses, id?_takeKind]
  exact id_takeId target source

@[simp] theorem getAttribute_takeId (target source : Element) :
    (target.takeId source).getAttribute = target.getAttribute := by
  funext name
  rw [getAttribute, attributes_takeId, getAttribute]

@[simp] theorem kind_takeId (target source : Element) :
    (target.takeId source).kind = target.kind := by
  rw [Element.kind, getAttribute_takeId, Element.kind]

theorem getAttribute_mergeInto (success : source.mergeInto target = .ok merged) :
    merged.getAttribute = ((target.takeId source).takeKind source).getAttribute := by
  funext name
  rw [(mergeInto_eq_ok_iff.mp success).2, getAttribute, attributes_addClasses, getAttribute]

theorem kind_mergeInto (success : source.mergeInto target = .ok merged) :
    merged.kind = target.kind.or source.kind := by
  rw [Element.kind, getAttribute_mergeInto success]
  exact (kind_takeKind (target.takeId source) source).trans (by rw [kind_takeId])

theorem absorbs_of_mergeInto (success : source.mergeInto target = .ok merged) :
    merged.Absorbs source := by
  obtain ⟨agree, mergedEq⟩ := mergeInto_eq_ok_iff.mp success
  obtain ⟨sameTag, ids, kinds⟩ := conflict?_eq_none_iff.mp agree
  refine ⟨?_, ?_, ?_, ?_⟩
  · rw [tag_mergeInto success, sameTag]
  · rw [id_mergeInto success]
    exact or_eq_of_not_conflicting ids
  · rw [kind_mergeInto success]
    exact or_eq_of_not_conflicting kinds
  · intro name member
    by_cases named : name = ""
    · exact Or.inl named
    · rw [mergedEq]
      exact Or.inr (mem_classes_addClasses.mpr (Or.inr ⟨member, named⟩))

end SelectorTree.Element
