import SelectorTree.Proofs.Synthesis.Frame
import SelectorTree.Proofs.Synthesis.Runs

/-!
# One element alone

An alternative of one compound that asks for no position finds no element to merge
with in the tree that building starts from.  Its element becomes the only one, and shows
the content of its rule.
-/

namespace SelectorTree

variable {options : Options} {descriptor : Descriptor} {alternative : ComplexSelector}
  {imported : Bool}

/-- There is one element below the body; it has a tag, and shows a content and nothing
else. -/
def Synthesis.IsSingle (synthesis : Synthesis) (tag content : String) : Prop :=
  ∃ id data, synthesis.tree.children synthesis.body = [id] ∧
    synthesis.tree.elementChildren id = [] ∧ synthesis.tree.element? id = some data ∧
    data.tag = tag ∧ synthesis.tree.Holds id data (some content)

namespace Builder

theorem place_of_childless {builder : Builder} {parent : NodeId} {element : Element}
    (childless : builder.tree.elementChildren parent = []) :
    builder.place options parent element imported = builder.append parent element imported := by
  rw [place]
  split
  · rfl
  · simp [duplicates, childless, mergeFirst]

end Builder

theorem Tree.Holds.content_unique {tree : Tree} {id : NodeId} {data : Element}
    {first second : String} (holds : tree.Holds id data (some first))
    (again : tree.Holds id data (some second)) : first = second := by
  have shown := holds.texts.symm.trans again.texts
  have value := holds.value.symm.trans again.value
  cases kind : (ElementKind.ofTag data.tag).attribute? with
  | some name =>
      have inSlot := (holds.attributes name).symm.trans (again.attributes name)
      rw [kind, if_pos rfl, if_pos rfl] at inSlot
      exact Option.some.inj inSlot
  | none =>
      cases tagKind : ElementKind.ofTag data.tag <;> rw [tagKind] at kind shown value
      case select =>
        rw [if_pos rfl, if_pos rfl] at value
        exact Option.some.inj value
      case other =>
        exact (List.cons.inj shown).1
      all_goals cases kind

theorem Synthesis.IsSingle.content_unique {synthesis : Synthesis} {tag first second : String}
    (single : synthesis.IsSingle tag first) (again : synthesis.IsSingle tag second) :
    first = second := by
  obtain ⟨id, data, children, -, found, -, holds⟩ := single
  obtain ⟨other, otherData, otherChildren, -, otherFound, -, otherHolds⟩ := again
  cases children.symm.trans otherChildren
  cases found.symm.trans otherFound
  exact holds.content_unique otherHolds

namespace Builder

variable {before after : Builder} {graft : Graft} {tag : String}

/-- A bare element that came in as the only child of the body shows a content and nothing
else. -/
theorem isSingle_of_grown (growth : Grown before after (.ofTag tag) imported graft)
    (listed : after.tree.children after.body = [graft.node])
    (bare : after.tree.children graft.node = []) (different : after.body ≠ graft.node)
    (content : String) :
    (after.edit (·.setContent graft.node content)).finish.IsSingle (Text.lower tag) content := by
  have holds : after.tree.Holds graft.node { Element.ofTag tag with imported } none :=
    ⟨fun name => (ite_self _).symm, (ite_self _).symm, by simp [Tree.texts, bare]⟩
  have shown := Tree.shown_setContent growth.linked growth.element_node content
  refine ⟨graft.node, _, (shown.children_of_ne _ different).trans listed, ?_,
    Tree.element?_setContent_self growth.linked growth.element_node content, ?_,
    holds.setContent growth.linked growth.element_node content⟩
  · refine (shown.elementChildren_eq _).trans ?_
    rw [Tree.elementChildren, bare]
    rfl
  · rw [Element.tag_withContent]
    rfl

theorem isSingle_append (linked : before.tree.Linked) (allocated : before.body < before.tree.size)
    (childless : before.tree.children before.body = []) (tag content : String) (imported : Bool) :
    let placed := before.append before.body (Element.ofTag tag) imported
    (placed.1.edit (·.setContent placed.2 content)).finish.IsSingle (Text.lower tag) content := by
  have growth := grown_append linked allocated (Element.ofTag tag) imported
  have listed := children_append linked allocated (Element.ofTag tag) imported
  rw [childless] at listed
  exact isSingle_of_grown growth listed (growth.children_of_new allocated (Nat.le_refl _))
    (Nat.ne_of_lt allocated) content

end Builder

theorem isSingle_synthesize (options : Options) (tag content : String) (imported : Bool) :
    (synthesize options
      [⟨[⟨.ofType? (some (.name tag)), []⟩], some content, imported⟩]).IsSingle (Text.lower tag)
        (stripQuotes content) := by
  have described : Descriptor.chain ⟨.ofType? (some (.name tag)), []⟩ =
      .ok [⟨.ofTag tag, .descendant, none⟩] := rfl
  let counted : Builder := { Builder.start with report := ⟨1, 1, 0, 0, 0, 0⟩ }
  have placed : counted.place options counted.body (.ofTag tag) imported =
      counted.append counted.body (.ofTag tag) imported := Builder.place_of_childless rfl
  have single := @Builder.isSingle_append counted Builder.sound_start.linked (by decide) rfl tag
    (stripQuotes content) imported
  have built : synthesize options [⟨[⟨.ofType? (some (.name tag)), []⟩], some content, imported⟩] =
      (((counted.place options counted.body (.ofTag tag) imported).1.edit
        (·.setContent (counted.place options counted.body (.ofTag tag) imported).2
          (stripQuotes content)))).finish := by
    simp only [synthesize, List.foldl_cons, List.foldl_nil, Builder.addRule,
      Builder.addAlternative, described]
    rfl
  rw [built, placed]
  exact single

end SelectorTree
