import SelectorTree.Proofs.Element.Describing
import SelectorTree.Proofs.Synthesis.Descriptors

/-!
# Described elements are accepted

Three functions look at tags, ids, classes and attributes: one builds the element of a
compound, one matches compounds, one compares elements.  They agree: wherever the element of
a coherent compound stands, the compound matches it, and without attributes to ask for it
matches every comparable element as well.
-/

namespace SelectorTree

namespace Compound

variable {compound : Compound} {combinator : Combinator} {descriptor : Descriptor}
  {left right : Element} {tree : Tree} {id : NodeId}

/-- A compound without attributes and pseudo-classes sees nothing of an element but its
key. -/
theorem accepts_congr_of_key (noAttributes : compound.attributes = [])
    (noClasses : compound.pseudoClasses = []) (same : left.key = right.key) :
    compound.accepts tree id left = compound.accepts tree id right := by
  have sameTag : Text.lower left.tag = Text.lower right.tag := congrArg Key.tag same
  have sameId : left.id = right.id := Element.id_eq_iff.mpr (congrArg Key.id same)
  have type : ∀ selector : TypeSelector, selector.accepts left = selector.accepts right := by
    intro selector
    cases selector with
    | name tag =>
        rw [TypeSelector.accepts, TypeSelector.accepts, Bool.eq_iff_iff, Text.sameLetters_iff,
          Text.sameLetters_iff, sameTag]
    | wildcard => rfl
  have classes : left.hasClass = right.hasClass := by
    funext name
    rw [Bool.eq_iff_iff, Element.hasClass_iff, Element.hasClass_iff, ← List.mem_toFinset,
      ← List.mem_toFinset]
    exact iff_of_eq (congrArg (name ∈ ·) (congrArg Key.classes same))
  simp only [accepts, noAttributes, noClasses, sameId, type, classes, List.all_nil]

/-- The element that is built from a coherent compound is matched by it at every node of
every tree; without attributes, so is every element that is comparable to it. -/
theorem selects_of_ofCompound
    (built : Descriptor.ofCompound compound combinator = .ok descriptor)
    (noClasses : compound.pseudoClasses = []) (named : compound.Named)
    (coherent : compound.Coherent) :
    (∀ (tree : Tree) (id : NodeId), tree.element? id = some descriptor.element →
        compound.selects tree id = true) ∧
      (compound.attributes = [] → ∀ (tree : Tree) (id : NodeId) (element : Element),
        tree.element? id = some element → element.classes.Nodup →
        (element.comparable descriptor.element = true ∨
          descriptor.element.comparable element = true) →
        compound.selects tree id = true) := by
  have proper := (Descriptor.proper_of_ofCompound built).classes
  obtain ⟨tag, position?, typed, noElement, -, rfl⟩ := Descriptor.ofCompound_eq_ok_iff.mp built
  have accepted : ∀ tree id,
      compound.accepts tree id (Descriptor.elementOf tag compound) = true :=
    accepts_elementOf typed named coherent noElement noClasses _
  refine ⟨?_, ?_⟩
  · intro tree id found
    rw [selects, found, Option.any_some]
    exact accepted tree id
  · intro noAttributes tree id element found distinct alike
    have same : element.key = (Descriptor.elementOf tag compound).key := by
      rcases alike with forward | backward
      · exact (Element.comparable_iff_of_nodup distinct proper.nodup).mp forward
      · exact ((Element.comparable_iff_of_nodup proper.nodup distinct).mp backward).symm
    rw [selects, found, Option.any_some, accepts_congr_of_key noAttributes noClasses same]
    exact accepted tree id

/-- The compound
`INPUT#q.wide.last[Type=Text i][rel~=next][lang|=en][src^=a][alt$=b i][title*=c][checked]`. -/
def searchField : Compound :=
  ⟨some (.name "INPUT"), ["q"], ["wide", "last"],
    [⟨"Type", some ⟨.equals, "Text", true⟩⟩, ⟨"rel", some ⟨.includes, "next", false⟩⟩,
      ⟨"lang", some ⟨.dashMatch, "en", false⟩⟩, ⟨"src", some ⟨.beginsWith, "a", false⟩⟩,
      ⟨"alt", some ⟨.endsWith, "b", true⟩⟩, ⟨"title", some ⟨.contains, "c", false⟩⟩,
      ⟨"checked", none⟩],
    [], none⟩

/-- The compound `#q.wide.last`. -/
def wideBlock : Compound := ⟨none, ["q"], ["wide", "last"], [], [], none⟩

/-- A tree with one `DIV` that has the classes of the block in another order. -/
def wideTree : Tree :=
  (Tree.empty.allocElement ⟨"DIV", some "q", ["last", "wide"], .empty, none, false⟩).1

theorem selects_searchField :
    searchField.selects
        (Tree.empty.allocElement (Descriptor.elementOf "INPUT" searchField)).1 1 = true ∧
      wideBlock.selects wideTree 1 = true := by
  have builtField : Descriptor.ofCompound searchField .child =
      .ok ⟨Descriptor.elementOf "INPUT" searchField, .child, none⟩ := rfl
  have builtBlock : Descriptor.ofCompound wideBlock .child =
      .ok ⟨Descriptor.elementOf "div" wideBlock, .child, none⟩ := rfl
  have field := selects_of_ofCompound builtField rfl ⟨by decide, by decide⟩
    ⟨by decide, by decide, by decide, by decide⟩
  have block := selects_of_ofCompound builtBlock rfl ⟨by decide, by decide⟩
    ⟨by decide, by decide, by decide, by decide⟩
  exact ⟨field.1 _ 1 rfl, block.2 rfl wideTree 1 _ rfl (by decide) (Or.inl (by decide))⟩

end Compound

end SelectorTree
