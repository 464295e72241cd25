import Mathlib.Data.List.Pairwise
import SelectorTree.Proofs.Synthesis.Deduplication

/-!
# Separated siblings

With duplicates removed and no positions asked for, siblings with one key have
types that conflict: a new element comes in only if every sibling with its key
refuses it, and a `type` that is set stays.  A sibling without a `type` refuses
nothing, so it is the only one with its key.
-/

namespace SelectorTree

/-! ## Elements that cannot merge -/

/-- A comparable element with another `type` does not merge. -/
theorem Element.mergeInto_eq_error_of_comparable {source target : Element}
    (comparable : source.comparable target = true)
    (conflict : conflicting source.kind target.kind = true) :
    source.mergeInto target = .error .type := by
  simp only [Element.comparable, Bool.and_eq_true, beq_iff_eq] at comparable
  obtain ⟨⟨⟨sameTag, sameId⟩, _⟩, _⟩ := comparable
  have noConflict : conflicting source.id target.id = false := by
    rw [sameId]
    exact conflicting_self target.id
  simp [mergeInto, conflict?, sameTag, noConflict, conflict]

namespace Tree

/-- Whether the elements of two nodes have different keys or conflicting
types. -/
def Apart (tree : Tree) (left right : NodeId) : Prop :=
  ∀ data other, tree.element? left = some data → tree.element? right = some other →
    data.key = other.key → Element.conflicting data.kind other.kind = true

instance (tree : Tree) : Std.Symm tree.Apart where
  symm left right apart data other found foundOther sameKey := by
    rw [Element.conflicting_comm]
    exact apart other data foundOther found sameKey.symm

/-- Siblings that are comparable both have a `type`, and the two differ; so
neither of them merges into the other. -/
def Separated (tree : Tree) : Prop :=
  ∀ parent left right data other, left ∈ tree.elementChildren parent →
    right ∈ tree.elementChildren parent → left ≠ right →
    tree.element? left = some data → tree.element? right = some other →
    data.comparable other = true →
      (∃ kind otherKind, data.kind = some kind ∧ other.kind = some otherKind ∧
        kind ≠ otherKind) ∧ data.mergeInto other = .error .type

end Tree

namespace Builder

variable {before after builder : Builder} {parent : NodeId} {element : Element}

/-- The state of a run without positions: there are no fillers, and siblings are
apart. -/
structure Separated (builder : Builder) : Prop where
  unregistered : ∀ id, builder.fillers.contains id = false
  apart : ∀ parent, (builder.tree.elementChildren parent).Pairwise builder.tree.Apart

theorem separated_start : start.Separated where
  unregistered _ := rfl
  apart parent := by
    have distinct := (sound_start.linked.nodup_children parent).filter start.tree.isElement
    refine List.Pairwise.imp_of_mem ?_ distinct
    intro left right listed listedRight different
    have leftBody := eq_body_of_start (List.mem_filter.mp listed).2
    have rightBody := eq_body_of_start (List.mem_filter.mp listedRight).2
    exact absurd (leftBody.trans rightBody.symm) different

/-! ## Steps -/

/-- Elements that are apart stay so, since keys stay and a `type` stays. -/
theorem Preserved.apart (preserved : Preserved before after) {left right : NodeId}
    (isElement : before.tree.isElement left = true)
    (isElementRight : before.tree.isElement right = true)
    (apart : before.tree.Apart left right) : after.tree.Apart left right := by
  intro data other found foundOther sameKey
  obtain ⟨old, foundOld⟩ := Tree.isElement_iff.mp isElement
  obtain ⟨oldOther, foundOldOther⟩ := Tree.isElement_iff.mp isElementRight
  have sameKeyBefore : old.key = oldOther.key := by
    rw [← preserved.key_eq left old data foundOld found, sameKey,
      preserved.key_eq right oldOther other foundOldOther foundOther]
  obtain ⟨kind, otherKind, hasKind, hasOtherKind, different⟩ :=
    Element.conflicting_iff.mp (apart old oldOther foundOld foundOldOther sameKeyBefore)
  obtain ⟨_, foundData, keeps⟩ := preserved.element left old foundOld
  obtain ⟨_, foundDataOther, keepsOther⟩ := preserved.element right oldOther foundOldOther
  cases found.symm.trans foundData
  cases foundOther.symm.trans foundDataOther
  exact Element.conflicting_iff.mpr
    ⟨kind, otherKind, keeps.kind_eq kind hasKind, keepsOther.kind_eq otherKind hasOtherKind,
      different⟩

theorem Preserved.pairwise_apart (preserved : Preserved before after)
    (apart : (before.tree.elementChildren parent).Pairwise before.tree.Apart) :
    (before.tree.elementChildren parent).Pairwise after.tree.Apart := by
  refine apart.imp_of_mem ?_
  intro left right listed listedRight
  exact preserved.apart (List.mem_filter.mp listed).2 (List.mem_filter.mp listedRight).2

/-- Siblings stay apart if no element comes in. -/
theorem Separated.preserved (separated : before.Separated) (preserved : Preserved before after)
    (same : ∀ parent, after.tree.elementChildren parent = before.tree.elementChildren parent) :
    after.Separated where
  unregistered id := by rw [preserved.contains_eq, separated.unregistered]
  apart parent := by
    rw [same parent]
    exact preserved.pairwise_apart (separated.apart parent)

/-- An element that every sibling refuses is apart from all of them. -/
theorem Separated.append (separated : before.Separated) (sound : before.Sound)
    (host : before.Host parent)
    (untaken : (before.tree.elementChildren parent).find? (before.takes element) = none)
    (imported : Bool) : (before.append parent element imported).1.Separated := by
  have grown := grown_append sound.linked (sound.host_lt_size host) element imported
  have preserved := preserved_append sound host element imported
  refine ⟨fun id => by rw [preserved.contains_eq, separated.unregistered], fun other => ?_⟩
  have inside := preserved.pairwise_apart (separated.apart other)
  by_cases same : other = parent
  · subst same
    rw [elementChildren_of_appended grown sound.linked]
    refine List.pairwise_append.mpr ⟨inside, List.pairwise_singleton _ _, ?_⟩
    intro left listed right new data added foundLeft foundNew sameKey
    cases List.mem_singleton.mp new
    cases grown.element_node.symm.trans foundNew
    obtain ⟨old, found⟩ := Tree.isElement_iff.mp (List.mem_filter.mp listed).2
    have unchanged :=
      Tree.element?_congr (grown.payload?_of_lt left (Tree.lt_size_of_element? found))
    have same : old = data := Option.some.inj (found.symm.trans (unchanged.symm.trans foundLeft))
    subst same
    have refuses := List.find?_eq_none.mp untaken left listed
    rw [Element.conflicting_comm]
    by_contra agree
    apply refuses
    exact takes_iff.mpr ⟨separated.unregistered left, old, found, sameKey,
      Bool.eq_false_iff.mpr agree⟩
  · rw [grown.elementChildren_of_ne sound.linked same]
    exact inside

theorem Separated.place {options : Options} (separated : before.Separated) (sound : before.Sound)
    (host : before.Host parent) (removes : options.duplicates = .remove)
    (proper : element.ProperClasses) (imported : Bool) :
    (before.place options parent element imported).1.Separated := by
  cases found : (before.tree.elementChildren parent).find? (before.takes element) with
  | none =>
      rw [place_of_find_none sound host removes proper found]
      exact separated.append sound host found imported
  | some target =>
      obtain ⟨after, taken, placed⟩ := place_of_find sound host removes proper found imported
      have real := Sound.child_real host (List.mem_of_find?_eq_some found) sound.linked
        (separated.unregistered target)
      have rewritten := rewritten_of_tryMerge sound real taken.success
      rw [placed]
      exact separated.preserved (preserved_of_taken sound real taken)
        rewritten.shown.elementChildren_eq

theorem Separated.showContent (separated : before.Separated) (sound : before.Sound)
    {node? : Option NodeId} (real : ∀ id, node? = some id → before.Real id)
    (content : Option String) : (before.showContent node? content).Separated := by
  have preserved := preserved_showContent sound real content
  apply separated.preserved preserved
  cases node? with
  | none => exact fun _ => rfl
  | some target =>
      cases content with
      | none => exact fun _ => rfl
      | some content =>
          exact (rewritten_of_setContent sound (real target rfl)
            (stripQuotes content)).shown.elementChildren_eq

end Builder

/-! ## Runs -/

namespace Cursor

variable {options : Options} {cursor : Cursor} {action : Action} {actions : List Action}

theorem separated_perform (removes : options.duplicates = .remove) (sound : cursor.Sound)
    (proper : action.Proper) (unpositioned : action.Unpositioned)
    (separated : cursor.builder.Separated) :
    (cursor.perform options action).builder.Separated := by
  cases action with
  | beginRule => exact ⟨separated.unregistered, separated.apart⟩
  | skipAlternative => exact ⟨separated.unregistered, separated.apart⟩
  | beginAlternative => exact ⟨separated.unregistered, separated.apart⟩
  | write content => exact separated.showContent sound.builder sound.node content
  | place descriptor imported =>
      have noPosition : descriptor.position? = none := unpositioned
      simp only [perform, Builder.placeDescriptor, noPosition]
      exact separated.place sound.builder (sound.host_parentFor descriptor) removes
        proper.classes imported

theorem separated_performAll (removes : options.duplicates = .remove) (sound : cursor.Sound)
    (proper : ∀ action ∈ actions, action.Proper)
    (unpositioned : ∀ action ∈ actions, action.Unpositioned)
    (separated : cursor.builder.Separated) :
    (cursor.performAll options actions).builder.Separated := by
  induction actions generalizing cursor with
  | nil => exact separated
  | cons action rest ih =>
      have properFirst := proper action List.mem_cons_self
      have free := unpositioned action List.mem_cons_self
      apply ih (sound_perform options sound properFirst).1
      · exact fun later member => proper later (List.mem_cons_of_mem action member)
      · exact fun later member => unpositioned later (List.mem_cons_of_mem action member)
      · exact separated_perform removes sound properFirst free separated

end Cursor

/-! ## The finished tree -/

namespace Builder

variable {builder : Builder} {parent left right : NodeId}

/-- The body has no sibling, so of two siblings each is below the body. -/
theorem Sound.below_of_sibling (sound : builder.Sound)
    (listed : left ∈ builder.tree.elementChildren parent)
    (listedRight : right ∈ builder.tree.elementChildren parent) (different : left ≠ right) :
    builder.tree.Below builder.body left := by
  have linked := sound.linked
  have attached := linked.parent_of_mem (List.mem_of_mem_filter listed)
  have attachedRight := linked.parent_of_mem (List.mem_of_mem_filter listedRight)
  have reached : ∀ {id}, id ∈ builder.tree.elementChildren parent → id ≠ builder.body →
      builder.tree.Below builder.body id := by
    intro id member notBody
    refine (sound.attached id (List.mem_filter.mp member).2 notBody).resolve_right ?_
    rintro ⟨detached, _⟩
    rw [linked.parent_of_mem (List.mem_of_mem_filter member)] at detached
    cases detached
  apply reached listed
  rintro rfl
  obtain ⟨above, reachedAbove, attachedAbove⟩ :=
    Relation.TransGen.tail'_iff.mp (reached listedRight (Ne.symm different))
  cases attachedAbove.symm.trans attachedRight
  exact linked.not_below_self builder.body (.tail' reachedAbove attached)

theorem Separated.tree (separated : builder.Separated) (sound : builder.Sound) :
    builder.tree.Separated := by
  intro parent left right data other listed listedRight different found foundOther comparable
  have below := sound.below_of_sibling listed listedRight different
  have belowRight := sound.below_of_sibling listedRight listed (Ne.symm different)
  have proper := sound.classes left data below found
  have properOther := sound.classes right other belowRight foundOther
  have apart : builder.tree.Apart left right :=
    (separated.apart parent).forall listed listedRight different
  have conflict := apart data other found foundOther
    ((proper.comparable_iff properOther).mp comparable)
  exact ⟨Element.conflicting_iff.mp conflict,
    Element.mergeInto_eq_error_of_comparable comparable conflict⟩

end Builder

/-- Removing duplicates leaves no siblings that could be merged, as long as no
rule asks for a position. -/
theorem separated_synthesize {options : Options} {rules : List TreeRule}
    (removes : options.duplicates = .remove) (unpositioned : ∀ rule ∈ rules, rule.Unpositioned) :
    (synthesize options rules).tree.Separated := by
  have separated : (Cursor.after options (runActions rules)).builder.Separated :=
    Cursor.separated_performAll removes Cursor.sound_start
      (fun _ => proper_of_mem_runActions)
      (fun _ => unpositioned_of_mem_runActions unpositioned) Builder.separated_start
  rw [Cursor.builder_after_runActions] at separated
  exact separated.tree (Builder.sound_ofRules options rules)

/-- The rules `input`, `input[type=text]` and `input[type=radio]`.  The second
merges into the first element, the third cannot. -/
def inputRules : List TreeRule :=
  let input (tests : List AttributeSelector) : TreeRule :=
    ⟨[⟨⟨some (.name "input"), [], [], tests, [], none⟩, []⟩], none, false⟩
  [input [], input [⟨"type", some ⟨.equals, "text", false⟩⟩],
    input [⟨"type", some ⟨.equals, "radio", false⟩⟩]]

theorem separated_inputRules :
    (∀ rule ∈ inputRules, rule.Unpositioned) ∧
      (synthesize .standard inputRules).tree.elementChildren 1 = [2, 3] ∧
      ((synthesize .standard inputRules).tree.element? 2).any (fun data =>
        ((synthesize .standard inputRules).tree.element? 3).any data.comparable) = true ∧
      (synthesize .standard inputRules).tree.Separated := by
  have bare : ∀ rule ∈ inputRules, ∀ alternative ∈ rule.selectors,
      ∀ step ∈ alternative.chain, step.2.pseudoClasses = [] := by decide
  have unpositioned : ∀ rule ∈ inputRules, rule.Unpositioned :=
    fun rule listed => unpositioned_of_bare (bare rule listed)
  exact ⟨unpositioned, by decide, by decide, separated_synthesize rfl unpositioned⟩

end SelectorTree
