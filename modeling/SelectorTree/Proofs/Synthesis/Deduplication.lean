import SelectorTree.Proofs.Synthesis.Succession

/-!
# Deduplication

With duplicates removed, an element that asks for no position goes to the first
child that takes it: one that is no filler, has the key of the element and no
other `type`.  A child that once was the first to take an element stays so
whatever else comes in without a position, for keys never change and a `type`
that is set is never unset.
-/

namespace SelectorTree

theorem findSome?_filter_eq {source target : Type} {keep takes : source → Bool}
    {result? : source → Option target} {items : List source}
    (taken : ∀ item ∈ items, takes item = (keep item && (result? item).isSome)) :
    (items.filter keep).findSome? result? = (items.find? takes).bind result? := by
  induction items with
  | nil => rfl
  | cons first rest ih =>
      have others := ih fun item member => taken item (List.mem_cons_of_mem first member)
      have atFirst := taken first List.mem_cons_self
      rw [List.find?_cons, atFirst]
      cases kept : keep first with
      | false => rw [List.filter_cons_of_neg (by simp [kept]), others, Bool.false_and]
      | true =>
          rw [List.filter_cons_of_pos kept, List.findSome?_cons, Bool.true_and]
          cases found : result? first with
          | none => exact others
          | some result => exact found.symm

namespace Builder

variable {builder before middle after : Builder} {options : Options} {parent target : NodeId}
  {element : Element} {imported : Bool}

/-! ## The child that takes an element -/

/-- Whether a node takes an element. -/
def takes (builder : Builder) (element : Element) (id : NodeId) : Bool :=
  !builder.fillers.contains id && (builder.tree.element? id).any fun data =>
    data.key = element.key && !Element.conflicting element.kind data.kind

theorem takes_iff {id : NodeId} :
    builder.takes element id = true ↔
      builder.fillers.contains id = false ∧
        ∃ data, builder.tree.element? id = some data ∧ data.key = element.key ∧
          Element.conflicting element.kind data.kind = false := by
  rw [takes]
  cases builder.tree.element? id <;> simp

/-- What has become of a builder whose node has taken an element. -/
structure Taken (before : Builder) (element : Element) (imported : Bool) (target : NodeId)
    (after : Builder) : Prop where
  success : before.tryMerge element target imported = some after
  data : ∃ data, before.tree.element? target = some data ∧ data.key = element.key ∧
    Element.conflicting element.kind data.kind = false ∧
    after.tree = before.tree.setElement target
      { data.takeKind element with imported := (data.takeKind element).imported || imported }

theorem exists_taken (takes : before.takes element target = true) (imported : Bool) :
    ∃ after, Taken before element imported target after := by
  obtain ⟨-, data, found, sameKey, agree⟩ := takes_iff.mp takes
  have merged : element.mergeInto data = .ok (data.takeKind element) :=
    (Element.mergeInto_eq_ok_iff_of_key sameKey).mpr ⟨agree, rfl⟩
  refine ⟨_, tryMerge_eq_some_iff.mpr ⟨data, _, found, merged, rfl⟩, ?_⟩
  exact ⟨data, found, sameKey, agree, rfl⟩

section Place

variable (sound : before.Sound) (host : before.Host parent)
  (removes : options.duplicates = .remove) (proper : element.ProperClasses)

include sound host removes proper

omit removes in
private theorem takes_eq {id : NodeId} (listed : id ∈ before.tree.elementChildren parent)
    (imported : Bool) :
    before.takes element id =
      ((!before.fillers.contains id &&
          (before.tree.element? id).any (·.comparable element)) &&
        ((before.tryMerge element id imported).map (·, id)).isSome) := by
  obtain ⟨data, found⟩ := Tree.isElement_iff.mp (List.mem_filter.mp listed).2
  cases registered : before.fillers.contains id with
  | true => simp [takes, registered]
  | false =>
      have real := Sound.child_real host listed sound.linked registered
      have properData := sound.classes id data real.below found
      have comparable : data.comparable element = decide (data.key = element.key) := by
        rw [Bool.eq_iff_iff, properData.comparable_iff proper, decide_eq_true_iff]
      simp only [takes, registered, found, Option.any_some, comparable, tryMerge, Option.bind_some]
      by_cases sameKey : data.key = element.key
      · cases clash : Element.conflicting element.kind data.kind with
        | false =>
            have merged := (Element.mergeInto_eq_ok_iff_of_key sameKey).mpr ⟨clash, rfl⟩
            simp [sameKey, merged]
        | true =>
            cases result : element.mergeInto data with
            | error reason => simp
            | ok merged =>
                have agree := ((Element.mergeInto_eq_ok_iff_of_key sameKey).mp result).1
                rw [clash] at agree
                cases agree
      · simp [sameKey]

omit removes in
theorem mergeFirst_duplicates (imported : Bool) :
    before.mergeFirst element imported (before.duplicates parent element) =
      ((before.tree.elementChildren parent).find? (before.takes element)).bind fun id =>
        (before.tryMerge element id imported).map (·, id) :=
  findSome?_filter_eq fun _ listed => takes_eq sound host proper listed imported

theorem place_of_find (found : (before.tree.elementChildren parent).find? (before.takes element) =
      some target) (imported : Bool) :
    ∃ after, Taken before element imported target after ∧
      before.place options parent element imported = (after, target) := by
  obtain ⟨after, taken⟩ := exists_taken (List.find?_some found) imported
  refine ⟨after, taken, ?_⟩
  simp only [place, removes, mergeFirst_duplicates sound host proper imported, found,
    Option.bind_some, taken.success, Option.map_some]

theorem place_of_find_none
    (untaken : (before.tree.elementChildren parent).find? (before.takes element) = none)
    (imported : Bool) :
    before.place options parent element imported = before.append parent element imported := by
  simp only [place, removes, mergeFirst_duplicates sound host proper imported, untaken,
    Option.bind_none]

end Place

/-! ## What stays without positions -/

/-- An extension in which every element keeps its key. -/
structure Preserved (before after : Builder) : Prop extends Extended before after where
  key_eq : ∀ id data changed, before.tree.element? id = some data →
    after.tree.element? id = some changed → changed.key = data.key

theorem preserved_report (before : Builder) (report : Report) :
    Preserved before { before with report } where
  toExtended := extended_report before report
  key_eq _ data changed found foundAfter := by
    cases found.symm.trans foundAfter
    rfl

theorem Preserved.trans (first : Preserved before middle) (second : Preserved middle after) :
    Preserved before after where
  toExtended := first.toExtended.trans second.toExtended
  key_eq id data changed found foundAfter := by
    obtain ⟨between, foundBetween, -⟩ := first.element id data found
    exact (second.key_eq id between changed foundBetween foundAfter).trans
      (first.key_eq id data between found foundBetween)

theorem preserved_of_taken (sound : before.Sound) (real : before.Real target)
    (taken : Taken before element imported target after) : Preserved before after where
  toExtended := extended_of_tryMerge sound real taken.success
  key_eq id data changed found foundAfter := by
    obtain ⟨old, foundOld, -, -, treeEq⟩ := taken.data
    rw [treeEq] at foundAfter
    by_cases same : id = target
    · subst same
      cases found.symm.trans foundOld
      rw [Tree.element?_setElement_self foundOld] at foundAfter
      cases foundAfter
      exact Element.key_takeKind
    · rw [Tree.element?_setElement_of_ne (Ne.symm same), found] at foundAfter
      cases foundAfter
      rfl

theorem preserved_append (sound : before.Sound) (host : before.Host parent) (element : Element)
    (imported : Bool) : Preserved before (before.append parent element imported).1 := by
  have grown := grown_append sound.linked (sound.host_lt_size host) element imported
  refine ⟨extended_of_last sound host grown ⟨rfl, rfl, rfl, rfl⟩, ?_⟩
  intro id data changed found foundAfter
  rw [Tree.element?_congr (grown.payload?_of_lt id (Tree.lt_size_of_element? found)),
    found] at foundAfter
  cases foundAfter
  rfl

theorem preserved_showContent (sound : before.Sound) {node? : Option NodeId}
    (real : ∀ id, node? = some id → before.Real id) (content : Option String) :
    Preserved before (before.showContent node? content) where
  toExtended := extended_showContent sound real content
  key_eq id data changed found foundAfter := by
    cases node? with
    | none =>
        cases found.symm.trans foundAfter
        rfl
    | some target =>
        cases content with
        | none =>
            cases found.symm.trans foundAfter
            rfl
        | some content =>
            have rewritten := rewritten_of_setContent sound (real target rfl) (stripQuotes content)
            by_cases same : id = target
            · subst same
              have shown := Tree.element?_setContent_self sound.linked found (stripQuotes content)
              cases shown.symm.trans foundAfter
              exact Element.key_withContent data _
            · have unchanged := (rewritten.shown.element?_of_ne id same).trans found
              cases unchanged.symm.trans foundAfter
              rfl

section Preserved

variable (preserved : Preserved before after)

include preserved

/-- A child that refuses an element refuses it ever after. -/
theorem Preserved.refuses {id : NodeId} (isElement : before.tree.isElement id = true)
    (refuses : before.takes element id = false) : after.takes element id = false := by
  refine Bool.eq_false_iff.mpr fun takes => ?_
  obtain ⟨unregistered, changed, foundAfter, sameKey, agree⟩ := takes_iff.mp takes
  obtain ⟨data, found⟩ := Tree.isElement_iff.mp isElement
  obtain ⟨_, foundChanged, keeps⟩ := preserved.element id data found
  cases foundAfter.symm.trans foundChanged
  have takesBefore : before.takes element id = true := by
    rw [preserved.contains_eq] at unregistered
    refine takes_iff.mpr ⟨unregistered, data, found, ?_, ?_⟩
    · rw [← preserved.key_eq id data changed found foundAfter]
      exact sameKey
    · cases own : data.kind with
      | none => cases element.kind <;> rfl
      | some kind =>
          rw [keeps.kind_eq kind own] at agree
          exact agree
  rw [refuses] at takesBefore
  cases takesBefore

theorem Preserved.elementChildren (linked : before.tree.Linked) (parent : NodeId) :
    before.tree.elementChildren parent <+: after.tree.elementChildren parent := by
  obtain ⟨more, longer⟩ := preserved.children parent
  refine ⟨more.filter after.tree.isElement, ?_⟩
  have same : (before.tree.children parent).filter before.tree.isElement =
      (before.tree.children parent).filter after.tree.isElement := by
    refine List.filter_congr fun id listed => ?_
    exact (preserved.isElement_eq id (linked.lt_size_of_mem listed)).symm
  rw [Tree.elementChildren, same, ← List.filter_append, longer, Tree.elementChildren]

/-- The first child that takes an element stays the first one. -/
theorem Preserved.find (linked : before.tree.Linked)
    (found : (before.tree.elementChildren parent).find? (before.takes element) = some target)
    (still : after.takes element target = true) :
    (after.tree.elementChildren parent).find? (after.takes element) = some target := by
  obtain ⟨-, front, back, split, refuse⟩ := List.find?_eq_some_iff_append.mp found
  obtain ⟨more, longer⟩ := preserved.elementChildren linked parent
  refine List.find?_eq_some_iff_append.mpr ⟨still, front, back ++ more, ?_, ?_⟩
  · rw [← longer, split, List.append_assoc, List.cons_append]
  · intro id inFront
    have listed : id ∈ before.tree.elementChildren parent := by
      rw [split]
      exact List.mem_append_left _ inFront
    have refuses : before.takes element id = false := by
      simpa only [Bool.not_eq_true'] using refuse id inFront
    rw [Bool.not_eq_true', preserved.refuses (List.mem_filter.mp listed).2 refuses]

end Preserved

/-! ## Settled elements -/

/-- A child has taken an element, and taking it again would change nothing. -/
structure Settled (builder : Builder) (parent : NodeId) (element : Element) (imported : Bool)
    (target : NodeId) : Prop where
  first : (builder.tree.elementChildren parent).find? (builder.takes element) = some target
  data : ∃ data, builder.tree.element? target = some data ∧
    (element.kind = none ∨ data.kind = element.kind) ∧ (imported = true → data.imported = true)

theorem Settled.preserved (settled : Settled before parent element imported target)
    (linked : before.tree.Linked) (preserved : Preserved before after) :
    Settled after parent element imported target := by
  obtain ⟨data, found, kinds, marked⟩ := settled.data
  obtain ⟨changed, foundAfter, keeps⟩ := preserved.element target data found
  have kindsAfter : element.kind = none ∨ changed.kind = element.kind := by
    cases asked : element.kind with
    | none => exact Or.inl rfl
    | some kind =>
        rw [asked] at kinds
        exact Or.inr (keeps.kind_eq kind (kinds.resolve_left (Option.some_ne_none kind)))
  refine ⟨preserved.find linked settled.first ?_, changed, foundAfter, kindsAfter,
    fun asked => keeps.imported (marked asked)⟩
  obtain ⟨unregistered, _, foundFirst, sameKey, -⟩ := takes_iff.mp (List.find?_some settled.first)
  cases found.symm.trans foundFirst
  refine takes_iff.mpr ⟨?_, changed, foundAfter, ?_, ?_⟩
  · rw [preserved.contains_eq, unregistered]
  · rw [preserved.key_eq target data changed found foundAfter, sameKey]
  · rcases kindsAfter with none | same
    · rw [none]
      rfl
    · rw [same]
      exact Element.conflicting_self _

theorem settled_of_taken (sound : before.Sound) (real : before.Real target)
    (found : (before.tree.elementChildren parent).find? (before.takes element) = some target)
    (taken : Taken before element imported target after) :
    Settled after parent element imported target := by
  have preserved := preserved_of_taken sound real taken
  obtain ⟨data, foundData, sameKey, agree, treeEq⟩ := taken.data
  have foundAfter : after.tree.element? target =
      some { data.takeKind element with
        imported := (data.takeKind element).imported || imported } := by
    rw [treeEq]
    exact Tree.element?_setElement_self foundData _
  have kinds : element.kind = none ∨ (data.takeKind element).kind = element.kind := by
    rw [Element.kind_takeKind]
    cases asked : element.kind with
    | none => exact Or.inl rfl
    | some kind =>
        right
        rw [asked] at agree
        cases own : data.kind with
        | none => rfl
        | some other =>
            rw [own] at agree
            have same : kind = other := by simpa [Element.conflicting] using agree
            rw [same]
            rfl
  refine ⟨preserved.find sound.linked found ?_, _, foundAfter, kinds, fun asked => by simp [asked]⟩
  refine takes_iff.mpr ⟨?_, _, foundAfter, Element.key_takeKind.trans sameKey, ?_⟩
  · rw [preserved.contains_eq, real.unregistered]
  · rcases kinds with none | same
    · rw [none]
      rfl
    · exact (congrArg (Element.conflicting element.kind) same).trans (Element.conflicting_self _)

theorem settled_append (sound : before.Sound) (host : before.Host parent)
    (untaken : (before.tree.elementChildren parent).find? (before.takes element) = none)
    (imported : Bool) :
    Settled (before.append parent element imported).1 parent element imported
      (before.append parent element imported).2 := by
  have grown := grown_append sound.linked (sound.host_lt_size host) element imported
  have preserved := preserved_append sound host element imported
  have fresh := (real_node_of_grown sound host grown).unregistered
  have children := elementChildren_of_appended grown sound.linked
  have refused : ((before.tree.elementChildren parent).find?
      ((before.append parent element imported).1.takes element)) = none := by
    refine List.find?_eq_none.mpr fun id listed takes => ?_
    have refuses := Bool.eq_false_iff.mpr (List.find?_eq_none.mp untaken id listed)
    rw [preserved.refuses (List.mem_filter.mp listed).2 refuses] at takes
    cases takes
  have takes : (before.append parent element imported).1.takes element before.tree.size = true :=
    takes_iff.mpr ⟨fresh, _, grown.element_node, rfl, Element.conflicting_self element.kind⟩
  refine ⟨?_, _, grown.element_node, Or.inr rfl, id⟩
  rw [children, List.find?_append, refused, Option.none_or]
  exact List.find?_cons_of_pos takes

section Again

variable (sound : before.Sound) (host : before.Host parent)
  (removes : options.duplicates = .remove) (proper : element.ProperClasses)

include sound host removes proper

theorem settled_place (imported : Bool) :
    Preserved before (before.place options parent element imported).1 ∧
      Settled (before.place options parent element imported).1 parent element imported
        (before.place options parent element imported).2 := by
  cases found : (before.tree.elementChildren parent).find? (before.takes element) with
  | none =>
      rw [place_of_find_none sound host removes proper found]
      exact ⟨preserved_append sound host element imported,
        settled_append sound host found imported⟩
  | some target =>
      obtain ⟨after, taken, placed⟩ := place_of_find sound host removes proper found imported
      have unregistered := (takes_iff.mp (List.find?_some found)).1
      have real := Sound.child_real host (List.mem_of_find?_eq_some found) sound.linked unregistered
      rw [placed]
      exact ⟨preserved_of_taken sound real taken, settled_of_taken sound real found taken⟩

/-- Placing a settled element once more only counts it. -/
theorem place_of_settled (settled : Settled before parent element imported target) :
    before.place options parent element imported =
      ({ before with report := { before.report with merged := before.report.merged + 1 } },
        target) := by
  obtain ⟨after, taken, placed⟩ :=
    place_of_find sound host removes proper settled.first imported
  obtain ⟨data, merged, found, mergedEq, rfl⟩ := tryMerge_eq_some_iff.mp taken.success
  obtain ⟨_, foundFirst, sameKey, -⟩ := (takes_iff.mp (List.find?_some settled.first)).2
  cases found.symm.trans foundFirst
  obtain ⟨_, foundSettled, kinds, marked⟩ := settled.data
  cases found.symm.trans foundSettled
  obtain ⟨-, rfl⟩ := (Element.mergeInto_eq_ok_iff_of_key sameKey).mp mergedEq
  have kindTaken : data.takeKind element = data := Element.takeKind_of_kind kinds
  have importTaken : (data.imported || imported) = data.imported := by
    cases imported with
    | false => exact Bool.or_false _
    | true => rw [marked rfl, Bool.true_or]
  rw [placed, kindTaken, importTaken, Tree.setElement_self found]

end Again

end Builder

/-! ## Runs -/

namespace Cursor

variable {options : Options} {cursor : Cursor} {action : Action} {actions : List Action}

theorem preserved_perform (removes : options.duplicates = .remove) (sound : cursor.Sound)
    (proper : action.Proper) (unpositioned : action.Unpositioned) :
    Builder.Preserved cursor.builder (cursor.perform options action).builder := by
  cases action with
  | beginRule => exact Builder.preserved_report cursor.builder _
  | skipAlternative => exact Builder.preserved_report cursor.builder _
  | beginAlternative => exact Builder.preserved_report cursor.builder _
  | write content => exact Builder.preserved_showContent sound.builder sound.node content
  | place descriptor imported =>
      have noPosition : descriptor.position? = none := unpositioned
      simp only [perform, Builder.placeDescriptor, noPosition]
      exact (Builder.settled_place sound.builder (sound.host_parentFor descriptor) removes
        proper.classes imported).1

theorem preserved_performAll (removes : options.duplicates = .remove) (sound : cursor.Sound)
    (proper : ∀ action ∈ actions, action.Proper)
    (unpositioned : ∀ action ∈ actions, action.Unpositioned) :
    Builder.Preserved cursor.builder (cursor.performAll options actions).builder := by
  refine relates_performAll Builder.Preserved Action.Unpositioned ?_ Builder.Preserved.trans ?_
    sound proper unpositioned
  · exact fun builder => Builder.preserved_report builder builder.report
  · exact fun soundCursor properAction free =>
      preserved_perform removes soundCursor properAction free

end Cursor

end SelectorTree
