import Mathlib.Data.List.Find
import SelectorTree.Proofs.Element.Absorbing
import SelectorTree.Proofs.Synthesis.Accounting
import SelectorTree.Proofs.Synthesis.Positions
import SelectorTree.Proofs.Synthesis.Repetition

/-!
# Adding a descending rule again

A chain that only descends places every element below the one before it, so it disturbs none of
the levels above.  Once it is placed, each of its descriptors finds its element where it was
put, by position or as the first child that takes it, and the element lacks nothing.  Placing
the chain again only counts merges.
-/

namespace SelectorTree

namespace Builder

variable {before middle after : Builder} {options : Options} {parent other target : NodeId}
  {element : Element} {descriptor : Descriptor} {imported : Bool}

/-! ## Children that are left alone -/

/-- What decides where an element goes among the children of a node is as it was. -/
structure Undisturbed (before after : Builder) (parent : NodeId) : Prop where
  elementChildren_eq : after.tree.elementChildren parent = before.tree.elementChildren parent
  contains_eq : ∀ id ∈ before.tree.elementChildren parent,
    after.fillers.contains id = before.fillers.contains id
  resembles : ∀ id ∈ before.tree.elementChildren parent, ∀ data,
    before.tree.element? id = some data →
    ∃ changed, after.tree.element? id = some changed ∧ data.Resembles changed

theorem Undisturbed.refl (builder : Builder) (parent : NodeId) :
    Undisturbed builder builder parent :=
  ⟨rfl, fun _ _ => rfl, fun _ _ data found => ⟨data, found, .refl data⟩⟩

/-- The builder with another report. -/
def withReport (builder : Builder) (report : Report) : Builder := { builder with report }

@[simp] theorem withReport_withReport (builder : Builder) (first second : Report) :
    (builder.withReport first).withReport second = builder.withReport second := rfl

theorem undisturbed_withReport (builder : Builder) (report : Report) (parent : NodeId) :
    Undisturbed builder (builder.withReport report) parent :=
  ⟨rfl, fun _ _ => rfl, fun _ _ data found => ⟨data, found, .refl data⟩⟩

theorem Undisturbed.trans (first : Undisturbed before middle parent)
    (second : Undisturbed middle after parent) : Undisturbed before after parent := by
  have listed : ∀ id ∈ before.tree.elementChildren parent,
      id ∈ middle.tree.elementChildren parent := by
    intro id member
    rw [first.elementChildren_eq]
    exact member
  refine ⟨second.elementChildren_eq.trans first.elementChildren_eq, ?_, ?_⟩
  · intro id member
    rw [second.contains_eq id (listed id member), first.contains_eq id member]
  · intro id member data found
    obtain ⟨between, foundBetween, early⟩ := first.resembles id member data found
    obtain ⟨changed, foundAfter, late⟩ :=
      second.resembles id (listed id member) between foundBetween
    exact ⟨changed, foundAfter, early.trans late⟩

/-- Placing an element below one node leaves the children of all others alone. -/
theorem Outcome.undisturbed {result : Builder × NodeId}
    (outcome : Outcome before parent element imported result) (linked : before.tree.Linked)
    (different : other ≠ parent) : Undisturbed before result.1 other := by
  cases outcome with
  | @merged after target listed real success =>
      refine ⟨elementChildren_of_tryMerge other success, ?_, ?_⟩
      · obtain ⟨data, merged, -, -, rfl⟩ := tryMerge_eq_some_iff.mp success
        exact fun _ _ => rfl
      · intro id member data found
        have apart : target ≠ id := by
          rintro rfl
          have atParent := linked.parent_of_mem (List.mem_filter.mp listed).1
          have atOther := linked.parent_of_mem (List.mem_filter.mp member).1
          exact different (Option.some.inj (atOther.symm.trans atParent))
        obtain ⟨_, _, -, -, rfl⟩ := tryMerge_eq_some_iff.mp success
        exact ⟨data, (Tree.element?_setElement_of_ne apart _).trans found, .refl data⟩
  | @grown after graft atParent growth =>
      subst atParent
      have old : ∀ id ∈ before.tree.elementChildren other, id < before.tree.size :=
        fun id member => Tree.lt_size_of_isElement (List.mem_filter.mp member).2
      refine ⟨growth.elementChildren_of_ne linked different, ?_, ?_⟩
      · intro id member
        have kept : id ∉ graft.gone := by
          intro gone
          have listed := growth.mem_children_parent_before.mpr (Or.inr (Or.inl gone))
          have atParent := linked.parent_of_mem listed
          have atOther := linked.parent_of_mem (List.mem_filter.mp member).1
          exact different (Option.some.inj (atOther.symm.trans atParent))
        have inside := (growth.not_mem_lead_of_lt (old id member)).2
        rw [Bool.eq_iff_iff, growth.contains_iff]
        simp [inside, kept]
      · intro id member data found
        refine ⟨data, ?_, .refl data⟩
        rw [Tree.element?_congr (growth.payload?_of_lt id (old id member)), found]

theorem undisturbed_showContent (sound : before.Sound) {node? : Option NodeId}
    (real : ∀ id, node? = some id → before.Real id) (content : Option String)
    (parent : NodeId) : Undisturbed before (before.showContent node? content) parent := by
  cases node? with
  | none => exact .refl before parent
  | some target =>
      cases content with
      | none => exact .refl before parent
      | some content =>
          have rewritten := rewritten_of_setContent sound (real target rfl) (stripQuotes content)
          refine ⟨rewritten.shown.elementChildren_eq parent, fun _ _ => rfl, ?_⟩
          intro id _ data found
          by_cases same : id = target
          · subst same
            exact ⟨_, Tree.element?_setContent_self sound.linked found _,
              Element.resembles_withContent data _⟩
          · exact ⟨data, (rewritten.shown.element?_of_ne id same).trans found, .refl data⟩

/-! ## The child that a descriptor finds -/

/-- The child of a node that a descriptor goes to: the one at its position, or the first one
that takes its element. -/
def seek? (builder : Builder) (parent : NodeId) (descriptor : Descriptor) : Option NodeId :=
  match descriptor.position? with
  | none => (builder.tree.elementChildren parent).find? (builder.takes descriptor.element)
  | some position => builder.tree.probe parent position descriptor.element.tag

/-- A descriptor finds a child that lacks nothing. -/
structure Seated (builder : Builder) (parent : NodeId) (descriptor : Descriptor)
    (imported : Bool) (target : NodeId) : Prop where
  found : builder.seek? parent descriptor = some target
  unregistered : builder.fillers.contains target = false
  data : ∃ data, builder.tree.element? target = some data ∧
    data.Absorbs descriptor.element ∧ (imported = true → data.imported = true)

theorem mem_elementChildren_of_seek? (found : before.seek? parent descriptor = some target) :
    target ∈ before.tree.elementChildren parent := by
  rw [seek?] at found
  split at found
  · exact List.mem_of_find?_eq_some found
  · exact Tree.mem_elementChildren_of_probe found

section Undisturbed

variable (undisturbed : Undisturbed before after parent)

include undisturbed

theorem Undisturbed.takes_eq {id : NodeId} (listed : id ∈ before.tree.elementChildren parent) :
    after.takes element id = before.takes element id := by
  obtain ⟨data, found⟩ := Tree.isElement_iff.mp (List.mem_filter.mp listed).2
  obtain ⟨changed, foundAfter, resembles⟩ := undisturbed.resembles id listed data found
  simp [takes, undisturbed.contains_eq id listed, found, foundAfter, resembles.key_eq,
    resembles.sameKind]

theorem Undisturbed.siblingsAt_eq (position : Position) (tag : String) :
    after.tree.siblingsAt parent position tag = before.tree.siblingsAt parent position tag := by
  simp only [Tree.siblingsAt, Tree.countedChildren_eq, undisturbed.elementChildren_eq]
  refine congrArg _ (List.filter_congr fun id listed => ?_)
  obtain ⟨data, found⟩ := Tree.isElement_iff.mp (List.mem_filter.mp listed).2
  obtain ⟨changed, foundAfter, resembles⟩ := undisturbed.resembles id listed data found
  simp [Tree.counts, found, foundAfter, resembles.tag_eq]

theorem Undisturbed.seek?_eq (descriptor : Descriptor) :
    after.seek? parent descriptor = before.seek? parent descriptor := by
  rw [seek?, seek?]
  split
  · rw [undisturbed.elementChildren_eq]
    exact List.find?_congr fun id listed => undisturbed.takes_eq listed
  · rw [Tree.probe, Tree.probe, undisturbed.siblingsAt_eq]

theorem Undisturbed.seated (seated : before.Seated parent descriptor imported target) :
    after.Seated parent descriptor imported target := by
  have listed := mem_elementChildren_of_seek? seated.found
  obtain ⟨data, found, absorbs, marked⟩ := seated.data
  obtain ⟨changed, foundAfter, resembles⟩ := undisturbed.resembles target listed data found
  refine ⟨?_, ?_, changed, foundAfter, absorbs.keeps resembles.toKeeps,
    fun asked => resembles.imported (marked asked)⟩
  · rw [undisturbed.seek?_eq, seated.found]
  · rw [undisturbed.contains_eq target listed, seated.unregistered]

end Undisturbed

/-! ## Placing a descriptor -/

/-- The element that was placed has all that was asked for. -/
theorem Outcome.absorbs {result : Builder × NodeId}
    (outcome : Outcome before parent element imported result) :
    ∃ data, result.1.tree.element? result.2 = some data ∧ data.Absorbs element ∧
      (imported = true → data.imported = true) := by
  cases outcome with
  | merged listed real success =>
      obtain ⟨data, merged, found, mergedEq, rfl⟩ := tryMerge_eq_some_iff.mp success
      refine ⟨_, Tree.element?_setElement_self found _, ?_, fun asked => by simp [asked]⟩
      exact (Element.absorbs_of_mergeInto mergedEq).keeps (Element.keeps_markImported merged _)
  | grown atParent growth =>
      exact ⟨_, growth.element_node, ⟨(Element.absorbs_self element).tag, Or.inr rfl, Or.inr rfl,
        fun _ member => Or.inr member⟩, id⟩

/-- Merging an element into one that lacks nothing is only counted. -/
theorem tryMerge_of_absorbs {data : Element} (found : before.tree.element? target = some data)
    (absorbs : data.Absorbs element) (marked : imported = true → data.imported = true) :
    before.tryMerge element target imported =
      some { before with
        report := { before.report with merged := before.report.merged + 1 } } := by
  have importTaken : (data.imported || imported) = data.imported := by
    cases imported with
    | false => exact Bool.or_false _
    | true => rw [marked rfl, Bool.true_or]
  refine tryMerge_eq_some_iff.mpr ⟨data, data, found, absorbs.mergeInto_eq, ?_⟩
  rw [importTaken, Tree.setElement_self found]

end Builder

namespace Cursor

variable {options : Options} {cursor : Cursor} {descriptor : Descriptor} {imported : Bool}
  {target : NodeId}

/-- A descriptor finds the element that it has placed. -/
theorem seated_placeDescriptor (removes : options.duplicates = .remove)
    (fills : options.fill = .fill) (sound : cursor.Sound) (proper : descriptor.Proper)
    (imported : Bool) :
    (cursor.builder.placeDescriptor options cursor.node? descriptor imported).1.Seated
      (cursor.builder.parentFor descriptor cursor.node?) descriptor imported
      (cursor.builder.placeDescriptor options cursor.node? descriptor imported).2 := by
  have host := sound.host_parentFor descriptor
  have outcome := outcome_placeDescriptor options sound descriptor imported
  have real := (outcome.sound sound.builder host proper.classes).2.2.1
  refine ⟨?_, real.unregistered, outcome.absorbs⟩
  rw [Builder.seek?, Builder.placeDescriptor]
  cases asked : descriptor.position? with
  | none =>
      exact (Builder.settled_place sound.builder host removes proper.classes imported).2.first
  | some position =>
      have positive := proper.positive position asked
      have probed :=
        Builder.probe_placeAt descriptor.element sound.builder host positive options imported
      have enough : min position.index
          ((cursor.builder.tree.siblingsAt (cursor.builder.parentFor descriptor cursor.node?)
              position descriptor.element.tag).length +
            cursor.builder.gap options (cursor.builder.parentFor descriptor cursor.node?)
              descriptor.element position + 1) = position.index := by
        simp only [Builder.gap, fills]
        omega
      rwa [enough] at probed

/-- Placing a descriptor that finds an element without a lack is only counted. -/
theorem placeDescriptor_of_seated (removes : options.duplicates = .remove)
    (merges : options.mergeNth = .merge) (sound : cursor.Sound) (proper : descriptor.Proper)
    (seated : cursor.builder.Seated (cursor.builder.parentFor descriptor cursor.node?) descriptor
      imported target) :
    cursor.builder.placeDescriptor options cursor.node? descriptor imported =
      ({ cursor.builder with
          report :=
            { cursor.builder.report with merged := cursor.builder.report.merged + 1 } },
        target) := by
  obtain ⟨data, foundData, absorbs, marked⟩ := seated.data
  have merged := Builder.tryMerge_of_absorbs foundData absorbs marked
  have found := seated.found
  rw [Builder.seek?] at found
  rw [Builder.placeDescriptor]
  cases asked : descriptor.position? with
  | none =>
      simp only [asked] at found
      obtain ⟨after, taken, placed⟩ := Builder.place_of_find sound.builder
        (sound.host_parentFor descriptor) removes proper.classes found imported
      cases merged.symm.trans taken.success
      exact placed
  | some position =>
      simp only [asked] at found
      exact Builder.placeAt_of_merge found seated.unregistered merges merged

end Cursor

/-! ## Going down -/

namespace Builder

variable {before after : Builder} {parent : NodeId} {element : Element} {imported : Bool}
  {result : Builder × NodeId}

/-- The element that was placed is a child of the parent. -/
theorem Outcome.attached (outcome : Outcome before parent element imported result)
    (linked : before.tree.Linked) : result.1.tree.IsParent parent result.2 := by
  cases outcome with
  | merged listed real success =>
      obtain ⟨data, merged, -, -, rfl⟩ := tryMerge_eq_some_iff.mp success
      have attached := linked.parent_of_mem (List.mem_filter.mp listed).1
      simpa [Tree.IsParent] using attached
  | grown atParent growth => exact atParent ▸ growth.parent_of_new (Or.inl rfl)

/-- What the parent is below stays above it. -/
theorem Outcome.below_host (outcome : Outcome before parent element imported result)
    (sound : before.Sound) (host : before.Host parent) {top : NodeId}
    (below : before.tree.Below top parent) : result.1.tree.Below top parent := by
  cases outcome with
  | merged listed real success =>
      have atTarget := Sound.child_real host listed sound.linked real
      have shown := (rewritten_of_tryMerge sound atTarget success).shown
      exact (shown.below_iff sound.linked (sound.host_lt_size host)).mpr below
  | grown atParent growth =>
      subst atParent
      exact growth.below_of_below sound.linked (sound.gone_childless growth) below
        (sound.host_not_gone growth host)

/-- A chain that is followed downwards from a node finds its elements, and they lack
nothing. -/
inductive Rests (builder : Builder) (imported : Bool) :
    NodeId → List Descriptor → List NodeId → Prop where
  | nil {top} : Rests builder imported top [] []
  | cons {top target descriptor chain targets}
      (seated : builder.Seated top descriptor imported target)
      (lower : Rests builder imported target chain targets) :
      Rests builder imported top (descriptor :: chain) (target :: targets)

theorem Rests.undisturbed {chain : List Descriptor} {targets : List NodeId}
    (rests : before.Rests imported parent chain targets)
    (undisturbed : ∀ parent, Undisturbed before after parent) :
    after.Rests imported parent chain targets := by
  induction rests with
  | nil => exact .nil
  | cons seated _ ih => exact .cons ((undisturbed _).seated seated) ih

end Builder

namespace Cursor

variable {options : Options} {cursor : Cursor} {descriptor : Descriptor} {imported : Bool}
  {chain : List Descriptor} {targets : List NodeId}

/-- The node below which a chain goes on when it descends. -/
def seat (cursor : Cursor) : NodeId := cursor.node?.getD cursor.builder.body

theorem parentFor_of_descends (cursor : Cursor)
    (descends : descriptor.combinator.isSibling = false) :
    cursor.builder.parentFor descriptor cursor.node? = cursor.seat := by
  rw [seat]
  cases cursor.node? with
  | none => rfl
  | some previous => simp [Builder.parentFor, descends]

/-- The actions that place a chain. -/
def places (chain : List Descriptor) (imported : Bool) : List Action :=
  chain.map (.place · imported)

theorem resolved_places_cons (options : Options) (cursor : Cursor) (descriptor : Descriptor)
    (chain : List Descriptor) (imported : Bool) :
    cursor.resolved options (places (descriptor :: chain) imported) =
      (cursor.builder.placeDescriptor options cursor.node? descriptor imported).2 ::
        (cursor.perform options (.place descriptor imported)).resolved options
          (places chain imported) := rfl

theorem performAll_places_cons (options : Options) (cursor : Cursor) (descriptor : Descriptor)
    (chain : List Descriptor) (imported : Bool) :
    cursor.performAll options (places (descriptor :: chain) imported) =
      (cursor.perform options (.place descriptor imported)).performAll options
        (places chain imported) := rfl

theorem proper_of_mem_places (proper : ∀ descriptor ∈ chain, descriptor.Proper)
    (imported : Bool) : ∀ action ∈ places chain imported, action.Proper := by
  intro action listed
  obtain ⟨descriptor, inChain, rfl⟩ := List.mem_map.mp listed
  exact proper descriptor inChain

/-- A descending chain disturbs nothing above the node that it goes down from, and all its
descriptors find their elements in the end. -/
theorem rests_performAll (removes : options.duplicates = .remove) (fills : options.fill = .fill)
    (sound : cursor.Sound) (proper : ∀ descriptor ∈ chain, descriptor.Proper)
    (descends : ∀ descriptor ∈ chain, descriptor.combinator.isSibling = false)
    (imported : Bool) :
    (cursor.performAll options (places chain imported)).builder.Rests imported cursor.seat chain
        (cursor.resolved options (places chain imported)) ∧
      ∀ top, cursor.builder.tree.Below top cursor.seat →
        Builder.Undisturbed cursor.builder
          (cursor.performAll options (places chain imported)).builder top := by
  induction chain generalizing cursor with
  | nil => exact ⟨.nil, fun top _ => .refl cursor.builder top⟩
  | cons descriptor chain ih =>
      obtain ⟨properFirst, properRest⟩ := List.forall_mem_cons.mp proper
      obtain ⟨descendsFirst, descendsRest⟩ := List.forall_mem_cons.mp descends
      have properAction : Action.Proper (.place descriptor imported) := properFirst
      have soundNext := (sound_perform options sound properAction).1
      obtain ⟨lower, above⟩ := ih soundNext properRest descendsRest
      have seated := seated_placeDescriptor removes fills sound properFirst imported
      have outcome := outcome_placeDescriptor options sound descriptor imported
      have host := sound.host_parentFor descriptor
      rw [parentFor_of_descends cursor descendsFirst] at seated outcome host
      have linked := sound.builder.linked
      have attached := outcome.attached linked
      refine ⟨.cons ((above cursor.seat (.single attached)).seated seated) lower, ?_⟩
      intro top below
      have apart : top ≠ cursor.seat := by
        rintro rfl
        exact linked.not_below_self _ below
      have stillBelow := outcome.below_host sound.builder host below
      exact (outcome.undisturbed linked apart).trans (above top (.tail stillBelow attached))

/-- A chain whose elements are all found is only counted. -/
theorem performAll_of_rests (removes : options.duplicates = .remove)
    (merges : options.mergeNth = .merge) (sound : cursor.Sound)
    (proper : ∀ descriptor ∈ chain, descriptor.Proper)
    (descends : ∀ descriptor ∈ chain, descriptor.combinator.isSibling = false)
    (rests : cursor.builder.Rests imported cursor.seat chain targets) :
    cursor.resolved options (places chain imported) = targets ∧
      cursor.performAll options (places chain imported) =
        ⟨{ cursor.builder with
            report :=
              { cursor.builder.report with
                merged := cursor.builder.report.merged + chain.length } },
          targets.getLast?.or cursor.node?⟩ := by
  induction chain generalizing cursor targets with
  | nil =>
      cases rests
      exact ⟨rfl, rfl⟩
  | cons descriptor chain ih =>
      obtain ⟨properFirst, properRest⟩ := List.forall_mem_cons.mp proper
      obtain ⟨descendsFirst, descendsRest⟩ := List.forall_mem_cons.mp descends
      rcases rests with _ | @⟨_, target, _, _, targets, seated, lower⟩
      rw [← parentFor_of_descends cursor descendsFirst] at seated
      have placed := placeDescriptor_of_seated removes merges sound properFirst seated
      have next : cursor.perform options (.place descriptor imported) =
          ⟨{ cursor.builder with
              report :=
                { cursor.builder.report with merged := cursor.builder.report.merged + 1 } },
            some target⟩ := by
        rw [perform, placed]
      have properAction : Action.Proper (.place descriptor imported) := properFirst
      have soundNext := (sound_perform options sound properAction).1
      rw [next] at soundNext
      obtain ⟨resolvedRest, performedRest⟩ := ih soundNext properRest descendsRest
        (lower.undisturbed (Builder.undisturbed_withReport cursor.builder _))
      constructor
      · rw [resolved_places_cons, placed, next, resolvedRest]
      · rw [performAll_places_cons, next, performedRest]
        simp [Nat.add_assoc, Nat.add_comm 1, List.getLast?_cons]

/-- A chain ends at the node of its last descriptor. -/
theorem node?_performAll_places (options : Options) (cursor : Cursor) (chain : List Descriptor)
    (imported : Bool) :
    (cursor.performAll options (places chain imported)).node? =
      (cursor.resolved options (places chain imported)).getLast?.or cursor.node? := by
  induction chain generalizing cursor with
  | nil => rfl
  | cons descriptor chain ih =>
      rw [performAll_places_cons, ih, resolved_places_cons, List.getLast?_cons, Option.some_or,
        perform]
      cases (resolved options _ (places chain imported)).getLast? <;> rfl

theorem body_performAll {actions : List Action} (options : Options) (sound : cursor.Sound)
    (proper : ∀ action ∈ actions, action.Proper) :
    (cursor.performAll options actions).builder.body = cursor.builder.body := by
  refine relates_performAll (fun before after => after.body = before.body) (fun _ => True)
    (fun _ => rfl) (fun first second => second.trans first) ?_ sound proper (fun _ _ => trivial)
  exact fun soundCursor properAction _ =>
    (sound_perform options soundCursor properAction).2.body_eq

/-- A chain that is placed once more from the body, after its content was shown, resolves to the
nodes of the first time and ends where it ended. -/
theorem performAll_again (removes : options.duplicates = .remove) (fills : options.fill = .fill)
    (merges : options.mergeNth = .merge) (sound : cursor.Sound) (fresh : cursor.node? = none)
    (proper : ∀ descriptor ∈ chain, descriptor.Proper)
    (descends : ∀ descriptor ∈ chain, descriptor.combinator.isSibling = false)
    (imported : Bool) (content : Option String) (report : Report) :
    let placed := cursor.performAll options (places chain imported)
    let again : Cursor :=
      ⟨(placed.builder.showContent placed.node? content).withReport report, none⟩
    again.resolved options (places chain imported) =
        cursor.resolved options (places chain imported) ∧
      ∃ counted, again.performAll options (places chain imported) =
        ⟨again.builder.withReport counted, placed.node?⟩ := by
  intro placed again
  have properPlaces := proper_of_mem_places proper imported
  have placedSound : placed.Sound := (sound_performAll options sound properPlaces).1
  have shownSound := (Builder.sound_showContent placedSound.builder placedSound.node content).1
  have againSound : again.Sound := sound_none (shownSound.report report)
  have sameSeat : again.seat = cursor.seat := by
    have shownBody := (Builder.sound_showContent placedSound.builder placedSound.node content).2
    rw [seat, seat, fresh]
    exact shownBody.body_eq.trans (body_performAll options sound properPlaces)
  have rests := (rests_performAll removes fills sound proper descends imported).1
  have stays : again.builder.Rests imported again.seat chain
      (cursor.resolved options (places chain imported)) := by
    rw [sameSeat]
    have shown := Builder.undisturbed_showContent placedSound.builder placedSound.node content
    exact rests.undisturbed fun parent =>
      (shown parent).trans (Builder.undisturbed_withReport _ report parent)
  obtain ⟨resolvedAgain, performedAgain⟩ :=
    performAll_of_rests removes merges againSound proper descends stays
  have ends : placed.node? = _ := node?_performAll_places options cursor chain imported
  rw [fresh] at ends
  rw [← ends] at performedAgain
  exact ⟨resolvedAgain, _, performedAgain⟩

end Cursor

/-! ## Rules with one accepted alternative -/

/-- An alternative whose combinators lead from parents to what is below them. -/
def ComplexSelector.Descends (alternative : ComplexSelector) : Prop :=
  ∀ step ∈ alternative.outer, step.1.isSibling = false

instance (alternative : ComplexSelector) : Decidable alternative.Descends :=
  inferInstanceAs (Decidable (∀ step ∈ alternative.outer, step.1.isSibling = false))

theorem ComplexSelector.isSibling_of_mem_chainFrom {subject : Compound}
    {outer : List (Combinator × Compound)}
    (descends : ∀ step ∈ outer, step.1.isSibling = false) :
    ∀ step ∈ chainFrom subject outer, step.1.isSibling = false := by
  induction outer generalizing subject with
  | nil => simp [chainFrom, Combinator.isSibling]
  | cons first outer ih =>
      obtain ⟨descendsFirst, descendsRest⟩ := List.forall_mem_cons.mp descends
      simp only [chainFrom, List.forall_mem_append, List.forall_mem_singleton]
      exact ⟨ih descendsRest, descendsFirst⟩

theorem Descriptor.isSibling_of_mem_chain {alternative : ComplexSelector}
    {chain : List Descriptor} (built : Descriptor.chain alternative = .ok chain)
    (descends : alternative.Descends) :
    ∀ descriptor ∈ chain, descriptor.combinator.isSibling = false := by
  intro descriptor listed
  obtain ⟨step, inChain, single⟩ := exists_compound_of_mem (chain_eq_ok_iff.mp built) listed
  rw [combinator_of_ofCompound single]
  exact ComplexSelector.isSibling_of_mem_chainFrom descends step inChain

theorem Descriptor.proper_of_mem_chain {alternative : ComplexSelector}
    {chain : List Descriptor} (built : Descriptor.chain alternative = .ok chain) :
    ∀ descriptor ∈ chain, descriptor.Proper := by
  intro descriptor listed
  obtain ⟨step, -, single⟩ := exists_compound_of_mem (chain_eq_ok_iff.mp built) listed
  exact proper_of_ofCompound single

theorem exists_chain_of_accepted {alternative : ComplexSelector}
    (built : accepted alternative = true) : ∃ chain, Descriptor.chain alternative = .ok chain := by
  rw [accepted] at built
  cases result : Descriptor.chain alternative with
  | ok chain => exact ⟨chain, rfl⟩
  | error reason =>
      rw [result] at built
      cases built

theorem TreeRule.alternativeActions_of_refused (rule : TreeRule) {alternative : ComplexSelector}
    (refused : accepted alternative = false) :
    rule.alternativeActions alternative = [.skipAlternative] := by
  rw [alternativeActions]
  split
  · rfl
  · next built =>
      rw [accepted, built] at refused
      cases refused

/-- The actions of a rule with one accepted alternative. -/
theorem TreeRule.exists_actions_of_single {rule : TreeRule} {alternative : ComplexSelector}
    {chain : List Descriptor} (single : rule.selectors.filter accepted = [alternative])
    (built : Descriptor.chain alternative = .ok chain) :
    ∃ front back : SelectorList,
      (∀ other ∈ front, accepted other = false) ∧ (∀ other ∈ back, accepted other = false) ∧
      rule.actions =
        .beginRule :: (front.flatMap rule.alternativeActions ++
          (.beginAlternative :: (Cursor.places chain rule.imported ++
            (.write rule.content :: back.flatMap rule.alternativeActions)))) := by
  obtain ⟨front, back, split, frontRefused, -, backRefused⟩ := List.filter_eq_cons_iff.mp single
  rw [List.filter_eq_nil_iff] at backRefused
  refine ⟨front, back, fun other listed => Bool.eq_false_iff.mpr (frontRefused other listed),
    fun other listed => Bool.eq_false_iff.mpr (backRefused other listed), ?_⟩
  rw [actions, split, List.flatMap_append, List.flatMap_cons, alternativeActions, built]
  simp [Cursor.places]

namespace Cursor

variable {options : Options} {cursor : Cursor} {actions : List Action}

theorem resolved_append (options : Options) (cursor : Cursor) (early late : List Action) :
    cursor.resolved options (early ++ late) =
      cursor.resolved options early ++
        (cursor.performAll options early).resolved options late := by
  induction early generalizing cursor with
  | nil => rfl
  | cons action early ih =>
      cases action with
      | place descriptor imported => exact congrArg (_ :: ·) (ih _)
      | _ => exact ih _

/-- Alternatives that are refused only change the report. -/
theorem performAll_refused (options : Options) (cursor : Cursor) (rule : TreeRule)
    {alternatives : SelectorList}
    (refused : ∀ alternative ∈ alternatives, accepted alternative = false) :
    cursor.resolved options (alternatives.flatMap rule.alternativeActions) = [] ∧
      ∃ report, cursor.performAll options (alternatives.flatMap rule.alternativeActions) =
        ⟨cursor.builder.withReport report, cursor.node?⟩ := by
  induction alternatives generalizing cursor with
  | nil => exact ⟨rfl, cursor.builder.report, rfl⟩
  | cons alternative alternatives ih =>
      obtain ⟨first, rest⟩ := List.forall_mem_cons.mp refused
      rw [List.flatMap_cons, rule.alternativeActions_of_refused first, List.singleton_append]
      exact ih (cursor.perform options .skipAlternative) rest

end Cursor

namespace Builder

variable {options : Options} {before : Builder} {rule : TreeRule}
  {alternative : ComplexSelector} {chain : List Descriptor}

/-- A rule with one accepted alternative places its chain and shows its content where the chain
ends; the other alternatives change nothing but the report. -/
theorem addRule_of_single (options : Options) (before : Builder)
    (single : rule.selectors.filter accepted = [alternative])
    (built : Descriptor.chain alternative = .ok chain) :
    ∃ early late : Report,
      let begun : Cursor := ⟨before.withReport early, none⟩
      let placed := begun.performAll options (Cursor.places chain rule.imported)
      before.resolved options rule =
          begun.resolved options (Cursor.places chain rule.imported) ∧
        addRule options before rule =
          (placed.builder.showContent placed.node? rule.content).withReport late := by
  obtain ⟨front, back, frontRefused, backRefused, actions⟩ :=
    TreeRule.exists_actions_of_single single built
  obtain ⟨noneBefore, early, skipped⟩ := Cursor.performAll_refused options
    (Cursor.perform options ⟨before, none⟩ .beginRule) rule frontRefused
  refine ⟨{ early with alternatives := early.alternatives + 1 }, ?_⟩
  dsimp only
  generalize placedEq : Cursor.performAll options (Cursor.places chain rule.imported)
    ⟨before.withReport { early with alternatives := early.alternatives + 1 }, none⟩ =
      placed
  obtain ⟨noneAfter, late, skippedLater⟩ := Cursor.performAll_refused options
    (placed.perform options (.write rule.content)) rule backRefused
  refine ⟨late, ?_, ?_⟩
  · rw [resolved, actions]
    change Cursor.resolved options (Cursor.perform options ⟨before, none⟩ .beginRule) _ = _
    rw [Cursor.resolved_append, noneBefore, List.nil_append, skipped]
    change Cursor.resolved options
      ⟨before.withReport { early with alternatives := early.alternatives + 1 }, none⟩ _ = _
    rw [Cursor.resolved_append, placedEq]
    refine (congrArg (_ ++ ·) ?_).trans (List.append_nil _)
    exact noneAfter
  · have performed :
        (Cursor.performAll options rule.actions ⟨before, none⟩).builder =
          before.addRule options rule := Cursor.builder_performAll_rule rule
    rw [← performed, actions, Cursor.performAll_cons, Cursor.performAll_append, skipped,
      Cursor.performAll_cons, Cursor.performAll_append]
    change (Cursor.performAll options (_ :: _) (Cursor.performAll options
      (Cursor.places chain rule.imported)
      ⟨before.withReport { early with alternatives := early.alternatives + 1 }, none⟩)).builder = _
    rw [placedEq, Cursor.performAll_cons, skippedLater]
    rfl

/-- A content that was shown where it is asked for once more changes nothing. -/
theorem tree_showContent_again (sound : before.Sound) {node? : Option NodeId}
    (real : ∀ id, node? = some id → before.Real id) (content : Option String) {shown : Builder}
    (same : shown.tree = (before.showContent node? content).tree) :
    (shown.showContent node? content).tree = shown.tree := by
  cases node? with
  | none => rfl
  | some target =>
      cases content with
      | none => rfl
      | some content =>
          apply Tree.setContent_eq_self
          rw [same]
          exact Tree.displays_setContent sound.linked (real target rfl).element _
            (sound.texts target)

/-- Whatever rules were there before, adding a rule twice whose one accepted alternative only
descends does what adding it once does, if duplicates and positioned elements are merged and
gaps are filled: every compound resolves to the node of the first time. -/
theorem addRule_again (options : Options) (removes : options.duplicates = .remove)
    (fills : options.fill = .fill) (merges : options.mergeNth = .merge) (early : List TreeRule)
    (rule : TreeRule) (alternative : ComplexSelector)
    (single : rule.selectors.filter accepted = [alternative])
    (descends : alternative.Descends) :
    let before := ofRules options early
    let once := addRule options before rule
    (addRule options once rule).tree = once.tree ∧
      (addRule options once rule).fillers = once.fillers ∧
      once.resolved options rule = before.resolved options rule := by
  intro before once
  have member : alternative ∈ rule.selectors.filter accepted := by simp [single]
  obtain ⟨chain, built⟩ := exists_chain_of_accepted (List.mem_filter.mp member).2
  have proper := Descriptor.proper_of_mem_chain built
  have descending := Descriptor.isSibling_of_mem_chain built descends
  obtain ⟨early, late, resolvedFirst, addedFirst⟩ :=
    addRule_of_single options before single built
  obtain ⟨earlyAgain, lateAgain, resolvedAgain, addedAgain⟩ :=
    addRule_of_single options once single built
  have begunSound : Cursor.Sound ⟨before.withReport early, none⟩ :=
    Cursor.sound_none ((sound_ofRules options _).report early)
  obtain ⟨sameNodes, counted, performed⟩ := Cursor.performAll_again removes fills merges begunSound
    rfl proper descending rule.imported rule.content earlyAgain
  have placedSound := (Cursor.sound_performAll options begunSound
    (Cursor.proper_of_mem_places proper rule.imported)).1
  generalize Cursor.performAll options (Cursor.places chain rule.imported)
    ⟨before.withReport early, none⟩ = placed at *
  have onceEq : once = (placed.builder.showContent placed.node? rule.content).withReport late :=
    addedFirst
  rw [onceEq, withReport_withReport] at addedAgain resolvedAgain
  rw [performed] at addedAgain
  rw [onceEq, addedAgain]
  refine ⟨?_, ?_, ?_⟩
  · exact tree_showContent_again placedSound.builder placedSound.node rule.content rfl
  · exact fillers_showContent _ _ _
  · rw [resolvedAgain, sameNodes, resolvedFirst]

/-- The alternative `ul:nth-of-type(2) > li:last-child b`. -/
def nestedBold : ComplexSelector :=
  ⟨.ofType? (some (.name "b")),
    [(.descendant, ⟨some (.name "li"), [], [], [], [⟨"last-child", none⟩], none⟩),
      (.child, ⟨some (.name "ul"), [], [], [], [⟨"nth-of-type", some (.formula ⟨0, 2⟩)⟩], none⟩)]⟩

/-- The rule `*, ul:nth-of-type(2) > li:last-child b` with a content. -/
def nestedBoldRule : TreeRule :=
  ⟨[⟨.ofType? (some .wildcard), []⟩, nestedBold], some "bold", true⟩

/-- The second list stands behind that of another rule, and its last item holds the bold element.
Added again, the rule resolves to the same three elements, and the body keeps its five children. -/
theorem addRule_again_nestedBold :
    Options.standard.duplicates = .remove ∧ Options.standard.fill = .fill ∧
      Options.standard.mergeNth = .merge ∧
      nestedBoldRule.selectors.filter accepted = [nestedBold] ∧ nestedBold.Descends ∧
      let once := ofRules .standard [thirdItemRule, listItemRule, nestedBoldRule]
      (addRule .standard once nestedBoldRule).tree = once.tree ∧
        (addRule .standard once nestedBoldRule).fillers = once.fillers ∧
        once.resolved .standard nestedBoldRule =
          (ofRules .standard [thirdItemRule, listItemRule]).resolved .standard nestedBoldRule ∧
        once.resolved .standard nestedBoldRule = [9, 10, 11] ∧
        (addRule .standard once nestedBoldRule).tree.children 1 = [3, 4, 2, 6, 9] ∧
        (addRule .standard once nestedBoldRule).fillers.nodes = [4, 3] := by
  have single : nestedBoldRule.selectors.filter accepted = [nestedBold] := by decide
  have descends : nestedBold.Descends := by decide
  obtain ⟨sameTree, sameFillers, sameNodes⟩ := addRule_again .standard rfl rfl rfl
    [thirdItemRule, listItemRule] nestedBoldRule nestedBold single descends
  have nodes : (ofRules .standard [thirdItemRule, listItemRule]).resolved .standard
      nestedBoldRule = [9, 10, 11] := by decide +kernel
  have children : (ofRules .standard [thirdItemRule, listItemRule, nestedBoldRule]).tree.children
      1 = [3, 4, 2, 6, 9] := by decide +kernel
  have fillers : (ofRules .standard
      [thirdItemRule, listItemRule, nestedBoldRule]).fillers.nodes = [4, 3] := by decide +kernel
  exact ⟨rfl, rfl, rfl, single, descends, sameTree, sameFillers, sameNodes,
    sameNodes.trans nodes, (congrArg (Tree.children · 1) sameTree).trans children,
    (congrArg Fillers.nodes sameFillers).trans fillers⟩

end Builder

end SelectorTree
