import SelectorTree.Proofs.Synthesis.Positions

/-!
# Rules that claim slots of the body

A rule may ask for a position among all children of the body.  If no two rules
ask for the same, then each gets its slot in whatever order they come, and
fillers hold the slots that nobody claims.
-/

namespace SelectorTree

/-- A compound that asks for a position among all children, counted from a
side, and what a rule says about it. -/
structure Request (side : Side) where
  compound : Compound
  content : Option String
  imported : Bool
  element : Element
  index : Nat
  built : Descriptor.ofCompound compound .descendant =
    .ok ⟨element, .descendant, some ⟨side, .anyTag, index⟩⟩

namespace Request

variable {side : Side} (request : Request side)

/-- The rule that makes a request and nothing else. -/
def rule : TreeRule := ⟨[⟨request.compound, []⟩], request.content, request.imported⟩

def position : Position := ⟨side, .anyTag, request.index⟩

@[simp] theorem side_position : request.position.side = side := rfl

@[simp] theorem scope_position : request.position.scope = .anyTag := rfl

@[simp] theorem index_position : request.position.index = request.index := rfl

/-- The element that a request puts into its slot, with its content. -/
def data : Element :=
  let placed := { request.element with imported := request.imported }
  match request.content with
  | none => placed
  | some content => placed.withContent (stripQuotes content)

/-- The texts below the element of a request. -/
def texts : List String :=
  match request.content with
  | none => []
  | some content =>
      if (ElementKind.ofTag request.element.tag).usesText = true then [stripQuotes content] else []

/-- The same request, with nothing to show. -/
def withoutContent : Request side := { request with content := none }

theorem proper : request.element.ProperClasses :=
  (Descriptor.proper_of_ofCompound request.built).classes

theorem index_pos : 0 < request.index :=
  (Descriptor.proper_of_ofCompound request.built).positive _ rfl

theorem chain_eq :
    Descriptor.chain ⟨request.compound, []⟩ =
      .ok [⟨request.element, .descendant, some request.position⟩] :=
  Descriptor.chain_eq_ok_iff.mpr (.cons request.built .nil)

/-- Nothing is special about requests: rules with one compound each, accepted
with a position among all children from one side, are the rules of some. -/
theorem exists_of_rules {rules : List TreeRule}
    (single : ∀ rule ∈ rules, ∃ compound descriptor position,
      rule.selectors = [⟨compound, []⟩] ∧
        Descriptor.chain ⟨compound, []⟩ = .ok [descriptor] ∧
        descriptor.position? = some position ∧ position.side = side ∧ position.scope = .anyTag) :
    ∃ requests : List (Request side), requests.map rule = rules := by
  induction rules with
  | nil => exact ⟨[], rfl⟩
  | cons first rest ih =>
      obtain ⟨compound, descriptor, position, selectors, accepted, asked, sameSide, anyTag⟩ :=
        single first List.mem_cons_self
      obtain ⟨requests, same⟩ := ih fun rule member => single rule (List.mem_cons_of_mem _ member)
      obtain ⟨built, -⟩ := List.forall₂_cons.mp (Descriptor.chain_eq_ok_iff.mp accepted)
      have combinator := Descriptor.combinator_of_ofCompound built
      obtain ⟨element, _, _⟩ := descriptor
      obtain ⟨_, _, index⟩ := position
      cases combinator
      cases asked
      cases sameSide
      cases anyTag
      obtain ⟨_, content, imported⟩ := first
      cases selectors
      exact ⟨⟨compound, content, imported, element, index, built⟩ :: requests,
        congrArg _ same⟩

end Request

/-! ## Slots -/

/-- A list with an item at an index, behind enough others. -/
private theorem getElem?_claimed {α : Type} {items lead : List α} {item : α} {index : Nat}
    (positive : 0 < index) (gap : lead.length = index - 1 - items.length) (other : Nat) :
    (items.take (index - 1) ++ lead ++ item :: items.drop index)[other]? =
      if other + 1 = index then some item
      else if other < items.length ∨ index ≤ other then items[other]?
      else lead[other - items.length]? := by
  have front : (items.take (index - 1) ++ lead).length = index - 1 := by
    rw [List.length_append, List.length_take]
    omega
  rcases Nat.lt_trichotomy other (index - 1) with early | atIndex | late
  · rw [List.getElem?_append_left (by omega), if_neg (by omega)]
    by_cases inside : other < items.length
    · rw [if_pos (Or.inl inside), List.getElem?_append_left (by rw [List.length_take]; omega),
        List.getElem?_take_of_lt early]
    · rw [if_neg (by omega), List.getElem?_append_right (by rw [List.length_take]; omega),
        List.length_take, Nat.min_eq_right (by omega)]
  · rw [List.getElem?_append_right (by omega), if_pos (by omega), front, atIndex, Nat.sub_self]
    rfl
  · rw [List.getElem?_append_right (by omega), if_neg (by omega), if_pos (Or.inr (by omega)),
      front]
    obtain ⟨rest, behind⟩ : ∃ rest, other - (index - 1) = rest + 1 := ⟨other - index, by omega⟩
    rw [behind, List.getElem?_cons_succ, List.getElem?_drop]
    exact congrArg (items[·]?) (by omega)

namespace Builder

variable {builder before after : Builder} {options : Options} {side : Side}
  {requests : List (Request side)} {request : Request side}

/-- The element children of the body, read from a side. -/
def slots (builder : Builder) (side : Side) : List NodeId :=
  side.orient (builder.tree.elementChildren builder.body)

theorem siblingsAt_body (builder : Builder) (request : Request side) (tag : String) :
    builder.tree.siblingsAt builder.body request.position tag = builder.slots side := by
  rw [Tree.siblingsAt, Tree.countedChildren_eq]
  exact congrArg side.orient (List.filter_eq_self.mpr fun _ _ => rfl)

/-- The slots of a body and the requests that have claimed them. -/
structure Claimed (builder : Builder) (side : Side) (requests : List (Request side)) : Prop where
  sound : builder.Sound
  length_eq : (builder.slots side).length = (requests.map Request.index).foldl max 0
  taken : ∀ request ∈ requests, ∃ id, (builder.slots side)[request.index - 1]? = some id ∧
    builder.fillers.contains id = false ∧
    builder.tree.element? id = some request.data ∧ builder.tree.texts id = request.texts
  untaken : ∀ slot id, (builder.slots side)[slot]? = some id →
    (∀ request ∈ requests, request.index ≠ slot + 1) → builder.fillers.contains id = true

theorem claimed_start : start.Claimed side [] where
  sound := sound_start
  length_eq := by cases side <;> rfl
  taken _ member := absurd member List.not_mem_nil
  untaken slot id found := by cases side <;> cases slot <;> cases found

theorem Claimed.report (claimed : builder.Claimed side requests) (report : Report) :
    ({ builder with report } : Builder).Claimed side requests :=
  ⟨claimed.sound.report report, claimed.length_eq, claimed.taken, claimed.untaken⟩

/-- What growth below the body does to its slots. -/
theorem slots_of_grown {element : Element} {imported : Bool} {graft : Graft}
    (sound : before.Sound) (grown : Grown before after element imported graft)
    (atBody : graft.parent = before.body) :
    before.slots graft.side =
        graft.front.filter before.tree.isElement ++ graft.gone ++
          graft.back.filter before.tree.isElement ∧
      after.slots graft.side =
        graft.front.filter before.tree.isElement ++ graft.lead ++
          graft.node :: graft.back.filter before.tree.isElement := by
  rw [slots, slots, grown.body_eq, ← atBody]
  exact grown.elementChildren_parent sound.linked (sound.gone_elements grown)

theorem Sound.nodup_slots (sound : builder.Sound) (side : Side) : (builder.slots side).Nodup := by
  rw [slots, Side.nodup_orient]
  exact (sound.linked.nodup_children builder.body).filter _

/-- No node is in two slots. -/
theorem Sound.slot_inj (sound : builder.Sound) {first second : Nat} {id : NodeId}
    (atFirst : (builder.slots side)[first]? = some id)
    (atSecond : (builder.slots side)[second]? = some id) : first = second := by
  obtain ⟨inside, -⟩ := List.getElem?_eq_some_iff.mp atFirst
  exact (List.getElem?_inj inside (sound.nodup_slots side)).mp (atFirst.trans atSecond.symm)

/-! ## Taking a slot -/

/-- A new element has come into the slot with an index, behind as many fillers
as it needs; what went was in that slot. -/
structure TakesSlot (before after : Builder) (side : Side) (element : Element)
    (imported : Bool) (index : Nat) (graft : Graft) : Prop where
  growth : Grown before after element imported graft
  parent_eq : graft.parent = before.body
  slots_eq : after.slots side =
    (before.slots side).take (index - 1) ++ graft.lead ++
      graft.node :: (before.slots side).drop index
  gap_eq : graft.lead.length = index - 1 - (before.slots side).length
  gone_at : ∀ id ∈ graft.gone, (before.slots side)[index - 1]? = some id

section Taking

variable (sound : builder.Sound) (request)

include sound

theorem takesSlot_of_free (fills : options.fill = .fill)
    (free : builder.tree.probe builder.body request.position request.element.tag = none) :
    ∃ graft, TakesSlot builder
        (builder.placeAt options builder.body request.element request.position
          request.imported).1 side request.element request.imported request.index graft ∧
      (builder.placeAt options builder.body request.element request.position
        request.imported).2 = graft.node := by
  have linked := sound.linked
  have allocated := sound.body_lt_size
  have positive := request.index_pos
  have siblings := siblingsAt_body builder request request.element.tag
  have few : (builder.slots side).length < request.index := by
    rw [← siblings]
    exact (Tree.probe_eq_none_iff positive).mp free
  by_cases first : request.index = 1
  · obtain ⟨node, growth⟩ :=
      grown_placeAt_of_first linked allocated free first options request.imported
    have noSlots : builder.slots side = [] := List.length_eq_zero_iff.mp (by omega)
    have noBack : (side.orient (builder.tree.children builder.body)).filter
        builder.tree.isElement = [] := by
      rw [Side.filter_orient]
      exact noSlots
    have relisted := (slots_of_grown sound growth rfl).2
    simp only [Request.side_position, noBack, List.filter_nil] at relisted
    refine ⟨_, ⟨growth, rfl, ?_, by simp [first], by simp⟩, node⟩
    rw [relisted, noSlots, List.take_nil, List.drop_nil]
  · obtain ⟨lead, length, node, growth⟩ :=
      grown_placeAt_of_free linked allocated free first options request.imported
    obtain ⟨listed, relisted⟩ := slots_of_grown sound growth rfl
    simp only [Request.side_position, List.append_nil, List.filter_nil] at listed relisted
    refine ⟨_, ⟨growth, rfl, ?_, ?_, by simp⟩, node⟩
    · rw [relisted, ← listed, List.take_of_length_le (by omega),
        List.drop_of_length_le (by omega)]
    · rw [length, gap, fills]
      simp only [siblings, Request.index_position]

theorem takesSlot_of_filler {blocker : NodeId}
    (found : builder.tree.probe builder.body request.position request.element.tag = some blocker)
    (registered : builder.fillers.contains blocker = true) :
    ∃ graft, TakesSlot builder
        (builder.placeAt options builder.body request.element request.position
          request.imported).1 side request.element request.imported request.index graft ∧
      (builder.placeAt options builder.body request.element request.position
        request.imported).2 = graft.node := by
  obtain ⟨front, back, count, node, growth⟩ :=
    grown_placeAt_of_filler sound.linked sound.body_lt_size found registered options
      request.imported
  obtain ⟨listed, relisted⟩ := slots_of_grown sound growth rfl
  simp only [Request.side_position, List.append_nil] at listed relisted
  simp only [Request.scope_position, Request.index_position, Tree.countsAt_anyTag] at count
  have early : (builder.slots side).take (request.index - 1) =
      front.filter builder.tree.isElement := by
    rw [listed, List.append_assoc, List.take_left' (by omega)]
  have late : (builder.slots side).drop request.index =
      back.filter builder.tree.isElement := by
    rw [listed, List.drop_left' (by simpa using count)]
  have atSlot : (builder.slots side)[request.index - 1]? = some blocker := by
    rw [listed, List.append_assoc, List.getElem?_append_right (by omega)]
    simp [← count]
  have enough := (List.getElem?_eq_some_iff.mp atSlot).1
  refine ⟨_, ⟨growth, rfl, ?_, ?_, ?_⟩, node⟩
  · rw [relisted, early, late, List.append_nil]
  · simp only [List.length_nil]
    omega
  · intro id gone
    rw [List.mem_singleton.mp gone]
    exact atSlot

end Taking

section Placing

variable (claimed : builder.Claimed side requests)
  (fresh : ∀ other ∈ requests, other.index ≠ request.index)

include claimed fresh

/-- A request takes its slot: nobody but a filler can be there. -/
theorem Claimed.takesSlot (fills : options.fill = .fill) :
    ∃ graft, TakesSlot builder
        (builder.placeAt options builder.body request.element request.position
          request.imported).1 side request.element request.imported request.index graft ∧
      (builder.placeAt options builder.body request.element request.position
        request.imported).2 = graft.node := by
  have positive := request.index_pos
  cases found : builder.tree.probe builder.body request.position request.element.tag with
  | none => exact takesSlot_of_free request claimed.sound fills found
  | some blocker =>
      refine takesSlot_of_filler request claimed.sound found ?_
      rw [Tree.probe, siblingsAt_body, Request.index_position,
        if_neg (Nat.ne_of_gt positive)] at found
      refine claimed.untaken _ blocker found fun other member same => ?_
      exact fresh other member (by omega)

/-- After that the slot belongs to the request. -/
theorem Claimed.placeAt (fills : options.fill = .fill) :
    (builder.placeAt options builder.body request.element request.position
        request.imported).1.Claimed side (requests ++ [request.withoutContent]) ∧
      ((builder.placeAt options builder.body request.element request.position
          request.imported).1.slots side)[request.index - 1]? =
        some (builder.placeAt options builder.body request.element request.position
          request.imported).2 := by
  obtain ⟨graft, ⟨growth, atBody, relisted, gap, gone⟩, node⟩ := claimed.takesSlot fresh fills
  rw [node]
  generalize (builder.placeAt options builder.body request.element request.position
    request.imported).1 = after at *
  have sound := claimed.sound
  have host : builder.Host graft.parent := Or.inl atBody
  have positive := request.index_pos
  have lookup : ∀ slot, (after.slots side)[slot]? = _ := fun slot =>
    (congrArg (·[slot]?) relisted).trans (getElem?_claimed positive gap slot)
  have atIndex : (after.slots side)[request.index - 1]? = some graft.node := by
    rw [lookup, if_pos (by omega)]
  refine ⟨⟨sound_grown sound host growth request.proper, ?_, ?_, ?_⟩, atIndex⟩
  · rw [relisted]
    simp only [List.length_append, List.length_take, List.length_cons, List.length_drop, gap,
      claimed.length_eq, List.map_append, List.foldl_append, List.map_cons, List.map_nil,
      List.foldl_cons, List.foldl_nil]
    change _ = max _ request.index
    omega
  · intro other member
    rcases List.mem_append.mp member with old | last
    · obtain ⟨id, atSlot, unregistered, data, texts⟩ := claimed.taken other old
      have inside := (List.getElem?_eq_some_iff.mp atSlot).1
      have allocated := Tree.lt_size_of_element? data
      have different := fresh other old
      have otherPositive := other.index_pos
      refine ⟨id, ?_, growth.contains_eq_false allocated unregistered, ?_, ?_⟩
      · rw [lookup, if_neg (by omega), if_pos (Or.inl inside), atSlot]
      · rw [Tree.element?_congr (growth.payload?_of_lt id allocated), data]
      · rw [growth.texts_eq sound.linked (sound.gone_textless growth), texts]
    · rw [List.mem_singleton.mp last]
      refine ⟨graft.node, atIndex, (real_node_of_grown sound host growth).unregistered,
        growth.element_node, ?_⟩
      have new := ((growth.new_iff graft.node).mp (Or.inl rfl)).1
      rw [Tree.texts, growth.children_of_new (sound.host_lt_size host) new]
      rfl
  · intro slot id found unclaimed
    have notIndex : slot + 1 ≠ request.index := fun same =>
      unclaimed request.withoutContent (by simp) same.symm
    rw [lookup, if_neg notIndex] at found
    refine (growth.contains_iff id).mpr ?_
    split at found
    · right
      refine ⟨claimed.untaken slot id found fun other member => ?_, fun leaves => ?_⟩
      · exact unclaimed other (List.mem_append_left _ member)
      · have same := sound.slot_inj found (gone id leaves)
        omega
    · exact Or.inl (List.mem_of_getElem? found)

end Placing

/-- The content of a request completes its slot. -/
theorem Claimed.showContent {node : NodeId}
    (claimed : builder.Claimed side (requests ++ [request.withoutContent]))
    (fresh : ∀ other ∈ requests, other.index ≠ request.index)
    (atIndex : (builder.slots side)[request.index - 1]? = some node) :
    (builder.showContent (some node) request.content).Claimed side (requests ++ [request]) := by
  have sound := claimed.sound
  obtain ⟨_, atSlot, unregistered, data, texts⟩ :=
    claimed.taken request.withoutContent (by simp)
  cases atIndex.symm.trans atSlot
  have listed : node ∈ builder.tree.elementChildren builder.body :=
    (Side.mem_orient side _).mp (List.mem_of_getElem? atIndex)
  have real := Sound.child_real (Or.inl rfl) listed sound.linked unregistered
  have onlyReal : ∀ id, some node = some id → builder.Real id :=
    fun id same => Option.some.inj same ▸ real
  have stillSound := (sound_showContent sound onlyReal request.content).1
  have sameIndexes : (requests ++ [request]).map Request.index =
      (requests ++ [request.withoutContent]).map Request.index := by
    simp [Request.withoutContent]
  cases content : request.content with
  | none =>
      have unchanged : request.withoutContent = request := by
        rw [Request.withoutContent, ← content]
      rw [unchanged] at claimed
      exact claimed
  | some text =>
      rw [content] at stillSound
      have shown := Tree.shown_setContent sound.linked data (stripQuotes text)
      have sameSlots : (builder.showContent (some node) (some text)).slots side =
          builder.slots side :=
        congrArg side.orient (shown.elementChildren_eq builder.body)
      refine ⟨stillSound, ?_, ?_, ?_⟩
      · rw [sameSlots, sameIndexes, claimed.length_eq]
      · intro other member
        rcases List.mem_append.mp member with old | last
        · obtain ⟨id, otherSlot, otherReal, otherData, otherTexts⟩ :=
            claimed.taken other (List.mem_append_left _ old)
          have different : id ≠ node := by
            rintro rfl
            have same := sound.slot_inj atIndex otherSlot
            have positive := request.index_pos
            have otherPositive := other.index_pos
            exact fresh other old (by omega)
          refine ⟨id, by rw [sameSlots, otherSlot], otherReal, ?_, ?_⟩
          · exact (shown.element?_of_ne id different).trans otherData
          · exact (shown.texts_of_ne id different).trans otherTexts
        · rw [List.mem_singleton.mp last]
          refine ⟨node, by rw [sameSlots, atIndex], unregistered, ?_, ?_⟩
          · refine (Tree.element?_setContent_self sound.linked data _).trans ?_
            simp [Request.data, Request.withoutContent, content]
          · refine (Tree.texts_setContent_self sound.linked data _).trans ?_
            simp only [texts, Request.texts, Request.withoutContent, content, List.tail_nil]
            rfl
      · intro slot id found unclaimed
        rw [sameSlots] at found
        refine claimed.untaken slot id found fun other member => ?_
        rcases List.mem_append.mp member with old | last
        · exact unclaimed other (List.mem_append_left _ old)
        · rw [List.mem_singleton.mp last]
          exact unclaimed request (by simp)

/-! ## Rules -/

/-- A builder that has begun a rule with one accepted alternative. -/
def begun (builder : Builder) : Builder :=
  { builder with
    report :=
      { builder.report with
        rules := builder.report.rules + 1
        alternatives := builder.report.alternatives + 1 } }

/-- A rule that makes a request places it below the body and shows its
content. -/
theorem addRule_request (options : Options) (builder : Builder) (request : Request side) :
    builder.addRule options request.rule =
      let placed := builder.begun.placeAt options builder.body request.element request.position
        request.imported
      placed.1.showContent (some placed.2) request.content := by
  simp only [addRule, Request.rule, List.foldl_cons, List.foldl_nil, addAlternative,
    request.chain_eq]
  rfl

theorem Claimed.addRule (claimed : builder.Claimed side requests)
    (fresh : ∀ other ∈ requests, other.index ≠ request.index) (fills : options.fill = .fill) :
    (builder.addRule options request.rule).Claimed side (requests ++ [request]) := by
  rw [addRule_request]
  have begun : builder.begun.Claimed side requests := claimed.report _
  obtain ⟨placed, atIndex⟩ := begun.placeAt fresh fills
  exact placed.showContent fresh atIndex

theorem claimed_ofRules (options : Options) (fills : options.fill = .fill)
    (distinct : (requests.map Request.index).Nodup) :
    (ofRules options (requests.map Request.rule)).Claimed side requests := by
  induction requests using List.reverseRecOn with
  | nil => exact claimed_start
  | append_singleton early last ih =>
      rw [List.map_append, List.nodup_append] at distinct
      obtain ⟨distinctEarly, -, apart⟩ := distinct
      have fresh : ∀ other ∈ early, other.index ≠ last.index := fun other member =>
        apart other.index (List.mem_map_of_mem member) last.index (by simp)
      have added := (ih distinctEarly).addRule fresh fills
      rw [ofRules, List.map_append, List.foldl_append]
      exact added

/-! ## The order of rules -/

/-- What stands in a slot: an element and its texts, unless nothing or a filler
is there. -/
def realAt (builder : Builder) (side : Side) (slot : Nat) : Option (Element × List String) :=
  (builder.slots side)[slot]?.bind fun id =>
    if builder.fillers.contains id then none
    else (builder.tree.element? id).map (·, builder.tree.texts id)

theorem Claimed.realAt_of_mem (claimed : builder.Claimed side requests)
    (member : request ∈ requests) :
    builder.realAt side (request.index - 1) = some (request.data, request.texts) := by
  obtain ⟨id, atSlot, unregistered, data, texts⟩ := claimed.taken request member
  simp [realAt, atSlot, unregistered, data, texts]

theorem Claimed.realAt_eq_none (claimed : builder.Claimed side requests) {slot : Nat}
    (unclaimed : ∀ request ∈ requests, request.index ≠ slot + 1) :
    builder.realAt side slot = none := by
  rw [realAt]
  cases found : (builder.slots side)[slot]? with
  | none => rfl
  | some id => simp [claimed.untaken slot id found unclaimed]

/-- The same requests give the same elements at the same positions. -/
theorem Claimed.realAt_eq {other : Builder} {others : List (Request side)}
    (claimed : builder.Claimed side requests) (otherClaimed : other.Claimed side others)
    (same : ∀ request, request ∈ others ↔ request ∈ requests) (slot : Nat) :
    other.realAt side slot = builder.realAt side slot := by
  by_cases claims : ∃ request ∈ requests, request.index = slot + 1
  · obtain ⟨request, member, index⟩ := claims
    have atSlot : slot = request.index - 1 := by omega
    rw [atSlot, claimed.realAt_of_mem member,
      otherClaimed.realAt_of_mem ((same request).mpr member)]
  · have unclaimed : ∀ request ∈ requests, request.index ≠ slot + 1 :=
      fun request member index => claims ⟨request, member, index⟩
    rw [claimed.realAt_eq_none unclaimed,
      otherClaimed.realAt_eq_none fun request member =>
        unclaimed request ((same request).mp member)]

end Builder

open Builder in
/-- Rules that claim distinct slots get them, whatever their order: there are as
many slots as the last claimed one needs, each claimed slot has the element of
its rule, and fillers are in the others. -/
theorem slots_ofRules (options : Options) (side : Side) (requests : List (Request side))
    (fills : options.fill = .fill) (distinct : (requests.map Request.index).Nodup) :
    ((ofRules options (requests.map Request.rule)).slots side).length =
        (requests.map Request.index).foldl max 0 ∧
      (∀ request ∈ requests, ∃ id,
        ((ofRules options (requests.map Request.rule)).slots side)[request.index - 1]? = some id ∧
        (ofRules options (requests.map Request.rule)).fillers.contains id = false ∧
        (ofRules options (requests.map Request.rule)).tree.element? id = some request.data ∧
        (ofRules options (requests.map Request.rule)).tree.texts id = request.texts) ∧
      (∀ slot id, ((ofRules options (requests.map Request.rule)).slots side)[slot]? = some id →
        (∀ request ∈ requests, request.index ≠ slot + 1) →
        (ofRules options (requests.map Request.rule)).fillers.contains id = true) ∧
      ∀ others : List (Request side), others.Perm requests → ∀ slot,
        (ofRules options (others.map Request.rule)).realAt side slot =
          (ofRules options (requests.map Request.rule)).realAt side slot := by
  have claimed := claimed_ofRules options fills distinct
  refine ⟨claimed.length_eq, claimed.taken, claimed.untaken, ?_⟩
  intro others permuted
  have otherDistinct : (others.map Request.index).Nodup :=
    (permuted.map Request.index).nodup_iff.mpr distinct
  exact claimed.realAt_eq (claimed_ofRules options fills otherDistinct) fun _ => permuted.mem_iff

/-- The rule `li:nth-child(3)` with a content. -/
def thirdItemRequest : Request .start :=
  ⟨Builder.thirdItem, some "three", false, .ofTag "li", 3, by decide⟩

/-- The rule `p:first-child` without a content. -/
def firstParagraphRequest : Request .start :=
  ⟨⟨some (.name "p"), [], [], [], [⟨"first-child", none⟩], none⟩, none, false, .ofTag "p", 1,
    by decide⟩

open Builder in
theorem slots_third_first :
    Options.standard.fill = .fill ∧
      ([thirdItemRequest, firstParagraphRequest].map Request.index).Nodup ∧
      ((ofRules .standard ([thirdItemRequest, firstParagraphRequest].map Request.rule)).slots
        .start).length = 3 ∧
      (∀ slot,
        (ofRules .standard ([firstParagraphRequest, thirdItemRequest].map Request.rule)).realAt
            .start slot =
          (ofRules .standard ([thirdItemRequest, firstParagraphRequest].map Request.rule)).realAt
            .start slot) := by
  have fills : Options.standard.fill = .fill := rfl
  have distinct : ([thirdItemRequest, firstParagraphRequest].map Request.index).Nodup := by decide
  obtain ⟨length, -, -, permuted⟩ := slots_ofRules .standard .start _ fills distinct
  exact ⟨fills, distinct, length, permuted _ (.swap _ _ _)⟩

end SelectorTree
