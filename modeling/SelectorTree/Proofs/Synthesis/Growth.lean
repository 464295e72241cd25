import SelectorTree.Proofs.Synthesis.Sides

/-!
# Growth by one element

Whichever way an element that is not merged comes into the tree, it comes into
the children of one node, perhaps with fillers that lead up to it, perhaps in
place of a filler that goes.  `Grown` records everything that changes then;
later proofs read it and do not open the operations.
-/

namespace SelectorTree

/-- Where an element enters the children of a node.  Read from a side, it
stands behind `front` and the new fillers in `lead`, and before `back`; the
nodes in `gone` stood between `front` and `back` before. -/
structure Graft where
  parent : NodeId
  side : Side
  front : List NodeId
  gone : List NodeId
  lead : List NodeId
  node : NodeId
  back : List NodeId

namespace Builder

/-- A builder has placed a new element, and nothing else happened. -/
structure Grown (before after : Builder) (element : Element) (imported : Bool)
    (graft : Graft) : Prop where
  linked : after.tree.Linked
  body_eq : after.body = before.body
  listed : graft.side.orient (before.tree.children graft.parent) =
    graft.front ++ graft.gone ++ graft.back
  relisted : graft.side.orient (after.tree.children graft.parent) =
    graft.front ++ graft.lead ++ graft.node :: graft.back
  new_iff : ∀ id : Nat, id = graft.node ∨ id ∈ graft.lead ↔
    before.tree.size ≤ id ∧ id < after.tree.size
  children_of_ne : ∀ id, id ≠ graft.parent →
    after.tree.children id = before.tree.children id
  payload?_of_lt : ∀ id : Nat, id < before.tree.size →
    after.tree.payload? id = before.tree.payload? id
  element_node : after.tree.element? graft.node = some { element with imported }
  element_lead : ∀ id ∈ graft.lead, after.tree.element? id = some element.filler
  contains_iff : ∀ id, after.fillers.contains id = true ↔
    id ∈ graft.lead ∨ (before.fillers.contains id = true ∧ id ∉ graft.gone)
  gone_registered : ∀ id ∈ graft.gone, before.fillers.contains id = true
  report_eq : after.report = { before.report with created := before.report.created + 1 }

variable {builder before after : Builder} {parent filler node : NodeId} {element : Element}
  {imported : Bool} {side : Side} {front back : List NodeId} {graft : Graft}

/-- The size after a node and a run of fillers behind it were added. -/
theorem Grown.size_eq (grown : Grown before after element imported graft) (gap : Nat)
    (first : graft.node = before.tree.size)
    (run : ∀ id : Nat, id ∈ graft.lead ↔
      before.tree.size + 1 ≤ id ∧ id < before.tree.size + 1 + gap) :
    after.tree.size = before.tree.size + 1 + gap := by
  have new : ∀ id : Nat, id = before.tree.size ∨
      (before.tree.size + 1 ≤ id ∧ id < before.tree.size + 1 + gap) ↔
      before.tree.size ≤ id ∧ id < after.tree.size := by
    intro id
    rw [← run id, ← grown.new_iff id, first]
  have last := (new (before.tree.size + gap)).mp (by omega)
  have beyond := new (before.tree.size + 1 + gap)
  omega

/-! ## A new node among the children -/

theorem leaves_create (builder : Builder) (element : Element) (imported : Bool) :
    (builder.create element imported).1.tree.Leaves [(builder.create element imported).2] :=
  Tree.leaves_alloc builder.tree _

theorem linked_create (linked : builder.tree.Linked) (element : Element) (imported : Bool) :
    (builder.create element imported).1.tree.Linked :=
  linked.alloc _

theorem children_create (builder : Builder) (element : Element) (imported : Bool)
    (id : NodeId) :
    (builder.create element imported).1.tree.children id = builder.tree.children id :=
  Tree.children_alloc builder.tree _ id

theorem insertable_create (linked : builder.tree.Linked) (allocated : parent < builder.tree.size)
    (element : Element) (imported : Bool) :
    (builder.create element imported).1.tree.Insertable parent
      [(builder.create element imported).2] :=
  linked.insertable_alloc _ allocated

theorem grown_of_entered (change : Tree → Tree)
    (entered : Tree.Entered (builder.create element imported).1.tree
      (change (builder.create element imported).1.tree) parent
      [(builder.create element imported).2])
    (split : side.orient (builder.tree.children parent) = front ++ back)
    (joined : side.orient ((change (builder.create element imported).1.tree).children parent) =
      front ++ (builder.create element imported).2 :: back) :
    Grown builder ((builder.create element imported).1.edit change) element imported
      ⟨parent, side, front, [], [], (builder.create element imported).2, back⟩ where
  linked := entered.linked
  body_eq := rfl
  listed := by simpa using split
  relisted := by simpa [edit] using joined
  new_iff id := by
    have size : (change (builder.create element imported).1.tree).size =
        builder.tree.size + 1 := by
      rw [entered.size_eq]
      exact Tree.size_alloc builder.tree _
    change id = builder.tree.size ∨ id ∈ ([] : List Nat) ↔
      builder.tree.size ≤ id ∧ id < (change (builder.create element imported).1.tree).size
    simp only [size, List.not_mem_nil, or_false]
    omega
  children_of_ne id different :=
    (entered.children_of_ne id different).trans (Tree.children_alloc builder.tree _ id)
  payload?_of_lt id old := by
    refine (entered.payload?_eq id).trans ?_
    exact (Tree.payload?_alloc builder.tree _ id).trans (if_neg (Nat.ne_of_lt old))
  element_node := by
    refine Tree.element?_eq_some_iff.mpr ((entered.payload?_eq _).trans ?_)
    exact (Tree.payload?_alloc builder.tree _ _).trans (if_pos rfl)
  element_lead := by simp
  contains_iff id := by simp [edit, create]
  gone_registered := by simp
  report_eq := rfl

section Placing

variable (linked : builder.tree.Linked) (allocated : parent < builder.tree.size)

include linked allocated

theorem grown_insertAt (side : Side) (element : Element) (imported : Bool)
    {reference : NodeId}
    (split : side.orient (builder.tree.children parent) = front ++ reference :: back) :
    Grown builder (builder.insertAt parent reference side element imported).1 element imported
      ⟨parent, side, front, [], [], builder.tree.size, reference :: back⟩ := by
  have leaves := leaves_create builder element imported
  have stillLinked := linked_create linked element imported
  have insertable := insertable_create linked allocated element imported
  refine grown_of_entered (fun tree => insertNextTo tree parent _ reference side) ?_ split ?_
  · rw [Tree.insertNextTo_eq]
    exact Tree.entered_insertRunNextTo side leaves stillLinked insertable reference
  · rw [← children_create builder element imported] at split
    rw [Tree.insertNextTo_eq, Tree.orient_insertRunNextTo side leaves stillLinked insertable split]
    simp

theorem grown_insertNearest (side : Side) (element : Element) (imported : Bool) :
    Grown builder
      ((builder.create element imported).1.edit
        (insertNearest · parent (builder.create element imported).2 side)) element imported
      ⟨parent, side, [], [], [], builder.tree.size,
        side.orient (builder.tree.children parent)⟩ := by
  have leaves := leaves_create builder element imported
  have stillLinked := linked_create linked element imported
  have insertable := insertable_create linked allocated element imported
  refine grown_of_entered _ ?_ (List.nil_append _).symm ?_
  · exact Tree.entered_insertNearest side leaves stillLinked insertable
  · rw [Tree.orient_insertNearest side leaves stillLinked insertable, children_create]
    rfl

theorem grown_insertFarthest (side : Side) (element : Element) (imported : Bool) :
    Grown builder
      ((builder.create element imported).1.edit
        (insertFarthest · parent (builder.create element imported).2 side)) element imported
      ⟨parent, side, side.orient (builder.tree.children parent), [], [],
        builder.tree.size, []⟩ := by
  have leaves := leaves_create builder element imported
  have stillLinked := linked_create linked element imported
  have insertable := insertable_create linked allocated element imported
  refine grown_of_entered _ ?_ (List.append_nil _).symm ?_
  · exact Tree.entered_insertFarthest side leaves stillLinked insertable
  · rw [Tree.orient_insertFarthest side leaves stillLinked insertable, children_create]

theorem grown_append (element : Element) (imported : Bool) :
    Grown builder (builder.append parent element imported).1 element imported
      ⟨parent, .start, builder.tree.children parent, [], [], builder.tree.size, []⟩ :=
  grown_insertFarthest linked allocated .start element imported

theorem children_append (element : Element) (imported : Bool) :
    (builder.append parent element imported).1.tree.children parent =
      builder.tree.children parent ++ [builder.tree.size] := by
  simpa [Side.orient] using (grown_append linked allocated element imported).relisted

end Placing

theorem append_snd (builder : Builder) (parent : NodeId) (element : Element) (imported : Bool) :
    (builder.append parent element imported).2 = builder.tree.size := rfl

/-! ## Evicting a filler -/

theorem Grown.evict
    (grown : Grown before after element imported
      ⟨parent, side, front, [], [], node, filler :: back⟩)
    (registered : before.fillers.contains filler = true) :
    Grown before
      { after with
        tree := after.tree.removeChild parent filler
        fillers := after.fillers.unregister filler } element imported
      ⟨parent, side, front, [filler], [], node, back⟩ := by
  have relisted : side.orient (after.tree.children parent) =
      (front ++ [node]) ++ filler :: back := by
    simpa using grown.relisted
  refine ⟨grown.linked.removeChild parent filler, grown.body_eq, ?_, ?_, ?_, ?_, ?_, ?_, ?_, ?_,
    ?_, grown.report_eq⟩
  · simpa using grown.listed
  · simpa using Tree.orient_removeChild side grown.linked relisted
  · intro id
    simpa using grown.new_iff id
  · intro id different
    change (after.tree.removeChild parent filler).children id = _
    rw [Tree.children_removeChild, if_neg different]
    exact grown.children_of_ne id different
  · intro id lt
    exact (Tree.payload?_removeChild _ _ _ id).trans (grown.payload?_of_lt id lt)
  · exact (Tree.element?_congr (Tree.payload?_removeChild _ _ _ node)).trans grown.element_node
  · simp
  · intro id
    change (after.fillers.unregister filler).contains id = true ↔ _
    rw [Fillers.contains_unregister]
    have kept := grown.contains_iff id
    simp only [List.not_mem_nil, false_or, not_false_eq_true, and_true] at kept
    simp [← kept, and_comm]
  · simp [registered]

theorem grown_evict (linked : builder.tree.Linked) (allocated : parent < builder.tree.size)
    (side : Side) (element : Element) (imported : Bool)
    (registered : builder.fillers.contains filler = true)
    (split : side.orient (builder.tree.children parent) = front ++ filler :: back) :
    Grown builder (builder.evict parent filler side element imported).1 element imported
      ⟨parent, side, front, [filler], [], builder.tree.size, back⟩ :=
  (grown_insertAt linked allocated side element imported split).evict registered

/-! ## Filling a gap -/

/-- Detached fillers take the next indices, and no list changes. -/
structure Allocated (before after : Builder) (template : Element) (ids : List NodeId) : Prop where
  size_eq : after.tree.size = before.tree.size + ids.length
  parent_eq : ∀ id, after.tree.parent id = before.tree.parent id
  children_eq : ∀ id, after.tree.children id = before.tree.children id
  linked : before.tree.Linked → after.tree.Linked
  payload?_of_lt : ∀ id : Nat, id < before.tree.size →
    after.tree.payload? id = before.tree.payload? id
  payload?_of_mem : ∀ id ∈ ids, after.tree.payload? id = some (.element template)
  contains_iff : ∀ id, after.fillers.contains id = true ↔
    id ∈ ids ∨ before.fillers.contains id = true
  body_eq : after.body = before.body
  report_eq : after.report = before.report

theorem allocated_allocFillers (builder : Builder) (template : Element) (count : Nat) :
    Allocated builder (builder.allocFillers template count).1 template
      (List.range' builder.tree.size count) := by
  induction count generalizing builder with
  | zero => constructor <;> simp [allocFillers]
  | succ count ih =>
      let registered : Builder :=
        { builder with
          tree := (builder.tree.allocElement template).1
          fillers := builder.fillers.register builder.tree.size }
      have rest := ih registered
      have size : registered.tree.size = builder.tree.size + 1 :=
        Tree.size_alloc builder.tree _
      rw [size] at rest
      rw [List.range'_succ]
      refine ⟨?_, ?_, ?_, ?_, ?_, ?_, ?_, rest.body_eq, rest.report_eq⟩
      · refine rest.size_eq.trans ?_
        rw [size, List.length_cons]
        omega
      · exact fun id => (rest.parent_eq id).trans (Tree.parent_alloc builder.tree _ id)
      · exact fun id => (rest.children_eq id).trans (Tree.children_alloc builder.tree _ id)
      · exact fun linked => rest.linked (linked.alloc _)
      · intro id old
        refine (rest.payload?_of_lt id (by omega)).trans ?_
        exact (Tree.payload?_alloc builder.tree _ id).trans (if_neg (Nat.ne_of_lt old))
      · intro id member
        rcases List.mem_cons.mp member with rfl | later
        · refine (rest.payload?_of_lt _ (by omega)).trans ?_
          exact (Tree.payload?_alloc builder.tree _ _).trans (if_pos rfl)
        · exact rest.payload?_of_mem id later
      · intro id
        refine (rest.contains_iff id).trans ?_
        change _ ∨ (builder.fillers.register builder.tree.size).contains id = true ↔ _
        rw [Fillers.contains_register]
        simp only [Bool.or_eq_true, beq_iff_eq, List.mem_cons, List.mem_range'_1]
        tauto

theorem allocFillers_snd (builder : Builder) (template : Element) (count : Nat) :
    (builder.allocFillers template count).2 = List.range' builder.tree.size count := by
  induction count generalizing builder with
  | zero => rfl
  | succ count ih =>
      rw [allocFillers, List.range'_succ, ih]
      exact congrArg (builder.tree.size :: List.range' · count) (Tree.size_alloc builder.tree _)

/-- Allocated fillers may go anywhere among old nodes. -/
theorem Allocated.enterable {template : Element} {count : Nat}
    (fresh : Allocated before after template (List.range' before.tree.size count))
    (linked : before.tree.Linked) (allocated : parent < before.tree.size) :
    after.tree.Leaves (List.range' before.tree.size count) ∧
      after.tree.Insertable parent (List.range' before.tree.size count) := by
  have bounds : ∀ id : Nat, id ∈ List.range' before.tree.size count →
      before.tree.size ≤ id ∧ id < before.tree.size + count :=
    fun id member => List.mem_range'_1.mp member
  have leaves : after.tree.Leaves (List.range' before.tree.size count) := by
    refine ⟨?_, List.nodup_range', ?_, ?_⟩
    · intro id member
      simpa [fresh.size_eq] using (bounds id member).2
    · intro id member
      rw [fresh.parent_eq, Tree.parent_eq_none_of_size_le (bounds id member).1]
    · intro id member
      rw [fresh.children_eq, Tree.children_eq_nil_of_size_le (bounds id member).1]
  refine ⟨leaves, leaves.insertable (fresh.linked linked) ?_ ?_⟩
  · rw [fresh.size_eq]
    exact Nat.lt_of_lt_of_le allocated (Nat.le_add_right _ _)
  · intro member
    exact Nat.not_le_of_lt allocated (bounds parent member).1

theorem fillGap_eq (builder : Builder) (parent id : NodeId) (side : Side) (template : Element)
    (gap : Nat) :
    builder.fillGap parent id side template gap =
      (builder.allocFillers template gap).1.edit
        (Tree.insertRunNextTo · parent (List.range' builder.tree.size gap) id side) := by
  rw [fillGap]
  simp only [allocFillers_snd]
  cases side <;> rfl

theorem Grown.fillGap
    (grown : Grown before after element imported ⟨parent, side, front, [], [], node, back⟩)
    (allocated : parent < before.tree.size) (gap : Nat) :
    Grown before (after.fillGap parent node side element.filler gap) element imported
      ⟨parent, side, front, [], side.orient (List.range' after.tree.size gap), node, back⟩ := by
  have fresh := allocated_allocFillers after element.filler gap
  have nodeBounds := (grown.new_iff node).mp (Or.inl rfl)
  have grows : before.tree.size < after.tree.size := Nat.lt_of_le_of_lt nodeBounds.1 nodeBounds.2
  have linked := fresh.linked grown.linked
  obtain ⟨leaves, insertable⟩ := fresh.enterable grown.linked (Nat.lt_trans allocated grows)
  have entered := Tree.entered_insertRunNextTo side leaves linked insertable node
  have split : side.orient ((after.allocFillers element.filler gap).1.tree.children parent) =
      front ++ node :: back := by
    rw [fresh.children_eq]
    simpa using grown.relisted
  have joined := Tree.orient_insertRunNextTo side leaves linked insertable split
  have size : (Tree.insertRunNextTo (after.allocFillers element.filler gap).1.tree parent
      (List.range' after.tree.size gap) node side).size = after.tree.size + gap := by
    rw [entered.size_eq, fresh.size_eq, List.length_range']
  rw [fillGap_eq]
  refine ⟨entered.linked, fresh.body_eq.trans grown.body_eq, ?_, joined, ?_, ?_, ?_, ?_, ?_, ?_,
    ?_, fresh.report_eq.trans grown.report_eq⟩
  · simpa using grown.listed
  · intro id
    have new := grown.new_iff id
    simp only [List.not_mem_nil, or_false] at new
    simp only [edit, size, Side.mem_orient, List.mem_range'_1]
    omega
  · intro id different
    refine (entered.children_of_ne id different).trans ?_
    exact (fresh.children_eq id).trans (grown.children_of_ne id different)
  · intro id old
    refine (entered.payload?_eq id).trans ?_
    exact (fresh.payload?_of_lt id (Nat.lt_trans old grows)).trans (grown.payload?_of_lt id old)
  · refine (Tree.element?_congr ?_).trans grown.element_node
    exact (entered.payload?_eq node).trans (fresh.payload?_of_lt node nodeBounds.2)
  · intro id member
    refine Tree.element?_eq_some_iff.mpr ((entered.payload?_eq id).trans ?_)
    exact fresh.payload?_of_mem id ((Side.mem_orient side _).mp member)
  · intro id
    refine (fresh.contains_iff id).trans ?_
    rw [Side.mem_orient, grown.contains_iff]
    simp
  · simp

end Builder

end SelectorTree
