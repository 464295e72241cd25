import SelectorTree.Proofs.Synthesis.Runs
import SelectorTree.Proofs.Tree.Walks
import SelectorTree.Selector.Matching

/-!
# Matching as a relation

`Fits` says what a chain of compounds asks of a tree, read from the outermost
compound to the subject: one node for each compound, each related to the one
before it as the combinator between them says.  The matcher starts from the
subject and tries the candidates on its left; it accepts exactly the nodes at
which such a list of nodes can end.
-/

namespace SelectorTree

variable {tree : Tree} {left right id : NodeId}

/-! ## Combinators -/

/-- How a combinator relates the node of its left compound to that of its right
one, as the lists of children have it. -/
def Combinator.Joins (combinator : Combinator) (tree : Tree) (left right : NodeId) : Prop :=
  match combinator with
  | descendant => Relation.TransGen (fun parent child => child ∈ tree.children parent) left right
  | child => right ∈ tree.children left
  | nextSibling => tree.Adjoins left right
  | laterSibling => tree.Precedes left right

theorem Tree.Linked.isParent_eq (linked : tree.Linked) :
    tree.IsParent = fun parent child => child ∈ tree.children parent := by
  funext parent child
  exact propext linked.mem_children_iff.symm

/-- The candidates of a combinator are the nodes it joins to the right one. -/
theorem Combinator.mem_candidates_iff (linked : tree.Linked) (combinator : Combinator) :
    left ∈ combinator.candidates tree right ↔ combinator.Joins tree left right := by
  cases combinator with
  | descendant =>
      rw [candidates, Joins, ← linked.isParent_eq]
      exact Tree.mem_ancestors_iff linked
  | child =>
      rw [candidates, Joins, Option.mem_toList]
      exact linked.mem_children_iff.symm
  | nextSibling =>
      rw [candidates, Joins, Option.mem_toList]
      exact Tree.find?_precedingSiblings_iff linked
  | laterSibling => exact Tree.mem_precedingSiblings_iff linked

/-! ## Chains -/

/-- Whether nodes fit a chain of compounds, one for each and in the same order:
every node meets its compound, and all but the first are joined to the one
before by the combinator that their compound is paired with. -/
inductive Fits (tree : Tree) : List (Combinator × Compound) → List NodeId → Prop where
  | nil : Fits tree [] []
  | snoc {steps : List (Combinator × Compound)} {nodes : List NodeId} {combinator : Combinator}
      {compound : Compound} {id : NodeId} :
      Fits tree steps nodes →
      (∀ left, nodes.getLast? = some left → combinator.Joins tree left id) →
      compound.selects tree id = true →
      Fits tree (steps ++ [(combinator, compound)]) (nodes ++ [id])

namespace Fits

variable {steps : List (Combinator × Compound)} {nodes : List NodeId}

theorem concat_iff {combinator : Combinator} {compound : Compound} :
    Fits tree (steps ++ [(combinator, compound)]) (nodes ++ [id]) ↔
      Fits tree steps nodes ∧ compound.selects tree id = true ∧
        ∀ left, nodes.getLast? = some left → combinator.Joins tree left id := by
  constructor
  · intro fits
    generalize sameSteps : steps ++ [(combinator, compound)] = allSteps at fits
    generalize sameNodes : nodes ++ [id] = allNodes at fits
    cases fits with
    | nil => simp at sameSteps
    | snoc outer joined selected =>
        obtain ⟨rfl, last⟩ := List.append_inj' sameSteps rfl
        obtain ⟨rfl, lastNode⟩ := List.append_inj' sameNodes rfl
        cases last
        cases lastNode
        exact ⟨outer, selected, joined⟩
  · rintro ⟨outer, selected, joined⟩
    exact .snoc outer joined selected

/-- A chain that is not empty fits only lists with a last node. -/
theorem exists_last (fits : Fits tree steps nodes) (filled : steps ≠ []) :
    ∃ front id, nodes = front ++ [id] := by
  cases fits with
  | nil => exact absurd rfl filled
  | snoc => exact ⟨_, _, rfl⟩

end Fits

/-- The matcher, begun at a compound, accepts a node where the chain up to that
compound fits nodes that end there.  The induction is on the compounds still to
the left. -/
theorem selected_iff (linked : tree.Linked) {subject : Compound}
    {outer : List (Combinator × Compound)} :
    subject.selects tree id = true ∧ ComplexSelector.outerSelects tree outer id = true ↔
      ∃ nodes, Fits tree (ComplexSelector.chainFrom subject outer) nodes ∧
        nodes.getLast? = some id := by
  induction outer generalizing subject id with
  | nil =>
      constructor
      · rintro ⟨selected, _⟩
        exact ⟨[id], .snoc .nil (fun _ last => absurd last (by simp)) selected, rfl⟩
      · rintro ⟨nodes, fits, last⟩
        obtain ⟨front, subjectNode, rfl⟩ := fits.exists_last (by simp [ComplexSelector.chainFrom])
        have same : subjectNode = id := by simpa using last
        subst same
        rw [ComplexSelector.chainFrom, ← List.nil_append [_], Fits.concat_iff] at fits
        exact ⟨fits.2.1, rfl⟩
  | cons step outer ih =>
      obtain ⟨combinator, compound⟩ := step
      rw [ComplexSelector.outerSelects, List.any_eq_true, ComplexSelector.chainFrom]
      constructor
      · rintro ⟨selected, left, candidate, accepted⟩
        obtain ⟨nodes, fits, last⟩ := ih.mp (Bool.and_eq_true_iff.mp accepted)
        refine ⟨nodes ++ [id], .snoc fits ?_ selected, List.getLast?_concat⟩
        intro other last'
        cases last.symm.trans last'
        exact (combinator.mem_candidates_iff linked).mp candidate
      · rintro ⟨nodes, fits, last⟩
        obtain ⟨front, subjectNode, rfl⟩ := fits.exists_last (by simp)
        have same : subjectNode = id := by simpa using last
        subst same
        obtain ⟨fitsOuter, selected, joined⟩ := Fits.concat_iff.mp fits
        obtain ⟨front, left, rfl⟩ := fitsOuter.exists_last ComplexSelector.chainFrom_ne_nil
        have lastLeft : (front ++ [left]).getLast? = some left := List.getLast?_concat
        have candidate := (combinator.mem_candidates_iff linked).mpr (joined left lastLeft)
        refine ⟨selected, left, candidate, ?_⟩
        exact Bool.and_eq_true_iff.mpr (ih.mpr ⟨front ++ [left], fitsOuter, lastLeft⟩)

/-- A selector matches a node of a consistent tree exactly if its chain fits
nodes of which that one is the last. -/
theorem ComplexSelector.selects_iff_fits (linked : tree.Linked) (selector : ComplexSelector)
    (id : NodeId) :
    selector.selects tree id = true ↔
      ∃ nodes, Fits tree selector.chain nodes ∧ nodes.getLast? = some id := by
  rw [selects, Bool.and_eq_true, chain]
  exact selected_iff linked

/-- The rules `ul > li`, `ul` with a content and `ul > li + b`.  The text of the
list comes between its item and the `b`. -/
def noteRules : List TreeRule :=
  [⟨[⟨.ofType? (some (.name "li")), [(.child, .ofType? (some (.name "ul")))]⟩], none, false⟩,
   ⟨[⟨.ofType? (some (.name "ul")), []⟩], some "text", false⟩,
   ⟨[⟨.ofType? (some (.name "b")), [(.nextSibling, .ofType? (some (.name "li"))),
      (.child, .ofType? (some (.name "ul")))]⟩], none, false⟩]

/-- The selector `body li + b`. -/
def noteSelector : ComplexSelector :=
  ⟨.ofType? (some (.name "b")), [(.nextSibling, .ofType? (some (.name "li"))),
    (.descendant, .ofType? (some (.name "body")))]⟩

theorem fits_noteSelector :
    (synthesize .standard noteRules).tree.Linked ∧
      noteSelector.selects (synthesize .standard noteRules).tree 5 = true ∧
      ∃ nodes, Fits (synthesize .standard noteRules).tree noteSelector.chain nodes ∧
        nodes.getLast? = some 5 := by
  have linked : (synthesize .standard noteRules).tree.Linked :=
    (Builder.sound_ofRules .standard noteRules).linked
  have selected : noteSelector.selects (synthesize .standard noteRules).tree 5 = true := by
    decide
  refine ⟨linked, selected, ?_⟩
  exact (ComplexSelector.selects_iff_fits linked noteSelector 5).mp selected

end SelectorTree
