import SelectorTree.Siblings
import SelectorTree.Synthesis.Descriptor

/-!
# Placeholders

A rule may ask for a position behind siblings that do not exist yet.  Fillers
hold their places until other rules claim them.  The registry knows which nodes
are fillers.
-/

namespace SelectorTree

/-- The nodes that are fillers, each once. -/
structure Fillers where
  nodes : List NodeId
  nodup : nodes.Nodup

namespace Fillers

def empty : Fillers := ⟨[], .nil⟩

def contains (fillers : Fillers) (id : NodeId) : Bool := fillers.nodes.contains id

def size (fillers : Fillers) : Nat := fillers.nodes.length

def register (fillers : Fillers) (id : NodeId) : Fillers :=
  if known : id ∈ fillers.nodes then fillers
  else ⟨id :: fillers.nodes, List.nodup_cons.mpr ⟨known, fillers.nodup⟩⟩

def unregister (fillers : Fillers) (id : NodeId) : Fillers :=
  ⟨fillers.nodes.erase id, fillers.nodup.erase id⟩

theorem contains_register (fillers : Fillers) (id other : NodeId) :
    (fillers.register id).contains other = (other == id || fillers.contains other) := by
  rw [Bool.eq_iff_iff, register]
  split
  · next known =>
    by_cases same : other = id
    · subst same
      simpa [contains] using known
    · simp [same]
  · simp [contains]

theorem contains_unregister (fillers : Fillers) (id other : NodeId) :
    (fillers.unregister id).contains other = (other != id && fillers.contains other) := by
  rw [Bool.eq_iff_iff]
  simp [contains, unregister, fillers.nodup.mem_erase_iff]

end Fillers

namespace Tree

/-- The children that count toward a position. -/
def siblingsAt (tree : Tree) (parent : NodeId) (position : Position) (tag : String) :
    List NodeId :=
  tree.countedChildren parent position.side position.scope tag

def probe (tree : Tree) (parent : NodeId) (position : Position) (tag : String) :
    Option NodeId :=
  if position.index = 0 then none
  else (tree.siblingsAt parent position tag)[position.index - 1]?

end Tree

/-- A filler that stands in for an element: the same without id and value. -/
def Element.filler (element : Element) : Element :=
  { element with id? := none, value := none }

end SelectorTree
