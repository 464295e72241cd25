/-!
# Warnings

A stylesheet may hold a hundred rules of a kind that is ignored; it is warned of
them once.
-/

namespace SelectorTree

/-- The warnings given so far, in order and each once. -/
structure Warnings where
  lines : List String
  nodup : lines.Nodup

namespace Warnings

def empty : Warnings := ⟨[], .nil⟩

def line (component message : String) : String := "[" ++ component ++ "] " ++ message

def contains (warnings : Warnings) (component message : String) : Bool :=
  warnings.lines.contains (line component message)

def size (warnings : Warnings) : Nat := warnings.lines.length

/-- Warns unless the same was said before. -/
def warn (warnings : Warnings) (component message : String) : Warnings :=
  if said : line component message ∈ warnings.lines then warnings
  else
    ⟨warnings.lines ++ [line component message], by
      rw [List.nodup_append]
      refine ⟨warnings.nodup, List.pairwise_singleton _ _, ?_⟩
      intro old oldMember new newMember equal
      rw [List.mem_singleton] at newMember
      exact said (newMember ▸ equal ▸ oldMember)⟩

/-- The warnings given since there were a number of them. -/
def since (warnings : Warnings) (count : Nat) : List String := warnings.lines.drop count

end Warnings

end SelectorTree
