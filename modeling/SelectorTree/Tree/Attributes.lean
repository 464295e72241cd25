/-!
# Attribute maps

A map from attribute names to values, kept in ascending order of the names so
that an element is always written the same way.  The order is part of the type:
two maps are equal as soon as they have the same entries.
-/

namespace SelectorTree

/-- The names of the entries ascend, hence are distinct. -/
abbrev AscendingNames (entries : List (String × String)) : Prop :=
  entries.Pairwise fun left right => left.1 < right.1

structure Attributes where
  entries : List (String × String)
  ascending : AscendingNames entries

namespace Attributes

/-- The entries with one entry put in its place. -/
def insertEntry (name value : String) : List (String × String) → List (String × String)
  | [] => [(name, value)]
  | entry :: rest =>
    if name < entry.1 then (name, value) :: entry :: rest
    else if entry.1 < name then entry :: insertEntry name value rest
    else (name, value) :: rest

theorem mem_insertEntry {name value : String} {entries : List (String × String)}
    {entry : String × String} (member : entry ∈ insertEntry name value entries) :
    entry = (name, value) ∨ entry ∈ entries := by
  induction entries with
  | nil => exact Or.inl (List.mem_singleton.mp member)
  | cons head rest ih =>
    rw [insertEntry] at member
    split at member
    · exact List.mem_cons.mp member
    · split at member
      · rcases List.mem_cons.mp member with equal | inside
        · exact Or.inr (equal ▸ List.mem_cons_self)
        · exact (ih inside).imp id (List.mem_cons_of_mem head)
      · exact (List.mem_cons.mp member).imp id (List.mem_cons_of_mem head)

theorem ascending_insertEntry {name value : String} {entries : List (String × String)}
    (ascending : AscendingNames entries) :
    AscendingNames (insertEntry name value entries) := by
  induction entries with
  | nil => exact List.pairwise_singleton _ _
  | cons head rest ih =>
    obtain ⟨below, restAscending⟩ := List.pairwise_cons.mp ascending
    rw [insertEntry]
    split
    · next before =>
      refine List.pairwise_cons.mpr ⟨?_, ascending⟩
      intro entry member
      rcases List.mem_cons.mp member with equal | inside
      · exact equal ▸ before
      · exact String.lt_trans before (below entry inside)
    · next notBefore =>
      split
      · next after =>
        refine List.pairwise_cons.mpr ⟨?_, ih restAscending⟩
        intro entry member
        rcases mem_insertEntry member with equal | inside
        · exact equal ▸ after
        · exact below entry inside
      · next notAfter =>
        have same : name = head.1 :=
          String.le_antisymm (String.not_lt.mp notAfter) (String.not_lt.mp notBefore)
        exact List.pairwise_cons.mpr ⟨same ▸ below, restAscending⟩

def empty : Attributes := ⟨[], .nil⟩

def get? (attributes : Attributes) (name : String) : Option String :=
  attributes.entries.lookup name

/-- The map with one attribute set, whatever it was before. -/
def set (attributes : Attributes) (name value : String) : Attributes :=
  ⟨insertEntry name value attributes.entries, ascending_insertEntry attributes.ascending⟩

def filter (attributes : Attributes) (keep : String → String → Bool) : Attributes :=
  ⟨attributes.entries.filter fun entry => keep entry.1 entry.2, attributes.ascending.filter _⟩

/-- The map without an attribute. -/
def erase (attributes : Attributes) (name : String) : Attributes :=
  attributes.filter fun other _ => other != name

@[ext] theorem ext {left right : Attributes} (same : left.entries = right.entries) :
    left = right := by
  cases left
  cases right
  cases same
  rfl

instance : DecidableEq Attributes := fun left right =>
  if same : left.entries = right.entries then isTrue (ext same)
  else isFalse fun equal => same (congrArg entries equal)

instance : Inhabited Attributes := ⟨empty⟩

end Attributes

end SelectorTree
