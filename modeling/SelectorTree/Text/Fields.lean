/-!
# Fields

A text between separators: one more field than there are separators, some of
them possibly empty.
-/

namespace SelectorTree.Text

/-- The fields between the characters that `separator` selects. -/
def fields (separator : Char → Bool) : List Char → List (List Char)
  | [] => [[]]
  | c :: rest =>
    if separator c then [] :: fields separator rest
    else
      match fields separator rest with
      | [] => [[c]]
      | first :: others => (c :: first) :: others

end SelectorTree.Text
