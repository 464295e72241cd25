import SelectorTree.Tree.Element

/-!
# Merging elements

Two elements are comparable if they have the same tag, the same id and the same
classes: they describe the same element.  One merges into another if nothing
that both of them fix differs.  A merge checks everything before it writes.
-/

namespace SelectorTree

open Text

/-- What keeps two elements from being merged. -/
inductive MergeConflict where
  | tag
  | id
  | type
deriving DecidableEq

def MergeConflict.message : MergeConflict → String
  | tag => "tag names differ"
  | id => "ids differ"
  | type => "type attributes differ"

namespace Element

/-- Whether two elements have the same tag, id and classes. -/
def comparable (left right : Element) : Bool :=
  sameLetters left.tag right.tag && left.id == right.id &&
    left.classes.length == right.classes.length && left.classes.all right.hasClass

/-- The `type` attribute; an empty one counts as absent. -/
def kind (element : Element) : Option String :=
  (element.getAttribute "type").filter (· ≠ "")

/-- Whether two values are both there and differ. -/
def conflicting : Option String → Option String → Bool
  | some left, some right => left != right
  | _, _ => false

/-- The first thing that keeps `source` from being merged into `target`. -/
def conflict? (source target : Element) : Option MergeConflict :=
  if !sameLetters source.tag target.tag then some .tag
  else if conflicting source.id target.id then some .id
  else if conflicting source.kind target.kind then some .type
  else none

/-- The element with another's id if it has none of its own. -/
def takeId (target source : Element) : Element :=
  match target.id, source.id with
  | none, some id => { target with id? := some id }
  | _, _ => target

/-- The element with another's `type` if it has none of its own. -/
def takeKind (target source : Element) : Element :=
  match target.kind, source.kind with
  | none, some kind => target.setAttribute "type" kind
  | _, _ => target

/-- Merges an element into another: the target takes the id and the `type` it
lacks, and the classes it lacks behind its own. -/
def mergeInto (source target : Element) : Except MergeConflict Element :=
  match conflict? source target with
  | some conflict => .error conflict
  | none => .ok (((target.takeId source).takeKind source).addClasses source.classes)

end Element

end SelectorTree
