import SelectorTree.Text.Ascii
import SelectorTree.Tree.Attributes

/-!
# Elements

An element has a tag, perhaps an id, classes in the order they were added, and
further attributes.  The id and the classes are kept outside the attribute map,
because elements are compared and merged on them.
-/

namespace SelectorTree

/-- The data of an element.  `value` is the live value of a control that does
not show it as markup; `imported` says whether an imported stylesheet made or
changed the element. -/
structure Element where
  tag : String
  id? : Option String
  classes : List String
  attributes : Attributes
  value : Option String
  imported : Bool
deriving DecidableEq, Inhabited

namespace Element

/-- A bare element; its tag is in lower case. -/
def ofTag (tag : String) : Element :=
  ⟨Text.lower tag, none, [], .empty, none, false⟩

/-- The id; an empty one counts as absent. -/
def id (element : Element) : Option String :=
  element.id?.filter (· ≠ "")

def hasClass (element : Element) (name : String) : Bool :=
  element.classes.contains name

/-- Adds a class that has a name and is not there yet. -/
def addClass (element : Element) (name : String) : Element :=
  if name = "" ∨ element.hasClass name then element
  else { element with classes := element.classes ++ [name] }

def addClasses (element : Element) (names : List String) : Element :=
  names.foldl addClass element

/-- The value of an attribute other than the id and the classes. -/
def getAttribute (element : Element) (name : String) : Option String :=
  element.attributes.get? name

def setAttribute (element : Element) (name value : String) : Element :=
  { element with attributes := element.attributes.set name value }

def removeAttribute (element : Element) (name : String) : Element :=
  { element with attributes := element.attributes.erase name }

/-- The classes as the value of one attribute. -/
def classText (element : Element) : String :=
  " ".intercalate element.classes

end Element

end SelectorTree
