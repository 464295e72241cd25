import SelectorTree.Tree.Traversal

/-!
# Writing trees

A tree is written as HTML, with the id first, then the classes, then the other
attributes in the order of their names.  A void element has no end tag, and
what is below it is not written.  For inspection a tree is also written as an
outline, one node a line.
-/

namespace SelectorTree

open Text

/-- The elements without an end tag. -/
def voidTags : List String :=
  ["area", "base", "br", "col", "embed", "hr", "img", "input", "link", "meta", "source", "track",
    "wbr"]

def isVoid (tag : String) : Bool := voidTags.any (sameLetters · tag)

namespace Html

def textChar (c : Char) : List Char :=
  if c = '&' then "&amp;".toList
  else if c = '\u00A0' then "&nbsp;".toList
  else if c = '<' then "&lt;".toList
  else if c = '>' then "&gt;".toList
  else [c]

def valueChar (c : Char) : List Char :=
  if c = '&' then "&amp;".toList
  else if c = '\u00A0' then "&nbsp;".toList
  else if c = '"' then "&quot;".toList
  else [c]

def text (content : String) : List Char := content.toList.flatMap textChar

/-- An attribute behind the blank that separates it. -/
def attributeText (name value : String) : List Char :=
  ' ' :: name.toList ++ "=\"".toList ++ value.toList.flatMap valueChar ++ ['"']

/-- The attributes that an element is written with, in order. -/
def shownAttributes (data : Element) : List (String × String) :=
  (data.id.map fun id => ("id", id)).toList ++
    (if data.classes = [] then [] else [("class", data.classText)]) ++ data.attributes.entries

def startTag (data : Element) : List Char :=
  '<' :: data.tag.toList ++
    (shownAttributes data).flatMap (fun entry => attributeText entry.1 entry.2) ++ ['>']

def endTag (data : Element) : List Char := "</".toList ++ data.tag.toList ++ ['>']

mutual

def outer : Branch → List Char
  | .node (.text content) _ => text content
  | .node .document children => outerAll children
  | .node (.element data) children =>
    if isVoid data.tag then startTag data
    else startTag data ++ outerAll children ++ endTag data

def outerAll : List Branch → List Char
  | [] => []
  | branch :: rest => outer branch ++ outerAll rest

end

def inner : Branch → List Char
  | .node _ children => outerAll children

end Html

namespace Outline

/-- A text with its line feeds and spaces made visible. -/
def visible (c : Char) : List Char :=
  if c = '\n' then ['\\', 'n'] else if c = ' ' then ['\u00B7'] else [c]

def line : Payload → List Char
  | .document => "Document".toList
  | .element data => Html.startTag data
  | .text content => '"' :: content.toList.flatMap visible ++ ['"']

mutual

/-- A node and everything below it, `indent` deep. -/
def ofBranch (indent : Nat) : Branch → List Char
  | .node payload children =>
    List.replicate (2 * indent) ' ' ++ line payload ++ '\n' :: ofBranches (indent + 1) children

/-- A row of nodes, each `indent` deep. -/
def ofBranches (indent : Nat) : List Branch → List Char
  | [] => []
  | branch :: rest => ofBranch indent branch ++ ofBranches indent rest

end

end Outline

namespace Tree

/-- The text that a writer makes of a node; there is none without a node. -/
def writeWith (writer : Branch → List Char) (tree : Tree) (id : NodeId) : String :=
  String.ofList (((tree.branch? id).map writer).getD [])

def outerHtml : Tree → NodeId → String := writeWith Html.outer

def innerHtml : Tree → NodeId → String := writeWith Html.inner

def outline : Tree → NodeId → String := writeWith (Outline.ofBranch 0)

end Tree

end SelectorTree
