import SelectorTree.Options
import SelectorTree.Text.Blank
import SelectorTree.Tree.Edit
import SelectorTree.Tree.Traversal

/-!
# Sanitizing trees

Elements that run or load foreign code are cut out of the finished tree with
everything below them.  The others lose the attributes that would run a script.
-/

namespace SelectorTree

open Text

namespace Sanitizer

def forbiddenTags : List String :=
  ["applet", "base", "embed", "frame", "frameset", "iframe", "link", "meta", "noscript", "object",
    "script", "style", "template"]

def addressAttributes : List String :=
  ["action", "background", "formaction", "href", "poster", "src", "xlink:href"]

def scriptSchemes : List String := ["javascript:", "vbscript:"]

/-- The beginning of an address as its scheme is read: without leading blanks,
tabs and line ends, in lower case. -/
def schemeText (address : List Char) : List Char :=
  (((address.dropWhile isBlank).filter fun c => !(c == '\t' || c == '\n' || c == '\r')).take 16).map
    Char.toLower

def hasScriptScheme (address : String) : Bool :=
  scriptSchemes.any fun scheme => scheme.toList.isPrefixOf (schemeText address.toList)

def isUnsafeAttribute (name value : String) : Bool :=
  let name := lower name
  "on".toList.isPrefixOf name.toList || name == "srcdoc" ||
    (addressAttributes.contains name && hasScriptScheme value)

/-- The element without unsafe attributes, unless it has to go. -/
def clean? (element : Element) : Option Element :=
  if forbiddenTags.contains (lower element.tag) then none
  else
    some { element with
      attributes := element.attributes.filter fun name value => !isUnsafeAttribute name value }

/-- Whether a policy looks at an element. -/
def visits : Sanitize → Element → Bool
  | .all, _ => true
  | .imports, element => element.imported
  | .off, _ => false

/-- Looks at one node below the root; a node that is no longer there is left
alone.  Counts the nodes that are cut out. -/
def step (clean : Element → Option Element) (policy : Sanitize) (root : NodeId)
    (state : Tree × Nat) (id : NodeId) : Tree × Nat :=
  if state.1.isDescendantOf id root then
    match state.1.element? id with
    | none => state
    | some element =>
      if visits policy element then
        match clean element with
        | some cleaned => (state.1.setElement id cleaned, state.2)
        | none =>
          match state.1.parent id with
          | some parent => (state.1.removeChild parent id, state.2 + 1)
          | none => state
      else state
  else state

/-- Sanitizes what is below a node in the way that `clean` treats one element.
Answers the tree and the number of elements cut out. -/
def runWith (clean : Element → Option Element) (policy : Sanitize) (tree : Tree)
    (root : NodeId) : Tree × Nat :=
  if policy = .off then (tree, 0)
  else (tree.descendants root).foldl (step clean policy root) (tree, 0)

def run (policy : Sanitize) (tree : Tree) (root : NodeId) : Tree × Nat :=
  runWith clean? policy tree root

end Sanitizer

end SelectorTree
