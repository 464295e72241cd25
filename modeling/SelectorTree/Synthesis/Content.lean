import SelectorTree.Text.Quoted
import SelectorTree.Tree.Edit

/-!
# Content

The content of a rule goes where elements of its kind show it: into an
attribute, into the live value of a control, or into the text.  A later rule
overwrites an earlier one.
-/

namespace SelectorTree

open Text

/-- Where elements show their content. -/
inductive ElementKind where
  | anchor
  | media
  | textField
  | option
  | select
  | other
deriving DecidableEq

namespace ElementKind

/-- The tags that show content elsewhere than in their text. -/
def table : List (String × ElementKind) :=
  [("a", anchor), ("audio", media), ("iframe", media), ("img", media), ("video", media),
   ("input", textField), ("textarea", textField), ("option", option), ("select", select)]

def ofTag (tag : String) : ElementKind :=
  ((table.lookup (lower tag))).getD other

end ElementKind

/-- The characters without one quote at either end; the two need not agree. -/
def stripQuoteChars : List Char → List Char
  | [] => []
  | first :: rest =>
    if isQuote first && rest.getLast?.any isQuote then rest.dropLast else first :: rest

/-- The text without one quote at either end. -/
def stripQuotes (text : String) : String :=
  String.ofList (stripQuoteChars text.toList)

/-- Shows content at an element; other nodes show none. -/
def Tree.setContent (tree : Tree) (id : NodeId) (content : String) : Tree :=
  match tree.element? id with
  | none => tree
  | some data =>
    match ElementKind.ofTag data.tag with
    | .anchor => tree.setElement id (data.setAttribute "href" content)
    | .media => tree.setElement id (data.setAttribute "src" content)
    | .textField => tree.setElement id (data.setAttribute "placeholder" content)
    | .option => (tree.setElement id (data.setAttribute "value" content)).setText id content
    | .select => tree.setElement id { data with value := some content }
    | .other => tree.setText id content

end SelectorTree
