import SelectorTree.Options
import SelectorTree.Synthesis.Content
import SelectorTree.Synthesis.Fillers
import SelectorTree.Synthesis.Merge

/-!
# Building trees from rules

Every alternative of every rule is an assertion about the tree: its elements
exist, related as its combinators say.  A chain of descriptors is followed from
the body downwards; each descriptor merges into an element that is there or adds
a new one, and the last element takes the content of the rule.
-/

namespace SelectorTree

/-- A rule that a tree is built from. -/
structure TreeRule where
  selectors : SelectorList
  content : Option String
  imported : Bool
deriving DecidableEq

/-- What happened while a tree was built. -/
structure Report where
  rules : Nat
  alternatives : Nat
  skipped : Nat
  created : Nat
  merged : Nat
  fillers : Nat
deriving DecidableEq

/-- A finished tree, its body, and the report on it. -/
structure Synthesis where
  tree : Tree
  body : NodeId
  report : Report

/-- A tree that is being built. -/
structure Builder where
  tree : Tree
  body : NodeId
  fillers : Fillers
  report : Report

namespace Builder

def start : Builder := ⟨Tree.withBody.1, Tree.withBody.2, .empty, ⟨0, 0, 0, 0, 0, 0⟩⟩

def create (builder : Builder) (element : Element) (imported : Bool) : Builder × NodeId :=
  let added := builder.tree.allocElement { element with imported }
  ({ builder with
      tree := added.1
      report := { builder.report with created := builder.report.created + 1 } },
    added.2)

/-- Merges an element into a node, if nothing keeps it from that. -/
def tryMerge (builder : Builder) (element : Element) (id : NodeId) (imported : Bool) :
    Option Builder :=
  (builder.tree.element? id).bind fun target =>
    match element.mergeInto target with
    | .error _ => none
    | .ok merged =>
      some { builder with
        tree := builder.tree.setElement id { merged with imported := merged.imported || imported }
        report := { builder.report with merged := builder.report.merged + 1 } }

/-- Changes the tree alone. -/
def edit (builder : Builder) (change : Tree → Tree) : Builder :=
  { builder with tree := change builder.tree }

/-- The children that describe the same element as a new one. -/
def duplicates (builder : Builder) (parent : NodeId) (element : Element) : List NodeId :=
  (builder.tree.elementChildren parent).filter fun id =>
    !builder.fillers.contains id && (builder.tree.element? id).any (·.comparable element)

/-- Merges an element into the first of some nodes that takes it. -/
def mergeFirst (builder : Builder) (element : Element) (imported : Bool)
    (ids : List NodeId) : Option (Builder × NodeId) :=
  ids.findSome? fun id => (builder.tryMerge element id imported).map (·, id)

/-- Adds an element behind the children of a parent. -/
def append (builder : Builder) (parent : NodeId) (element : Element) (imported : Bool) :
    Builder × NodeId :=
  let created := builder.create element imported
  (created.1.edit (·.appendChild parent created.2), created.2)

/-- Places an element that asks for no position. -/
def place (builder : Builder) (options : Options) (parent : NodeId) (element : Element)
    (imported : Bool) : Builder × NodeId :=
  match options.duplicates with
  | .preserve => builder.append parent element imported
  | .remove =>
    match builder.mergeFirst element imported (builder.duplicates parent element) with
    | some merged => merged
    | none => builder.append parent element imported

/-- Puts a node where a reference is: before it when positions count from the
start, behind it when they count from the end. -/
def insertNextTo (tree : Tree) (parent id reference : NodeId) : Side → Tree
  | .start => tree.insertBefore parent id reference
  | .finish => tree.insertAfter parent id reference

/-- Adds an element in the place of a reference. -/
def insertAt (builder : Builder) (parent reference : NodeId) (side : Side) (element : Element)
    (imported : Bool) : Builder × NodeId :=
  let created := builder.create element imported
  (created.1.edit (insertNextTo · parent created.2 reference side), created.2)

/-- Replaces a filler by an element. -/
def evict (builder : Builder) (parent filler : NodeId) (side : Side) (element : Element)
    (imported : Bool) : Builder × NodeId :=
  let inserted := builder.insertAt parent filler side element imported
  ({ inserted.1 with
      tree := inserted.1.tree.removeChild parent filler
      fillers := inserted.1.fillers.unregister filler },
    inserted.2)

def allocFillers (builder : Builder) (template : Element) : Nat → Builder × List NodeId
  | 0 => (builder, [])
  | count + 1 =>
    let added := builder.tree.allocElement template
    let rest := allocFillers
      { builder with tree := added.1, fillers := builder.fillers.register added.2 } template count
    (rest.1, added.2 :: rest.2)

/-- Fills the gap between the siblings that were there and a new element. -/
def fillGap (builder : Builder) (parent id : NodeId) (side : Side) (template : Element)
    (gap : Nat) : Builder :=
  let allocated := builder.allocFillers template gap
  allocated.1.edit fun tree =>
    match side with
    | .start => tree.insertManyBefore parent allocated.2 id
    | .finish => tree.insertManyAfter parent allocated.2 id

/-- Puts a node at the far end of the children, seen from a side. -/
def insertFarthest (tree : Tree) (parent id : NodeId) : Side → Tree
  | .start => tree.appendChild parent id
  | .finish => tree.prependChild parent id

/-- Puts a node first among the children, seen from a side. -/
def insertNearest (tree : Tree) (parent id : NodeId) : Side → Tree
  | .start => tree.prependChild parent id
  | .finish => tree.appendChild parent id

/-- Adds an element at a position that no sibling has. -/
def extend (builder : Builder) (options : Options) (parent : NodeId) (element : Element)
    (position : Position) (imported : Bool) : Builder × NodeId :=
  let counted := (builder.tree.siblingsAt parent position element.tag).length
  let created := builder.create element imported
  if position.index = 1 then
    (created.1.edit (insertNearest · parent created.2 position.side), created.2)
  else
    let placed := created.1.edit (insertFarthest · parent created.2 position.side)
    match options.fill with
    | .noFill => (placed, created.2)
    | .fill =>
      (placed.fillGap parent created.2 position.side element.filler
        (position.index - 1 - counted), created.2)

/-- Merges an element into the sibling at its position, or puts it there and
moves the sibling on. -/
def mergeOrDisplace (builder : Builder) (options : Options) (parent blocker : NodeId)
    (element : Element) (side : Side) (imported : Bool) : Builder × NodeId :=
  let merged? :=
    match options.mergeNth with
    | .noMerge => none
    | .merge => builder.tryMerge element blocker imported
  match merged? with
  | some merged => (merged, blocker)
  | none => builder.insertAt parent blocker side element imported

def placeAt (builder : Builder) (options : Options) (parent : NodeId) (element : Element)
    (position : Position) (imported : Bool) : Builder × NodeId :=
  match builder.tree.probe parent position element.tag with
  | none => builder.extend options parent element position imported
  | some blocker =>
    if builder.fillers.contains blocker then
      builder.evict parent blocker position.side element imported
    else builder.mergeOrDisplace options parent blocker element position.side imported

/-- The parent that a descriptor goes below, given the node of the descriptor
before it. -/
def parentFor (builder : Builder) (descriptor : Descriptor) : Option NodeId → NodeId
  | none => builder.body
  | some previous =>
    if descriptor.combinator.isSibling then (builder.tree.parent previous).getD builder.body
    else previous

def placeDescriptor (builder : Builder) (options : Options) (previous : Option NodeId)
    (descriptor : Descriptor) (imported : Bool) : Builder × NodeId :=
  let parent := builder.parentFor descriptor previous
  match descriptor.position? with
  | none => builder.place options parent descriptor.element imported
  | some position => builder.placeAt options parent descriptor.element position imported

/-- Places the descriptors of a chain; the node of the last one is the
target. -/
def placeChain (builder : Builder) (options : Options) (imported : Bool) :
    Option NodeId → List Descriptor → Builder × Option NodeId
  | previous, [] => (builder, previous)
  | previous, descriptor :: rest =>
    let placed := builder.placeDescriptor options previous descriptor imported
    placeChain placed.1 options imported (some placed.2) rest

/-- Shows the content of a rule at the target of an alternative. -/
def showContent (builder : Builder) : Option NodeId → Option String → Builder
  | some target, some content => builder.edit (·.setContent target (stripQuotes content))
  | _, _ => builder

/-- Adds one alternative; one that describes no elements is skipped. -/
def addAlternative (options : Options) (rule : TreeRule) (builder : Builder)
    (alternative : ComplexSelector) : Builder :=
  match Descriptor.chain alternative with
  | .error _ =>
    { builder with report := { builder.report with skipped := builder.report.skipped + 1 } }
  | .ok chain =>
    let counted : Builder :=
      { builder with
        report := { builder.report with alternatives := builder.report.alternatives + 1 } }
    let placed := counted.placeChain options rule.imported none chain
    placed.1.showContent placed.2 rule.content

def addRule (options : Options) (builder : Builder) (rule : TreeRule) : Builder :=
  let counted : Builder :=
    { builder with report := { builder.report with rules := builder.report.rules + 1 } }
  rule.selectors.foldl (addAlternative options rule) counted

def finish (builder : Builder) : Synthesis :=
  ⟨builder.tree, builder.body, { builder.report with fillers := builder.fillers.size }⟩

end Builder

def synthesize (options : Options) (rules : List TreeRule) : Synthesis :=
  (rules.foldl (Builder.addRule options) .start).finish

end SelectorTree
