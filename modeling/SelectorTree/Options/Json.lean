import SelectorTree.Json.Parser
import SelectorTree.Options

/-!
# Options as JSON

A configuration is an object with a member for each option, or an array of the
options in order.  What is missing takes its default; members that are no options
are ignored.
-/

namespace SelectorTree

namespace Options

/-- The options, in the order in which they are written. -/
inductive Field where
  | duplicates
  | fill
  | imports
  | mergeNth
  | sanitize
  | baseUrl
deriving DecidableEq

namespace Field

def all : List Field := [duplicates, fill, imports, mergeNth, sanitize, baseUrl]

/-- The names of an option; it is written under the first. -/
def names : Field → List String
  | duplicates => ["duplicates"]
  | fill => ["fill"]
  | imports => ["imports"]
  | mergeNth => ["merge-nth", "mergeNth"]
  | sanitize => ["sanitize"]
  | baseUrl => ["base-url", "baseUrl"]

def ofName? (name : String) : Option Field := all.find? (·.names.contains name)

/-- A choice stands alone, or as the only name in an object that says nothing
more about it. -/
def choice? {α : Type} [Choice α] : Json → Option α
  | .string codes => (Json.text? codes).bind Choice.ofText?
  | .object [(codes, .null)] => (Json.text? codes).bind Choice.ofText?
  | _ => none

def address? : Json → Option (Option String)
  | .null => some none
  | .string codes => (Json.text? codes).map some
  | _ => none

def set? (field : Field) (value : Json) (options : Options) : Option Options :=
  match field with
  | duplicates => (choice? value).map fun duplicates => { options with duplicates }
  | fill => (choice? value).map fun policy => { options with fill := policy }
  | imports => (choice? value).map fun imports => { options with imports }
  | mergeNth => (choice? value).map fun mergeNth => { options with mergeNth }
  | sanitize => (choice? value).map fun sanitize => { options with sanitize }
  | baseUrl => (address? value).map fun baseUrl => { options with baseUrl }

end Field

/-- Sets the options that members name.  None is named twice, under any of its
names; `unset` are those not named before. -/
def setMembers? : List Field → List (List Nat × Json) → Options → Option Options
  | _, [], options => some options
  | unset, (codes, value) :: rest, options => do
    let name ← Json.text? codes
    match Field.ofName? name with
    | none => setMembers? unset rest options
    | some field =>
      if field ∈ unset then
        let changed ← field.set? value options
        setMembers? (unset.erase field) rest changed
      else none

/-- Sets options in order. -/
def setItems? : List Field → List Json → Options → Option Options
  | _, [], options => some options
  | [], _ :: _, _ => none
  | field :: fields, value :: rest, options => do
    let changed ← field.set? value options
    setItems? fields rest changed

def ofJson? : Json → Option Options
  | .object members => setMembers? Field.all members standard
  | .array items => setItems? Field.all items standard
  | _ => none

def ofText? (text : String) : Option Options := (Json.ofText? text).bind ofJson?

def Field.get (field : Field) (options : Options) : Json :=
  match field with
  | duplicates => .ofText (Choice.spelling options.duplicates)
  | fill => .ofText (Choice.spelling options.fill)
  | imports => .ofText (Choice.spelling options.imports)
  | mergeNth => .ofText (Choice.spelling options.mergeNth)
  | sanitize => .ofText (Choice.spelling options.sanitize)
  | baseUrl => (options.baseUrl.map Json.ofText).getD .null

def toJson (options : Options) : Json :=
  .members (Field.all.map fun field => (field.names.headD "", field.get options))

end Options

end SelectorTree
