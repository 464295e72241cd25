import SelectorTree.Options

/-!
# Arguments of the command line

An argument names the stylesheet, sets an option, or asks for one of the outputs.
Each may be given once, and a value that begins with a dash has to be attached to
its option.
-/

namespace SelectorTree.CommandLine

/-- An argument by its meaning. -/
inductive Argument where
  | input (text : String)
  | value (name text : String)
  | flag (name : String)
deriving DecidableEq

/-- What is done in place of a compilation. -/
inductive Refusal where
  | usage
  | help
  | version
deriving DecidableEq

/-- The options with a value that set an option of the compilation. -/
def overrideNames : List String :=
  ["duplicates", "fill", "imports", "merge-nth", "sanitize", "base-url"]

def valueNames : List String := "css" :: "config" :: overrideNames

/-- The options without a value. -/
def flagNames : List String := ["tree", "verify", "report", "verbose"]

/-- What one text holds: whole arguments, and the name of an option whose value
is the next text. -/
abbrev Piece : Type := List Argument × Option String

/-- Reads an option with a long name, behind the two dashes. -/
def readLong (chars : List Char) : Except Refusal Piece :=
  let name := String.ofList (chars.takeWhile (· != '='))
  match (chars.dropWhile (· != '=')).tail? with
  | some value =>
    if valueNames.contains name then .ok ([.value name (String.ofList value)], none)
    else .error .usage
  | none =>
    if valueNames.contains name then .ok ([], some name)
    else if flagNames.contains name then .ok ([.flag name], none)
    else if name = "help" then .error .help
    else if name = "version" then .error .version
    else .error .usage

/-- Reads options with short names, behind one dash. -/
def readShort : List Char → Except Refusal Piece
  | [] => .ok ([], none)
  | 'v' :: rest => (readShort rest).map fun piece => (.flag "verbose" :: piece.1, piece.2)
  | ['c'] => .ok ([], some "config")
  | 'c' :: '=' :: value => .ok ([.value "config" (String.ofList value)], none)
  | 'c' :: value => .ok ([.value "config" (String.ofList value)], none)
  | 'h' :: _ => .error .help
  | 'V' :: _ => .error .version
  | _ => .error .usage

/-- Reads a text that is not the value of an option in front of it.  A dash alone
is an input. -/
def readPiece (text : String) : Except Refusal Piece :=
  match text.toList with
  | '-' :: '-' :: long => readLong long
  | '-' :: first :: rest => readShort (first :: rest)
  | _ => .ok ([.input text], none)

def isDashed (text : String) : Bool :=
  match text.toList with
  | '-' :: _ :: _ => true
  | _ => false

/-- Reads texts; `pending` is the name of an option whose value comes first.
Behind two dashes every text is an input. -/
def readArguments : Option String → List String → Except Refusal (List Argument)
  | none, [] => .ok []
  | some _, [] => .error .usage
  | some name, text :: rest =>
    if isDashed text then .error .usage
    else (readArguments none rest).map (.value name text :: ·)
  | none, text :: rest =>
    if text = "--" then .ok (rest.map .input)
    else
      match readPiece text with
      | .error refusal => .error refusal
      | .ok piece => (readArguments piece.2 rest).map (piece.1 ++ ·)

/-- What the command line asks for. -/
structure Arguments where
  input? : Option String
  css? : Option String
  config? : Option String
  overrides : List (String × String)
  tree : Bool
  verify : Bool
  report : Bool

namespace Argument

def input? : Argument → Option String
  | input text => some text
  | _ => none

def valueOf? (name : String) : Argument → Option String
  | value other text => if other = name then some text else none
  | _ => none

def override? : Argument → Option (String × String)
  | value name text => if overrideNames.contains name then some (name, text) else none
  | _ => none

/-- What may not be given again. -/
def singleName? : Argument → Option String
  | input _ => some ""
  | value name _ => some name
  | flag name => if name = "verbose" then none else some name

end Argument

namespace Arguments

/-- Whether the arguments go together: none is given twice, there are not two
stylesheets, and each value is one that its option can have. -/
def isConsistent (arguments : Arguments) (read : List Argument) : Bool :=
  decide (read.filterMap Argument.singleName?).Nodup &&
    !(arguments.input?.isSome && arguments.css?.isSome) && arguments.config? != some "" &&
    arguments.overrides.all fun entry => (Options.standard.set entry.1 entry.2).isOk

def ofTexts (texts : List String) : Except Refusal Arguments := do
  let read ← readArguments none texts
  let arguments : Arguments :=
    { input? := read.findSome? Argument.input?
      css? := read.findSome? (Argument.valueOf? "css")
      config? := read.findSome? (Argument.valueOf? "config")
      overrides := read.filterMap Argument.override?
      tree := read.contains (.flag "tree")
      verify := read.contains (.flag "verify")
      report := read.contains (.flag "report") }
  if arguments.isConsistent read then .ok arguments else .error .usage

def override (arguments : Arguments) (options : Options) : Options :=
  arguments.overrides.foldl
    (fun options entry => (options.set entry.1 entry.2).toOption.getD options) options

end Arguments

end SelectorTree.CommandLine
