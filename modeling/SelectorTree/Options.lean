/-!
# Options

Each choice is a closed set of values with one spelling each, shared by
configuration files and command lines.  What is not given takes its default.
-/

namespace SelectorTree

/-- A set of choices, each with its spelling. -/
class Choice (α : Type) where
  choices : List α
  spelling : α → String

def Choice.ofText? {α : Type} [Choice α] (text : String) : Option α :=
  choices.find? fun choice => spelling choice == text

/-- What becomes of a rule that describes an element which is there already. -/
inductive Duplicates where
  | preserve
  | remove
deriving DecidableEq

instance : Choice Duplicates where
  choices := [.preserve, .remove]
  spelling
    | .preserve => "preserve"
    | .remove => "remove"

/-- Whether gaps before a position are filled with placeholders. -/
inductive Fill where
  | fill
  | noFill
deriving DecidableEq

instance : Choice Fill where
  choices := [.fill, .noFill]
  spelling
    | .fill => "fill"
    | .noFill => "no-fill"

/-- Whether imports are followed. -/
inductive Imports where
  | followed
  | skipped
deriving DecidableEq

instance : Choice Imports where
  choices := [.followed, .skipped]
  spelling
    | .followed => "include"
    | .skipped => "style-only"

/-- Whether an element with a position may merge into the one that is there. -/
inductive MergeNth where
  | merge
  | noMerge
deriving DecidableEq

instance : Choice MergeNth where
  choices := [.merge, .noMerge]
  spelling
    | .merge => "merge"
    | .noMerge => "no-merge"

/-- Which elements are sanitized. -/
inductive Sanitize where
  | all
  | imports
  | off
deriving DecidableEq

instance : Choice Sanitize where
  choices := [.all, .imports, .off]
  spelling
    | .all => "all"
    | .imports => "imports"
    | .off => "off"

/-- The options of one compilation.  Relative imports of the root stylesheet
are resolved against `baseUrl`. -/
structure Options where
  duplicates : Duplicates
  fill : Fill
  imports : Imports
  mergeNth : MergeNth
  sanitize : Sanitize
  baseUrl : Option String
deriving DecidableEq

/-- Why an option cannot be set. -/
inductive OptionError where
  | unknownOption (key : String)
  | invalidValue (key value : String)
deriving DecidableEq

def OptionError.message : OptionError → String
  | unknownOption key => "unknown option '" ++ key ++ "'"
  | invalidValue key value => "invalid value '" ++ value ++ "' for option '" ++ key ++ "'"

namespace Options

def standard : Options := ⟨.remove, .fill, .skipped, .merge, .all, none⟩

def choose {α : Type} [Choice α] (key value : String) : Except OptionError α :=
  match Choice.ofText? value with
  | some choice => .ok choice
  | none => .error (.invalidValue key value)

def set (options : Options) (key value : String) : Except OptionError Options :=
  match key with
  | "duplicates" => (choose key value).map fun duplicates => { options with duplicates }
  | "fill" => (choose key value).map fun policy => { options with fill := policy }
  | "imports" => (choose key value).map fun imports => { options with imports }
  | "merge-nth" => (choose key value).map fun mergeNth => { options with mergeNth }
  | "sanitize" => (choose key value).map fun sanitize => { options with sanitize }
  | "base-url" => .ok { options with baseUrl := some value }
  | _ => .error (.unknownOption key)

end Options

end SelectorTree
