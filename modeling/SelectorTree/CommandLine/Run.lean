import SelectorTree.CommandLine.Arguments
import SelectorTree.Compilation
import SelectorTree.Options.Json

/-!
# Running the command line

The configuration is read first, then the stylesheet, and the compiled tree is
written.  Files and the standard input are reached through functions in an
arbitrary monad.
-/

namespace SelectorTree.CommandLine

/-- What a run leaves behind: its exit code, its output, and its messages. -/
structure Outcome where
  code : Nat
  output : String
  messages : String
deriving DecidableEq

/-- What a run can reach.  A file that cannot be read gives the reason. -/
structure Surroundings (m : Type → Type) where
  readFile : String → m (Except String String)
  readInput : m String
  source : Source

/-- Why a run fails. -/
inductive Failure where
  | configUnreadable (path reason : String)
  | configInvalid
  | noStylesheet
  | fileUnreadable (path reason : String)
  | fetch (error : FetchError)
  | badStatus (url : String) (status : Nat)
  | compile (error : CompileError)
deriving DecidableEq

namespace Failure

def message : Failure → String
  | configUnreadable path reason => "failed to read config file " ++ path ++ ": " ++ reason
  | configInvalid => "invalid config"
  | noStylesheet => "no stylesheet given; pass a FILE, a URL, `-` or --css"
  | fileUnreadable path _ => "failed to read " ++ path
  | fetch error => error.message
  | badStatus url status => url ++ " answered with status " ++ toString status
  | compile error => error.message

/-- The reason behind a failure, where it is reported separately. -/
def cause? : Failure → Option String
  | configUnreadable _ reason => some reason
  | fileUnreadable _ reason => some reason
  | _ => none

def report (failure : Failure) : String :=
  let cause := (failure.cause?.map ("\n\nCaused by:\n    " ++ ·)).getD ""
  "Error: " ++ failure.message ++ cause ++ "\n"

end Failure

/-! ## Messages -/

/-- A text between two terminal codes. -/
def styled (on off : Nat) (text : String) : String :=
  "\x1b[" ++ toString on ++ "m" ++ text ++ "\x1b[" ++ toString off ++ "m"

def bold : String → String := styled 1 0

def dimmed : String → String := styled 2 0

def green : String → String := styled 32 39

def yellow : String → String := styled 33 39

def reportText (compilation : Compilation) : String :=
  let report := compilation.synthesis.report
  bold "Synthesis" ++
    "\n  rules         " ++ toString report.rules ++
    "\n  alternatives  " ++ toString report.alternatives ++
    "\n  skipped       " ++ toString report.skipped ++
    "\n  created       " ++ toString report.created ++
    "\n  merged        " ++ toString report.merged ++
    "\n  fillers       " ++ toString report.fillers ++
    "\n  sanitized     " ++ toString compilation.removed ++ "\n"

def unmatchedLine (unmatched : Unmatched) : String :=
  let origin := if unmatched.imported then " (imported)" else ""
  bold (yellow "unmatched:") ++ " " ++ unmatched.selector ++ dimmed origin ++ "\n"

def unmatchedText (compilation : Compilation) : String :=
  match compilation.unmatched with
  | [] => green "every selector matches" ++ "\n"
  | unmatched => String.join (unmatched.map unmatchedLine)

/-! ## Runs -/

def importLimit : Nat := 100000

section

variable {m : Type → Type} [Monad m]

/-- The options of the configuration file, with those of the command line set. -/
def readOptions (surroundings : Surroundings m) (arguments : Arguments) :
    ExceptT Failure m Options := do
  match arguments.config? with
  | none => return arguments.override .standard
  | some path =>
    match ← surroundings.readFile path with
    | .error reason => throw (.configUnreadable path reason)
    | .ok text =>
      match Options.ofText? text with
      | none => throw .configInvalid
      | some options => return arguments.override options

/-- The stylesheet at an address, which is the base of its imports unless the
options name another. -/
def fetchSheet (source : Source) (options : Options) (url : String) :
    Except Failure (String × Options) :=
  match source.fetch url with
  | .error error => .error (.fetch error)
  | .ok response =>
    if response.isSuccess then
      .ok (response.body, { options with baseUrl := options.baseUrl.or (some url) })
    else .error (.badStatus url response.status)

def readSheet (surroundings : Surroundings m) (arguments : Arguments) (options : Options) :
    ExceptT Failure m (String × Options) := do
  match arguments.css?, arguments.input? with
  | some css, _ => return (css, options)
  | none, none => throw .noStylesheet
  | none, some input =>
    if input = "-" then return (← surroundings.readInput, options)
    else if Url.isHttp input then fetchSheet surroundings.source options input
    else
      match ← surroundings.readFile input with
      | .error reason => throw (.fileUnreadable input reason)
      | .ok text => return (text, options)

def compileInput (surroundings : Surroundings m) (arguments : Arguments) :
    ExceptT Failure m Compilation := do
  let options ← readOptions surroundings arguments
  let (text, completed) ← readSheet surroundings arguments options
  match (compile surroundings.source completed importLimit (.ofText text)).1 with
  | .error error => throw (.compile error)
  | .ok compilation => return compilation

/-- What a compilation is reported as. -/
def succeed (arguments : Arguments) (compilation : Compilation) : Outcome where
  code := 0
  output := if arguments.tree then compilation.outline else compilation.html ++ "\n"
  messages :=
    (if arguments.report then reportText compilation else "") ++
      if arguments.verify then unmatchedText compilation else ""

def refuse : Refusal → Outcome
  | .usage => ⟨2, "", "error: these arguments do not go together\n"⟩
  | .help => ⟨0, "", ""⟩
  | .version => ⟨0, "stylecast 0.1.0\n", ""⟩

def run (surroundings : Surroundings m) (texts : List String) : m Outcome := do
  match Arguments.ofTexts texts with
  | .error refusal => return refuse refusal
  | .ok arguments =>
    match ← (compileInput surroundings arguments).run with
    | .error failure => return ⟨1, "", failure.report⟩
    | .ok compilation => return succeed arguments compilation

end

end SelectorTree.CommandLine
