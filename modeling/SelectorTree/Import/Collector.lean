import SelectorTree.Import.Response
import SelectorTree.Options
import SelectorTree.Selector.Parser
import SelectorTree.Stylesheet.Nesting
import SelectorTree.Stylesheet.Parser
import SelectorTree.Synthesis.Builder
import SelectorTree.Warnings

/-!
# Collecting rules

The rules of a stylesheet and of the stylesheets that it imports form one
sequence, in which a later rule overwrites an earlier one.  An import stands
where it is written, is followed only at the start of a stylesheet, and is
followed once: an address that was visited is not requested again.

Where the text of an address comes from, and how a relative address is resolved,
is left open.  Nothing keeps an unknown source from importing without end, so
the depth of imports has a limit; running into it is an error of its own.
-/

namespace SelectorTree

open Text

/-- What keeps the rules from being collected. -/
inductive CompileError where
  | importStatus (url : String) (status : Nat)
  | fetch (error : FetchError)
  | invalidUrl (address : String)
  | importsTooDeep
deriving DecidableEq

def CompileError.message : CompileError → String
  | importStatus url status =>
    "import of " ++ url ++ " failed with status " ++ toString status
  | fetch error => error.message
  | invalidUrl address => "cannot resolve import '" ++ address ++ "'"
  | importsTooDeep => "imports are nested too deeply"

/-- How addresses are resolved against a base, and what they hold. -/
structure Source where
  resolve : String → Option String → Option String
  fetch : String → Except FetchError Response

/-- What has been done so far: the addresses that need not be visited again,
those that were requested, in order, and the warnings given. -/
structure Collector where
  visited : List String
  requested : List String
  warnings : Warnings

/-- Rules or an error, and what has been done to get there. -/
abbrev Collected : Type := Except CompileError (List FlatRule) × Collector

namespace Collector

def start : Collector := ⟨[], [], .empty⟩

def warn (collector : Collector) (message : String) : Collector :=
  { collector with warnings := collector.warnings.warn "CSS" message }

def warnAll (collector : Collector) (messages : List String) : Collector :=
  messages.foldl warn collector

def visit (collector : Collector) (url : String) : Collector :=
  if url ∈ collector.visited then collector
  else { collector with visited := collector.visited ++ [url] }

def request (collector : Collector) (url : String) : Collector :=
  { collector.visit url with requested := collector.requested ++ [url] }

/-- Follows the import of an address relative to a base.  `collectSheet`
collects the stylesheet that is found there. -/
def followImport (source : Source)
    (collectSheet : Option String → Stylesheet → Collector → Collected)
    (base : Option String) (rule : AtRule) (collector : Collector) : Collected :=
  match rule.importAddress? with
  | none => (.ok [], collector.warn ("@import without a URL: " ++ rule.preludeText))
  | some address =>
    match source.resolve address base with
    | none => (.error (.invalidUrl address), collector)
    | some url =>
      if url ∈ collector.visited then (.ok [], collector)
      else
        match source.fetch url with
        | .error error => (.error (.fetch error), collector.request url)
        | .ok response =>
          if response.isSuccess then
            collectSheet (some url) (.ofText response.body) (collector.request url)
          else (.error (.importStatus url response.status), collector.request url)

/-- Whether imports may still follow a rule: only imports and the rules
`charset` and `layer` may come before them. -/
def allowsImports : Rule → Bool
  | .style _ _ _ => false
  | .atRule rule =>
    sameLetters rule.name "import" || sameLetters rule.name "charset" ||
      sameLetters rule.name "layer"

/-- Collects one rule.  `allowed` says whether an import may stand here. -/
def collectRule (follow : AtRule → Collector → Collected) (imports : Imports)
    (imported allowed : Bool) (rule : Rule) (collector : Collector) : Collected :=
  match rule with
  | .style _ _ _ =>
    let flattened := Flattened.ofRule imported [] rule
    (.ok flattened.rules, collector.warnAll flattened.warnings)
  | .atRule atRule =>
    if sameLetters atRule.name "import" then
      if !allowed then (.ok [], collector.warn "@import after other rules is ignored")
      else
        match imports with
        | .skipped => (.ok [], collector)
        | .followed => follow atRule collector
    else (.ok [], collector.warn ("@" ++ lower atRule.name ++ " rules are ignored"))

/-- Collects rules one after the other; the first error ends it. -/
def collectRules (follow : AtRule → Collector → Collected) (imports : Imports)
    (imported : Bool) : Bool → List Rule → Collector → Collected
  | _, [], collector => (.ok [], collector)
  | allowed, rule :: rest, collector =>
    let first := collectRule follow imports imported allowed rule collector
    match first.1 with
    | .error error => (.error error, first.2)
    | .ok rules =>
      let others :=
        collectRules follow imports imported (allowed && allowsImports rule) rest first.2
      (others.1.map (rules ++ ·), others.2)

/-- Collects a stylesheet; its imports may be nested as deep as the limit. -/
def collectSheet (source : Source) (imports : Imports) :
    Nat → Bool → Option String → Stylesheet → Collector → Collected
  | 0, _, _, _, collector => (.error .importsTooDeep, collector)
  | limit + 1, imported, base, sheet, collector =>
    collectRules (followImport source (collectSheet source imports limit true) base) imports
      imported true sheet.rules collector

/-- The address of the root stylesheet in the form in which imports are
resolved. -/
def rootBase (source : Source) (options : Options) : Option String :=
  options.baseUrl.map fun base => (source.resolve base none).getD base

def collect (source : Source) (options : Options) (limit : Nat) (collector : Collector)
    (sheet : Stylesheet) : Collected :=
  let base := rootBase source options
  let started := (base.map collector.visit).getD collector
  collectSheet source options.imports limit false base sheet started

end Collector

/-- The rule with its selectors read; a rule whose selectors do not read is
dropped. -/
def TreeRule.ofFlat? (flat : FlatRule) : Option TreeRule :=
  match SelectorList.ofText flat.selectorText with
  | .ok selectors => some ⟨selectors, flat.content, flat.imported⟩
  | .error _ => none

end SelectorTree
