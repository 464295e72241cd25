import SelectorTree.Import.Collector
import SelectorTree.Import.DataUrl
import SelectorTree.Sanitizer
import SelectorTree.Synthesis.Verify
import SelectorTree.Tree.Html
import SelectorTree.Url.Parser

/-!
# Compiling stylesheets

The rules of a stylesheet are collected, the tree that they describe is built,
and the tree is sanitized.  Only an import can make it fail.
-/

namespace SelectorTree

/-- Addresses are resolved, and only those that hold their data are followed. -/
def Source.offline : Source where
  resolve := Url.resolve
  fetch url :=
    if DataUrl.isDataUrl url then DataUrl.fetch url else .error (.client "there is no network")

/-- The rules of a stylesheet and its imports whose selectors read, in order. -/
def resolveRules (source : Source) (options : Options) (limit : Nat) (sheet : Stylesheet) :
    Except CompileError (List TreeRule) × Collector :=
  let collected := Collector.start.collect source options limit sheet
  (collected.1.map (·.filterMap TreeRule.ofFlat?), collected.2)

/-- A sanitized tree, the rules it was built from, and the number of elements
that the sanitizer cut out. -/
structure Compilation where
  synthesis : Synthesis
  rules : List TreeRule
  removed : Nat

namespace Compilation

/-- Builds and sanitizes the tree of a list of rules. -/
def ofRules (options : Options) (rules : List TreeRule) : Compilation :=
  let synthesis := synthesize options rules
  let sanitized := Sanitizer.run options.sanitize synthesis.tree synthesis.body
  ⟨{ synthesis with tree := sanitized.1 }, rules, sanitized.2⟩

def html (compilation : Compilation) : String :=
  compilation.synthesis.tree.outerHtml compilation.synthesis.body

def outline (compilation : Compilation) : String :=
  compilation.synthesis.tree.outline compilation.synthesis.body

def unmatched (compilation : Compilation) : List Unmatched :=
  compilation.synthesis.unmatched compilation.rules

end Compilation

/-- Compiles a stylesheet whose imports may be nested as deep as the limit. -/
def compile (source : Source) (options : Options) (limit : Nat) (sheet : Stylesheet) :
    Except CompileError Compilation × Collector :=
  let resolved := resolveRules source options limit sheet
  (resolved.1.map (Compilation.ofRules options), resolved.2)

end SelectorTree
