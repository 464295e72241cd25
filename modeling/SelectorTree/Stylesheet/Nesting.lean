import SelectorTree.Stylesheet.Basic
import SelectorTree.Text.Quoted

/-!
# Flattening nested rules

A nested rule stands for a rule of its own, whose selectors are combined with
each selector of the rule around it.  The outer rule comes first.
-/

namespace SelectorTree

open Text

namespace Nesting

/-- Replaces each `&` outside strings by other characters, and says whether
there was one.  `quote` is the quote that opened the string around the
characters. -/
def substitute (parent : List Char) (quote : Option Char) : List Char → List Char × Bool
  | [] => ([], false)
  | ['\\'] => (['\\'], false)
  | '\\' :: escaped :: rest =>
    let tail := substitute parent quote rest
    ('\\' :: escaped :: tail.1, tail.2)
  | c :: rest =>
    if quote = none ∧ c = '&' then
      (parent ++ (substitute parent none rest).1, true)
    else
      let inside :=
        match quote with
        | none => if isQuote c then some c else none
        | some opened => if c = opened then none else some opened
      let tail := substitute parent inside rest
      (c :: tail.1, tail.2)

/-- Combines a nested selector with a selector of the rule around it: it takes
the place of each `&`, and of a blank in front if there is none. -/
def nest (parent selector : String) : String :=
  let substituted := substitute parent.toList none selector.toList
  if substituted.2 then String.ofList substituted.1 else parent ++ " " ++ selector

end Nesting

/-- A rule without nesting: the text of its selectors and its content. -/
structure FlatRule where
  selectorText : String
  content : Option String
  imported : Bool
deriving DecidableEq

/-- The rules that nested rules stand for, and the warnings about what was
ignored among them. -/
structure Flattened where
  rules : List FlatRule
  warnings : List String

namespace Flattened

def empty : Flattened := ⟨[], []⟩

def append (left right : Flattened) : Flattened :=
  ⟨left.rules ++ right.rules, left.warnings ++ right.warnings⟩

/-- The selectors of a rule, combined with those of the rule around it if it is
nested. -/
def qualify (parents selectors : List String) : List String :=
  if parents = [] then selectors
  else parents.flatMap fun parent => selectors.map (Nesting.nest parent)

mutual

/-- Flattens a rule; one without selectors is dropped with all it holds. -/
def ofRule (imported : Bool) (parents : List String) : Rule → Flattened
  | .style selectors declarations nested =>
    let qualified := qualify parents selectors
    if qualified = [] then empty
    else
      let content := (Declaration.last? declarations "content").map Declaration.valueText
      append ⟨[⟨", ".intercalate qualified, content, imported⟩], []⟩
        (ofRules imported qualified nested)
  | .atRule rule => ⟨[], ["nested @" ++ lower rule.name ++ " rules are ignored"]⟩

/-- Flattens rules nested in one rule. -/
def ofRules (imported : Bool) (parents : List String) : List Rule → Flattened
  | [] => empty
  | rule :: rest => append (ofRule imported parents rule) (ofRules imported parents rest)

end

end Flattened

end SelectorTree
