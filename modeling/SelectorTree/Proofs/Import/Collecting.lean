import SelectorTree.Compilation
import SelectorTree.Proofs.Selector.Reading

/-!
# Collecting without imports

A sheet that holds style rules alone is collected without any import: its rules are
flattened in order, whatever the source, the options and the limit.  If imports are
skipped, no sheet at all is requested, and nothing keeps the rules from being collected.
-/

namespace SelectorTree

/-- Whether a rule is a style rule. -/
def Rule.isStyle : Rule → Bool
  | .style _ _ _ => true
  | .atRule _ => false

variable {imports : Imports} {imported allowed : Bool} {rules : List Rule}
  {follow : AtRule → Collector → Collected} {collector : Collector}

theorem Collector.collectRules_of_styles (styles : ∀ rule ∈ rules, rule.isStyle = true) :
    (collectRules follow imports imported allowed rules collector).1 =
      .ok (rules.flatMap fun rule => (Flattened.ofRule imported [] rule).rules) := by
  induction rules generalizing allowed collector with
  | nil => rfl
  | cons rule rules ih =>
      obtain ⟨style, others⟩ := List.forall_mem_cons.mp styles
      cases rule with
      | atRule rule => cases style
      | style selectors declarations nested =>
          simp only [collectRules, collectRule, ih others, List.flatMap_cons, Except.map]

/-- The rules that are read from a sheet of style rules are those of its flattened rules
whose selectors read. -/
theorem resolveRules_of_styles (source : Source) (options : Options) (limit : Nat)
    (styles : ∀ rule ∈ rules, rule.isStyle = true) :
    (resolveRules source options (limit + 1) ⟨rules⟩).1 =
      .ok ((rules.flatMap fun rule => (Flattened.ofRule false [] rule).rules).filterMap
        TreeRule.ofFlat?) := by
  simp only [resolveRules, Collector.collect, Collector.collectSheet,
    Collector.collectRules_of_styles styles, Except.map]

/-- If imports are skipped, style rules are flattened in order, and at-rules hold none. -/
theorem Collector.collectRules_of_skipped :
    (collectRules follow .skipped imported allowed rules collector).1 =
      .ok (rules.flatMap fun rule => (Flattened.ofRule imported [] rule).rules) := by
  induction rules generalizing allowed collector with
  | nil => rfl
  | cons rule rules ih =>
      have first : (collectRule follow .skipped imported allowed rule collector).1 =
          .ok (Flattened.ofRule imported [] rule).rules := by
        cases rule with
        | style selectors declarations nested => rfl
        | atRule rule =>
            rw [collectRule, Flattened.ofRule]
            split
            · split <;> rfl
            · rfl
      simp only [collectRules, first, ih, List.flatMap_cons, Except.map]

theorem Collector.collect_of_skipped (source : Source) {options : Options}
    (skipped : options.imports = .skipped) (limit : Nat) (sheet : Stylesheet) :
    (collector.collect source options (limit + 1) sheet).1 =
      .ok (sheet.rules.flatMap fun rule => (Flattened.ofRule false [] rule).rules) := by
  simp only [collect, collectSheet, skipped]
  exact collectRules_of_skipped

/-- A sheet is always collected if imports are skipped. -/
theorem Collector.exists_collect_of_skipped (source : Source) {options : Options}
    (skipped : options.imports = .skipped) (limit : Nat) (sheet : Stylesheet) :
    ∃ flats, (collector.collect source options (limit + 1) sheet).1 = .ok flats :=
  ⟨_, collect_of_skipped source skipped limit sheet⟩

theorem TreeRule.ofFlat?_eq_some_iff {flat : FlatRule} {rule : TreeRule} :
    ofFlat? flat = some rule ↔ SelectorList.readAll flat.selectorText.toList = .ok rule.selectors ∧
      rule.content = flat.content ∧ rule.imported = flat.imported := by
  rw [← SelectorList.ofText_eq_ok_iff, ofFlat?]
  cases SelectorList.ofText flat.selectorText with
  | error error => simp
  | ok selectors =>
      cases rule
      simp [eq_comm]

end SelectorTree
