import SelectorTree.Proofs.Html.Tags
import SelectorTree.Proofs.Import.Collecting
import SelectorTree.Proofs.Synthesis.Carrying

/-!
# Sanitized markup

A pass judges the names that elements have, and whoever reads the markup judges the names
that stand there.  Names are written as they are, so the two agree exactly if no name of the
tree contains a character that ends a name.  Names that were not escaped do not.
-/

namespace SelectorTree

open Text

namespace Sanitizer

variable {policy : Sanitize} {before after : Tree} {root id : NodeId} {removed : Nat}
  {data : Element}

/-- A pass does not look at its root. -/
theorem Sanitized.element?_root (sanitized : Sanitized policy before root after removed)
    (linked : before.Linked) : after.element? root = before.element? root := by
  apply Tree.element?_congr
  rw [sanitized.payload?_eq, if_neg fun kept => linked.not_below_self root kept.1.1]

/-- What is left of an element has its tag and some of its attributes. -/
theorem Sanitized.plainNames (sanitized : Sanitized policy before root after removed)
    (linked : before.Linked) (below : after.Below root id) (found : after.element? id = some data)
    (plain : ∀ id data, before.Below root id → before.element? id = some data → data.PlainNames) :
    data.PlainNames := by
  have belowBefore := ((below_iff_not_gone sanitized.pruned linked).mp below).1
  have payload := Tree.payload?_eq_of_element? found
  rw [sanitized.payload?_eq] at payload
  split at payload
  · next kept =>
      obtain ⟨-, old, foundOld, -⟩ := kept.1
      rw [Tree.payload?_eq_of_element? foundOld] at payload
      cases payload
      have names := plain id old belowBefore foundOld
      exact ⟨names.tag, fun entry member => names.attributes entry (List.mem_filter.mp member).1⟩
  · exact plain id data belowBefore (Tree.element?_eq_some_iff.mpr payload)

end Sanitizer

/-! ## Names that are brought into a tree -/

/-- A rule all of whose compounds have plain names for types and attributes. -/
def TreeRule.PlainNames (rule : TreeRule) : Prop :=
  ∀ alternative ∈ rule.selectors, ∀ step ∈ alternative.chain, step.2.PlainNames

/-- Selectors that are written without a backslash have plain names. -/
theorem TreeRule.plainNames_of_ofFlat? {flat : FlatRule} {rule : TreeRule}
    (unescaped : '\\' ∉ flat.selectorText.toList) (read : ofFlat? flat = some rule) :
    rule.PlainNames := by
  have selectors := SelectorList.ofText_eq_ok_iff.mpr (ofFlat?_eq_some_iff.mp read).1
  intro alternative listed
  have names := SelectorList.names_of_ofText (readsGood_plainName unescaped) selectors
    alternative listed
  exact ComplexSelector.forall_mem_chain names.1.plainNames
    fun step inOuter => (names.2 step inOuter).plainNames

variable {options : Options} {rules : List TreeRule}

theorem carries_plainNames (options : Options) (plain : ∀ rule ∈ rules, rule.PlainNames) :
    (Builder.ofRules options rules).Carries fun _ data => data.PlainNames := by
  refine Builder.carries_ofRules options ?_ ?_
  · exact fun data content names => names.withContent content
  · intro rule listed alternative inRule step inChain descriptor built
    obtain ⟨tag, position?, typed, -, -, rfl⟩ := Descriptor.ofCompound_eq_ok_iff.mp built
    have names := (plain rule listed alternative inRule step inChain).elementOf typed
    refine ⟨names.congr rfl rfl, names.congr rfl rfl, fun target merged suited success => ?_⟩
    exact (suited.mergeInto success).congr rfl rfl

/-! ## The markup of a compilation -/

namespace Compilation

/-- The tags that a compilation is written with. -/
def tags (compilation : Compilation) : List Html.Tag :=
  compilation.synthesis.tree.tags compilation.synthesis.body

theorem sanitized_ofRules (options : Options) (rules : List TreeRule) :
    Sanitizer.Sanitized options.sanitize (Builder.ofRules options rules).tree
      (Builder.ofRules options rules).body (ofRules options rules).synthesis.tree
      (ofRules options rules).removed :=
  Sanitizer.sanitized_run (Builder.sound_ofRules options rules).linked _ _

/-- What is true of the tags of the body, and of those of the elements below it, is true of
all tags. -/
theorem forall_mem_tags {property : Html.Tag → Prop}
    (start : property (Html.startOf (Element.ofTag "body")))
    (stop : property (Html.endOf (Element.ofTag "body")))
    (inside : ∀ id data, (ofRules options rules).synthesis.tree.Below
        (ofRules options rules).synthesis.body id →
      (ofRules options rules).synthesis.tree.element? id = some data →
      property (Html.startOf data) ∧ property (Html.endOf data)) :
    ∀ tag ∈ (ofRules options rules).tags, property tag := by
  have sanitized := sanitized_ofRules options rules
  have linked := (Builder.sound_ofRules options rules).linked
  intro tag member
  obtain ⟨id, data, within, found, both⟩ :=
    Tree.exists_element_of_mem_tags sanitized.pruned.linked member
  rcases Relation.reflTransGen_iff_eq_or_transGen.mp within with rfl | below
  · have atBody := Builder.element?_body_ofRules options rules
    rw [← sanitized.element?_root linked] at atBody
    cases found.symm.trans atBody
    rcases both with rfl | rfl
    · exact start
    · exact stop
  · obtain ⟨atStart, atEnd⟩ := inside id data below found
    rcases both with rfl | rfl
    · exact atStart
    · exact atEnd

theorem harmless_tags (everything : options.sanitize = .all) :
    ∀ tag ∈ (ofRules options rules).tags, tag.Harmless := by
  refine forall_mem_tags (by decide) (by decide) fun id data below found => ?_
  have sanitized := sanitized_ofRules options rules
  rw [everything] at sanitized
  have harmless := sanitized.harmless (Builder.sound_ofRules options rules).linked below found rfl
  exact ⟨Html.harmless_startOf harmless, Html.harmless_endOf data⟩

theorem plain_tags (plain : ∀ rule ∈ rules, rule.PlainNames) :
    ∀ tag ∈ (ofRules options rules).tags, tag.Plain := by
  have body : (Element.ofTag "body").PlainNames := Element.plainNames_ofTag (by decide)
  refine forall_mem_tags (Html.plain_startOf body) (Html.plain_endOf body)
    fun id data below found => ?_
  have names := (sanitized_ofRules options rules).plainNames
    (Builder.sound_ofRules options rules).linked below found (carries_plainNames options plain)
  exact ⟨Html.plain_startOf names, Html.plain_endOf names⟩

end Compilation

/-- Without imports every stylesheet compiles, and no tag of a sanitized tree does harm.  A
scanner finds the tags of the tree and no others exactly if all of them are plain.  They are
if the names of types and attributes are, and those are unless a selector contains a backslash. -/
theorem scan_compile (source : Source) (limit : Nat) (text : String)
    (everything : options.sanitize = .all) (skipped : options.imports = .skipped) :
    ∃ flats compilation,
      (Collector.start.collect source options (limit + 1) (.ofText text)).1 = .ok flats ∧
      (compile source options (limit + 1) (.ofText text)).1 = .ok compilation ∧
      (∀ tag ∈ compilation.tags, tag.Harmless) ∧
      (Html.scan compilation.html.toList = compilation.tags ↔
        ∀ tag ∈ compilation.tags, tag.Plain) ∧
      ((∀ rule ∈ compilation.rules, rule.PlainNames) →
        (∀ tag ∈ compilation.tags, tag.Plain) ∧
          ∀ tag ∈ Html.scan compilation.html.toList, tag.Harmless) ∧
      ((∀ flat ∈ flats, '\\' ∉ flat.selectorText.toList) →
        ∀ rule ∈ compilation.rules, rule.PlainNames) := by
  obtain ⟨flats, collected⟩ :
      ∃ flats, (Collector.start.collect source options (limit + 1) (.ofText text)).1 = .ok flats :=
    Collector.exists_collect_of_skipped source skipped limit _
  let compilation := Compilation.ofRules options (flats.filterMap TreeRule.ofFlat?)
  have compiled : (compile source options (limit + 1) (.ofText text)).1 = .ok compilation := by
    simp only [compile, resolveRules, collected, Except.map, compilation]
  have harmless : ∀ tag ∈ compilation.tags, tag.Harmless := Compilation.harmless_tags everything
  have found : Html.scan compilation.html.toList = compilation.tags ↔
      ∀ tag ∈ compilation.tags, tag.Plain := Tree.scan_outerHtml_eq_iff
  refine ⟨flats, compilation, collected, compiled, harmless, found, fun plain => ?_,
    fun unescaped => ?_⟩
  · have tags : ∀ tag ∈ compilation.tags, tag.Plain := Compilation.plain_tags plain
    exact ⟨tags, found.mpr tags ▸ harmless⟩
  · intro rule member
    obtain ⟨flat, listed, read⟩ := List.mem_filterMap.mp member
    exact TreeRule.plainNames_of_ofFlat? (unescaped flat listed) read

/-- A sheet without escapes: a handler, a script, and tags in a value and in a content. -/
def unescapedSheet : String :=
  "A[OnClick=\"go()\"] > Script, p[title='</p><script>'] \x7b content: \"<b>\" \x7d"

/-- The handler and the script are gone, and the tags in the value and in the content are no
tags of the markup. -/
theorem scan_unescapedSheet :
    ∃ compilation, (compile .offline .standard 1 (.ofText unescapedSheet)).1 = .ok compilation ∧
      compilation.html =
        "<body><a></a><p title=\"</p><script>\">&lt;b&gt;</p></body>" ∧
      Html.scan compilation.html.toList = compilation.tags ∧
      ∀ tag ∈ Html.scan compilation.html.toList, tag.Harmless := by
  obtain ⟨flats, compilation, collected, compiled, -, found, safe, written⟩ :=
    @scan_compile .standard .offline 0 unescapedSheet rfl rfl
  have html : (compile .offline .standard 1 (.ofText unescapedSheet)).1.toOption.map
      Compilation.html = some "<body><a></a><p title=\"</p><script>\">&lt;b&gt;</p></body>" := by
    decide +kernel
  have unescaped : ∀ flats ∈ (Collector.start.collect .offline .standard 1
      (.ofText unescapedSheet)).1.toOption, ∀ flat ∈ flats, '\\' ∉ flat.selectorText.toList := by
    decide +kernel
  rw [compiled] at html
  rw [collected] at unescaped
  obtain ⟨plain, harmless⟩ := safe (written (unescaped flats rfl))
  exact ⟨compilation, compiled, Option.some.inj html, found.mpr plain, harmless⟩

/-- An escaped blank is part of the name that the sanitizer looks at, and ends the name that is
found in the markup.  Of a tag it leaves one that is forbidden, and of an attribute a handler. -/
theorem scan_escapedNames :
    (compile .offline .standard 1 (.ofText "script\\ x \x7b\x7d")).1.toOption.map
        Compilation.html = some "<body><script x></script x></body>" ∧
      (∃ tag ∈ Html.scan "<body><script x></script x></body>".toList,
        tag.closing = false ∧ tag.name = "script".toList ∧ ¬tag.Harmless) ∧
      (compile .offline .standard 1 (.ofText "a[x\\ onclick=\"go()\"] \x7b\x7d")).1.toOption.map
        Compilation.html = some "<body><a x onclick=\"go()\"></a></body>" ∧
      ∃ tag ∈ Html.scan "<body><a x onclick=\"go()\"></a></body>".toList,
        "onclick".toList ∈ tag.attributes ∧ ¬tag.Harmless := by
  decide +kernel

end SelectorTree
