import SelectorTree.Proofs.Import.Termination
import SelectorTree.Proofs.Stylesheet.Reading

/-!
# Imports are inlining

A sheet whose imports all lead to sheets of their own, each to another one, stands for one sheet
without imports that are followed: every import that may stand where it does gives way to the
rules of its target, whose imports were replaced before.  Collecting both gives the same rules.
-/

namespace SelectorTree

/-! ## Marks of flat rules -/

/-- A flat rule of a sheet that is imported, or of one that is not. -/
def FlatRule.marked (imported : Bool) (flat : FlatRule) : FlatRule := { flat with imported }

/-- What shows of a flat rule in a tree, its origin aside. -/
def FlatRule.shown (flat : FlatRule) : String × Option String := (flat.selectorText, flat.content)

namespace Flattened

mutual

/-- Flattening marks every rule as its sheet is marked, and does nothing else with the mark. -/
theorem ofRule_eq_map_marked (imported : Bool) (parents : List String) (rule : Rule) :
    (ofRule imported parents rule).rules =
      (ofRule false parents rule).rules.map (FlatRule.marked imported) := by
  match rule with
  | .atRule rule => rfl
  | .style selectors declarations nested =>
      rw [ofRule, ofRule]
      dsimp only
      split
      · rfl
      · exact congrArg (_ :: ·) (ofRules_eq_map_marked imported _ nested)

theorem ofRules_eq_map_marked (imported : Bool) (parents : List String) (rules : List Rule) :
    (ofRules imported parents rules).rules =
      (ofRules false parents rules).rules.map (FlatRule.marked imported) := by
  match rules with
  | [] => rfl
  | rule :: rest =>
      rw [ofRules, ofRules, append, append, List.map_append,
        ← ofRule_eq_map_marked imported parents rule, ← ofRules_eq_map_marked imported parents rest]

end

end Flattened

/-! ## Inlined sheets -/

/-- A rule of an inlined sheet.  `imported` says whether an imported sheet held it. -/
structure InlinedRule where
  rule : Rule
  imported : Bool

/-- The flat rules that a rule of an inlined sheet stands for. -/
def InlinedRule.flats (piece : InlinedRule) : List FlatRule :=
  (Flattened.ofRule false [] piece.rule).rules.map (FlatRule.marked piece.imported)

namespace Collector

/-- An import that names an address, with nothing before it in its sheet but imports and the
rules `charset` and `layer`. -/
def Follows (before : List Rule) : Rule → Prop
  | .style _ _ _ => False
  | .atRule rule =>
      rule.importAddress?.isSome = true ∧ ∀ earlier ∈ before, allowsImports earlier = true

instance (before : List Rule) (rule : Rule) : Decidable (Follows before rule) :=
  match rule with
  | .style _ _ _ => .isFalse id
  | .atRule rule => inferInstanceAs (Decidable (rule.importAddress?.isSome = true ∧
      ∀ earlier ∈ before, allowsImports earlier = true))

/-- Replacing all imports of a sheet that are followed, and all in their targets, gives a sheet.
The rules `before` come first in the sheet that is read, and `urls` are the addresses that are
reached, each as often as it is. -/
inductive Inlines (source : Source) :
    Bool → Option String → List Rule → List Rule → List String → List InlinedRule → Prop where
  | done {imported base before} : Inlines source imported base before [] [] []
  | follow {imported base before rule rest address url response inside inner behind outer}
      (follows : Follows before (.atRule rule)) (names : rule.importAddress? = some address)
      (resolves : source.resolve address base = some url)
      (answers : source.fetch url = .ok response) (success : response.isSuccess = true)
      (target : Inlines source true (some url) [] (Stylesheet.ofText response.body).rules inside
        inner)
      (others : Inlines source imported base (before ++ [.atRule rule]) rest behind outer) :
      Inlines source imported base before (.atRule rule :: rest) (url :: inside ++ behind)
        (inner ++ outer)
  | keep {imported base before rule rest urls whole} (stays : ¬ Follows before rule)
      (others : Inlines source imported base (before ++ [rule]) rest urls whole) :
      Inlines source imported base before (rule :: rest) urls (⟨rule, imported⟩ :: whole)

variable {source : Source} {options : Options} {imported : Bool} {base : Option String}
  {before rules : List Rule} {rule : Rule} {urls : List String} {whole : List InlinedRule}
  {limit : Nat} {collector : Collector}

theorem visited_warnAll (messages : List String) :
    (collector.warnAll messages).visited = collector.visited := by
  induction messages generalizing collector with
  | nil => rfl
  | cons message messages ih => exact ih

/-- A rule that is no import to be followed gives its own flat rules, and no address is
visited. -/
theorem collectRule_of_keeps {collectSheet : Option String → Stylesheet → Collector → Collected}
    (stays : ¬ Follows before rule) :
    ∃ after, collectRule (followImport source collectSheet base) .followed imported
        (before.all allowsImports) rule collector =
          (.ok (InlinedRule.flats ⟨rule, imported⟩), after) ∧
      after.visited = collector.visited := by
  cases rule with
  | style selectors declarations nested =>
      have marks :=
        Flattened.ofRule_eq_map_marked imported [] (.style selectors declarations nested)
      exact ⟨_, Prod.ext (congrArg Except.ok marks) rfl, visited_warnAll _⟩
  | atRule rule =>
      rw [collectRule]
      split
      · split
        · exact ⟨_, rfl, rfl⟩
        · next allowed =>
            have early : ∀ earlier ∈ before, allowsImports earlier = true := by
              simpa using allowed
            have nameless : rule.importAddress? = none := by
              rw [← Option.not_isSome_iff_eq_none]
              exact fun named => stays ⟨named, early⟩
            rw [followImport, nameless]
            exact ⟨_, rfl, rfl⟩
      · exact ⟨_, rfl, rfl⟩

theorem isImport_of_importAddress? {rule : AtRule} {address : String}
    (names : rule.importAddress? = some address) :
    Text.sameLetters rule.name "import" = true := by
  rw [AtRule.importAddress?] at names
  split at names
  · assumption
  · cases names

theorem visited_request {url : String} (fresh : url ∉ collector.visited) :
    (collector.request url).visited = collector.visited ++ [url] := by
  rw [request, visit, if_neg fresh]

/-- An import that is followed gives what its target gives. -/
theorem collectRule_of_follows {collectSheet : Option String → Stylesheet → Collector → Collected}
    {rule : AtRule} {address url : String} {response : Response}
    (follows : Follows before (.atRule rule)) (names : rule.importAddress? = some address)
    (resolves : source.resolve address base = some url)
    (answers : source.fetch url = .ok response) (success : response.isSuccess = true)
    (fresh : url ∉ collector.visited) :
    collectRule (followImport source collectSheet base) .followed imported
        (before.all allowsImports) (.atRule rule) collector =
      collectSheet (some url) (.ofText response.body) (collector.request url) := by
  have allowed : before.all allowsImports = true := List.all_eq_true.mpr follows.2
  simp [collectRule, isImport_of_importAddress? names, allowed, followImport, names, resolves,
    fresh, answers, success]

/-- Addresses none of which is listed twice or was visited before. -/
structure AreNew (visited urls : List String) : Prop where
  distinct : urls.Nodup
  fresh : ∀ url ∈ urls, url ∉ visited

/-- Addresses are new one after the other. -/
theorem areNew_append {visited first second : List String}
    (new : AreNew visited (first ++ second)) :
    AreNew visited first ∧ AreNew (visited ++ first) second := by
  obtain ⟨distinctFirst, distinctSecond, apart⟩ := List.nodup_append.mp new.distinct
  obtain ⟨freshFirst, freshSecond⟩ := List.forall_mem_append.mp new.fresh
  refine ⟨⟨distinctFirst, freshFirst⟩, distinctSecond, fun url member visited => ?_⟩
  rcases List.mem_append.mp visited with before | listed
  · exact freshSecond url member before
  · exact apart url listed url member rfl

/-- The rules of a sheet are collected as those of the sheet it stands for, if all addresses that
are reached are new.  They count as visited then. -/
theorem collectRules_of_inlines (inlines : Inlines source imported base before rules urls whole)
    (new : AreNew collector.visited urls) (enough : urls.length ≤ limit) :
    ∃ after, collectRules (followImport source (collectSheet source .followed limit true) base)
        .followed imported (before.all allowsImports) rules collector =
          (.ok (whole.flatMap InlinedRule.flats), after) ∧
      after.visited = collector.visited ++ urls := by
  induction inlines generalizing limit collector with
  | done => exact ⟨collector, rfl, by simp⟩
  | @follow imported base before rule rest address url response inside inner behind outer follows
      names resolves answers success target others ihTarget ihOthers =>
      obtain ⟨newTarget, newBehind⟩ := areNew_append new
      obtain ⟨newUrl, newInside⟩ := areNew_append (List.singleton_append.symm ▸ newTarget)
      have freshUrl := newUrl.fresh url (List.mem_singleton_self url)
      have visitedUrl := visited_request freshUrl
      cases limit with
      | zero => exact absurd enough (Nat.not_succ_le_zero _)
      | succ limit =>
          rw [List.cons_append, List.length_cons, List.length_append] at enough
          have enoughInside : inside.length ≤ limit := by omega
          have enoughBehind : behind.length ≤ limit + 1 := by omega
          rw [← visitedUrl] at newInside
          obtain ⟨middle, collected, visitedMiddle⟩ := ihTarget newInside enoughInside
          rw [visitedUrl, List.append_assoc, List.singleton_append] at visitedMiddle
          rw [← visitedMiddle] at newBehind
          obtain ⟨after, later, visitedAfter⟩ := ihOthers newBehind enoughBehind
          have first : collectRule
              (followImport source (collectSheet source .followed (limit + 1) true) base) .followed
              imported (before.all allowsImports) (.atRule rule) collector =
                (.ok (inner.flatMap InlinedRule.flats), middle) := by
            rw [collectRule_of_follows follows names resolves answers success freshUrl]
            exact collected
          rw [List.all_append, List.all_cons, List.all_nil, Bool.and_true] at later
          refine ⟨after, ?_, ?_⟩
          · simp only [collectRules, first, later, Except.map, List.flatMap_append]
          · rw [visitedAfter, visitedMiddle, List.append_assoc]
  | @keep imported base before rule rest urls whole stays others ih =>
      obtain ⟨middle, first, sameVisited⟩ :
          ∃ middle, collectRule
              (followImport source (collectSheet source .followed limit true) base) .followed
              imported (before.all allowsImports) rule collector =
                (.ok (InlinedRule.flats ⟨rule, imported⟩), middle) ∧
            middle.visited = collector.visited := collectRule_of_keeps stays
      rw [← sameVisited] at new
      obtain ⟨after, later, visited⟩ := ih new enough
      refine ⟨after, ?_, by rw [visited, sameVisited]⟩
      rw [List.all_append, List.all_cons, List.all_nil, Bool.and_true] at later
      simp only [collectRules, first, later, Except.map, List.flatMap_cons]

theorem mem_visited_opened {url : String}
    (visited : url ∈ (collector.opened source options).visited) :
    url ∈ collector.visited ∨ url ∈ (rootBase source options).toList := by
  rw [opened] at visited
  cases root : rootBase source options with
  | none =>
      rw [root] at visited
      exact Or.inl visited
  | some base =>
      rw [root, Option.map_some, Option.getD_some, visit] at visited
      split at visited
      · exact Or.inl visited
      · exact List.mem_append.mp visited

/-- What shows of the flat rules does not tell which sheet held them. -/
theorem shown_flats (piece : InlinedRule) :
    piece.flats.map FlatRule.shown =
      (Flattened.ofRule false [] piece.rule).rules.map FlatRule.shown := by
  rw [InlinedRule.flats, List.map_map]
  rfl

/-- Imports are inlining: collecting a sheet with its imports gives the rules that collecting the
inlined sheet without imports gives, in the same order and with the same selectors and contents,
if no address is reached twice and the root's own is not reached.  A rule is marked as imported if
and only if an imported sheet held it.  The limit on nested imports does not count when it is above
the number of addresses. -/
theorem collect_of_inlines (followed : options.imports = .followed) {sheet : Stylesheet}
    (inlines : Inlines source false (rootBase source options) [] sheet.rules urls whole)
    (distinct : ((rootBase source options).toList ++ urls).Nodup)
    (fresh : ∀ url ∈ urls, url ∉ collector.visited) (enough : urls.length < limit)
    (skippedLimit : Nat) (other : Collector) :
    ∃ rules plain,
      (collector.collect source options limit sheet).1 = .ok rules ∧
      (other.collect source { options with imports := .skipped } (skippedLimit + 1)
        ⟨whole.map InlinedRule.rule⟩).1 = .ok plain ∧
      rules.map FlatRule.shown = plain.map FlatRule.shown ∧
      rules = whole.flatMap InlinedRule.flats := by
  cases limit with
  | zero => exact absurd enough (Nat.not_lt_zero _)
  | succ limit =>
      have new : AreNew (collector.opened source options).visited urls := by
        obtain ⟨-, distinctUrls, apart⟩ := List.nodup_append.mp distinct
        refine ⟨distinctUrls, fun url member visited => ?_⟩
        rcases mem_visited_opened visited with before | root
        · exact fresh url member before
        · exact apart url root url member rfl
      obtain ⟨after, collected, -⟩ :=
        collectRules_of_inlines inlines new (Nat.le_of_lt_succ enough)
      refine ⟨_, _, ?_, collect_of_skipped source rfl skippedLimit _, ?_, rfl⟩
      · rw [collect, collectSheet, followed]
        exact congrArg Prod.fst collected
      · rw [List.map_flatMap, List.flatMap_map, List.map_flatMap]
        exact congrArg (whole.flatMap ·) (funext shown_flats)

/-- Two sheets below each other, of which the outer one imports the inner one. -/
def nestedSheets : Source where
  resolve address base := some (base.getD "" ++ "/" ++ address)
  fetch url :=
    if url = "/site/a.css" then .ok ⟨200, "@import 'b.css'; p\x7b\x7d"⟩
    else if url = "/site/a.css/b.css" then .ok ⟨200, "b\x7b\x7d"⟩
    else .ok ⟨404, ""⟩

theorem rules_outerSheet : (Stylesheet.ofText "@import 'b.css'; p\x7b\x7d").rules =
    [.atRule ⟨"import", [.token .whitespace, .token (.string "b.css")], none⟩,
      .style ["p"] [] []] := by
  have tokenized : Token.tokenize "@import 'b.css'; p\x7b\x7d" =
      [.atKeyword "import", .whitespace, .string "b.css", .semicolon, .whitespace, .ident "p",
        .leftBrace, .rightBrace] ++ [.endOfFile] := by decide +kernel
  have selectors : Rule.selectorTexts [.ident "p"] = ["p"] := by decide +kernel
  rw [Stylesheet.ofText_of_tokenize tokenized (by decide)]
  simp [Rule.readAll, AtRule.read, ComponentValue.row, ComponentValue.afterRow,
    ComponentValue.readRow, AtRule.ends, Enclosure.ofToken?, Rule.readStyle?, Rule.splitPrelude?,
    Rule.readBlock, Rule.dropBrace, selectors]

theorem rules_innerSheet :
    (Stylesheet.ofText "b\x7b\x7d").rules = [.style ["b"] [] []] := by
  have tokenized : Token.tokenize "b\x7b\x7d" =
      [.ident "b", .leftBrace, .rightBrace] ++ [.endOfFile] := by decide +kernel
  have selectors : Rule.selectorTexts [.ident "b"] = ["b"] := by decide +kernel
  rw [Stylesheet.ofText_of_tokenize tokenized (by decide)]
  simp [Rule.readAll, Rule.readStyle?, Rule.splitPrelude?, Rule.readBlock, Rule.dropBrace,
    selectors]

/-- A rule `import` without further conditions. -/
def importRule (address : String) : AtRule := ⟨"import", [.token (.string address)], none⟩

/-- A sheet with a rule `charset`, an import that is followed, a style rule, and an import that
is not. -/
def importingSheet : Stylesheet :=
  ⟨[.atRule ⟨"charset", [], none⟩, .atRule (importRule "a.css"), .style ["ul"] [] [],
    .atRule (importRule "c.css")]⟩

/-- The sheet that `importingSheet` stands for. -/
def inlinedSheet : List InlinedRule :=
  [⟨.atRule ⟨"charset", [], none⟩, false⟩, ⟨.style ["b"] [] [], true⟩,
    ⟨.style ["p"] [] [], true⟩, ⟨.style ["ul"] [] [], false⟩,
    ⟨.atRule (importRule "c.css"), false⟩]

theorem inlines_importingSheet :
    Inlines nestedSheets false (some "/site") [] importingSheet.rules
      ["/site/a.css", "/site/a.css/b.css"] inlinedSheet := by
  have inner : Inlines nestedSheets true (some "/site/a.css/b.css") []
      (Stylesheet.ofText "b\x7b\x7d").rules [] [⟨.style ["b"] [] [], true⟩] := by
    rw [rules_innerSheet]
    exact .keep (by decide) .done
  have outer : Inlines nestedSheets true (some "/site/a.css") []
      (Stylesheet.ofText "@import 'b.css'; p\x7b\x7d").rules (["/site/a.css/b.css"] ++ [])
      ([⟨.style ["b"] [] [], true⟩] ++ [⟨.style ["p"] [] [], true⟩]) := by
    rw [rules_outerSheet]
    exact .follow (by decide) rfl rfl rfl rfl inner (.keep (by decide) .done)
  have root : Inlines nestedSheets false (some "/site") [.atRule ⟨"charset", [], none⟩]
      (.atRule (importRule "a.css") :: [.style ["ul"] [] [], .atRule (importRule "c.css")])
      ("/site/a.css" :: ["/site/a.css/b.css"] ++ [])
      ([⟨.style ["b"] [] [], true⟩, ⟨.style ["p"] [] [], true⟩] ++
        [⟨.style ["ul"] [] [], false⟩, ⟨.atRule (importRule "c.css"), false⟩]) :=
    .follow (by decide) rfl rfl rfl rfl outer (.keep (by decide) (.keep (by decide) .done))
  exact .keep (by decide) root

/-- The inlined sheet gives rules for `b`, `p` and `ul`, and only the last is not imported. -/
theorem collect_of_inlines_importingSheet :
    let options := { Options.standard with imports := .followed, baseUrl := some "site" }
    let urls := ["/site/a.css", "/site/a.css/b.css"]
    options.imports = .followed ∧
      Inlines nestedSheets false (rootBase nestedSheets options) [] importingSheet.rules urls
        inlinedSheet ∧
      ((rootBase nestedSheets options).toList ++ urls).Nodup ∧
      (∀ url ∈ urls, url ∉ start.visited) ∧ urls.length < 3 ∧
      (start.collect nestedSheets options 3 importingSheet).1 =
        .ok [⟨"b", none, true⟩, ⟨"p", none, true⟩, ⟨"ul", none, false⟩] := by
  intro options urls
  have followed : options.imports = .followed := rfl
  have distinct : ((rootBase nestedSheets options).toList ++ urls).Nodup := by decide
  have fresh : ∀ url ∈ urls, url ∉ start.visited := by simp [start]
  have enough : urls.length < 3 := by decide
  obtain ⟨rules, plain, collected, -, -, marked⟩ :=
    collect_of_inlines followed inlines_importingSheet distinct fresh enough 0 start
  refine ⟨followed, inlines_importingSheet, distinct, fresh, enough, collected.trans ?_⟩
  rw [marked]
  decide

end Collector

end SelectorTree
