import Mathlib.Data.Finset.Card
import Mathlib.Logic.Relation
import SelectorTree.Proofs.Import.Collecting

/-!
# Imports come to an end

Nothing gets smaller when an import is followed.  But an address is marked as visited
before it is requested, and only an address that was not visited is requested: so no
address is requested twice, and imports are nested no deeper than there are addresses
that hold a stylesheet.  Where these are finitely many, the limit on nested imports does
not count.
-/

namespace SelectorTree

/-- Whether a request for an address is answered with a stylesheet. -/
def Source.Serves (source : Source) (url : String) : Prop :=
  ∃ response, source.fetch url = .ok response ∧ response.isSuccess = true

namespace Collector

variable {source : Source} {options : Options} {imports : Imports} {imported allowed : Bool}
  {base : Option String} {rule : AtRule} {rules : List Rule} {sheet : Stylesheet} {limit : Nat}
  {follow other : AtRule → Collector → Collected} {collector old new : Collector} {url : String}

/-! ## What a collection does to its collector -/

/-- The two things that are done to a collector in the course of a collection. -/
inductive Step (imports : Imports) : Collector → Collector → Prop where
  | warn (collector : Collector) (message : String) :
      Step imports collector (collector.warn message)
  | request (followed : imports = .followed) {collector : Collector} {url : String}
      (fresh : url ∉ collector.visited) : Step imports collector (collector.request url)

/-- Any number of steps. -/
abbrev Run (imports : Imports) : Collector → Collector → Prop :=
  Relation.ReflTransGen (Step imports)

theorem run_warn (message : String) : Run imports collector (collector.warn message) :=
  .single (.warn collector message)

theorem run_warnAll (messages : List String) :
    Run imports collector (collector.warnAll messages) := by
  induction messages generalizing collector with
  | nil => exact .refl
  | cons message messages ih => exact (run_warn message).trans ih

theorem run_followImport {collectSheet : Option String → Stylesheet → Collector → Collected}
    (runs : ∀ base sheet collector, Run .followed collector (collectSheet base sheet collector).2) :
    Run .followed collector (followImport source collectSheet base rule collector).2 := by
  unfold followImport
  split
  · exact run_warn _
  split
  · exact .refl
  split
  · exact .refl
  · next fresh =>
      have requested : Run .followed collector _ := .single (.request rfl fresh)
      split
      · exact requested
      · split
        · exact requested.trans (runs _ _ _)
        · exact requested

theorem run_collectRule (rule : Rule)
    (runs : imports = .followed →
      ∀ rule collector, Run imports collector (follow rule collector).2) :
    Run imports collector (collectRule follow imports imported allowed rule collector).2 := by
  cases rule with
  | style selectors declarations nested => exact run_warnAll _
  | atRule rule =>
      simp only [collectRule]
      split
      · split
        · exact run_warn _
        · cases imports with
          | skipped => exact .refl
          | followed => exact runs rfl rule collector
      · exact run_warn _

theorem run_collectRules
    (runs : imports = .followed →
      ∀ rule collector, Run imports collector (follow rule collector).2) :
    Run imports collector (collectRules follow imports imported allowed rules collector).2 := by
  induction rules generalizing allowed collector with
  | nil => exact .refl
  | cons rule rules ih =>
      have first : Run imports collector
          (collectRule follow imports imported allowed rule collector).2 :=
        run_collectRule rule runs
      rw [collectRules]
      split
      · exact first
      · exact first.trans ih

theorem run_collectSheet :
    Run imports collector (collectSheet source imports limit imported base sheet collector).2 := by
  induction limit generalizing imported base sheet collector with
  | zero => exact .refl
  | succ limit ih =>
      refine run_collectRules ?_
      rintro rfl rule collector
      exact run_followImport fun base sheet collector => ih

/-! ## What no step takes back -/

theorem Step.visited_subset (step : Step imports old new) : old.visited ⊆ new.visited := by
  cases step with
  | warn message => exact fun url visited => visited
  | request followed fresh =>
      intro url visited
      rw [Collector.request, visit, if_neg fresh]
      exact List.mem_append_left _ visited

theorem Run.visited_subset (run : Run imports old new) : old.visited ⊆ new.visited := by
  induction run with
  | refl => exact fun url visited => visited
  | tail _ step ih => exact fun url visited => step.visited_subset (ih visited)

/-- No address was requested twice, and all that were requested count as visited. -/
structure Orderly (collector : Collector) : Prop where
  nodup : collector.requested.Nodup
  visited : ∀ url ∈ collector.requested, url ∈ collector.visited

theorem mem_visited_request (fresh : url ∉ collector.visited) :
    url ∈ (collector.request url).visited := by
  rw [request, visit, if_neg fresh]
  exact List.mem_append_right _ (List.mem_singleton_self url)

theorem Step.orderly (step : Step imports old new) (orderly : old.Orderly) : new.Orderly := by
  cases step with
  | warn message => exact ⟨orderly.nodup, orderly.visited⟩
  | @request followed _ url fresh =>
      have grows := (Step.request followed fresh).visited_subset
      constructor
      · refine List.nodup_append.mpr ⟨orderly.nodup, List.nodup_singleton url, ?_⟩
        intro earlier requested latest single equal
        rw [List.mem_singleton] at single
        exact fresh (single ▸ equal ▸ orderly.visited earlier requested)
      · refine List.forall_mem_append.mpr ⟨fun earlier requested => ?_, ?_⟩
        · exact grows (orderly.visited earlier requested)
        · rw [List.forall_mem_singleton]
          exact mem_visited_request fresh

theorem Run.orderly (run : Run imports old new) (orderly : old.Orderly) : new.Orderly := by
  induction run with
  | refl => exact orderly
  | tail _ step ih => exact step.orderly ih

/-- An address that was visited without being requested is not requested any more. -/
theorem Run.not_requested (run : Run imports old new) (visited : url ∈ old.visited)
    (unrequested : url ∉ old.requested) : url ∉ new.requested := by
  induction run with
  | refl => exact unrequested
  | tail before step ih =>
      cases step with
      | warn message => exact ih
      | @request followed middle latest fresh =>
          intro requested
          rcases List.mem_append.mp requested with earlier | single
          · exact ih earlier
          · rw [List.mem_singleton] at single
            exact fresh (single ▸ Run.visited_subset before visited)

theorem Run.requested_eq_of_skipped (run : Run .skipped old new) :
    new.requested = old.requested := by
  induction run with
  | refl => rfl
  | tail _ step ih =>
      cases step with
      | warn message => exact ih
      | request followed => cases followed

/-! ## Nested imports -/

/-- The number of addresses that hold a stylesheet and were not visited. -/
def pending (served : Finset String) (collector : Collector) : Nat :=
  (served.filter (· ∉ collector.visited)).card

variable {served : Finset String}

theorem pending_le_card : pending served collector ≤ served.card :=
  Finset.card_filter_le served _

theorem unvisited_subset (grows : old.visited ⊆ new.visited) :
    served.filter (· ∉ new.visited) ⊆ served.filter (· ∉ old.visited) :=
  Finset.monotone_filter_right served fun _ _ unvisited visited => unvisited (grows visited)

theorem pending_le_of_subset (grows : old.visited ⊆ new.visited) :
    pending served new ≤ pending served old :=
  Finset.card_le_card (unvisited_subset grows)

/-- Each request for a stylesheet leaves fewer of them. -/
theorem pending_request_lt (member : url ∈ served) (fresh : url ∉ collector.visited) :
    pending served (collector.request url) < pending served collector := by
  have step : Step .followed collector (collector.request url) := .request rfl fresh
  have grows := step.visited_subset
  refine Finset.card_lt_card
    ((Finset.ssubset_iff_of_subset (unvisited_subset grows)).mpr ⟨url, ?_, ?_⟩)
  · exact Finset.mem_filter.mpr ⟨member, fresh⟩
  · exact fun unvisited => (Finset.mem_filter.mp unvisited).2 (mem_visited_request fresh)

/-- The same answer comes from both sides, and it is not that imports are too deep. -/
structure Settled (left right : Collected) : Prop where
  same : left = right
  answered : left.1 ≠ .error .importsTooDeep

theorem settled_followImport {left right : Option String → Stylesheet → Collector → Collected}
    (member : ∀ url, source.Serves url → url ∈ served)
    (settles : ∀ base sheet after, pending served after < pending served collector →
      Settled (left base sheet after) (right base sheet after)) :
    Settled (followImport source left base rule collector)
      (followImport source right base rule collector) := by
  unfold followImport
  split
  · exact ⟨rfl, by simp⟩
  split
  · exact ⟨rfl, by simp⟩
  next url _ =>
  split
  · exact ⟨rfl, by simp⟩
  next fresh =>
  split
  · exact ⟨rfl, by simp⟩
  next response fetched =>
  split
  · next success =>
      exact settles _ _ _ (pending_request_lt (member url ⟨response, fetched, success⟩) fresh)
  · exact ⟨rfl, by simp⟩

theorem settled_collectRule (rule : Rule)
    (settles : ∀ rule, Settled (follow rule collector) (other rule collector)) :
    Settled (collectRule follow imports imported allowed rule collector)
      (collectRule other imports imported allowed rule collector) := by
  cases rule with
  | style selectors declarations nested => exact ⟨rfl, by simp [collectRule]⟩
  | atRule rule =>
      simp only [collectRule]
      split
      · split
        · exact ⟨rfl, by simp⟩
        · cases imports with
          | skipped => exact ⟨rfl, by simp⟩
          | followed => exact settles rule
      · exact ⟨rfl, by simp⟩

theorem settled_collectRules
    (runs : imports = .followed →
      ∀ rule collector, Run imports collector (follow rule collector).2)
    (settles : ∀ rule after, collector.visited ⊆ after.visited →
      Settled (follow rule after) (other rule after)) :
    Settled (collectRules follow imports imported allowed rules collector)
      (collectRules other imports imported allowed rules collector) := by
  induction rules generalizing allowed collector with
  | nil => exact ⟨rfl, by simp [collectRules]⟩
  | cons rule rules ih =>
      have first : Settled (collectRule follow imports imported allowed rule collector)
          (collectRule other imports imported allowed rule collector) :=
        settled_collectRule rule fun rule => settles rule collector (List.Subset.refl _)
      have run : Run imports collector
          (collectRule follow imports imported allowed rule collector).2 :=
        run_collectRule rule runs
      have grows := run.visited_subset
      have others := @ih (allowed && allowsImports rule) _ fun rule after further =>
        settles rule after (List.Subset.trans grows further)
      simp only [collectRules, ← first.same]
      split
      · next error failed =>
          refine ⟨rfl, fun deep => first.answered ?_⟩
          rw [failed]
          exact congrArg Except.error (Except.error.inj deep)
      · refine ⟨by rw [others.same], fun deep => others.answered ?_⟩
        generalize collectRules follow imports imported (allowed && allowsImports rule) rules _ =
          behind at deep ⊢
        cases result : behind.1 with
        | error error =>
            rw [result] at deep
            exact congrArg Except.error (Except.error.inj deep)
        | ok flats =>
            rw [result] at deep
            cases deep

/-- Where the limits are above the number of stylesheets that are left, they do not count: by
induction on the limit, as each nested import leaves fewer. -/
theorem settled_collectSheet {larger : Nat} (member : ∀ url, source.Serves url → url ∈ served)
    (enough : pending served collector < limit) (more : pending served collector < larger) :
    Settled (collectSheet source imports limit imported base sheet collector)
      (collectSheet source imports larger imported base sheet collector) := by
  induction limit generalizing larger imported base sheet collector with
  | zero => exact absurd enough (Nat.not_lt_zero _)
  | succ limit ih =>
      cases larger with
      | zero => exact absurd more (Nat.not_lt_zero _)
      | succ larger =>
          refine settled_collectRules ?_ fun rule after grows => ?_
          · rintro rfl rule collector
            exact run_followImport fun base sheet collector => run_collectSheet
          · have fewer : pending served after ≤ pending served collector :=
              pending_le_of_subset grows
            refine settled_followImport member fun base sheet inside left => ?_
            exact ih (Nat.lt_of_lt_of_le left (Nat.le_trans fewer (Nat.le_of_lt_succ enough)))
              (Nat.lt_of_lt_of_le left (Nat.le_trans fewer (Nat.le_of_lt_succ more)))

/-! ## Several collections -/

/-- The collector at the start of a collection, with the root's own address visited. -/
def opened (source : Source) (options : Options) (collector : Collector) : Collector :=
  ((rootBase source options).map collector.visit).getD collector

theorem visited_subset_opened : collector.visited ⊆ (collector.opened source options).visited := by
  intro url visited
  rw [opened]
  cases rootBase source options with
  | none => exact visited
  | some base =>
      rw [Option.map_some, Option.getD_some, visit]
      split
      · exact visited
      · exact List.mem_append_left _ visited

theorem requested_opened : (collector.opened source options).requested = collector.requested := by
  rw [opened]
  cases rootBase source options with
  | none => rfl
  | some base =>
      rw [Option.map_some, Option.getD_some, visit]
      split <;> rfl

theorem rootBase_visited_opened :
    ∀ base ∈ rootBase source options, base ∈ (collector.opened source options).visited := by
  rw [opened]
  cases rootBase source options with
  | none => simp
  | some base =>
      rintro _ ⟨⟩
      rw [Option.map_some, Option.getD_some, visit]
      split
      · assumption
      · exact List.mem_append_right _ (List.mem_singleton_self base)

theorem run_collect :
    Run options.imports (collector.opened source options)
      (collector.collect source options limit sheet).2 :=
  run_collectSheet

/-- What holds between two collections: no address was requested twice, and the root's own
address was not requested. -/
structure Guarded (source : Source) (options : Options) (collector : Collector) : Prop where
  orderly : collector.Orderly
  spared : ∀ base ∈ rootBase source options, base ∉ collector.requested

theorem guarded_start : start.Guarded source options where
  orderly := ⟨List.nodup_nil, fun _ requested => absurd requested List.not_mem_nil⟩
  spared := fun _ _ => List.not_mem_nil

theorem Guarded.collect (guarded : collector.Guarded source options) :
    (collector.collect source options limit sheet).2.Guarded source options := by
  have opened : (collector.opened source options).Orderly := by
    constructor
    · rw [requested_opened]
      exact guarded.orderly.nodup
    · intro url requested
      rw [requested_opened] at requested
      exact visited_subset_opened (guarded.orderly.visited url requested)
  refine ⟨Run.orderly run_collect opened, fun base root => ?_⟩
  refine Run.not_requested run_collect (rootBase_visited_opened base root) ?_
  rw [requested_opened]
  exact guarded.spared base root

theorem settled_collect {larger : Nat} (member : ∀ url, source.Serves url → url ∈ served)
    (enough : served.card < limit) (more : served.card < larger) :
    Settled (collector.collect source options limit sheet)
      (collector.collect source options larger sheet) :=
  settled_collectSheet member (Nat.lt_of_le_of_lt pending_le_card enough)
    (Nat.lt_of_le_of_lt pending_le_card more)

theorem requested_collect_of_skipped (skipped : options.imports = .skipped) :
    (collector.collect source options limit sheet).2.requested = collector.requested := by
  have run := @run_collect source options sheet limit collector
  rw [skipped] at run
  rw [run.requested_eq_of_skipped, requested_opened]

/-- Collects stylesheets one after the other, whatever errors there are. -/
def collectEach (source : Source) (options : Options) (limit : Nat) :
    List Stylesheet → Collector → List (Except CompileError (List FlatRule)) × Collector
  | [], collector => ([], collector)
  | sheet :: sheets, collector =>
    let first := collector.collect source options limit sheet
    let others := collectEach source options limit sheets first.2
    (first.1 :: others.1, others.2)

variable {sheets : List Stylesheet}

theorem Guarded.collectEach (guarded : collector.Guarded source options) :
    (collector.collectEach source options limit sheets).2.Guarded source options := by
  induction sheets generalizing collector with
  | nil => exact guarded
  | cons sheet sheets ih => exact ih guarded.collect

theorem length_collectEach :
    (collector.collectEach source options limit sheets).1.length = sheets.length := by
  induction sheets generalizing collector with
  | nil => rfl
  | cons sheet sheets ih => exact congrArg (· + 1) ih

theorem collectEach_eq {larger : Nat} (member : ∀ url, source.Serves url → url ∈ served)
    (enough : served.card < limit) (more : served.card < larger) :
    collector.collectEach source options limit sheets =
      collector.collectEach source options larger sheets := by
  induction sheets generalizing collector with
  | nil => rfl
  | cons sheet sheets ih =>
      have first : collector.collect source options limit sheet =
          collector.collect source options larger sheet :=
        (settled_collect member enough more).same
      simp only [Collector.collectEach, ← first, ih]

theorem answered_collectEach (member : ∀ url, source.Serves url → url ∈ served)
    (enough : served.card < limit) :
    ∀ answer ∈ (collector.collectEach source options limit sheets).1,
      answer ≠ .error .importsTooDeep := by
  induction sheets generalizing collector with
  | nil => simp [Collector.collectEach]
  | cons sheet sheets ih =>
      exact List.forall_mem_cons.mpr ⟨(settled_collect member enough enough).answered, ih⟩

theorem collectEach_of_skipped (skipped : options.imports = .skipped) :
    (collector.collectEach source options (limit + 1) sheets).2.requested =
        collector.requested ∧
      ∀ answer ∈ (collector.collectEach source options (limit + 1) sheets).1,
        ∃ flats, answer = .ok flats := by
  induction sheets generalizing collector with
  | nil => simp [Collector.collectEach]
  | cons sheet sheets ih =>
      obtain ⟨requested, answered⟩ := @ih (collector.collect source options (limit + 1) sheet).2
      refine ⟨requested.trans (requested_collect_of_skipped skipped), ?_⟩
      have first : ∃ flats, (collector.collect source options (limit + 1) sheet).1 = .ok flats :=
        exists_collect_of_skipped source skipped limit sheet
      exact List.forall_mem_cons.mpr ⟨first, answered⟩

/-- What a row of collections comes to, if the limit on nested imports is above a bound: one
answer for each stylesheet, none of which is due to the limit. -/
structure Ends (source : Source) (options : Options) (sheets : List Stylesheet) (bound : Nat)
    (run : List (Except CompileError (List FlatRule)) × Collector) : Prop where
  steady : ∀ limit, bound < limit → start.collectEach source options limit sheets = run
  answers : run.1.length = sheets.length
  answered : ∀ answer ∈ run.1, answer ≠ .error .importsTooDeep
  distinct : run.2.requested.Nodup
  spared : ∀ base ∈ rootBase source options, base ∉ run.2.requested
  skipped : options.imports = .skipped →
    run.2.requested = [] ∧ ∀ answer ∈ run.1, ∃ flats, answer = .ok flats

/-- If stylesheets are found at finitely many addresses, any row of collections comes to an
end, whatever these stylesheets import. -/
theorem ends_collectEach (source : Source) (options : Options) (sheets : List Stylesheet)
    (served : Finset String) (member : ∀ url, source.Serves url → url ∈ served) :
    ∃ run, Ends source options sheets served.card run := by
  have enough : served.card < served.card + 1 := Nat.lt_succ_self _
  have guarded : (start.collectEach source options (served.card + 1) sheets).2.Guarded
      source options := guarded_start.collectEach
  refine ⟨start.collectEach source options (served.card + 1) sheets, ?_⟩
  constructor
  case steady => exact fun limit more => collectEach_eq member more enough
  case answers => exact length_collectEach
  case answered => exact answered_collectEach member enough
  case distinct => exact guarded.orderly.nodup
  case spared => exact guarded.spared
  case skipped => exact collectEach_of_skipped

/-- Two stylesheets that import each other, themselves and the root. -/
def importCycle : Source where
  resolve address _ := some address
  fetch url :=
    if url = "a.css" then .ok ⟨200, "@import 'b.css'; @import 'root.css';"⟩
    else if url = "b.css" then .ok ⟨200, "@import 'a.css'; @import 'b.css';"⟩
    else .ok ⟨404, ""⟩

theorem ends_importCycle :
    (∀ url, importCycle.Serves url → url ∈ ({"a.css", "b.css"} : Finset String)) ∧
      ∃ run, Ends importCycle
          { Options.standard with imports := .followed, baseUrl := some "root.css" }
          [.ofText "@import 'a.css'; @import 'b.css';", .ofText "@import 'b.css'; @import 'c.css';"]
          2 run ∧
        run.2.requested = ["a.css", "b.css", "c.css"] := by
  have member : ∀ url, importCycle.Serves url → url ∈ ({"a.css", "b.css"} : Finset String) := by
    rintro url ⟨response, fetched, success⟩
    rw [Finset.mem_insert, Finset.mem_singleton]
    by_contra neither
    rw [not_or] at neither
    simp only [importCycle, if_neg neither.1, if_neg neither.2] at fetched
    cases fetched
    cases success
  obtain ⟨run, ends⟩ := ends_collectEach importCycle
    { Options.standard with imports := .followed, baseUrl := some "root.css" }
    [.ofText "@import 'a.css'; @import 'b.css';", .ofText "@import 'b.css'; @import 'c.css';"]
    _ member
  refine ⟨member, run, ends, ?_⟩
  rw [← ends.steady 3 (by decide)]
  decide +kernel

end Collector

end SelectorTree
