import SelectorTree.Proofs.Element.Absorbing

/-!
# The laws of merging

Two elements clash if both fix the tag, the id or the `type` and fix it differently.  A
merge fails for that reason alone, and then it has written nothing.  Otherwise the target
keeps what it has and takes what it lacks, once for all: the same source adds nothing more,
and several sources that do not clash may come in any order.
-/

namespace SelectorTree.Element

variable {source target other merged : Element} {own left right first second : Option String}

/-- What keeps two elements apart: a tag, a non-empty id or a non-empty `type` in which they
differ. -/
def Clashes (source target : Element) : Prop :=
  Text.sameLetters source.tag target.tag = false ∨
    (∃ id otherId, source.id = some id ∧ target.id = some otherId ∧ id ≠ otherId) ∨
    ∃ kind otherKind, source.kind = some kind ∧ target.kind = some otherKind ∧ kind ≠ otherKind

/-! ## Success and failure -/

theorem not_clashes_iff : ¬ source.Clashes target ↔ conflict? source target = none := by
  rw [conflict?_eq_none_iff, Clashes, ← conflicting_iff, ← conflicting_iff]
  simp

theorem Clashes.symm (clashes : source.Clashes target) : target.Clashes source := by
  rw [Clashes, ← conflicting_iff, ← conflicting_iff] at clashes ⊢
  rwa [Text.sameLetters_comm, conflicting_comm, conflicting_comm target.kind]

theorem exists_merged_iff :
    (∃ merged, source.mergeInto target = .ok merged) ↔ ¬ source.Clashes target := by
  rw [not_clashes_iff]
  simp [mergeInto_eq_ok_iff]

theorem exists_error_iff :
    (∃ conflict, source.mergeInto target = .error conflict) ↔ source.Clashes target := by
  rw [← not_iff_not, ← exists_merged_iff]
  cases source.mergeInto target <;> simp

/-! ## Merging in place -/

/-- Writing into a target what it lacks of a source, part by part. -/
def write (source : Element) : ExceptT MergeConflict (StateM Element) Unit := do
  modify (·.takeId source)
  modify (·.takeKind source)
  source.classes.forM fun name => modify (·.addClass name)

/-- Merging as a program that overwrites its target.  What has been written stays written
when the program fails later. -/
def overwrite (source : Element) : ExceptT MergeConflict (StateM Element) Unit := do
  match source.conflict? (← get) with
  | some conflict => throw conflict
  | none => source.write

theorem run_addClasses (names : List String) (target : Element) :
    (names.forM fun name => modify (·.addClass name) :
      ExceptT MergeConflict (StateM Element) Unit).run.run target =
      (.ok (), target.addClasses names) := by
  induction names generalizing target with
  | nil => rfl
  | cons name names ih => exact ih (target.addClass name)

theorem run_write (source target : Element) :
    source.write.run.run target =
      (.ok (), ((target.takeId source).takeKind source).addClasses source.classes) :=
  run_addClasses source.classes ((target.takeId source).takeKind source)

/-- All checks come before the first write. -/
theorem run_overwrite (source target : Element) :
    source.overwrite.run.run target =
      match source.mergeInto target with
      | .ok merged => (.ok (), merged)
      | .error conflict => (.error conflict, target) := by
  have checked : source.overwrite.run.run target =
      (match source.conflict? target with
        | some conflict => throw conflict
        | none => source.write : ExceptT MergeConflict (StateM Element) Unit).run.run target := rfl
  rw [checked, mergeInto]
  cases source.conflict? target with
  | some conflict => rfl
  | none => exact run_write source target

/-! ## What a merge makes of its target -/

/-- The merged element, part by part: what the target keeps, and what it takes because it
lacks it. -/
structure Merges (source target merged : Element) : Prop where
  tag_eq : merged.tag = target.tag
  value_eq : merged.value = target.value
  imported_eq : merged.imported = target.imported
  getAttribute_eq : ∀ name, name ≠ "type" → merged.getAttribute name = target.getAttribute name
  id?_eq : merged.id? = (target.id.or source.id).or target.id?
  type_eq : merged.getAttribute "type" =
    (target.kind.or source.kind).or (target.getAttribute "type")
  classes_prefix : target.classes <+: merged.classes
  mem_classes : ∀ name,
    name ∈ merged.classes ↔ name ∈ target.classes ∨ (name ∈ source.classes ∧ name ≠ "")
  nodup : target.classes.Nodup → merged.classes.Nodup
  again : source.mergeInto merged = .ok merged
  comparable_eq : source.classes.Nodup → target.classes.Nodup →
    (source.comparable target = true ∨ target.comparable source = true) →
    ∀ other : Element, other.comparable merged = other.comparable target ∧
      merged.comparable other = target.comparable other

/-- What counts of a value is the value, or nothing. -/
theorem filter_or_self (own : Option String) (given : String → Bool) :
    (own.filter given).or own = own := by
  cases own with
  | none => rfl
  | some value =>
      cases kept : given value <;> simp [Option.filter, kept]

theorem id?_takeId (target source : Element) :
    (target.takeId source).id? = (target.id.or source.id).or target.id? := by
  rw [takeId]
  split
  · next name noId taken => rw [noId, taken, Option.none_or, Option.some_or]
  · next notBoth =>
      cases own : target.id with
      | some name => rw [Option.some_or, ← own, Element.id, filter_or_self]
      | none =>
          cases given : source.id with
          | some name => exact absurd given (notBoth name own)
          | none => rfl

theorem getAttribute_takeKind (target source : Element) (name : String) :
    (target.takeKind source).getAttribute name =
      if name = "type" then (target.kind.or source.kind).or (target.getAttribute "type")
      else target.getAttribute name := by
  rw [takeKind]
  split
  · next kind noKind taken =>
      rw [getAttribute, setAttribute, Attributes.get?_set, noKind, taken, Option.none_or,
        Option.some_or]
      rfl
  · next notBoth =>
      by_cases isType : name = "type"
      · rw [if_pos isType, isType]
        cases own : target.kind with
        | some kind => rw [Option.some_or, ← own, Element.kind, filter_or_self]
        | none =>
            cases given : source.kind with
            | some kind => exact absurd given (notBoth kind own)
            | none => rfl
      · rw [if_neg isType]

theorem comparable_takeKind (target source other : Element) :
    other.comparable (target.takeKind source) = other.comparable target ∧
      (target.takeKind source).comparable other = target.comparable other := by
  rw [takeKind]
  split <;> exact ⟨rfl, rfl⟩

/-- A comparable element brings nothing but a `type`. -/
theorem eq_takeKind_of_comparable (distinctSource : source.classes.Nodup)
    (distinct : target.classes.Nodup)
    (alike : source.comparable target = true ∨ target.comparable source = true)
    (success : source.mergeInto target = .ok merged) : merged = target.takeKind source := by
  have same : target.key = source.key := by
    rcases alike with forward | backward
    · exact ((comparable_iff_of_nodup distinctSource distinct).mp forward).symm
    · exact (comparable_iff_of_nodup distinct distinctSource).mp backward
  exact ((mergeInto_eq_ok_iff_of_key same).mp success).2

theorem merges_of_mergeInto (success : source.mergeInto target = .ok merged) :
    Merges source target merged := by
  have mergedEq := (mergeInto_eq_ok_iff.mp success).2
  have attributes : ∀ name, merged.getAttribute name =
      if name = "type" then (target.kind.or source.kind).or (target.getAttribute "type")
      else target.getAttribute name := by
    intro name
    rw [getAttribute_mergeInto success, getAttribute_takeKind, kind_takeId, getAttribute_takeId]
  exact {
    tag_eq := tag_mergeInto success
    value_eq := value_mergeInto success
    imported_eq := imported_mergeInto success
    getAttribute_eq := fun name other => by rw [attributes, if_neg other]
    id?_eq := by rw [mergedEq, id?_addClasses, id?_takeKind, id?_takeId]
    type_eq := by rw [attributes, if_pos rfl]
    classes_prefix := (keeps_mergeInto success).classes
    mem_classes := fun name => by
      rw [mergedEq, mem_classes_addClasses, classes_takeKind, classes_takeId]
    nodup := fun distinct => by
      rw [mergedEq]
      exact nodup_classes_addClasses (by simpa using distinct) source.classes
    again := (absorbs_of_mergeInto success).mergeInto_eq
    comparable_eq := fun distinctSource distinct alike other => by
      rw [eq_takeKind_of_comparable distinctSource distinct alike success]
      exact comparable_takeKind target source other }

/-! ## Two sources -/

theorem conflicting_or (agreeOwn : conflicting left own = false)
    (agree : conflicting left right = false) : conflicting left (own.or right) = false := by
  cases own with
  | none => exact agree
  | some value => exact agreeOwn

/-- Of two values that do not conflict, it does not matter which one is taken first. -/
theorem or_or_comm_of_agree (agree : conflicting first second = false) :
    ((own.or first).or second).or ((own.or first).or left) =
      ((own.or second).or first).or ((own.or second).or left) := by
  cases own with
  | some value => rfl
  | none =>
      cases first with
      | none => cases second <;> rfl
      | some value =>
          cases second with
          | none => rfl
          | some otherValue =>
              have same : value = otherValue := by simpa [conflicting] using agree
              rw [same]

/-- What clashes neither with a source nor with its target does not clash with what comes of
them. -/
theorem not_clashes_mergeInto (success : source.mergeInto target = .ok merged)
    (apart : ¬ other.Clashes target) (agree : ¬ source.Clashes other) :
    ¬ other.Clashes merged := by
  have agreeBack : ¬ other.Clashes source := fun clashes => agree clashes.symm
  rw [not_clashes_iff, conflict?_eq_none_iff] at *
  obtain ⟨sameTag, ids, kinds⟩ := apart
  refine ⟨?_, ?_, ?_⟩
  · rw [tag_mergeInto success, sameTag]
  · rw [id_mergeInto success]
    exact conflicting_or ids agreeBack.2.1
  · rw [kind_mergeInto success]
    exact conflicting_or kinds agreeBack.2.2

/-- Two sources that clash neither with each other nor with the target merge into it in
either order, and with the same result up to the order of classes. -/
theorem mergeInto_confluent (apart : ¬ source.Clashes target) (otherApart : ¬ other.Clashes target)
    (agree : ¬ source.Clashes other) :
    ∃ afterSource afterOther sourceFirst otherFirst,
      source.mergeInto target = .ok afterSource ∧
        other.mergeInto afterSource = .ok sourceFirst ∧
        other.mergeInto target = .ok afterOther ∧
        source.mergeInto afterOther = .ok otherFirst ∧
        sourceFirst.id? = otherFirst.id? ∧
        sourceFirst.getAttribute "type" = otherFirst.getAttribute "type" ∧
        ∀ name, name ∈ sourceFirst.classes ↔ name ∈ otherFirst.classes := by
  have agreeBack : ¬ other.Clashes source := fun clashes => agree clashes.symm
  obtain ⟨afterSource, first⟩ := exists_merged_iff.mpr apart
  obtain ⟨afterOther, second⟩ := exists_merged_iff.mpr otherApart
  obtain ⟨sourceFirst, firstThen⟩ :=
    exists_merged_iff.mpr (not_clashes_mergeInto first otherApart agree)
  obtain ⟨otherFirst, secondThen⟩ :=
    exists_merged_iff.mpr (not_clashes_mergeInto second apart agreeBack)
  have ids : conflicting source.id other.id = false :=
    (conflict?_eq_none_iff.mp (not_clashes_iff.mp agree)).2.1
  have kinds : conflicting source.kind other.kind = false :=
    (conflict?_eq_none_iff.mp (not_clashes_iff.mp agree)).2.2
  have left := merges_of_mergeInto first
  have leftThen := merges_of_mergeInto firstThen
  have right := merges_of_mergeInto second
  have rightThen := merges_of_mergeInto secondThen
  refine ⟨afterSource, afterOther, sourceFirst, otherFirst, first, firstThen, second, secondThen,
    ?_, ?_, ?_⟩
  · rw [leftThen.id?_eq, rightThen.id?_eq, left.id?_eq, right.id?_eq, id_mergeInto first,
      id_mergeInto second]
    exact or_or_comm_of_agree ids
  · rw [leftThen.type_eq, rightThen.type_eq, left.type_eq, right.type_eq, kind_mergeInto first,
      kind_mergeInto second]
    exact or_or_comm_of_agree kinds
  · intro name
    rw [leftThen.mem_classes, rightThen.mem_classes, left.mem_classes, right.mem_classes, or_assoc,
      or_assoc]
    exact or_congr_right or_comm

/-- Merging is atomic, writes only what is missing, and does not depend on how often or in
which order sources come. -/
theorem merging_laws (source target : Element) :
    ((∃ conflict, source.mergeInto target = .error conflict) ↔ source.Clashes target) ∧
      (∀ conflict, source.mergeInto target = .error conflict →
        source.overwrite.run.run target = (.error conflict, target)) ∧
      (∀ merged, source.mergeInto target = .ok merged →
        source.overwrite.run.run target = (.ok (), merged) ∧ Merges source target merged) ∧
      ∀ other : Element, ¬ source.Clashes target → ¬ other.Clashes target →
        ¬ source.Clashes other →
        ∃ afterSource afterOther sourceFirst otherFirst,
          source.mergeInto target = .ok afterSource ∧
            other.mergeInto afterSource = .ok sourceFirst ∧
            other.mergeInto target = .ok afterOther ∧
            source.mergeInto afterOther = .ok otherFirst ∧
            sourceFirst.id? = otherFirst.id? ∧
            sourceFirst.getAttribute "type" = otherFirst.getAttribute "type" ∧
            ∀ name, name ∈ sourceFirst.classes ↔ name ∈ otherFirst.classes := by
  refine ⟨exists_error_iff, ?_, ?_, ?_⟩
  · intro conflict failed
    rw [run_overwrite, failed]
  · intro merged success
    refine ⟨?_, merges_of_mergeInto success⟩
    rw [run_overwrite, success]
  · intro other apart otherApart agree
    exact mergeInto_confluent apart otherApart agree

/-- An `input` with an empty id and the classes `a` and `b`. -/
def plainInput : Element := { ofTag "input" with id? := some "", classes := ["a", "b"] }

/-- An `INPUT` with the id `q`, the type `search` and the classes `c` and `a`. -/
def queryInput : Element :=
  { (ofTag "input").setAttribute "type" "search" with
    tag := "INPUT", id? := some "q", classes := ["c", "a"] }

/-- An `input` with the type `search` and the classes `b` and `a`. -/
def searchInput : Element :=
  { (ofTag "input").setAttribute "type" "search" with classes := ["b", "a"] }

/-- An `input` with the id `q` and the type `radio`. -/
def radioInput : Element :=
  { (ofTag "input").setAttribute "type" "radio" with id? := some "q" }

/-- Two sources for one target in either order, one of them comparable to it; and a merge that
fails and leaves its target as it was. -/
theorem merging_plainInput :
    Merges searchInput plainInput (plainInput.takeKind searchInput) ∧
      (plainInput.takeKind searchInput).comparable plainInput = true ∧
      (∃ afterSource afterOther sourceFirst otherFirst,
        searchInput.mergeInto plainInput = .ok afterSource ∧
          queryInput.mergeInto afterSource = .ok sourceFirst ∧
          queryInput.mergeInto plainInput = .ok afterOther ∧
          searchInput.mergeInto afterOther = .ok otherFirst ∧
          sourceFirst.id? = otherFirst.id? ∧
          sourceFirst.getAttribute "type" = otherFirst.getAttribute "type" ∧
          ∀ name, name ∈ sourceFirst.classes ↔ name ∈ otherFirst.classes) ∧
      radioInput.overwrite.run.run queryInput = (.error .type, queryInput) := by
  have success : searchInput.mergeInto plainInput =
      .ok (plainInput.takeKind searchInput) := by decide
  have failed : radioInput.mergeInto queryInput = .error .type := by decide
  have merges := ((merging_laws searchInput plainInput).2.2.1 _ success).2
  have alike : (plainInput.takeKind searchInput).comparable plainInput =
      plainInput.comparable plainInput :=
    (merges.comparable_eq (by decide) (by decide) (Or.inl (by decide)) plainInput).2
  have confluent := (merging_laws searchInput plainInput).2.2.2 queryInput
    (not_clashes_iff.mpr (by decide)) (not_clashes_iff.mpr (by decide))
    (not_clashes_iff.mpr (by decide))
  refine ⟨merges, alike.trans (by decide), confluent, ?_⟩
  exact (merging_laws radioInput queryInput).2.1 .type failed

end SelectorTree.Element
