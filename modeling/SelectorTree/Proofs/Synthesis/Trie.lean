import SelectorTree.Proofs.Synthesis.Paths

/-!
# Trees as tries

Without positions and attribute selectors, a tree under construction is the
trie of the paths that have occurred.  `Trie` says so for one moment; merging,
appending and showing a content keep it in step with the paths and contents.
-/

namespace SelectorTree

/-! ## Merging or appending -/

namespace Builder

variable {builder : Builder} {options : Options} {parent : NodeId} {element : Element}

theorem mem_duplicates_iff {id : NodeId} :
    id ∈ builder.duplicates parent element ↔
      id ∈ builder.tree.elementChildren parent ∧ builder.fillers.contains id = false ∧
        ∃ data, builder.tree.element? id = some data ∧ data.comparable element = true := by
  rw [duplicates, List.mem_filter]
  cases builder.tree.element? id <;> simp

/-- The builder after a merge that leaves no trace in the element but for its
import. -/
def markMerged (builder : Builder) (target : NodeId) (data : Element) (imported : Bool) :
    Builder :=
  { builder with
    tree := builder.tree.setElement target { data with imported := data.imported || imported }
    report := { builder.report with merged := builder.report.merged + 1 } }

/-- With duplicates removed, an element without attributes goes to the child
with its key if there is one, and else behind all children. -/
theorem place_cases (sound : builder.Sound) (host : builder.Host parent)
    (removes : options.duplicates = .remove) (proper : element.ProperClasses)
    (noType : element.kind = none) (imported : Bool) :
    (∃ target data, target ∈ builder.tree.elementChildren parent ∧
        builder.fillers.contains target = false ∧ builder.tree.element? target = some data ∧
        data.key = element.key ∧
        builder.tryMerge element target imported =
          some (builder.markMerged target data imported) ∧
        builder.place options parent element imported =
          (builder.markMerged target data imported, target)) ∨
      ((∀ id ∈ builder.tree.elementChildren parent, builder.fillers.contains id = false →
          ∀ data, builder.tree.element? id = some data → data.key ≠ element.key) ∧
        builder.place options parent element imported =
          builder.append parent element imported) := by
  have properChild : ∀ {id data}, id ∈ builder.tree.elementChildren parent →
      builder.fillers.contains id = false → builder.tree.element? id = some data →
      data.ProperClasses := by
    intro id data listed unregistered found
    exact sound.classes id data (Sound.child_real host listed sound.linked unregistered).below found
  cases candidates : builder.duplicates parent element with
  | nil =>
      right
      refine ⟨fun id listed unregistered data found same => ?_, ?_⟩
      · have comparable := ((properChild listed unregistered found).comparable_iff proper).mpr same
        have member := mem_duplicates_iff.mpr ⟨listed, unregistered, data, found, comparable⟩
        rw [candidates] at member
        cases member
      · simp only [place, removes, candidates]
        rfl
  | cons target rest =>
      left
      have member : target ∈ builder.duplicates parent element := by simp [candidates]
      obtain ⟨listed, unregistered, data, found, comparable⟩ := mem_duplicates_iff.mp member
      have same := ((properChild listed unregistered found).comparable_iff proper).mp comparable
      have merged : builder.tryMerge element target imported =
          some (builder.markMerged target data imported) :=
        tryMerge_eq_some_iff.mpr ⟨data, data, found, Element.mergeInto_of_key same noType, rfl⟩
      refine ⟨target, data, listed, unregistered, found, same, merged, ?_⟩
      simp only [place, removes, candidates, mergeFirst, List.findSome?_cons, merged,
        Option.map_some]

/-- What is known about a builder whose tree is the trie of some paths, with
the last of the contents shown on each. -/
structure Trie (builder : Builder) (seen : List Path) (contents : Path → List String) :
    Prop where
  sound : builder.Sound
  noFiller : ∀ id, builder.fillers.contains id = false
  seen_iff : ∀ path, path ∈ seen ↔
    path ≠ [] ∧ ∃ id, builder.tree.PathTo builder.body path id
  injective : ∀ path first second, builder.tree.PathTo builder.body path first →
    builder.tree.PathTo builder.body path second → first = second
  ordered : ∀ parent, (builder.tree.elementChildren parent).Pairwise fun left right =>
    ∀ leftPath rightPath, builder.tree.PathTo builder.body leftPath left →
      builder.tree.PathTo builder.body rightPath right →
      seen.idxOf leftPath < seen.idxOf rightPath
  holds : ∀ path id data, path ≠ [] → builder.tree.PathTo builder.body path id →
    builder.tree.element? id = some data →
    builder.tree.Holds id data ((contents path).getLast?.map stripQuotes)
  written : ∀ path, path ≠ [] → contents path ≠ [] → path ∈ seen

theorem Sound.lt_size_of_pathTo (sound : builder.Sound) {path : Path} {id : NodeId}
    (reached : builder.tree.PathTo builder.body path id) : id < builder.tree.size := by
  cases path with
  | nil => exact reached.eq_top ▸ sound.body_lt_size
  | cons key rest =>
      exact Tree.lt_size_of_isElement (reached.element_below (List.cons_ne_nil key rest)).2

/-- Further occurrences do not change which path came first. -/
private theorem idxOf_lt_append {seen : List Path} {left right : Path}
    (before : seen.idxOf left < seen.idxOf right) (more : List Path) :
    (seen ++ more).idxOf left < (seen ++ more).idxOf right := by
  have known : left ∈ seen :=
    List.idxOf_lt_length_iff.mp (Nat.lt_of_lt_of_le before List.idxOf_le_length)
  rw [List.idxOf_append_of_mem known]
  by_cases member : right ∈ seen
  · rw [List.idxOf_append_of_mem member]
    exact before
  · rw [List.idxOf_append_of_notMem member]
    exact Nat.lt_of_lt_of_le (List.idxOf_lt_length_iff.mpr known) (Nat.le_add_right _ _)

/-! ## Changes that keep all keys -/

variable {before after : Builder} {seen more : List Path} {contents : Path → List String}

/-- No element comes, goes or gets another key. -/
structure SameKeys (before after : Builder) : Prop where
  sound : after.Sound
  body_eq : after.body = before.body
  fillers_eq : after.fillers = before.fillers
  extended : before.tree.Extends after.tree
  isElement_eq : ∀ id, after.tree.isElement id = before.tree.isElement id
  elementChildren_eq : ∀ id, after.tree.elementChildren id = before.tree.elementChildren id

theorem sameKeys_of_rewritten {target : NodeId} {data changed : Element} (sound : before.Sound)
    (real : before.Real target) (rewritten : Rewritten before after target)
    (found : before.tree.element? target = some data)
    (foundAfter : after.tree.element? target = some changed) (sameKey : changed.key = data.key) :
    SameKeys before after where
  sound := sound_rewritten sound real rewritten
  body_eq := rewritten.body_eq
  fillers_eq := rewritten.fillers_eq
  extended := by
    refine ⟨rewritten.shown.parent_of_lt, fun id _ => ?_⟩
    by_cases same : id = target
    · rw [same, found, foundAfter, Option.map_some, Option.map_some, sameKey]
    · rw [rewritten.shown.element?_of_ne id same]
  isElement_eq := isElement_of_rewritten real rewritten
  elementChildren_eq := rewritten.shown.elementChildren_eq

section SameKeys

variable (sound : before.Sound) (same : SameKeys before after)

include sound same

theorem SameKeys.pathTo_iff {path : Path} {id : NodeId} :
    after.tree.PathTo after.body path id ↔ before.tree.PathTo before.body path id := by
  rw [same.body_eq]
  have linked := sound.linked
  constructor
  · intro reached
    cases path with
    | nil => exact reached.eq_top ▸ .top
    | cons key rest =>
        have element := (reached.element_below (List.cons_ne_nil key rest)).2
        rw [same.isElement_eq] at element
        exact (same.extended.pathTo_iff linked (Tree.lt_size_of_isElement element)).mp reached
  · intro reached
    exact (same.extended.pathTo_iff linked (sound.lt_size_of_pathTo reached)).mpr reached

omit sound in
/-- The trie stays, and paths may occur again. -/
theorem Trie.sameKeys {changed : Path → List String} (trie : before.Trie seen contents)
    (known : ∀ path ∈ more, path ∈ seen)
    (holds : ∀ path id data, path ≠ [] → before.tree.PathTo before.body path id →
      after.tree.element? id = some data →
      after.tree.Holds id data ((changed path).getLast?.map stripQuotes))
    (written : ∀ path, path ≠ [] → changed path ≠ [] → path ∈ seen) :
    after.Trie (seen ++ more) changed := by
  have pathTo_iff : ∀ {path id}, after.tree.PathTo after.body path id ↔
      before.tree.PathTo before.body path id := same.pathTo_iff trie.sound
  refine ⟨same.sound, ?_, ?_, ?_, ?_, ?_, ?_⟩
  · intro id
    rw [same.fillers_eq, trie.noFiller]
  · intro path
    simp only [pathTo_iff, ← trie.seen_iff, List.mem_append]
    exact ⟨fun member => member.elim id (known path), Or.inl⟩
  · intro path first second atFirst atSecond
    exact trie.injective path first second (pathTo_iff.mp atFirst) (pathTo_iff.mp atSecond)
  · intro parent
    rw [same.elementChildren_eq]
    refine (trie.ordered parent).imp fun order leftPath rightPath atLeft atRight => ?_
    exact idxOf_lt_append
      (order leftPath rightPath (pathTo_iff.mp atLeft) (pathTo_iff.mp atRight)) more
  · intro path id data nonempty reached found
    exact holds path id data nonempty (pathTo_iff.mp reached) found
  · intro path nonempty shown
    exact List.mem_append_left _ (written path nonempty shown)

end SameKeys

/-- Merging repeats a path that is there. -/
theorem Trie.merged {target : NodeId} {data element : Element} {imported : Bool} {path : Path}
    (trie : before.Trie seen contents) (nonempty : path ≠ [])
    (reached : before.tree.PathTo before.body path target)
    (found : before.tree.element? target = some data)
    (merged : before.tryMerge element target imported =
      some (before.markMerged target data imported)) :
    (before.markMerged target data imported).Trie (seen ++ [path]) contents ∧
      (before.markMerged target data imported).tree.PathTo before.body path target := by
  have real : before.Real target :=
    ⟨(reached.element_below nonempty).1, (reached.element_below nonempty).2,
      trie.noFiller target⟩
  have foundAfter : (before.markMerged target data imported).tree.element? target =
      some { data with imported := data.imported || imported } :=
    Tree.element?_setElement_self found _
  have same := sameKeys_of_rewritten trie.sound real
    (rewritten_of_tryMerge trie.sound real merged) found foundAfter rfl
  refine ⟨trie.sameKeys same ?_ ?_ trie.written, (same.pathTo_iff trie.sound).mpr reached⟩
  · intro other member
    rw [List.mem_singleton.mp member]
    exact (trie.seen_iff path).mpr ⟨nonempty, target, reached⟩
  · intro other id changed otherNonempty reachedOther foundOther
    have sameTexts : (before.markMerged target data imported).tree.texts id =
        before.tree.texts id := Tree.texts_setElement before.tree target id _
    by_cases atTarget : id = target
    · subst atTarget
      cases foundAfter.symm.trans foundOther
      exact (trie.holds other id data otherNonempty reachedOther found).congr rfl rfl rfl sameTexts
    · have unchanged : (before.markMerged target data imported).tree.element? id =
          before.tree.element? id := Tree.element?_setElement_of_ne (Ne.symm atTarget) _
      rw [unchanged] at foundOther
      exact (trie.holds other id changed otherNonempty reachedOther foundOther).congr rfl rfl rfl
        sameTexts

/-- A content becomes the last one on the path of its node. -/
theorem Trie.setContent {target : NodeId} {path : Path} (trie : before.Trie seen contents)
    (nonempty : path ≠ []) (reached : before.tree.PathTo before.body path target)
    (content : String) :
    (before.edit (·.setContent target (stripQuotes content))).Trie seen
        (fun other => contents other ++ if path = other then [content] else []) ∧
      (before.edit (·.setContent target (stripQuotes content))).tree.PathTo before.body path
        target := by
  have real : before.Real target :=
    ⟨(reached.element_below nonempty).1, (reached.element_below nonempty).2,
      trie.noFiller target⟩
  have linked := trie.sound.linked
  obtain ⟨data, found⟩ := Tree.isElement_iff.mp real.element
  have foundAfter := Tree.element?_setContent_self linked found (stripQuotes content)
  have rewritten := rewritten_of_setContent trie.sound real (stripQuotes content)
  have sameKey : (data.withContent (stripQuotes content)).key = data.key := by
    simp [Element.key, Element.id]
  have same := sameKeys_of_rewritten trie.sound real rewritten found foundAfter sameKey
  refine ⟨?_, (same.pathTo_iff trie.sound).mpr reached⟩
  rw [← List.append_nil seen]
  refine trie.sameKeys same (fun _ member => absurd member List.not_mem_nil) ?_ ?_
  · intro other id changed otherNonempty reachedOther foundOther
    by_cases atTarget : id = target
    · subst atTarget
      cases foundAfter.symm.trans foundOther
      cases reached.unique linked reachedOther
      rw [if_pos rfl, List.getLast?_append]
      exact (trie.holds path id data nonempty reached found).setContent linked found _
    · have notPath : path ≠ other := by
        rintro rfl
        exact atTarget (trie.injective path id target reachedOther reached)
      have unchanged := rewritten.shown.element?_of_ne id atTarget
      rw [unchanged] at foundOther
      rw [if_neg notPath, List.append_nil]
      exact (trie.holds other id changed otherNonempty reachedOther foundOther).congr rfl rfl rfl
        (rewritten.shown.texts_of_ne id atTarget)
  · intro other otherNonempty shown
    by_cases atPath : path = other
    · exact (trie.seen_iff other).mpr ⟨otherNonempty, target, atPath ▸ reached⟩
    · rw [if_neg atPath, List.append_nil] at shown
      exact trie.written other otherNonempty shown

/-! ## A new child -/

section Appended

variable {parent node : NodeId} {front : List NodeId} {parentPath : Path} {element : Element}
  {imported : Bool}
  (growth : Grown before after element imported ⟨parent, .start, front, [], [], node, []⟩)

include growth

theorem extends_of_appended (linked : before.tree.Linked) :
    before.tree.Extends after.tree where
  parent_eq _ old := growth.parent_of_kept linked old List.not_mem_nil
  key_eq id old := by rw [Tree.element?_congr (growth.payload?_of_lt id old)]

theorem eq_node_of_appended {id : Nat} (new : before.tree.size ≤ id)
    (element : after.tree.isElement id = true) : id = node := by
  have either := (growth.new_iff id).mpr ⟨new, Tree.lt_size_of_isElement element⟩
  exact either.resolve_right List.not_mem_nil

section Trie

variable (trie : before.Trie seen contents)
  (above : before.tree.PathTo before.body parentPath parent)

include trie above

theorem pathTo_node_of_appended :
    after.tree.PathTo after.body (parentPath ++ [element.key]) node := by
  have linked := trie.sound.linked
  have extended := extends_of_appended growth linked
  have aboveAfter := (extended.pathTo_iff linked (trie.sound.lt_size_of_pathTo above)).mpr above
  rw [growth.body_eq, ← Element.key_withImported element imported]
  exact .child aboveAfter (growth.parent_of_new (Or.inl rfl)) growth.element_node

/-- Paths after an element came in: the old ones, and the one of the element. -/
theorem pathTo_iff_of_appended {path : Path} {id : NodeId} :
    after.tree.PathTo after.body path id ↔
      before.tree.PathTo before.body path id ∨
        (id = node ∧ path = parentPath ++ [element.key]) := by
  have linked := trie.sound.linked
  have extended := extends_of_appended growth linked
  have reachedNode := pathTo_node_of_appended growth trie above
  constructor
  · intro reached
    by_cases old : id < before.tree.size
    · rw [growth.body_eq] at reached
      exact Or.inl ((extended.pathTo_iff linked old).mp reached)
    · right
      have element : after.tree.isElement id = true := by
        cases path with
        | nil =>
            rw [reached.eq_top, growth.body_eq] at old
            exact absurd trie.sound.body_lt_size old
        | cons key rest => exact (reached.element_below (List.cons_ne_nil key rest)).2
      have atNode := eq_node_of_appended growth (Nat.le_of_not_lt old) element
      exact ⟨atNode, reached.unique growth.linked (atNode ▸ reachedNode)⟩
  · rintro (reached | ⟨rfl, rfl⟩)
    · rw [growth.body_eq]
      exact (extended.pathTo_iff linked (trie.sound.lt_size_of_pathTo reached)).mpr reached
    · exact reachedNode

variable (fresh : ∀ id ∈ before.tree.elementChildren parent, ∀ data,
  before.tree.element? id = some data → data.key ≠ element.key)

include fresh

omit growth in
theorem path_notMem_seen : parentPath ++ [element.key] ∉ seen := by
  intro member
  obtain ⟨-, id, reached⟩ := (trie.seen_iff _).mp member
  obtain ⟨_, data, aboveId, attached, found, sameKey⟩ := reached.exists_last
  cases trie.injective parentPath _ _ aboveId above
  refine fresh id ?_ data found sameKey
  exact List.mem_filter.mpr
    ⟨trie.sound.linked.mem_children attached, Tree.isElement_iff.mpr ⟨data, found⟩⟩

private theorem injective_appended {path : Path} {first second : NodeId}
    (atFirst : after.tree.PathTo after.body path first)
    (atSecond : after.tree.PathTo after.body path second) : first = second := by
  have notSeen := path_notMem_seen trie above fresh
  have newPath : ∀ id, ¬ before.tree.PathTo before.body (parentPath ++ [element.key]) id :=
    fun id reached => notSeen ((trie.seen_iff _).mpr ⟨by simp, id, reached⟩)
  rcases (pathTo_iff_of_appended growth trie above).mp atFirst with oldFirst | ⟨rfl, rfl⟩ <;>
    rcases (pathTo_iff_of_appended growth trie above).mp atSecond with oldSecond | ⟨rfl, sameKey⟩
  · exact trie.injective path first second oldFirst oldSecond
  · exact absurd oldFirst (sameKey ▸ newPath first)
  · exact absurd oldSecond (newPath second)
  · rfl

variable (host : before.Host parent)

include host

/-- The new child is behind its siblings, and its path occurs after theirs. -/
private theorem ordered_appended (other : NodeId) :
    (after.tree.elementChildren other).Pairwise fun left right =>
      ∀ leftPath rightPath, after.tree.PathTo after.body leftPath left →
        after.tree.PathTo after.body rightPath right →
        (seen ++ [parentPath ++ [element.key]]).idxOf leftPath <
          (seen ++ [parentPath ++ [element.key]]).idxOf rightPath := by
  have linked := trie.sound.linked
  have pathTo_iff : ∀ {path id}, after.tree.PathTo after.body path id ↔ _ :=
    pathTo_iff_of_appended growth trie above
  have nodeNew := ((growth.new_iff node).mp (Or.inl rfl)).1
  have oldOnly : ∀ {path id}, id ∈ before.tree.elementChildren other →
      after.tree.PathTo after.body path id → before.tree.PathTo before.body path id := by
    intro path id listed reached
    refine (pathTo_iff.mp reached).resolve_right fun new => ?_
    have old := linked.lt_size_of_mem (List.mem_filter.mp listed).1
    exact Nat.not_le_of_lt old (new.1 ▸ nodeNew)
  have oldPairs := (trie.ordered other).imp_of_mem fun leftListed rightListed order
      leftPath rightPath atLeft atRight =>
    idxOf_lt_append (order leftPath rightPath (oldOnly leftListed atLeft)
      (oldOnly rightListed atRight)) [parentPath ++ [element.key]]
  by_cases atParent : other = parent
  · subst atParent
    rw [elementChildren_of_appended growth linked]
    refine List.pairwise_append.mpr ⟨oldPairs, List.pairwise_singleton _ _, ?_⟩
    intro left listed right last leftPath rightPath atLeft atRight
    rw [List.mem_singleton.mp last] at atRight
    have oldNode : ¬ before.tree.PathTo before.body rightPath node := fun reached =>
      Nat.not_le_of_lt (trie.sound.lt_size_of_pathTo reached) nodeNew
    obtain ⟨-, rfl⟩ := (pathTo_iff.mp atRight).resolve_left oldNode
    have atLeftBefore := oldOnly listed atLeft
    have known : leftPath ∈ seen := by
      refine (trie.seen_iff leftPath).mpr ⟨?_, left, atLeftBefore⟩
      rintro rfl
      have below := Sound.below_of_host host
        (linked.parent_of_mem (List.mem_filter.mp listed).1)
      rw [atLeftBefore.eq_top] at below
      exact linked.not_below_self before.body below
    rw [List.idxOf_append_of_mem known,
      List.idxOf_append_of_notMem (path_notMem_seen trie above fresh)]
    exact Nat.lt_of_lt_of_le (List.idxOf_lt_length_iff.mpr known) (Nat.le_add_right _ _)
  · rw [growth.elementChildren_of_ne linked atParent]
    exact oldPairs

variable (proper : element.ProperClasses) (noAttributes : element.attributes = .empty)
  (noValue : element.value = none)

include noAttributes noValue

private theorem holds_appended {path : Path} {id : NodeId} {data : Element}
    (nonempty : path ≠ []) (reached : after.tree.PathTo after.body path id)
    (found : after.tree.element? id = some data) :
    after.tree.Holds id data ((contents path).getLast?.map stripQuotes) := by
  have sound := trie.sound
  rcases (pathTo_iff_of_appended growth trie above).mp reached with old | ⟨rfl, rfl⟩
  · rw [Tree.element?_congr (growth.payload?_of_lt id (sound.lt_size_of_pathTo old))] at found
    exact (trie.holds path id data nonempty old found).congr rfl rfl rfl
      (growth.texts_eq sound.linked (by simp) id)
  · have noContents : contents (parentPath ++ [element.key]) = [] := by
      by_contra shown
      exact path_notMem_seen trie above fresh (trie.written _ nonempty shown)
    have textless : after.tree.texts id = [] := by
      have new := ((growth.new_iff id).mp (Or.inl rfl)).1
      rw [Tree.texts, growth.children_of_new (sound.host_lt_size host) new]
      rfl
    cases found.symm.trans growth.element_node
    rw [noContents]
    exact ⟨fun name => by simp [Element.getAttribute, noAttributes], by simp [noValue],
      by simp [textless]⟩

include proper

/-- An element with a key that no sibling has brings its path into the trie. -/
theorem Trie.appended : after.Trie (seen ++ [parentPath ++ [element.key]]) contents where
  sound := sound_grown trie.sound host growth proper
  noFiller id := by
    refine Bool.eq_false_iff.mpr fun registered => ?_
    rcases (growth.contains_iff id).mp registered with lead | ⟨known, -⟩
    · cases lead
    · simp [trie.noFiller] at known
  seen_iff path := by
    have pathTo_iff : ∀ {path id}, after.tree.PathTo after.body path id ↔ _ :=
      pathTo_iff_of_appended growth trie above
    rw [List.mem_append, trie.seen_iff, List.mem_singleton]
    constructor
    · rintro (⟨nonempty, id, reached⟩ | rfl)
      · exact ⟨nonempty, id, pathTo_iff.mpr (Or.inl reached)⟩
      · exact ⟨by simp, node, pathTo_iff.mpr (Or.inr ⟨rfl, rfl⟩)⟩
    · rintro ⟨nonempty, id, reached⟩
      rcases pathTo_iff.mp reached with old | ⟨-, rfl⟩
      · exact Or.inl ⟨nonempty, id, old⟩
      · exact Or.inr rfl
  injective _ _ _ atFirst atSecond := injective_appended growth trie above fresh atFirst atSecond
  ordered := ordered_appended growth trie above fresh host
  holds _ _ _ nonempty reached found :=
    holds_appended growth trie above fresh host noAttributes noValue nonempty reached found
  written path nonempty shown := List.mem_append_left _ (trie.written path nonempty shown)

end Trie

end Appended

end Builder

end SelectorTree
