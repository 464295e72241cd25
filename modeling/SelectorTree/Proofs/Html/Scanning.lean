import Mathlib.Data.List.TakeWhile
import SelectorTree.Proofs.Html.StartTags
import SelectorTree.Text.Blank

/-!
# Scanning markup for tags

A scanner that knows nothing about trees finds tags in a text: one begins at each `<`,
names end at blanks, slashes, equals signs and `>`, and quoted values are skipped.  In
the text of a tree it finds the tags of the tree exactly if no name in them contains a
character at which the scanner ends a name.
-/

namespace SelectorTree.Html

open Text

/-- A tag as it is found in a text, with the names of its attributes. -/
structure Tag where
  closing : Bool
  name : List Char
  attributes : List (List Char)
deriving DecidableEq

/-- The characters at which the name of a tag ends. -/
def endsTagName (c : Char) : Bool := isWordBlank c || c == '/' || c == '>'

/-- The characters at which the name of an attribute ends. -/
def endsAttributeName (c : Char) : Bool := endsTagName c || c == '='

/-- The input behind a value in double quotes, if one is there. -/
def skipValue : List Char → List Char
  | '=' :: '"' :: rest => (rest.dropWhile (· != '"')).tail
  | chars => chars

theorem skipValue_suffix (chars : List Char) : skipValue chars <:+ chars := by
  unfold skipValue
  split
  · exact (((List.tail_suffix _).trans (List.dropWhile_suffix _)).trans
      (List.suffix_cons _ _)).trans (List.suffix_cons _ _)
  · exact List.suffix_rfl

/-- The names of the attributes up to the end of a tag, and the input behind it. -/
def scanAttributes : List Char → List (List Char) × List Char
  | [] => ([], [])
  | c :: rest =>
    if c = '>' then ([], rest)
    else if endsAttributeName c then scanAttributes rest
    else
      let tail := scanAttributes (skipValue (rest.dropWhile (!endsAttributeName ·)))
      ((c :: rest.takeWhile (!endsAttributeName ·)) :: tail.1, tail.2)
termination_by chars => chars.length
decreasing_by
  · exact Nat.lt_succ_self _
  · exact Nat.lt_succ_of_le
      ((skipValue_suffix _).trans (List.dropWhile_suffix _)).length_le

theorem scanAttributes_suffix (chars : List Char) : (scanAttributes chars).2 <:+ chars := by
  fun_induction scanAttributes chars with
  | case1 => exact List.suffix_rfl
  | case2 => exact List.suffix_cons _ _
  | case3 c rest _ _ ih => exact ih.trans (List.suffix_cons c rest)
  | case4 c rest _ _ _ ih =>
      exact ((ih.trans (skipValue_suffix _)).trans (List.dropWhile_suffix _)).trans
        (List.suffix_cons c rest)

/-- A slash at the beginning makes a tag an end tag. -/
def splitSlash : List Char → Bool × List Char
  | '/' :: rest => (true, rest)
  | chars => (false, chars)

theorem splitSlash_suffix (chars : List Char) : (splitSlash chars).2 <:+ chars := by
  unfold splitSlash
  split
  · exact List.suffix_cons _ _
  · exact List.suffix_rfl

/-- The tag behind a `<`, and the input behind it. -/
def scanTag (chars : List Char) : Tag × List Char :=
  let start := splitSlash chars
  let attributes := scanAttributes (start.2.dropWhile (!endsTagName ·))
  (⟨start.1, start.2.takeWhile (!endsTagName ·), attributes.1⟩, attributes.2)

theorem scanTag_suffix (chars : List Char) : (scanTag chars).2 <:+ chars :=
  ((scanAttributes_suffix _).trans (List.dropWhile_suffix _)).trans (splitSlash_suffix chars)

/-- The tags in a text. -/
def scan : List Char → List Tag
  | [] => []
  | c :: rest =>
    if c = '<' then
      let tag := scanTag rest
      tag.1 :: scan tag.2
    else scan rest
termination_by chars => chars.length
decreasing_by
  · exact Nat.lt_succ_of_le (scanTag_suffix rest).length_le
  · exact Nat.lt_succ_self _

/-! ## What can be found -/

/-- A tag whose names contain no character that ends a name. -/
structure Tag.Plain (tag : Tag) : Prop where
  name : ∀ c ∈ tag.name, endsTagName c = false
  attributes : ∀ given ∈ tag.attributes,
    given ≠ [] ∧ ∀ c ∈ given, endsAttributeName c = false

theorem of_mem_takeWhile {ends : Char → Bool} {c : Char} {chars : List Char}
    (member : c ∈ chars.takeWhile (!ends ·)) : ends c = false := by
  simpa using List.mem_takeWhile_imp member

theorem plain_scanAttributes {chars given : List Char}
    (member : given ∈ (scanAttributes chars).1) :
    given ≠ [] ∧ ∀ c ∈ given, endsAttributeName c = false := by
  fun_induction scanAttributes chars with
  | case1 => cases member
  | case2 => cases member
  | case3 c rest _ _ ih => exact ih member
  | case4 c rest _ named tail ih =>
      rcases List.mem_cons.mp member with rfl | later
      · refine ⟨List.cons_ne_nil _ _, List.forall_mem_cons.mpr ⟨?_, ?_⟩⟩
        · exact Bool.eq_false_iff.mpr named
        · exact fun c inside => of_mem_takeWhile inside
      · exact ih later

/-- No other tags are ever found. -/
theorem plain_of_mem_scan {tag : Tag} {chars : List Char} (member : tag ∈ scan chars) :
    tag.Plain := by
  fun_induction scan chars with
  | case1 => cases member
  | case2 rest found ih =>
      rcases List.mem_cons.mp member with rfl | later
      · exact ⟨fun c inside => of_mem_takeWhile inside,
          fun given inside => plain_scanAttributes inside⟩
      · exact ih later
  | case3 c rest _ ih => exact ih member

/-! ## The tags of a tree -/

def startOf (data : Element) : Tag :=
  ⟨false, data.tag.toList, (shownAttributes data).map fun entry => entry.1.toList⟩

def endOf (data : Element) : Tag := ⟨true, data.tag.toList, []⟩

mutual

/-- The tags that a subtree is written with, in order. -/
def tags : Branch → List Tag
  | .node (.text _) _ => []
  | .node .document children => tagsOfAll children
  | .node (.element data) children =>
    if isVoid data.tag then [startOf data]
    else startOf data :: tagsOfAll children ++ [endOf data]

def tagsOfAll : List Branch → List Tag
  | [] => []
  | branch :: rest => tags branch ++ tagsOfAll rest

end

/-! ## Scanning what was written -/

variable {chars rest : List Char} {data : Element}

theorem scan_append_of_not_mem (outside : '<' ∉ chars) : scan (chars ++ rest) = scan rest := by
  induction chars with
  | nil => rfl
  | cons c chars ih =>
      rw [List.mem_cons, not_or] at outside
      obtain ⟨different, others⟩ := outside
      rw [List.cons_append, scan, if_neg (Ne.symm different), ih others]

theorem not_mem_text (content : String) : '<' ∉ text content := by
  intro member
  obtain ⟨c, -, written⟩ := List.mem_flatMap.mp member
  rw [textChar] at written
  split_ifs at written with _ _ open_ _ <;> revert written
  · decide
  · decide
  · decide
  · decide
  · intro written
    exact open_ (List.mem_singleton.mp written).symm

theorem not_mem_value (value : String) : '"' ∉ value.toList.flatMap valueChar := by
  intro member
  obtain ⟨c, -, written⟩ := List.mem_flatMap.mp member
  rw [valueChar] at written
  split_ifs at written with _ _ quote <;> revert written
  · decide
  · decide
  · decide
  · intro written
    exact quote (List.mem_singleton.mp written).symm

theorem scanAttributes_attributeText {name value : String} (named : name.toList ≠ [])
    (inside : ∀ c ∈ name.toList, endsAttributeName c = false) :
    scanAttributes (attributeText name value ++ rest) =
      (name.toList :: (scanAttributes rest).1, (scanAttributes rest).2) := by
  have skipped : skipValue ('=' :: '"' :: (value.toList.flatMap valueChar ++ '"' :: rest)) =
      rest := by
    have outside : ∀ c ∈ value.toList.flatMap valueChar, (c != '"') = true := by
      intro c member
      rw [bne_iff_ne]
      rintro rfl
      exact not_mem_value value member
    rw [skipValue, List.dropWhile_append_of_pos outside]
    simp
  rw [attributeText_append]
  obtain ⟨first, others, chars⟩ := List.exists_cons_of_ne_nil named
  rw [chars] at inside ⊢
  obtain ⟨atFirst, behind⟩ := List.forall_mem_cons.mp inside
  have notEnd : first ≠ '>' := by
    rintro rfl
    cases atFirst
  rw [scanAttributes, if_neg (by decide), if_pos (by decide), List.cons_append, scanAttributes,
    if_neg notEnd, if_neg (Bool.eq_false_iff.mp atFirst)]
  simp only [takeWhile_of_ends behind (show endsAttributeName '=' = true from rfl),
    dropWhile_of_ends behind (show endsAttributeName '=' = true from rfl), skipped]

theorem scanAttributes_entries {entries : List (String × String)}
    (plain : ∀ entry ∈ entries, entry.1.toList ≠ [] ∧
      ∀ c ∈ entry.1.toList, endsAttributeName c = false) :
    scanAttributes (entries.flatMap (fun entry => attributeText entry.1 entry.2) ++ '>' :: rest) =
      (entries.map fun entry => entry.1.toList, rest) := by
  induction entries with
  | nil => rw [List.flatMap_nil, List.nil_append, scanAttributes, if_pos rfl, List.map_nil]
  | cons entry entries ih =>
      obtain ⟨⟨named, inside⟩, others⟩ := List.forall_mem_cons.mp plain
      rw [List.flatMap_cons, List.append_assoc, scanAttributes_attributeText named inside,
        ih others, List.map_cons]

theorem splitSlash_of_head (starts : ∀ c ∈ chars.head?, c ≠ '/') :
    splitSlash chars = (false, chars) := by
  unfold splitSlash
  split
  · exact absurd rfl (starts '/' rfl)
  · rfl

theorem scan_startTag (plain : (startOf data).Plain) :
    scan (startTag data ++ rest) = startOf data :: scan rest := by
  have attributes := @scanAttributes_entries rest (shownAttributes data)
    fun entry member => plain.attributes _ (List.mem_map_of_mem member)
  have inside : ∀ c ∈ data.tag.toList, endsTagName c = false := plain.name
  obtain ⟨c, behind, follows, ends⟩ := exists_attributes_eq_cons (shownAttributes data) rest
  have atEnd : endsTagName c = true := by rcases ends with rfl | rfl <;> rfl
  have opening : splitSlash (data.tag.toList ++ c :: behind) =
      (false, data.tag.toList ++ c :: behind) := by
    apply splitSlash_of_head
    cases chars : data.tag.toList with
    | nil => rcases ends with rfl | rfl <;> simp
    | cons first others =>
        rintro _ ⟨⟩ rfl
        have slash := inside '/' (by simp [chars])
        cases slash
  rw [follows] at attributes
  rw [startTag_append, follows, scan, if_pos rfl]
  simp only [scanTag, opening, takeWhile_of_ends inside atEnd, dropWhile_of_ends inside atEnd,
    attributes, startOf]

theorem scan_endTag (inside : ∀ c ∈ data.tag.toList, endsTagName c = false) :
    scan (endTag data ++ rest) = endOf data :: scan rest := by
  have atEnd : endsTagName '>' = true := rfl
  have attributes : scanAttributes ('>' :: rest) = ([], rest) := by
    rw [scanAttributes, if_pos rfl]
  rw [endTag_append, scan, if_pos rfl]
  simp only [scanTag, splitSlash, takeWhile_of_ends inside atEnd, dropWhile_of_ends inside atEnd,
    attributes, endOf]

mutual

/-- The scanner finds the tags of a subtree, by recursion on the subtree. -/
theorem scan_outer : (branch : Branch) → (∀ tag ∈ tags branch, tag.Plain) → (rest : List Char) →
    scan (outer branch ++ rest) = tags branch ++ scan rest
  | .node (.text content) _, _, rest => by
      rw [outer, tags, scan_append_of_not_mem (not_mem_text content), List.nil_append]
  | .node .document children, plain, rest => by
      rw [tags] at plain ⊢
      rw [outer, scan_outerAll children plain rest]
  | .node (.element data) children, plain, rest => by
      rw [tags] at plain ⊢
      rw [outer]
      split at plain
      · next void =>
          rw [if_pos void, if_pos void, scan_startTag (plain _ List.mem_cons_self)]
          rfl
      · next open_ =>
          have start : (startOf data).Plain := plain _ (by simp)
          have inside : ∀ tag ∈ tagsOfAll children, tag.Plain :=
            fun tag member => plain tag (by simp [member])
          rw [if_neg open_, if_neg open_, List.append_assoc, List.append_assoc,
            scan_startTag start, scan_outerAll children inside, scan_endTag start.name,
            List.cons_append, List.cons_append, List.append_assoc, List.singleton_append]

theorem scan_outerAll : (branches : List Branch) → (∀ tag ∈ tagsOfAll branches, tag.Plain) →
    (rest : List Char) → scan (outerAll branches ++ rest) = tagsOfAll branches ++ scan rest
  | [], _, rest => rfl
  | branch :: others, plain, rest => by
      rw [tagsOfAll, List.forall_mem_append] at plain
      rw [outerAll, tagsOfAll, List.append_assoc, List.append_assoc, scan_outer branch plain.1,
        scan_outerAll others plain.2]

end

/-- The scanner finds the tags of a subtree and no others exactly if all of them are plain. -/
theorem scan_outer_eq_iff (branch : Branch) :
    scan (outer branch) = tags branch ↔ ∀ tag ∈ tags branch, tag.Plain := by
  constructor
  · intro found tag member
    rw [← found] at member
    exact plain_of_mem_scan member
  · intro plain
    have found := scan_outer branch plain []
    rwa [scan, List.append_nil, List.append_nil] at found

end SelectorTree.Html
