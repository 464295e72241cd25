import Mathlib.Data.List.Basic
import SelectorTree.Tree.Html

/-!
# Reading start tags

A start tag can be read in one way only, whatever values it contains.  A name ends
before the first character that no name has; a value or a text ends at a mark that
no written character begins with.
-/

namespace SelectorTree.Html

variable {rest other : List Char}

/-! ## Written characters -/

/-- The character that a text with escapes begins with, and what follows it. -/
def readChar : List Char → Option (Char × List Char)
  | '&' :: 'a' :: 'm' :: 'p' :: ';' :: rest => some ('&', rest)
  | '&' :: 'n' :: 'b' :: 's' :: 'p' :: ';' :: rest => some ('\u00A0', rest)
  | '&' :: 'l' :: 't' :: ';' :: rest => some ('<', rest)
  | '&' :: 'g' :: 't' :: ';' :: rest => some ('>', rest)
  | '&' :: 'q' :: 'u' :: 'o' :: 't' :: ';' :: rest => some ('"', rest)
  | c :: rest => some (c, rest)
  | [] => none

theorem readChar_cons {c : Char} (plain : c ≠ '&') (rest : List Char) :
    readChar (c :: rest) = some (c, rest) := by
  unfold readChar
  split <;> simp_all

/-- Written characters are read back, and none begins with the mark behind them. -/
structure Readable (write : Char → List Char) (mark : Char) : Prop where
  reads : ∀ c rest, readChar (write c ++ rest) = some (c, rest)
  starts : ∀ c, ∃ head tail, write c = head :: tail ∧ head ≠ mark

theorem readable_textChar : Readable textChar '<' where
  reads c rest := by
    rw [textChar]
    split
    · next special => simp [special, readChar]
    · next plain =>
        split
        · next special => simp [special, readChar]
        · split
          · next special => simp [special, readChar]
          · split
            · next special => simp [special, readChar]
            · exact readChar_cons plain rest
  starts c := by
    rw [textChar]
    split
    · exact ⟨'&', _, rfl, by decide⟩
    · split
      · exact ⟨'&', _, rfl, by decide⟩
      · split
        · exact ⟨'&', _, rfl, by decide⟩
        · next different =>
            split
            · exact ⟨'&', _, rfl, by decide⟩
            · exact ⟨c, [], rfl, different⟩

theorem readable_valueChar : Readable valueChar '"' where
  reads c rest := by
    rw [valueChar]
    split
    · next special => simp [special, readChar]
    · next plain =>
        split
        · next special => simp [special, readChar]
        · split
          · next special => simp [special, readChar]
          · exact readChar_cons plain rest
  starts c := by
    rw [valueChar]
    split
    · exact ⟨'&', _, rfl, by decide⟩
    · split
      · exact ⟨'&', _, rfl, by decide⟩
      · split
        · exact ⟨'&', _, rfl, by decide⟩
        · next different => exact ⟨c, [], rfl, different⟩

/-- Nothing follows, or a mark comes first. -/
def Marked (mark : Char) (rest : List Char) : Prop := ∀ c ∈ rest.head?, c = mark

theorem marked_cons (mark : Char) (rest : List Char) : Marked mark (mark :: rest) := by
  intro c first
  exact (Option.some.inj first).symm

namespace Readable

variable {write : Char → List Char} {mark : Char}

theorem ne_of_marked (readable : Readable write mark) (marked : Marked mark rest) (c : Char) :
    write c ++ other ≠ rest := by
  rintro rfl
  obtain ⟨head, tail, written, different⟩ := readable.starts c
  apply different
  apply marked
  simp [written]

/-- A row of written characters ends where the mark is. -/
theorem cancel (readable : Readable write mark) {left right : List Char}
    (marked : Marked mark rest) (markedOther : Marked mark other)
    (same : left.flatMap write ++ rest = right.flatMap write ++ other) :
    left = right ∧ rest = other := by
  induction left generalizing right with
  | nil =>
      cases right with
      | nil => exact ⟨rfl, same⟩
      | cons d later =>
          rw [List.flatMap_cons, List.append_assoc] at same
          exact absurd same.symm (readable.ne_of_marked marked d)
  | cons c earlier ih =>
      rw [List.flatMap_cons, List.append_assoc] at same
      cases right with
      | nil => exact absurd same (readable.ne_of_marked markedOther c)
      | cons d later =>
          rw [List.flatMap_cons, List.append_assoc] at same
          have read := congrArg readChar same
          rw [readable.reads, readable.reads] at read
          obtain ⟨rfl, behind⟩ := Prod.mk.inj (Option.some.inj read)
          obtain ⟨rfl, rests⟩ := ih behind
          exact ⟨rfl, rests⟩

end Readable

/-! ## Names -/

section Ends

variable {ends : Char → Bool} {row : List Char} {c d : Char}

/-- A row of characters ends where a character of another class stands. -/
theorem takeWhile_of_ends (inside : ∀ x ∈ row, ends x = false) (atEnd : ends c = true) :
    (row ++ c :: rest).takeWhile (!ends ·) = row := by
  rw [List.takeWhile_append_of_pos fun x member => by simp [inside x member]]
  simp [atEnd]

theorem dropWhile_of_ends (inside : ∀ x ∈ row, ends x = false) (atEnd : ends c = true) :
    (row ++ c :: rest).dropWhile (!ends ·) = c :: rest := by
  rw [List.dropWhile_append_of_pos fun x member => by simp [inside x member]]
  simp [atEnd]

theorem cancel_of_ends {left right : List Char} (inside : ∀ x ∈ left, ends x = false)
    (insideOther : ∀ x ∈ right, ends x = false) (atEnd : ends c = true) (atEndOther : ends d = true)
    (same : left ++ c :: rest = right ++ d :: other) : left = right ∧ c = d ∧ rest = other := by
  have rows : left = right := by
    rw [← takeWhile_of_ends inside atEnd, same, takeWhile_of_ends insideOther atEndOther]
  subst rows
  obtain ⟨first, rests⟩ := List.cons.inj (List.append_cancel_left same)
  exact ⟨rfl, first, rests⟩

end Ends

/-- The characters that end a name. -/
def endsName (c : Char) : Bool := c ∈ [' ', '<', '>', '"', '=', '/']

/-- A name that a start tag can contain. -/
def IsName (name : String) : Prop := ∀ c ∈ name.toList, endsName c = false

instance (name : String) : Decidable (IsName name) :=
  List.decidableBAll (fun c => endsName c = false) name.toList

theorem IsName.cancel {left right : String} {c d : Char} (named : IsName left)
    (namedOther : IsName right) (ends : endsName c = true) (endsOther : endsName d = true)
    (same : left.toList ++ c :: rest = right.toList ++ d :: other) :
    left = right ∧ c = d ∧ rest = other := by
  obtain ⟨names, behind⟩ := cancel_of_ends named namedOther ends endsOther same
  exact ⟨String.toList_inj.mp names, behind⟩

/-! ## Attributes -/

theorem attributeText_append (name value : String) (rest : List Char) :
    attributeText name value ++ rest =
      ' ' :: (name.toList ++ '=' :: ('"' :: (value.toList.flatMap valueChar ++ '"' :: rest))) := by
  simp [attributeText]

/-- Attributes can be told from what follows the `>` behind them. -/
theorem cancel_attributes {left right : List (String × String)}
    (named : ∀ entry ∈ left, IsName entry.1) (namedOther : ∀ entry ∈ right, IsName entry.1)
    (same : left.flatMap (fun entry => attributeText entry.1 entry.2) ++ '>' :: rest =
      right.flatMap (fun entry => attributeText entry.1 entry.2) ++ '>' :: other) :
    left = right ∧ rest = other := by
  induction left generalizing right with
  | nil =>
      cases right with
      | nil => exact ⟨rfl, (List.cons.inj same).2⟩
      | cons entry later =>
          rw [List.flatMap_cons, List.append_assoc, attributeText_append] at same
          exact absurd (List.cons.inj same).1 (by decide)
  | cons entry earlier ih =>
      rw [List.flatMap_cons, List.append_assoc, attributeText_append] at same
      cases right with
      | nil => exact absurd (List.cons.inj same).1 (by decide)
      | cons entry' later =>
          rw [List.flatMap_cons, List.append_assoc, attributeText_append] at same
          obtain ⟨names, -, quoted⟩ := (named entry List.mem_cons_self).cancel
            (namedOther entry' List.mem_cons_self) rfl rfl (List.cons.inj same).2
          obtain ⟨values, behind⟩ := readable_valueChar.cancel (marked_cons '"' _)
            (marked_cons '"' _) (List.cons.inj quoted).2
          obtain ⟨rfl, rests⟩ := ih (fun entry member => named entry (.tail _ member))
            (fun entry member => namedOther entry (.tail _ member)) (List.cons.inj behind).2
          have entries : entry = entry' := Prod.ext names (String.toList_inj.mp values)
          exact ⟨entries ▸ rfl, rests⟩

/-! ## Classes -/

/-- Rows without a space can be told apart once they are joined by spaces. -/
theorem intercalate_inj {left right : List (List Char)} (some : left ≠ [])
    (someOther : right ≠ []) (spaceless : ∀ row ∈ left, ' ' ∉ row)
    (spacelessOther : ∀ row ∈ right, ' ' ∉ row)
    (same : [' '].intercalate left = [' '].intercalate right) : left = right := by
  induction left generalizing right with
  | nil => exact absurd rfl some
  | cons row later ih =>
      obtain ⟨row', later', rfl⟩ := List.exists_cons_of_ne_nil someOther
      have fresh := spaceless row List.mem_cons_self
      have fresh' := spacelessOther row' List.mem_cons_self
      cases later with
      | nil =>
          cases later' with
          | nil => simpa using same
          | cons next' rest' =>
              rw [List.intercalate_singleton, List.intercalate_cons_cons] at same
              exact absurd (by simp [same]) fresh
      | cons next rest =>
          cases later' with
          | nil =>
              rw [List.intercalate_singleton, List.intercalate_cons_cons] at same
              exact absurd (by simp [← same]) fresh'
          | cons next' rest' =>
              simp only [List.intercalate_cons_cons, List.append_assoc, List.singleton_append]
                at same
              have within : ∀ {chars : List Char}, ' ' ∉ chars →
                  ∀ x ∈ chars, (x == ' ') = false := by
                intro chars absent x member
                exact beq_eq_false_iff_ne.mpr fun space => absent (space ▸ member)
              obtain ⟨rfl, -, behind⟩ :=
                cancel_of_ends (within fresh) (within fresh') rfl rfl same
              have equal := ih (List.cons_ne_nil _ _) (List.cons_ne_nil _ _)
                (fun row member => spaceless row (.tail _ member))
                (fun row member => spacelessOther row (.tail _ member)) behind
              rw [equal]

/-- The data of an element that can be read from its start tag. -/
structure Legible (data : Element) : Prop where
  tag : IsName data.tag
  classes : ∀ name ∈ data.classes, ' ' ∉ name.toList
  attributes : ∀ entry ∈ data.attributes.entries,
    IsName entry.1 ∧ entry.1 ≠ "id" ∧ entry.1 ≠ "class"

instance (data : Element) : Decidable (Legible data) :=
  decidable_of_iff
    (IsName data.tag ∧ (∀ name ∈ data.classes, ' ' ∉ name.toList) ∧
      ∀ entry ∈ data.attributes.entries, IsName entry.1 ∧ entry.1 ≠ "id" ∧ entry.1 ≠ "class")
    ⟨fun ⟨tag, classes, attributes⟩ => ⟨tag, classes, attributes⟩,
      fun legible => ⟨legible.tag, legible.classes, legible.attributes⟩⟩

/-- What a start tag shows of two elements is the same. -/
structure SameMarkup (left right : Element) : Prop where
  tag : left.tag = right.tag
  id : left.id = right.id
  classes : left.classes = right.classes
  attributes : left.attributes = right.attributes

variable {left right : Element}

theorem SameMarkup.startTag_eq (same : SameMarkup left right) : startTag left = startTag right := by
  have shown : shownAttributes left = shownAttributes right := by
    simp only [shownAttributes, Element.classText, same.id, same.classes, same.attributes]
  rw [startTag, startTag, same.tag, shown]

theorem classes_of_classText (legible : Legible left) (legibleOther : Legible right)
    (some : left.classes ≠ []) (someOther : right.classes ≠ [])
    (same : left.classText = right.classText) : left.classes = right.classes := by
  have joined : [' '].intercalate (left.classes.map String.toList) =
      [' '].intercalate (right.classes.map String.toList) := by
    simpa [Element.classText, String.toList_intercalate] using congrArg String.toList same
  have rows := intercalate_inj (by simpa using some) (by simpa using someOther)
    (by simpa using legible.classes) (by simpa using legibleOther.classes) joined
  exact List.map_injective_iff.mpr (fun _ _ => String.toList_inj.mp) rows

/-! ## Start tags -/

theorem filter_id_shownAttributes (legible : Legible left) :
    (shownAttributes left).filter (·.1 = "id") = (left.id.map fun id => ("id", id)).toList := by
  have others : left.attributes.entries.filter (·.1 = "id") = [] :=
    List.filter_eq_nil_iff.mpr fun entry member => by
      simpa using (legible.attributes entry member).2.1
  rw [shownAttributes, List.filter_append, List.filter_append, others]
  cases left.id <;> split <;> simp

theorem filter_class_shownAttributes (legible : Legible left) :
    (shownAttributes left).filter (·.1 = "class") =
      if left.classes = [] then [] else [("class", left.classText)] := by
  have others : left.attributes.entries.filter (·.1 = "class") = [] :=
    List.filter_eq_nil_iff.mpr fun entry member => by
      simpa using (legible.attributes entry member).2.2
  rw [shownAttributes, List.filter_append, List.filter_append, others]
  cases left.id <;> split <;> simp

theorem filter_other_shownAttributes (legible : Legible left) :
    (shownAttributes left).filter (fun entry => entry.1 ≠ "id" ∧ entry.1 ≠ "class") =
      left.attributes.entries := by
  have all : left.attributes.entries.filter
      (fun entry => entry.1 ≠ "id" ∧ entry.1 ≠ "class") = left.attributes.entries :=
    List.filter_eq_self.mpr fun entry member => by
      simpa using (legible.attributes entry member).2
  rw [shownAttributes, List.filter_append, List.filter_append, all]
  cases left.id <;> split <;> simp

/-- The id comes first, the classes second, and no other attribute has their names. -/
theorem sameMarkup_of_shownAttributes (legible : Legible left) (legibleOther : Legible right)
    (tags : left.tag = right.tag) (same : shownAttributes left = shownAttributes right) :
    SameMarkup left right where
  tag := tags
  id := by
    have ids := filter_id_shownAttributes legible
    rw [same, filter_id_shownAttributes legibleOther] at ids
    cases first : left.id <;> cases second : right.id <;> simp_all
  classes := by
    have classes := filter_class_shownAttributes legible
    rw [same, filter_class_shownAttributes legibleOther] at classes
    by_cases none : left.classes = []
    · by_cases noneOther : right.classes = []
      · rw [none, noneOther]
      · simp [none, noneOther] at classes
    · by_cases noneOther : right.classes = []
      · simp [none, noneOther] at classes
      · apply classes_of_classText legible legibleOther none noneOther
        simpa [none, noneOther] using classes.symm
  attributes := by
    have entries := filter_other_shownAttributes legible
    rw [same, filter_other_shownAttributes legibleOther] at entries
    exact Attributes.ext entries.symm

/-- The attributes of a start tag are the id, the classes and those in the map. -/
theorem mem_shownAttributes {entry : String × String} (member : entry ∈ shownAttributes left) :
    entry.1 = "id" ∨ entry.1 = "class" ∨ entry ∈ left.attributes.entries := by
  rcases List.mem_append.mp member with front | inMap
  · rcases List.mem_append.mp front with inId | inClass
    · cases found : left.id <;> simp_all
    · split at inClass <;> simp_all
  · exact Or.inr (Or.inr inMap)

theorem isName_of_mem_shownAttributes (legible : Legible left) :
    ∀ entry ∈ shownAttributes left, IsName entry.1 := by
  intro entry member
  rcases mem_shownAttributes member with name | name | inMap
  · rw [name]
    decide
  · rw [name]
    decide
  · exact (legible.attributes entry inMap).1

theorem startTag_append (data : Element) (rest : List Char) :
    startTag data ++ rest = '<' :: (data.tag.toList ++ ((shownAttributes data).flatMap
      (fun entry => attributeText entry.1 entry.2) ++ '>' :: rest)) := by
  simp [startTag]

theorem endTag_append (data : Element) (rest : List Char) :
    endTag data ++ rest = '<' :: '/' :: (data.tag.toList ++ '>' :: rest) := by
  simp [endTag]

/-- What follows the tag name of a start tag is a space or the end of the tag. -/
theorem exists_attributes_eq_cons (entries : List (String × String)) (rest : List Char) :
    ∃ c tail, entries.flatMap (fun entry => attributeText entry.1 entry.2) ++ '>' :: rest =
      c :: tail ∧ (c = ' ' ∨ c = '>') := by
  cases entries with
  | nil => exact ⟨'>', rest, rfl, Or.inr rfl⟩
  | cons entry later =>
      rw [List.flatMap_cons, List.append_assoc, attributeText_append]
      exact ⟨' ', _, rfl, Or.inl rfl⟩

/-- A start tag is no end tag. -/
theorem exists_startTag_append (legible : Legible left) (rest : List Char) :
    ∃ c tail, startTag left ++ rest = '<' :: c :: tail ∧ c ≠ '/' := by
  rw [startTag_append]
  cases tag : left.tag.toList with
  | nil =>
      obtain ⟨c, tail, written, ends⟩ := exists_attributes_eq_cons (shownAttributes left) rest
      refine ⟨c, tail, by rw [List.nil_append, written], ?_⟩
      rcases ends with rfl | rfl <;> decide
  | cons c later =>
      refine ⟨c, _, rfl, ?_⟩
      rintro rfl
      exact absurd (legible.tag '/' (by simp [tag])) (by decide)

/-- A start tag can be told from what follows it. -/
theorem cancel_startTag (legible : Legible left) (legibleOther : Legible right)
    (same : startTag left ++ rest = startTag right ++ other) :
    SameMarkup left right ∧ rest = other := by
  rw [startTag_append, startTag_append] at same
  have tags := (List.cons.inj same).2
  obtain ⟨c, tail, written, ends⟩ := exists_attributes_eq_cons (shownAttributes left) rest
  obtain ⟨d, tail', written', ends'⟩ := exists_attributes_eq_cons (shownAttributes right) other
  have endsName_of : ∀ {x : Char}, x = ' ' ∨ x = '>' → endsName x = true := by
    rintro x (rfl | rfl) <;> rfl
  rw [written, written'] at tags
  obtain ⟨sameTag, rfl, rfl⟩ := legible.tag.cancel legibleOther.tag (endsName_of ends)
    (endsName_of ends') tags
  obtain ⟨attributes, rests⟩ := cancel_attributes (isName_of_mem_shownAttributes legible)
    (isName_of_mem_shownAttributes legibleOther) (written.trans written'.symm)
  exact ⟨sameMarkup_of_shownAttributes legible legibleOther sameTag attributes, rests⟩

end SelectorTree.Html
