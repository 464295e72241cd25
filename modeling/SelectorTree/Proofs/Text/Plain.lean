import Mathlib.Data.List.TakeWhile
import SelectorTree.Proofs.Text.Quoting

/-!
# Texts without a backslash

Where there is no backslash, nothing is escaped.  A name is a row of name characters, and a
string is what stands before the next quote of its kind.  Neither depends on what stands
behind, as long as that does not go on with the name.
-/

namespace SelectorTree.Text

variable {c quote : Char} {chars rest value : List Char} {blank : Char → Bool} {style : QuoteStyle}
  {ending : QuoteEnd}

/-- Characters among which nothing is escaped. -/
def Plain (chars : List Char) : Prop := '\\' ∉ chars

instance (chars : List Char) : Decidable (Plain chars) :=
  inferInstanceAs (Decidable ('\\' ∉ chars))

theorem plain_cons : Plain (c :: chars) ↔ c ≠ '\\' ∧ Plain chars := by
  simp [Plain, eq_comm]

theorem plain_append : Plain (chars ++ rest) ↔ Plain chars ∧ Plain rest := by
  simp [Plain]

theorem Plain.sublist (plain : Plain chars) (within : rest.Sublist chars) : Plain rest :=
  fun member => plain (within.mem member)

theorem Plain.suffix (plain : Plain chars) (within : rest <:+ chars) : Plain rest :=
  plain.sublist within.sublist

theorem Plain.not_startsEscape (plain : Plain chars) : startsEscape chars = false := by
  unfold startsEscape
  split
  · exact absurd List.mem_cons_self plain
  · rfl

/-! ## Names -/

/-- What does not go on with a name that stands before it. -/
def StopsName (rest : List Char) : Prop :=
  ∀ next ∈ rest.head?, isNameChar next = false ∧ next ≠ '\\'

theorem stopsName_nil : StopsName [] := by simp [StopsName]

theorem stopsName_cons (unnamed : isNameChar c = false) (notBackslash : c ≠ '\\') :
    StopsName (c :: rest) := by
  rintro _ ⟨⟩
  exact ⟨unnamed, notBackslash⟩

theorem StopsName.not_startsEscape (stops : StopsName rest) : startsEscape rest = false := by
  unfold startsEscape
  split
  · exact absurd rfl (stops '\\' rfl).2
  · rfl

theorem StopsName.readName_eq (stops : StopsName rest) : readName blank rest = ([], rest) := by
  have noEscape := stops.not_startsEscape
  cases rest with
  | nil => rw [readName]
  | cons c rest =>
      rw [readName, if_neg (Bool.eq_false_iff.mp (stops c rfl).1),
        if_neg (Bool.eq_false_iff.mp noEscape)]

theorem readName_append_of_plain (plain : Plain chars) (stops : StopsName rest) :
    readName blank (chars ++ rest) =
      (chars.takeWhile isNameChar, chars.dropWhile isNameChar ++ rest) := by
  induction chars with
  | nil => exact stops.readName_eq
  | cons c chars ih =>
      obtain ⟨notBackslash, others⟩ := plain_cons.mp plain
      rw [List.cons_append, List.takeWhile_cons, List.dropWhile_cons]
      cases named : isNameChar c with
      | true => simp only [readName_cons named, ih others, if_true]
      | false => exact (stopsName_cons named notBackslash).readName_eq

theorem readName_of_plain (plain : Plain chars) :
    readName blank chars = (chars.takeWhile isNameChar, chars.dropWhile isNameChar) := by
  have read : readName blank (chars ++ []) = _ := readName_append_of_plain plain stopsName_nil
  rwa [List.append_nil, List.append_nil] at read

theorem plain_of_named (named : ∀ c ∈ chars, isNameChar c = true) : Plain chars :=
  fun member => Bool.false_ne_true (named '\\' member)

theorem readName_of_named (named : ∀ c ∈ chars, isNameChar c = true) (stops : StopsName rest) :
    readName blank (chars ++ rest) = (chars, rest) := by
  rw [readName_append_of_plain (plain_of_named named) stops, List.takeWhile_eq_self_iff.mpr named,
    List.dropWhile_eq_nil_iff.mpr named, List.nil_append]

theorem stopsName_dropWhile (plain : Plain chars) : StopsName (chars.dropWhile isNameChar) := by
  have stop := List.head?_dropWhile_not isNameChar chars
  intro next head
  rw [Option.mem_def] at head
  rw [head] at stop
  refine ⟨stop, ?_⟩
  rintro rfl
  exact plain ((List.dropWhile_sublist isNameChar).mem (List.mem_of_mem_head? head))

theorem startsName_of_plain (plain : Plain chars) :
    startsName chars = chars.head?.any isNameChar := by
  cases chars with
  | nil => rfl
  | cons c chars => simp [startsName, plain.not_startsEscape]

/-- Nothing begins an identifier that does not go on with a name. -/
theorem StopsName.not_startsIdentifier (stops : StopsName rest) :
    startsIdentifier rest = false := by
  rw [← Bool.not_eq_true]
  intro starts
  have name := startsName_of_startsIdentifier starts
  cases rest with
  | nil => cases name
  | cons c rest => simp [startsName, (stops c rfl).1, stops.not_startsEscape] at name

theorem not_startsEscape_append (plain : Plain chars) (stops : StopsName rest) :
    startsEscape (chars ++ rest) = false := by
  rw [← Bool.not_eq_true]
  intro escape
  unfold startsEscape at escape
  split at escape
  · next same =>
      have front : '\\' ∈ (chars ++ rest).head? := by simp [same]
      cases chars with
      | nil => exact (stops '\\' front).2 rfl
      | cons c chars =>
          cases front
          exact plain List.mem_cons_self
  · cases escape

theorem startsIdentifier_append_of_plain (plain : Plain chars) (stops : StopsName rest) :
    startsIdentifier (chars ++ rest) = startsIdentifier chars := by
  cases chars with
  | nil => exact stops.not_startsIdentifier
  | cons c chars =>
      obtain ⟨notBackslash, others⟩ := plain_cons.mp plain
      rw [List.cons_append, startsIdentifier, startsIdentifier,
        not_startsEscape_append others stops, ← List.cons_append,
        not_startsEscape_append plain stops, plain.not_startsEscape, others.not_startsEscape]
      cases chars with
      | cons second chars => rfl
      | nil =>
          cases rest with
          | nil => rfl
          | cons next rest =>
              have unnamed := (stops next rfl).1
              rw [isNameChar, Bool.or_eq_false_iff, Bool.or_eq_false_iff] at unnamed
              simp only [List.nil_append, List.head?_cons, Option.any_some, unnamed.1.1,
                unnamed.2, Bool.or_self, List.head?_nil, Option.any_none]

/-! ## Strings -/

/-- A string without a backslash is read up to the quote that closes it. -/
theorem readQuoted_of_plain (plain : Plain value) (unquoted : quote ∉ value)
    (inLine : style.stopsAtLineFeed = true → '\n' ∉ value) :
    readQuoted style quote (value ++ quote :: rest) = (value, .closed, rest) := by
  induction value with
  | nil => exact readQuoted_quote
  | cons c value ih =>
      obtain ⟨notBackslash, others⟩ := plain_cons.mp plain
      rw [List.mem_cons, not_or] at unquoted
      have stays : ¬(c = '\n' ∧ style.stopsAtLineFeed = true) := by
        rintro ⟨rfl, stops⟩
        exact inLine stops List.mem_cons_self
      have tail := ih others unquoted.2 fun stops member =>
        inLine stops (List.mem_cons_of_mem c member)
      rw [List.cons_append, readQuoted.eq_def]
      simp only [if_neg (Ne.symm unquoted.1), if_neg stays, if_neg notBackslash, tail]

/-- How the body of a string is found, by the way it ends. -/
def Quoted (quote : Char) (chars value rest : List Char) : QuoteEnd → Prop
  | .closed => chars = value ++ quote :: rest
  | .lineFeed => chars = value ++ rest ∧ rest.head? = some '\n'
  | .inputEnd => chars = value ∧ rest = []

theorem quoted_of_readQuoted (plain : Plain chars)
    (read : readQuoted style quote chars = (value, ending, rest)) :
    Quoted quote chars value rest ending ∧ quote ∉ value ∧
      (style.stopsAtLineFeed = true → '\n' ∉ value) := by
  induction chars generalizing value with
  | nil =>
      rw [readQuoted] at read
      cases read
      simp [Quoted]
  | cons c chars ih =>
      obtain ⟨notBackslash, others⟩ := plain_cons.mp plain
      rw [readQuoted.eq_def] at read
      simp only [if_neg notBackslash] at read
      split at read
      · next same =>
          cases read
          simp [Quoted, same]
      · next different =>
          split at read
          · next feed =>
              cases read
              simp [Quoted, feed.1]
          · next stays =>
              obtain ⟨tail, found⟩ : ∃ tail, readQuoted style quote chars = tail := ⟨_, rfl⟩
              obtain ⟨inner, innerEnd, behind⟩ := tail
              rw [found] at read
              cases read
              obtain ⟨quoted, unquoted, inLine⟩ := ih others found
              refine ⟨?_, List.not_mem_cons_of_ne_of_not_mem (Ne.symm different) unquoted, ?_⟩
              · cases ending with
                | closed => exact congrArg (c :: ·) quoted
                | lineFeed => exact ⟨congrArg (c :: ·) quoted.1, quoted.2⟩
                | inputEnd => exact ⟨congrArg (c :: ·) quoted.1, quoted.2⟩
              · intro stops member
                rcases List.mem_cons.mp member with feed | later
                · exact stays ⟨feed.symm, stops⟩
                · exact inLine stops later

/-- What is read from between quotes was there. -/
theorem sublist_of_readQuoted (plain : Plain chars)
    (read : readQuoted style quote chars = (value, ending, rest)) : value.Sublist chars := by
  have quoted := (quoted_of_readQuoted plain read).1
  cases ending with
  | closed => exact quoted ▸ List.sublist_append_left value _
  | lineFeed => exact quoted.1 ▸ List.sublist_append_left value _
  | inputEnd => exact quoted.1 ▸ List.Sublist.refl value

/-- A closed string is read alike whatever stands behind it. -/
theorem readQuoted_append_of_plain {more : List Char} (plain : Plain chars)
    (read : readQuoted style quote chars = (value, .closed, rest)) :
    readQuoted style quote (chars ++ more) = (value, .closed, rest ++ more) := by
  obtain ⟨quoted, unquoted, inLine⟩ := quoted_of_readQuoted plain read
  have within := sublist_of_readQuoted plain read
  have split : chars = value ++ quote :: rest := quoted
  rw [split, List.append_assoc, List.cons_append]
  exact readQuoted_of_plain (plain.sublist within) unquoted inLine

end SelectorTree.Text
