import SelectorTree.Json.Basic

/-!
# Reading JSON

A text is cut into lexemes, from which a value is read.  Nothing may follow the
value, and nothing beyond the grammar is accepted: neither a comma before a
closing bracket nor a bare control character in a string.
-/

namespace SelectorTree.Json

open Text

inductive Lexeme where
  | mark (char : Char)
  | null
  | bool (value : Bool)
  | number (spelling : List Char)
  | string (codes : List Nat)

/-- Reads the body of a string behind its opening quote: the code points and what
stands behind the closing quote. -/
def readString? : List Char → Option (List Nat × List Char)
  | '"' :: rest => some ([], rest)
  | '\\' :: 'u' :: first :: second :: third :: fourth :: rest =>
    if [first, second, third, fourth].all isHexDigit then
      (readString? rest).map fun tail =>
        (hexValue [first, second, third, fourth] :: tail.1, tail.2)
    else none
  | '\\' :: letter :: rest => do
    let code ← letterEscapes.lookup letter
    let tail ← readString? rest
    some (code :: tail.1, tail.2)
  | c :: rest =>
    if c.toNat < 0x20 || c == '\\' then none
    else (readString? rest).map fun tail => (c.toNat :: tail.1, tail.2)
  | [] => none

def skipDigits? (chars : List Char) : Option (List Char) :=
  if chars.head?.any Char.isDigit then some (chars.dropWhile Char.isDigit) else none

/-- Skips digits that may be preceded by a sign, behind the letter of an
exponent. -/
def skipExponent? : List Char → Option (List Char)
  | letter :: rest =>
    if letter == 'e' || letter == 'E' then
      skipDigits? (if rest.head? = some '+' ∨ rest.head? = some '-' then rest.tail else rest)
    else some (letter :: rest)
  | [] => some []

/-- Skips a point and the digits behind it. -/
def skipFraction? : List Char → Option (List Char)
  | '.' :: rest => skipDigits? rest
  | rest => some rest

/-- Skips a number without a sign.  A leading zero stands alone. -/
def skipUnsigned? (chars : List Char) : Option (List Char) :=
  let whole? := match chars with
    | '0' :: rest => some rest
    | _ => skipDigits? chars
  (whole?.bind skipFraction?).bind skipExponent?

def skipNumber? : List Char → Option (List Char)
  | '-' :: rest => skipUnsigned? rest
  | chars => skipUnsigned? chars

def isJsonBlank (c : Char) : Bool := c == ' ' || c == '\t' || c == '\n' || c == '\r'

def words : List (List Char × Lexeme) :=
  [("null".toList, .null), ("true".toList, .bool true), ("false".toList, .bool false)]

def readLexeme? (first : Char) (rest : List Char) : Option (Lexeme × List Char) :=
  if "[]\x7b\x7d,:".toList.contains first then some (.mark first, rest)
  else if first = '"' then (readString? rest).map fun read => (.string read.1, read.2)
  else if first = '-' ∨ first.isDigit then
    (skipNumber? (first :: rest)).map fun behind =>
      (.number ((first :: rest).take (rest.length + 1 - behind.length)), behind)
  else
    (words.find? fun word => word.1.isPrefixOf (first :: rest)).map fun word =>
      (word.2, (first :: rest).drop word.1.length)

theorem readString?_length_lt {chars rest : List Char} {codes : List Nat}
    (read : readString? chars = some (codes, rest)) : rest.length < chars.length := by
  fun_induction readString? chars generalizing codes rest with
  | case1 behind =>
    cases read
    exact Nat.lt_succ_self _
  | case2 first second third fourth behind _ ih =>
    obtain ⟨⟨inner, last⟩, tail, equal⟩ := Option.map_eq_some_iff.mp read
    cases equal
    have shorter := ih tail
    simp only [List.length_cons]
    omega
  | case3 => cases read
  | case4 letter behind _ ih =>
    obtain ⟨code, _, rest⟩ := Option.bind_eq_some_iff.mp read
    obtain ⟨⟨inner, last⟩, tail, equal⟩ := Option.bind_eq_some_iff.mp rest
    cases equal
    have shorter := ih tail
    simp only [List.length_cons]
    omega
  | case5 => cases read
  | case6 c behind _ _ _ _ ih =>
    obtain ⟨⟨inner, last⟩, tail, equal⟩ := Option.map_eq_some_iff.mp read
    cases equal
    exact Nat.lt_succ_of_lt (ih tail)
  | case7 => cases read

theorem skipDigits?_length_lt {chars rest : List Char} (skipped : skipDigits? chars = some rest) :
    rest.length < chars.length := by
  cases chars with
  | nil => cases skipped
  | cons first behind =>
    cases digit : first.isDigit with
    | false => simp [skipDigits?, digit] at skipped
    | true =>
      simp only [skipDigits?, List.head?_cons, Option.any_some, digit, if_true,
        List.dropWhile_cons, Option.some.injEq] at skipped
      subst skipped
      exact Nat.lt_succ_of_le (List.dropWhile_suffix _).length_le

theorem skipExponent?_length_le {chars rest : List Char}
    (skipped : skipExponent? chars = some rest) : rest.length ≤ chars.length := by
  unfold skipExponent? at skipped
  split at skipped
  · next letter behind =>
    split at skipped
    · have shorter := skipDigits?_length_lt skipped
      have bounded : (if behind.head? = some '+' ∨ behind.head? = some '-' then behind.tail
          else behind).length ≤ behind.length := by
        split
        · exact (List.tail_suffix _).length_le
        · exact Nat.le_refl _
      exact Nat.le_succ_of_le (Nat.le_trans (Nat.le_of_lt shorter) bounded)
    · cases skipped
      exact Nat.le_refl _
  · cases skipped
    exact Nat.le_refl _

theorem skipFraction?_length_le {chars rest : List Char}
    (skipped : skipFraction? chars = some rest) : rest.length ≤ chars.length := by
  unfold skipFraction? at skipped
  split at skipped
  · exact Nat.le_succ_of_le (Nat.le_of_lt (skipDigits?_length_lt skipped))
  · cases skipped
    exact Nat.le_refl _

theorem skipUnsigned?_length_lt {chars rest : List Char}
    (skipped : skipUnsigned? chars = some rest) : rest.length < chars.length := by
  obtain ⟨behind, front, exponent⟩ := Option.bind_eq_some_iff.mp skipped
  obtain ⟨point, whole, fraction⟩ := Option.bind_eq_some_iff.mp front
  have bounded : point.length < chars.length := by
    split at whole
    · cases whole
      exact Nat.lt_succ_self _
    · exact skipDigits?_length_lt whole
  exact Nat.lt_of_le_of_lt
    (Nat.le_trans (skipExponent?_length_le exponent) (skipFraction?_length_le fraction)) bounded

theorem skipNumber?_length_lt {chars rest : List Char} (skipped : skipNumber? chars = some rest) :
    rest.length < chars.length := by
  unfold skipNumber? at skipped
  split at skipped
  · exact Nat.lt_succ_of_lt (skipUnsigned?_length_lt skipped)
  · exact skipUnsigned?_length_lt skipped

theorem words_ne_nil : ∀ word ∈ words, word.1 ≠ [] := by
  simp [words]

theorem readLexeme?_length_le {first : Char} {rest behind : List Char} {lexeme : Lexeme}
    (read : readLexeme? first rest = some (lexeme, behind)) : behind.length ≤ rest.length := by
  unfold readLexeme? at read
  split at read
  · cases read
    exact Nat.le_refl _
  split at read
  · obtain ⟨⟨codes, last⟩, string, equal⟩ := Option.map_eq_some_iff.mp read
    cases equal
    exact Nat.le_of_lt (readString?_length_lt string)
  split at read
  · obtain ⟨last, number, equal⟩ := Option.map_eq_some_iff.mp read
    cases equal
    exact Nat.le_of_lt_succ (skipNumber?_length_lt number)
  · obtain ⟨word, found, equal⟩ := Option.map_eq_some_iff.mp read
    cases equal
    have positive := List.length_pos_iff.mpr (words_ne_nil word (List.mem_of_find?_eq_some found))
    simp only [List.length_drop, List.length_cons]
    omega

/-- The lexemes of a text, if it consists of lexemes and blanks. -/
def lexemes? : List Char → Option (List Lexeme)
  | [] => some []
  | first :: rest =>
    if isJsonBlank first then lexemes? rest
    else
      match _read : readLexeme? first rest with
      | none => none
      | some (lexeme, behind) => (lexemes? behind).map (lexeme :: ·)
termination_by chars => chars.length
decreasing_by
  · exact Nat.lt_succ_self _
  · exact Nat.lt_succ_of_le (readLexeme?_length_le _read)

/-- Something read from lexemes, and the lexemes behind it. -/
abbrev Parsed (α : Type) (lexemes : List Lexeme) : Type :=
  Option { read : α × List Lexeme // read.2.length < lexemes.length }

namespace Parsed

/-- What was read behind some lexemes. -/
def behind {α β : Type} {inner outer : List Lexeme} (change : α → β)
    (shorter : inner.length ≤ outer.length) (parsed : Parsed α inner) : Parsed β outer :=
  parsed.map fun read =>
    ⟨(change read.1.1, read.1.2), Nat.lt_of_lt_of_le read.2 shorter⟩

end Parsed

mutual

def readValue : (lexemes : List Lexeme) → Parsed Json lexemes
  | .null :: rest => some ⟨(.null, rest), Nat.lt_succ_self _⟩
  | .bool value :: rest => some ⟨(.bool value, rest), Nat.lt_succ_self _⟩
  | .number spelling :: rest => some ⟨(.number spelling, rest), Nat.lt_succ_self _⟩
  | .string codes :: rest => some ⟨(.string codes, rest), Nat.lt_succ_self _⟩
  | .mark '[' :: .mark ']' :: rest =>
    some ⟨(.array [], rest), by simp only [List.length_cons]; omega⟩
  | .mark '[' :: rest => (readItems rest).behind .array (Nat.le_succ _)
  | .mark '\x7b' :: .mark '\x7d' :: rest =>
    some ⟨(.object [], rest), by simp only [List.length_cons]; omega⟩
  | .mark '\x7b' :: rest => (readMembers rest).behind .object (Nat.le_succ _)
  | _ => none
termination_by lexemes => (lexemes.length, 0)

/-- Reads the items of an array and the bracket behind them. -/
def readItems (lexemes : List Lexeme) : Parsed (List Json) lexemes :=
  match readValue lexemes with
  | some ⟨(item, .mark mark :: rest), shorter⟩ =>
    have bounded : rest.length < lexemes.length := Nat.lt_of_succ_lt shorter
    if mark = ',' then (readItems rest).behind (item :: ·) (Nat.le_of_lt bounded)
    else if mark = ']' then some ⟨([item], rest), bounded⟩
    else none
  | _ => none
termination_by (lexemes.length, 1)

/-- Reads the members of an object and the brace behind them. -/
def readMembers : (lexemes : List Lexeme) → Parsed (List (List Nat × Json)) lexemes
  | .string key :: .mark ':' :: rest =>
    match readValue rest with
    | some ⟨(value, .mark mark :: others), shorter⟩ =>
      have bounded : others.length < rest.length := Nat.lt_of_succ_lt shorter
      if mark = ',' then
        (readMembers others).behind ((key, value) :: ·)
          (Nat.le_succ_of_le (Nat.le_succ_of_le (Nat.le_of_lt bounded)))
      else if mark = '\x7d' then
        some ⟨([(key, value)], others), Nat.lt_succ_of_lt (Nat.lt_succ_of_lt bounded)⟩
      else none
    | _ => none
  | _ => none
termination_by lexemes => (lexemes.length, 1)
decreasing_by
  all_goals simp only [List.length_cons, Prod.lex_def]
  all_goals omega

end

def ofText? (text : String) : Option Json :=
  match lexemes? text.toList with
  | none => none
  | some lexemes =>
    match readValue lexemes with
    | some ⟨(value, []), _⟩ => some value
    | _ => none

end SelectorTree.Json
