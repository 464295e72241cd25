import SelectorTree.Text.Escape

/-!
# Names

A name is a run of name characters and escapes.  An identifier is a name that
does not start like a number.  The writer escapes whatever would not be read
back as part of the same name.
-/

namespace SelectorTree.Text

/-- Letters, the underscore and every character beyond ASCII start a name. -/
def isNameStart (c : Char) : Bool :=
  c.isAlpha || c == '_' || 128 ≤ c.toNat

/-- Digits and hyphens also continue one. -/
def isNameChar (c : Char) : Bool :=
  isNameStart c || c.isDigit || c == '-'

/-- Whether the input begins with an identifier: a name start or an escape,
or a hyphen before either or before a second hyphen. -/
def startsIdentifier : List Char → Bool
  | [] => false
  | c :: rest =>
    if c == '-' then
      rest.head?.any (fun second => isNameStart second || second == '-') || startsEscape rest
    else isNameStart c || startsEscape (c :: rest)

/-- Reads the longest name at the start of the input, escapes resolved. -/
def readName (blank : Char → Bool) : List Char → List Char × List Char
  | [] => ([], [])
  | c :: rest =>
    if isNameChar c then
      let tail := readName blank rest
      (c :: tail.1, tail.2)
    else if startsEscape (c :: rest) then
      let escape := readEscape blank rest
      let tail := readName blank escape.2
      (escape.1 :: tail.1, tail.2)
    else ([], c :: rest)
termination_by chars => chars.length
decreasing_by
  · simp
  · exact Nat.lt_succ_of_le (readEscape_length_le blank rest)

def writeNameChar (c : Char) : List Char :=
  if c.toNat = 0 then [replacement]
  else if isControl c then hexEscape c
  else if isNameChar c then [c]
  else ['\\', c]

/-- Writes a name; a leading digit stays as it is. -/
def writeName (name : List Char) : List Char :=
  name.flatMap writeNameChar

/-- One character of a written identifier: a digit where a number could begin
is written as a hexadecimal escape. -/
def writeLeadingChar (c : Char) : List Char :=
  if c.isDigit then hexEscape c else writeNameChar c

/-- Writes a name so that it is read back as an identifier. -/
def writeIdentifier : List Char → List Char
  | [] => []
  | ['-'] => ['\\', '-']
  | '-' :: second :: rest => '-' :: writeLeadingChar second ++ writeName rest
  | first :: rest => writeLeadingChar first ++ writeName rest

def identifier (name : String) : String :=
  String.ofList (writeIdentifier name.toList)

theorem readName_suffix (blank : Char → Bool) (chars : List Char) :
    (readName blank chars).2 <:+ chars := by
  fun_induction readName blank chars with
  | case1 => exact List.suffix_rfl
  | case2 c rest _ _ ih => exact ih.trans (List.suffix_cons c rest)
  | case3 c rest _ _ _ _ ih =>
    exact (ih.trans (readEscape_suffix blank rest)).trans (List.suffix_cons c rest)
  | case4 => exact List.suffix_rfl

theorem readName_length_le (blank : Char → Bool) (chars : List Char) :
    (readName blank chars).2.length ≤ chars.length :=
  (readName_suffix blank chars).length_le

/-- Whether a name, possibly not an identifier, begins here. -/
def startsName : List Char → Bool
  | [] => false
  | c :: rest => isNameChar c || startsEscape (c :: rest)

theorem startsName_of_startsIdentifier {chars : List Char}
    (starts : startsIdentifier chars = true) : startsName chars = true := by
  cases chars with
  | nil => simp [startsIdentifier] at starts
  | cons c rest =>
    by_cases hyphen : c = '-'
    · simp [startsName, isNameChar, hyphen]
    · simp only [startsIdentifier, beq_iff_eq, hyphen, if_false, Bool.or_eq_true] at starts
      simp only [startsName, isNameChar, Bool.or_eq_true]
      exact starts.imp (fun start => Or.inl (Or.inl start)) id

theorem readName_length_lt (blank : Char → Bool) {chars : List Char}
    (starts : startsName chars = true) :
    (readName blank chars).2.length < chars.length := by
  cases chars with
  | nil => simp [startsName] at starts
  | cons c rest =>
    rw [readName]
    simp only [startsName, Bool.or_eq_true] at starts
    split
    · exact Nat.lt_succ_of_le (readName_length_le blank rest)
    · rename_i notName
      have escape : startsEscape (c :: rest) = true := starts.resolve_left notName
      rw [if_pos escape]
      exact Nat.lt_succ_of_le
        (Nat.le_trans (readName_length_le blank _) (readEscape_length_le blank rest))

end SelectorTree.Text
