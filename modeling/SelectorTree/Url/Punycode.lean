/-!
# Punycode

A label of a host is written in ASCII as its ASCII characters, followed by
insertions.  The other characters are inserted in the order of their code
points; each insertion is the number of (code point, place) pairs passed over
since the one before, written in digits of a base that varies with the size of
the insertions so far.
-/

namespace SelectorTree.Url.Punycode

/-- The digit for a value below 36. -/
def digit (value : Nat) : Char :=
  if value < 26 then Char.ofNat (97 + value) else Char.ofNat (22 + value)

def digitValue? (c : Char) : Option Nat :=
  if c.isLower then some (c.toNat - 97) else if c.isDigit then some (c.toNat - 22) else none

/-- The digit at a position ends the number if it is below this. -/
def threshold (bias position : Nat) : Nat := min 26 (max 1 (position - bias))

/-- A number in digits, from a position on. -/
def number (bias position value : Nat) : List Char :=
  let limit := threshold bias position
  if value < limit then [digit value]
  else
    digit (limit + (value - limit) % (36 - limit)) ::
      number bias (position + 36) ((value - limit) / (36 - limit))
termination_by value
decreasing_by
  rename_i large
  have positive : 1 ≤ limit := Nat.le_min.mpr ⟨by decide, Nat.le_max_left 1 _⟩
  exact Nat.lt_of_le_of_lt (Nat.div_le_self _ _)
    (Nat.sub_lt (Nat.lt_of_lt_of_le positive (Nat.le_of_not_lt large)) positive)

/-- Divides by 35 until the rest is small: the rest, and 36 for each division. -/
def scaled (value : Nat) : Nat × Nat :=
  if 455 < value then
    let inner := scaled (value / 35)
    (inner.1, inner.2 + 36)
  else (value, 0)
termination_by value
decreasing_by exact Nat.div_lt_self (by omega) (by decide)

/-- The bias after an insertion; `count` characters are there by then. -/
def adapt (isFirst : Bool) (count delta : Nat) : Nat :=
  let damped := if isFirst then delta / 700 else delta / 2
  let reduced := scaled (damped + damped / count)
  reduced.2 + 36 * reduced.1 / (reduced.1 + 38)

/-- How far the insertions have come: the digits so far, the pairs passed over
since the last insertion, the bias, and the number of characters there. -/
structure Progress where
  digits : List Char
  delta : Nat
  bias : Nat
  count : Nat

/-- Passes one place of the label while a code point is inserted.  `ascii` is
the number of ASCII characters. -/
def pass (ascii code : Nat) (progress : Progress) (c : Char) : Progress :=
  if c.toNat < code then { progress with delta := progress.delta + 1 }
  else if c.toNat = code then
    { digits := progress.digits ++ number progress.bias 36 progress.delta
      delta := 0
      bias := adapt (progress.count == ascii) (progress.count + 1) progress.delta
      count := progress.count + 1 }
  else progress

/-- Inserts code points in ascending order, all from `next` on. -/
def insertAll (label : List Char) (ascii : Nat) : Nat → List Nat → Progress → Progress
  | _, [], progress => progress
  | next, code :: rest, progress =>
    let reached := { progress with
      delta := progress.delta + (code - next) * (progress.count + 1) }
    let inserted := label.foldl (pass ascii code) reached
    insertAll label ascii (code + 1) rest { inserted with delta := inserted.delta + 1 }

/-- The code points beyond ASCII, ascending and each once. -/
def codes (label : List Char) : List Nat :=
  (((label.map Char.toNat).filter (128 ≤ ·)).mergeSort (· ≤ ·)).eraseDups

def encode (label : List Char) : List Char :=
  let plain := label.filter (·.toNat < 128)
  let separator := if plain = [] then [] else ['-']
  plain ++ separator ++
    (insertAll label plain.length 128 (codes label) ⟨[], 0, 72, plain.length⟩).digits

/-! ## Decoding -/

/-- Reads a number in digits, from a position on.  `value` is what the digits
before are worth, and `weight` what a one at the position is. -/
def readNumber? (bias position weight value : Nat) : List Char → Option (Nat × List Char)
  | [] => none
  | c :: rest =>
    match digitValue? c with
    | none => none
    | some digit =>
      let limit := threshold bias position
      let sum := value + digit * weight
      if digit < limit then some (sum, rest)
      else readNumber? bias (position + 36) (weight * (36 - limit)) sum rest

theorem readNumber?_length_lt {bias position weight value : Nat} {chars : List Char}
    {result : Nat × List Char}
    (read : readNumber? bias position weight value chars = some result) :
    result.2.length < chars.length := by
  fun_induction readNumber? bias position weight value chars with
  | case1 => simp at read
  | case2 => simp at read
  | case3 =>
    cases read
    exact Nat.lt_succ_self _
  | case4 _ _ _ _ _ _ _ _ _ _ ih => exact Nat.lt_succ_of_lt (ih read)

/-- Inserts characters into a label.  The pairs of a code point and a place are
passed over from `code` and `place` on. -/
def insertFrom? (code place bias : Nat) (isFirst : Bool) (label digits : List Char) :
    Option (List Char) :=
  match digits with
  | [] => some label
  | first :: others =>
    match _read : readNumber? bias 36 1 0 (first :: others) with
    | none => none
    | some (delta, rest) =>
      let count := label.length + 1
      let reached := code + (place + delta) / count
      let here := (place + delta) % count
      if reached.isValidChar then
        insertFrom? reached (here + 1) (adapt isFirst count delta) false
          (label.take here ++ Char.ofNat reached :: label.drop here) rest
      else none
termination_by digits.length
decreasing_by exact readNumber?_length_lt _read

def decode? (form : List Char) : Option (List Char) :=
  let insertions := (form.reverse.takeWhile (· != '-')).reverse
  let plain := form.take (form.length - insertions.length - 1)
  if plain = [] ∧ form.contains '-' then none
  else insertFrom? 128 0 72 true plain insertions

end SelectorTree.Url.Punycode
