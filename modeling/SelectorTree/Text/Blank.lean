/-!
# White space

Three kinds of white space occur.  A stylesheet separates its tokens by line
feed, tab and space alone.  Words inside an attribute value are separated by
the five ASCII blanks.  Selectors and trimmed texts recognise every character
with the Unicode property `White_Space`.
-/

namespace SelectorTree.Text

/-- The characters with the Unicode property `White_Space`. -/
def isBlank (c : Char) : Bool :=
  let code := c.toNat
  (9 ≤ code && code ≤ 13) || code == 0x20 || code == 0x85 || code == 0xA0 || code == 0x1680 ||
    (0x2000 ≤ code && code ≤ 0x200A) || code == 0x2028 || code == 0x2029 || code == 0x202F ||
    code == 0x205F || code == 0x3000

/-- The blanks between the tokens of a stylesheet whose line ends are all line
feeds. -/
def isTokenBlank (c : Char) : Bool :=
  c == '\n' || c == '\t' || c == ' '

/-- The five ASCII blanks that separate words. -/
def isWordBlank (c : Char) : Bool :=
  c == ' ' || c == '\t' || c == '\n' || c == '\x0c' || c == '\r'

/-- The items without those at the end that `dropped` selects. -/
def dropTrailing {α : Type} (dropped : α → Bool) (items : List α) : List α :=
  (items.reverse.dropWhile dropped).reverse

/-- The characters without the blanks at either end. -/
def trimChars (chars : List Char) : List Char :=
  dropTrailing isBlank (chars.dropWhile isBlank)

/-- The text without the blanks at either end. -/
def trim (text : String) : String :=
  String.ofList (trimChars text.toList)

/-- The non-empty runs between the characters that `separator` selects. -/
def runs (separator : Char → Bool) : List Char → List (List Char)
  | [] => []
  | c :: rest =>
    if separator c then runs separator rest
    else
      let here := rest.takeWhile (!separator ·)
      (c :: here) :: runs separator (rest.dropWhile (!separator ·))
termination_by chars => chars.length
decreasing_by
  · simp
  · simp only [List.length_cons]
    exact Nat.lt_succ_of_le (List.dropWhile_suffix _).length_le

def words (text : String) : List String :=
  (runs isWordBlank text.toList).map String.ofList

theorem isBlank_of_isTokenBlank {c : Char} (blank : isTokenBlank c = true) :
    isBlank c = true := by
  simp only [isTokenBlank, Bool.or_eq_true, beq_iff_eq] at blank
  rcases blank with (rfl | rfl) | rfl <;> decide

end SelectorTree.Text
