import SelectorTree.Unicode.CombiningClass
import SelectorTree.Unicode.Decomposition

/-!
# Composed form

A text with marks can be spelled in several ways.  In its composed form the marks
on a letter are ordered by class, and a letter and a mark are one character if
there is one for both.
-/

namespace SelectorTree.Unicode

abbrev Ranked := Char × Nat

def ranked (c : Char) : Ranked := (c, combiningClass c)

/-- Puts a character in front of others, behind the marks of lower classes. -/
def insertRanked (c : Ranked) : List Ranked → List Ranked
  | [] => [c]
  | first :: rest =>
    if first.2 ≠ 0 ∧ first.2 < c.2 then first :: insertRanked c rest else c :: first :: rest

/-- The characters that a text is composed of, the marks on each letter ordered
by class. -/
def decomposed (chars : List Char) : List Ranked :=
  ((chars.flatMap decompose).map ranked).foldr insertRanked []

/-- Composes a letter with what stands behind it.  The marks in `kept` stand
between and have not become one with the letter; a mark of the same class as the
last of them stays behind them too. -/
def composeFrom (letter : Char) (kept : List Ranked) : List Ranked → List Char
  | [] => letter :: kept.map (·.1)
  | c :: rest =>
    let whole? :=
      if kept.getLast?.any fun mark => c.2 ≤ mark.2 then none
      else compose? (decompose letter ++ [c.1])
    match whole? with
    | some whole => composeFrom whole kept rest
    | none =>
      if c.2 = 0 then letter :: kept.map (·.1) ++ composeFrom c.1 [] rest
      else composeFrom letter (kept ++ [c]) rest

/-- Composes a text; marks without a letter before them stay. -/
def composeRanked : List Ranked → List Char
  | [] => []
  | c :: rest => if c.2 = 0 then composeFrom c.1 [] rest else c.1 :: composeRanked rest

/-- The composed form of a text.  Below the combining marks there is nothing to
compose. -/
def composed (chars : List Char) : List Char :=
  if chars.all (·.toNat < 0x300) then chars else composeRanked (decomposed chars)

end SelectorTree.Unicode
