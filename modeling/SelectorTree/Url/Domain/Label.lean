import SelectorTree.Unicode.Composed
import SelectorTree.Unicode.Direction
import SelectorTree.Unicode.Joining
import SelectorTree.Url.Domain.Mapping
import SelectorTree.Url.Punycode

/-!
# Labels of domains

A domain is a row of labels between points.  A label with characters beyond ASCII
also has an ASCII form, which begins with `xn--`.  A label does not begin with a
mark, holds invisible joiners only where they change how it looks, and can be
shown in one direction.
-/

namespace SelectorTree.Url

open Unicode

/-- A label as it is shown, and in ASCII. -/
structure Label where
  shown : List Char
  ascii : List Char
deriving DecidableEq

namespace Label

def isAscii (chars : List Char) : Bool := chars.all (·.toNat < 0x80)

/-! ## Joiners -/

def nonJoiner : Char := '\u200C'

def joiner : Char := '\u200D'

/-- Whether the first letter of some characters joins on a side. -/
def joins (side : Joining) : List Char → Bool
  | [] => false
  | c :: rest =>
    match joining? c with
    | none => false
    | some .transparent => joins side rest
    | some kind => kind == .both || kind == side

/-- Whether joiners change how a label looks: behind a virama both do, and a
non-joiner does between letters that would join.  `before` is read backwards. -/
def joinersFit (before : List Char) : List Char → Bool
  | [] => true
  | c :: rest =>
    ((c != joiner && c != nonJoiner) || before.head?.any (combiningClass · == viramaClass) ||
      (c == nonJoiner && joins .left before && joins .right rest)) &&
      joinersFit (c :: before) rest

/-! ## Direction -/

/-- Whether a label makes the direction of its domain matter.  No character
before the Hebrew letters does. -/
def isRightToLeft (label : List Char) : Bool :=
  label.any fun c =>
    0x590 ≤ c.toNat && (direction c == .right || direction c == .arabicDigit)

/-- Whether a label can be shown in one direction, that of its first character.
From the right, it does not mix two kinds of digits. -/
def hasOneDirection (label : List Char) : Bool :=
  match label.map direction with
  | [] => true
  | first :: rest =>
    let inner := Text.dropTrailing (· == .nonspacing) rest
    match first with
    | .left =>
      inner.all (fun kind => kind != .right && kind != .arabicDigit) &&
        inner.getLast?.all fun last => last == .left || last == .europeanDigit
    | .right =>
      inner.all (· != .left) && !(inner.contains .europeanDigit && inner.contains .arabicDigit) &&
        inner.getLast?.all fun last => last != .neutral
    | _ => false

/-! ## Reading -/

/-- What the ASCII form of a label begins with. -/
def asciiMark : List Char := "xn--".toList

/-- Whether a label can be shown.  Long labels beyond ASCII are not. -/
def isShowable (label : List Char) : Bool :=
  !label.head?.any (fun first => (mark? first).isSome) && joinersFit [] label &&
    (isAscii label || label.length ≤ 1000)

/-- Reads the rest of an ASCII form.  It ends with an insertion, and the label
that it is the form of has no other spelling. -/
def ofAsciiForm? (rest : List Char) : Option (List Char) := do
  if rest.getLast?.all (· == '-') ∨ !isAscii rest ∨ 2000 < rest.length then none
  let shown ← Punycode.decode? rest
  if shown.all (fun c => standing c = .itself) ∧ composed shown = shown then some shown else none

def read? (label : List Char) : Option Label := do
  let shown ← if asciiMark.isPrefixOf label then ofAsciiForm? (label.drop 4) else some label
  if isShowable shown then
    some ⟨shown, if isAscii shown then shown else asciiMark ++ Punycode.encode shown⟩
  else none

end Label

def labels? (chars : List Char) : Option (List Label) := do
  let text ← standingText? chars
  let labels ← (Text.fields (· == '.') (composed text)).mapM Label.read?
  if labels.any (fun label => Label.isRightToLeft label.shown) ∧
      !labels.all (fun label => Label.hasOneDirection label.shown) then none
  else some labels

end SelectorTree.Url
