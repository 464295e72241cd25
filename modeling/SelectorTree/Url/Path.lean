import SelectorTree.Text.Fields
import SelectorTree.Url.Escapes

/-!
# Paths

A path is walked segment by segment from a place that is given: a segment of one
point stays, one of two points goes back, and any other goes on.  A drive letter
at the beginning of a file's path stays there.

Tabs and line ends are breaks.  They do not belong to a path, but one of them may
part a drive letter from what stands behind it.
-/

namespace SelectorTree.Url

open Text

/-- Well-known schemes also accept the slash that leans the other way. -/
def isSlash (special : Bool) (c : Char) : Bool := c == '/' || (special && c == '\\')

def isBreak (c : Char) : Bool := c == '\t' || c == '\n' || c == '\r'

def withoutBreaks (chars : List Char) : List Char := chars.filter (!isBreak ·)

/-- Whether a segment means the place itself. -/
def isPoint (segment : List Char) : Bool :=
  [".", "%2e"].contains (lower (String.ofList segment))

/-- Whether a segment means the place one segment back. -/
def isDoublePoint (segment : List Char) : Bool :=
  ["..", "%2e.", ".%2e", "%2e%2e"].contains (lower (String.ofList segment))

def isDriveLetter : List Char → Bool
  | [letter, mark] => letter.isAlpha && (mark == ':' || mark == '|')
  | _ => false

def isDrive : List Char → Bool
  | [letter, ':'] => letter.isAlpha
  | _ => false

def startsWithDrive (path : List Char) : Bool :=
  isDriveLetter (path.takeWhile (!isSlash true ·))

/-- The place one segment back.  A segment that begins with a drive letter is not
left; behind the letter it may hold a slash that leans the other way. -/
def back (place : List (List Char)) : List (List Char) :=
  if place.getLast?.any startsWithDrive then place else place.dropLast

/-- A segment in its written form.  At the beginning of a file's path, what a
break parts from a drive letter is a segment of its own. -/
def writtenSegment (file : Bool) (place : List (List Char)) (segment : List Char) :
    List (List Char) :=
  let text := withoutBreaks segment
  let isFirst := file && place.isEmpty
  if isFirst && isDriveLetter text then [text.take 1 ++ [':']]
  else if isFirst && isDrive (segment.take 2) && segment[2]?.any isBreak then
    [segment.take 2, escapePath (text.drop 2)]
  else [escapePath text]

def step (file : Bool) (place : List (List Char)) (segment : List Char) : List (List Char) :=
  if isDoublePoint segment then back place
  else if isPoint segment then place
  else place ++ writtenSegment file place segment

/-- The segments of a path walked from a place.  A point at the end leaves an
empty last segment. -/
def walk (file : Bool) (place segments : List (List Char)) : List (List Char) :=
  let reached := segments.foldl (step file) place
  if segments.getLast?.any fun last => isPoint last || isDoublePoint last then reached ++ [[]]
  else reached

/-- Whether a file's path that is walked from a place begins with a segment that
is only a drive letter. -/
def beginsWithDrive (place : List (List Char)) : List (List Char) → Bool
  | [] => false
  | segment :: rest =>
    (place.isEmpty && isDriveLetter segment) || beginsWithDrive (step true place segment) rest

/-- The segments of a file's path walked from behind a path that is there.  A
drive letter at its end is not left: alone it is walked from, and behind other
segments the first segment goes on with it. -/
def walkBehind (path segments : List (List Char)) : List (List Char) :=
  match path.getLast?.filter isDrive, segments with
  | none, _ => walk true path.dropLast segments
  | some _, [] => path
  | some drive, first :: rest =>
    if path.length = 1 ∨ isPoint first then walk true path segments
    else if !isDoublePoint first then walk true path.dropLast ((drive ++ first) :: rest)
    else if rest = [] then path
    else walk true path rest

/-- A file's path does not begin with empty segments. -/
def dropEmptySegments : List (List Char) → List (List Char)
  | [] :: second :: rest => dropEmptySegments (second :: rest)
  | segments => segments

end SelectorTree.Url
