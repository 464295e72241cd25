import SelectorTree.Text.Blank
import SelectorTree.Text.Escape
import SelectorTree.Url.Basic
import SelectorTree.Url.Path

/-!
# Reading addresses

An address is read on its own, or relative to another one that gives the parts
which it leaves out.  Blanks around it and breaks within it do not belong to it,
but a break that parts a file's drive letter from what stands behind it is read
with the path.
-/

namespace SelectorTree.Url

open Text

/-- What stands behind a scheme, cut before the query and the fragment. -/
structure Reference where
  body : List Char
  query? : Option (List Char)
  fragment? : Option (List Char)

/-- Cuts a reference.  Only the body of a file's reference keeps its breaks. -/
def Reference.ofChars (file : Bool) (chars : List Char) : Reference :=
  let front := chars.takeWhile (· != '#')
  let body := front.takeWhile (· != '?')
  ⟨if file then body else withoutBreaks body,
    (front.dropWhile (· != '?')).tail?.map withoutBreaks,
    (chars.dropWhile (· != '#')).tail?.map withoutBreaks⟩

def Reference.isBare (reference : Reference) : Bool :=
  reference.query?.isNone && reference.fragment?.isNone

/-- Ends an address with the query and the fragment of a reference. -/
def Reference.finish (reference : Reference) (url : Url) : Url :=
  { url with
    query? := reference.query?.map (escapeQuery (isSpecial url.scheme))
    fragment? := reference.fragment?.map escapeFragment }

def isSchemeChar (c : Char) : Bool := c.isAlphanum || "+-.".toList.contains c

/-- Reads a scheme and the colon behind it. -/
def readScheme? (chars : List Char) : Option (String × List Char) :=
  match chars.head?.any Char.isAlpha, chars.dropWhile isSchemeChar with
  | true, ':' :: rest => some (lower (String.ofList (chars.takeWhile isSchemeChar)), rest)
  | _, _ => none

/-! ## Hosts -/

/-- What stands before the last `@` in front of a slash, if there is one. -/
def user? (special : Bool) (chars : List Char) : Option (List Char) :=
  let front := chars.takeWhile (!isSlash special ·)
  if front.contains '@' then some ((front.reverse.dropWhile (· != '@')).drop 1).reverse else none

/-- A user and, behind a colon, a password. -/
def writtenUser (user : List Char) : List Char :=
  let password := (user.dropWhile (· != ':')).drop 1
  escapeUser (user.takeWhile (· != ':')) ++ if password = [] then [] else ':' :: escapeUser password

/-- The characters up to a slash, or to a colon outside brackets. -/
def hostText (special : Bool) : Bool → List Char → List Char
  | _, [] => []
  | inside, c :: rest =>
    if isSlash special c || (c == ':' && !inside) then []
    else c :: hostText special (c == '[' || (inside && c != ']')) rest

/-- Reads a port behind a colon.  The port that the scheme implies is left out. -/
def readPort? (scheme : String) : List Char → Option (Option Nat × List Char)
  | ':' :: behind =>
    let digits := behind.takeWhile Char.isDigit
    let rest := behind.dropWhile Char.isDigit
    let port := decimalValue digits
    if rest.head?.all (isSlash true) ∧ port < 65536 then
      some (if digits = [] ∨ defaultPorts.lookup scheme = some port then none else some port, rest)
    else none
  | rest => some (none, rest)

/-- The path behind a host.  Only where the scheme is not well known may it be
missing. -/
def pathBehindHost (special : Bool) (chars : List Char) : List (List Char) :=
  if chars = [] ∧ !special then []
  else walk false [] (fields (isSlash special) (dropOne (isSlash special) chars))

/-- Reads what stands behind two slashes.  Behind the mark of an empty user, an
empty host is accepted only if nothing follows; `isBare` tells whether nothing
follows `chars`. -/
def ofAuthority? (scheme : String) (isBare : Bool) (chars : List Char) : Option Url := do
  let special := isSpecial scheme
  let user := user? special chars
  let behind := (user.map fun user => chars.drop (user.length + 1)).getD chars
  let credentials := (user.map writtenUser).getD []
  let text := hostText special false behind
  let (port, rest) ← readPort? scheme (behind.drop text.length)
  let url := { ofScheme scheme (.segments (pathBehindHost special rest)) with
    credentials := credentials, port? := port }
  if text ≠ [] then
    let host ← if special then specialHost? text else otherHost? text
    some { url with host? := some host }
  else if special ∨ credentials ≠ [] ∨ behind.head? = some ':' ∨
      (user = some [] ∧ ¬(behind = [] ∧ isBare)) then none
  else some { url with host? := some [] }

/-! ## Files -/

def ofFile (host : List Char) (path : List (List Char)) : Url :=
  { ofScheme "file" (.segments (dropEmptySegments path)) with host? := some host }

/-- Reads what stands behind the two slashes of a file's address.  A drive letter
takes the place of a host, also where it begins the path behind the host.  Where
no host is named the path begins with an empty segment, and a drive letter behind
it stays as it is written. -/
def ofFileHost? (chars : List Char) : Option Url :=
  let text := chars.takeWhile (!isSlash true ·)
  if isDriveLetter text then some (ofFile [] (walk true [] (fields (isSlash true) chars)))
  else do
    let host ← if text = [] then some [] else specialHost? (withoutBreaks text)
    if host = [] ∨ host = "localhost".toList then
      some (ofFile [] (walk true [] (fields (isSlash true) (chars.drop text.length))))
    else
      let path := fields (isSlash true) (chars.drop (text.length + 1))
      some (ofFile (if beginsWithDrive [] path then [] else host) (walk true [] path))

def segments (url : Url) : List (List Char) :=
  match url.path with
  | .segments names => names
  | .text _ => []

/-- Reads a file's path behind one slash: the drive of the base stays, or else
its host. -/
def ofFileRoot (base? : Option Url) (chars : List Char) : Url :=
  let path := fields (isSlash true) chars
  match base?.filter fun _ => !startsWithDrive chars with
  | none => ofFile [] (walk true [] path)
  | some base =>
    let drive := (segments base).head?.filter isDrive
    ofFile (if drive.isSome then [] else base.host?.getD []) (walk true drive.toList path)

/-- Reads what stands behind the scheme of a file's address. -/
def ofFileBody? (base? : Option Url) (body : List Char) : Option Url :=
  let slashes := (body.takeWhile (isSlash true)).length
  let path := fields (isSlash true) body
  if 2 ≤ slashes then ofFileHost? (body.drop 2)
  else if slashes = 1 then some (ofFileRoot base? (body.drop 1))
  else
    match base?.filter fun _ => !startsWithDrive body with
    | none => some (ofFile [] (walk true [] path))
    | some base =>
      some (ofFile (base.host?.getD []) (walkBehind (segments base) path))

/-! ## Whole addresses -/

/-- Reads the body of a reference relative to an address. -/
def relativeBody? (base : Url) (isBare : Bool) (body : List Char) : Option Url :=
  let special := isSpecial base.scheme
  let slashes := (body.takeWhile (isSlash true)).length
  if 2 ≤ slashes then
    ofAuthority? base.scheme isBare
      (body.drop (if ['/', '/'].isPrefixOf body then 2 else slashes))
  else if slashes = 1 then
    some { base with path := .segments (walk false [] (fields (isSlash special) (body.drop 1))) }
  else
    let place := (segments base).dropLast
    some { base with path := .segments (walk false place (fields (isSlash special) body)) }

/-- Reads a reference relative to an address.  One without a body keeps the
path, and the query unless it has its own. -/
def relative? (base : Url) (reference : Reference) : Option Url :=
  if reference.body = [] then
    let ended := reference.finish base
    some { ended with query? := ended.query?.or base.query? }
  else if base.scheme = "file" then
    (ofFileBody? (some base) reference.body).map reference.finish
  else (relativeBody? base reference.isBare reference.body).map reference.finish

/-- Reads the body of a reference behind a scheme that is not well known. -/
def otherBody? (scheme : String) (isBare : Bool) : List Char → Option Url
  | '/' :: '/' :: rest => ofAuthority? scheme isBare rest
  | '/' :: rest => some (ofScheme scheme (.segments (walk false [] (fields (isSlash false) rest))))
  | body => some (ofScheme scheme (.text (escapeOpaque body)))

/-- Reads the body of a reference behind a scheme. -/
def absoluteBody? (scheme : String) (isBare : Bool) (body : List Char) : Option Url :=
  if scheme = "file" then ofFileBody? none body
  else if isSpecial scheme then ofAuthority? scheme isBare (body.dropWhile (isSlash true))
  else otherBody? scheme isBare body

/-- Reads a reference behind a scheme.  It may be relative to a base with the
same scheme, unless it begins with two slashes. -/
def absolute? (base? : Option Url) (scheme : String) (reference : Reference) : Option Url :=
  let slashes := (reference.body.takeWhile (isSlash true)).length
  let mayBeRelative := scheme = "file" ∨ (isSpecial scheme ∧ slashes < 2)
  match base?.filter fun base => base.scheme = scheme ∧ mayBeRelative with
  | some base => relative? base reference
  | none => (absoluteBody? scheme reference.isBare reference.body).map reference.finish

/-- Reads an address without blanks.  To an address whose path is a text, only a
fragment is relative. -/
def read? (base? : Option Url) (chars : List Char) : Option Url :=
  match readScheme? chars with
  | some (scheme, rest) => absolute? base? scheme (.ofChars (scheme == "file") rest)
  | none =>
    base?.bind fun base =>
      let reference := Reference.ofChars (base.scheme == "file") chars
      match base.path with
      | .segments _ => relative? base reference
      | .text _ => if chars.head? = some '#' then relative? base reference else none

/-- Whether a break between two texts may part a drive letter, which ends the
first text, from what stands behind it.  The first text is written backwards. -/
def mayPart (before rest : List Char) : Bool :=
  match before, rest with
  | ':' :: letter :: mark :: _, c :: _ =>
    letter.isAlpha && (mark == ':' || isSlash true mark) &&
      !(isBreak c || "/\\?#".toList.contains c)
  | _, _ => false

/-- Drops the breaks that do not part a drive letter from what stands behind it. -/
def dropBreaks (before : List Char) : List Char → List Char
  | [] => []
  | c :: rest =>
    if !isBreak c then c :: dropBreaks (c :: before) rest
    else if mayPart before rest then c :: dropBreaks before rest
    else dropBreaks before rest

def clean (chars : List Char) : List Char :=
  let outer := fun c : Char => c.toNat ≤ 0x20
  dropBreaks [] (dropTrailing outer (chars.dropWhile outer))

def ofText? (base? : Option Url) (text : String) : Option Url := read? base? (clean text.toList)

/-- The written form of an address that is read on its own if it can be, and
relative to a base otherwise. -/
def resolve (address : String) (base? : Option String) : Option String :=
  let trimmed := trim address
  let alone := ofText? none trimmed
  let joined := (base?.bind (ofText? none)).bind fun base => ofText? (some base) trimmed
  (alone.or joined).map toText

def isHttp (text : String) : Bool :=
  (ofText? none text).any fun url => url.scheme == "http" || url.scheme == "https"

end SelectorTree.Url
