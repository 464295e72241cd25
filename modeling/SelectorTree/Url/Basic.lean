import SelectorTree.Url.Host

/-!
# Addresses

An address names a scheme and, behind a colon, a host with a path or a text that
only the scheme can read.  A query and a fragment may follow.
-/

namespace SelectorTree

open Text

/-- What stands between the host and the query. -/
inductive UrlPath where
  | text (content : List Char)
  | segments (names : List (List Char))
deriving DecidableEq

/-- An address in parts, each in its written form.  `host?` is `some` for an
address that begins with two slashes, be its host empty. -/
structure Url where
  scheme : String
  credentials : List Char
  host? : Option (List Char)
  port? : Option Nat
  path : UrlPath
  query? : Option (List Char)
  fragment? : Option (List Char)
deriving DecidableEq

namespace UrlPath

def toChars : UrlPath → List Char
  | .text content => content
  | .segments names => names.flatMap ('/' :: ·)

end UrlPath

namespace Url

/-- The ports of the well-known schemes other than `file`. -/
def defaultPorts : List (String × Nat) :=
  [("http", 80), ("https", 443), ("ws", 80), ("wss", 443), ("ftp", 21)]

def isSpecial (scheme : String) : Bool :=
  scheme == "file" || (defaultPorts.lookup scheme).isSome

/-- The scheme alone. -/
def ofScheme (scheme : String) (path : UrlPath) : Url :=
  ⟨scheme, [], none, none, path, none, none⟩

/-- The credentials, the host and the port behind two slashes. -/
def authority (url : Url) : List Char :=
  match url.host? with
  | none => []
  | some host =>
    let user := if url.credentials = [] then [] else url.credentials ++ ['@']
    let port := (url.port?.map fun port => ':' :: decimalText port).getD []
    '/' :: '/' :: user ++ host ++ port

/-- The path; one that would be read as a host is kept apart by a point. -/
def pathChars (url : Url) : List Char :=
  let path := url.path.toChars
  if url.host? = none ∧ ['/', '/'].isPrefixOf path then '/' :: '.' :: path else path

def toText (url : Url) : String :=
  let query := (url.query?.map ('?' :: ·)).getD []
  let fragment := (url.fragment?.map ('#' :: ·)).getD []
  url.scheme ++
    String.ofList (':' :: url.authority ++ url.pathChars ++ query ++ fragment)

end Url

end SelectorTree
