import SelectorTree.Text.Utf8
import SelectorTree.Url.Domain.Label
import SelectorTree.Url.Escapes
import SelectorTree.Url.NumericHost

/-!
# Hosts

The host of a well-known scheme is a domain, written in ASCII, or a numeric
address.  The hosts of other schemes are not interpreted.
-/

namespace SelectorTree.Url

open Text

/-- The characters that no host holds. -/
def isHostDelimiter (c : Char) : Bool := "\x00\t\n\r #/:<>?@[\\]^|".toList.contains c

/-- The characters that no domain holds. -/
def isForbiddenInDomain (c : Char) : Bool :=
  isHostDelimiter c || c.toNat < 0x20 || c.toNat == 0x7F || c == '%'

/-- The domain that a host spells. -/
def domain? (host : List Char) : Option (List Char) := do
  let decoded ← decodeUtf8? (percentDecode hexPair? (encodeUtf8 host))
  let labels ← labels? decoded
  let domain := ['.'].intercalate (labels.map Label.ascii)
  if domain = [] ∨ domain.any isForbiddenInDomain then none else some domain

/-- The address between a bracket that was read and the one at the end. -/
def bracketed? (host : List Char) : Option (List Char) :=
  if host.getLast? = some ']' then (IPv6.read? host.dropLast).map IPv6.toText else none

/-- The host of a well-known scheme. -/
def specialHost? : List Char → Option (List Char)
  | '[' :: rest => bracketed? rest
  | host => do
    let domain ← domain? host
    if IPv4.endsInNumber domain then (IPv4.read? domain).map IPv4.toText else some domain

def otherHost? : List Char → Option (List Char)
  | '[' :: rest => bracketed? rest
  | host => if host.any isHostDelimiter then none else some (escapeOpaque host)

end SelectorTree.Url
