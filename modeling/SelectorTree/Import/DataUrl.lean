import SelectorTree.Import.Base64
import SelectorTree.Import.Response
import SelectorTree.Text.Percent
import SelectorTree.Text.Utf8

/-!
# Addresses that hold their data

The data stands behind the first comma.  It is in base 64 if the part before the
comma says so at its end, and percent-encoded otherwise.
-/

namespace SelectorTree.DataUrl

open Text

/-- The byte that the two bytes behind a percent sign stand for.  A plus sign
may take the place of a leading zero. -/
def escaped? (high low : UInt8) : Option UInt8 :=
  if high = 0x2B then hexByte? low else hexPair? high low

/-- What stands behind the scheme, however often that is repeated. -/
def dropScheme : List Char → List Char
  | 'd' :: 'a' :: 't' :: 'a' :: ':' :: rest => dropScheme rest
  | chars => chars

def decode (url : String) : Except FetchError (List UInt8) :=
  let chars := dropScheme url.toList
  match chars.dropWhile (· != ',') with
  | [] => .error (.dataUrl "missing comma")
  | _ :: data =>
    if ";base64".toList.isSuffixOf (chars.takeWhile (· != ',')) then
      match Base64.decode? data with
      | some bytes => .ok bytes
      | none => .error (.dataUrl "base64 decode error")
    else .ok (percentDecode escaped? (encodeUtf8 data))

def fetch (url : String) : Except FetchError Response :=
  (decode url).map fun bytes => ⟨200, String.ofList (decodeUtf8 bytes)⟩

def isDataUrl (url : String) : Bool := "data:".toList.isPrefixOf url.toList

end SelectorTree.DataUrl
