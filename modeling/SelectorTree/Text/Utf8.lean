import SelectorTree.Text.Escape

/-!
# Bytes of text

Text is encoded as UTF-8.  Decoding accepts any bytes: the longest beginning of
a character that cannot be completed, or a byte that begins none, becomes one
replacement character.
-/

namespace SelectorTree.Text

def encodeUtf8 (chars : List Char) : List UInt8 := chars.flatMap String.utf8EncodeChar

/-- How a lead byte goes on: its own share of the code point, the number of
bytes to follow, and the bounds of the first of them. -/
structure LeadByte where
  share : Nat
  following : Nat
  lower : Nat
  upper : Nat

/-- The lead bytes of characters beyond ASCII.  The bounds exclude overlong
forms, surrogates and code points beyond Unicode. -/
def leadByte? (byte : Nat) : Option LeadByte :=
  if 0xC2 ≤ byte ∧ byte ≤ 0xDF then some ⟨byte - 0xC0, 1, 0x80, 0xBF⟩
  else if byte = 0xE0 then some ⟨0, 2, 0xA0, 0xBF⟩
  else if byte = 0xED then some ⟨0xD, 2, 0x80, 0x9F⟩
  else if 0xE1 ≤ byte ∧ byte ≤ 0xEF then some ⟨byte - 0xE0, 2, 0x80, 0xBF⟩
  else if byte = 0xF0 then some ⟨0, 3, 0x90, 0xBF⟩
  else if 0xF1 ≤ byte ∧ byte ≤ 0xF3 then some ⟨byte - 0xF0, 3, 0x80, 0xBF⟩
  else if byte = 0xF4 then some ⟨4, 3, 0x80, 0x8F⟩
  else none

/-- Reads the bytes that follow a lead byte: the code point if they are all
there, and the bytes behind those that fit. -/
def readFollowing (code lower upper : Nat) : Nat → List UInt8 → Option Nat × List UInt8
  | 0, bytes => (some code, bytes)
  | _ + 1, [] => (none, [])
  | count + 1, byte :: rest =>
    if lower ≤ byte.toNat ∧ byte.toNat ≤ upper then
      readFollowing (64 * code + (byte.toNat - 0x80)) 0x80 0xBF count rest
    else (none, byte :: rest)

def readUtf8 (first : UInt8) (rest : List UInt8) : Option Nat × List UInt8 :=
  if first.toNat < 0x80 then (some first.toNat, rest)
  else
    match leadByte? first.toNat with
    | none => (none, rest)
    | some lead => readFollowing lead.share lead.lower lead.upper lead.following rest

theorem readFollowing_length_le (code lower upper count : Nat) (bytes : List UInt8) :
    (readFollowing code lower upper count bytes).2.length ≤ bytes.length := by
  fun_induction readFollowing code lower upper count bytes with
  | case1 => exact Nat.le_refl _
  | case2 => exact Nat.le_refl _
  | case3 _ _ _ _ _ _ _ ih => exact Nat.le_succ_of_le ih
  | case4 => exact Nat.le_refl _

theorem readUtf8_length_le (first : UInt8) (rest : List UInt8) :
    (readUtf8 first rest).2.length ≤ rest.length := by
  unfold readUtf8
  split
  · exact Nat.le_refl _
  · split
    · exact Nat.le_refl _
    · exact readFollowing_length_le _ _ _ _ rest

/-- The code points that bytes encode; `none` stands for what encodes none. -/
def codePoints : List UInt8 → List (Option Nat)
  | [] => []
  | first :: rest => (readUtf8 first rest).1 :: codePoints (readUtf8 first rest).2
termination_by bytes => bytes.length
decreasing_by exact Nat.lt_succ_of_le (readUtf8_length_le first rest)

def decodeUtf8 (bytes : List UInt8) : List Char :=
  (codePoints bytes).map fun code => (code.map Char.ofNat).getD replacement

/-- The characters that bytes encode, if all of them do. -/
def decodeUtf8? (bytes : List UInt8) : Option (List Char) :=
  (codePoints bytes).mapM fun code => code.map Char.ofNat

end SelectorTree.Text
