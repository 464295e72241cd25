import Mathlib.Data.List.Infix
import SelectorTree.Import.DataUrl
import SelectorTree.Proofs.Text.PercentDecoding

/-!
# Decoding data addresses

The data of an address that is not in base 64 is its text behind the first comma, with the
escapes replaced.  More is an escape there than a percent sign before two hexadecimal digits: a
plus sign may stand in the place of a first digit that is zero.  So the bytes are those that the
digits alone would give if, and only if, no percent sign stands before a plus sign and a digit.
-/

namespace SelectorTree.DataUrl

open Text

variable {bytes : List UInt8} {byte high low value : UInt8}

/-! ## The pairs behind a percent sign -/

/-- Two digits that write `value`, or a plus sign and the second of them after a zero. -/
def SignedPair (high low value : UInt8) : Prop :=
  HexPair high low value ∨ high = 0x2B ∧ HexPair 0x30 low value

/-- Somewhere a percent sign stands before a plus sign and a hexadecimal digit. -/
def HasSignedEscape (bytes : List UInt8) : Prop :=
  ∃ digit value, HexPair 0x30 digit value ∧ [0x25, 0x2B, digit] <:+: bytes

theorem hexPair?_zero (low : UInt8) : hexPair? 0x30 low = hexByte? low := by
  rw [hexPair?, show hexByte? 0x30 = some 0 from rfl, Option.bind_some]
  cases hexByte? low <;> simp

theorem hexPair?_plus (low : UInt8) : hexPair? 0x2B low = none := rfl

theorem escaped?_plus (low : UInt8) : escaped? 0x2B low = hexByte? low := rfl

theorem escaped?_digits (digits : high ≠ 0x2B) : escaped? high low = hexPair? high low :=
  if_neg digits

theorem escaped?_eq_some_iff : escaped? high low = some value ↔ SignedPair high low value := by
  rw [SignedPair, ← hexPair?_eq_some_iff, ← hexPair?_eq_some_iff, hexPair?_zero]
  by_cases plus : high = 0x2B
  · subst plus
    simp [escaped?_plus, hexPair?_plus]
  · simp [escaped?_digits plus, plus]

theorem hexPair?_of_escaped? (missing : escaped? high low = none) : hexPair? high low = none := by
  by_cases plus : high = 0x2B
  · rw [plus, hexPair?_plus]
  · rwa [escaped?_digits plus] at missing

/-- A percent sign is no part of an escape that another one began. -/
theorem not_percent_of_hexPair? (found : hexPair? high low = some value) :
    high ≠ 0x25 ∧ low ≠ 0x25 := by
  obtain ⟨_, upper, found⟩ := Option.bind_eq_some_iff.mp found
  obtain ⟨_, lower, -⟩ := Option.map_eq_some_iff.mp found
  constructor
  · rintro rfl
    cases upper
  · rintro rfl
    cases lower

/-! ## Where the plus signs make a difference -/

theorem hasSignedEscape_plus (digit : hexByte? low = some value) (rest : List UInt8) :
    HasSignedEscape (0x25 :: 0x2B :: low :: rest) :=
  ⟨low, value, hexPair?_eq_some_iff.mp (by rw [hexPair?_zero, digit]),
    (List.prefix_append [0x25, 0x2B, low] rest).isInfix⟩

/-- A byte that begins no escape with a plus sign decides nothing. -/
theorem hasSignedEscape_cons
    (alone : ∀ digit behind, byte = 0x25 → bytes = 0x2B :: digit :: behind →
      hexByte? digit = none) :
    HasSignedEscape (byte :: bytes) ↔ HasSignedEscape bytes := by
  constructor
  · rintro ⟨digit, value, pair, within⟩
    refine ⟨digit, value, pair, (List.infix_cons_iff.mp within).resolve_left ?_⟩
    rintro ⟨behind, ⟨⟩⟩
    have missing := alone digit behind rfl rfl
    rw [← hexPair?_zero, hexPair?_eq_some_iff.mpr pair] at missing
    cases missing
  · rintro ⟨digit, value, pair, within⟩
    exact ⟨digit, value, pair, List.infix_cons within⟩

theorem hasSignedEscape_cons_of_ne (other : byte ≠ 0x25) :
    HasSignedEscape (byte :: bytes) ↔ HasSignedEscape bytes :=
  hasSignedEscape_cons fun _ _ percent => absurd percent other

/-- Reading the plus signs too gives what the digits alone give just where no escape has one. -/
theorem percentDecode_escaped?_eq_iff :
    percentDecode escaped? bytes = percentDecode hexPair? bytes ↔ ¬HasSignedEscape bytes := by
  fun_induction percentDecode escaped? bytes with
  | case1 byte high low rest value found ih =>
      split at found
      case isFalse => cases found
      case isTrue percent =>
        subst percent
        by_cases plus : high = 0x2B
        · -- The digits alone leave the percent sign, and a single digit does not write one.
          subst plus
          have small := lt_of_hexByte? found
          have differ : value ≠ 0x25 := by
            rintro rfl
            exact absurd small (by decide)
          have kept : percentDecode hexPair? (0x25 :: 0x2B :: low :: rest) =
              0x25 :: percentDecode hexPair? (0x2B :: low :: rest) :=
            percentDecode_byte fun _ low _ _ split => by cases split; exact hexPair?_plus low
          simp [kept, differ, hasSignedEscape_plus found rest]
        · rw [escaped?_digits plus] at found
          obtain ⟨highOther, lowOther⟩ := not_percent_of_hexPair? found
          rw [percentDecode_escape found, List.cons_inj_right, ih, hasSignedEscape_cons,
            hasSignedEscape_cons_of_ne highOther, hasSignedEscape_cons_of_ne lowOther]
          rintro _ _ _ ⟨⟩
          exact absurd rfl plus
  | case2 byte high low rest missing ih =>
      have noEscape (percent : byte = 0x25) : escaped? high low = none := by
        rwa [if_pos percent] at missing
      have kept : percentDecode hexPair? (byte :: high :: low :: rest) =
          byte :: percentDecode hexPair? (high :: low :: rest) :=
        percentDecode_byte fun _ _ _ percent split => by
          cases split
          exact hexPair?_of_escaped? (noEscape percent)
      rw [kept, List.cons_inj_right, ih]
      refine not_congr (hasSignedEscape_cons ?_).symm
      intro digit behind percent split
      cases split
      exact noEscape percent
  | case3 bytes short =>
      have same : percentDecode hexPair? bytes = bytes := by
        rw [percentDecode]
        exact short
      rw [same, eq_self, true_iff]
      rintro ⟨digit, _, _, within⟩
      have long := within.length_le
      rcases bytes with _ | ⟨byte, _ | ⟨high, _ | ⟨low, rest⟩⟩⟩
      case cons.cons.cons => exact short byte high low rest rfl
      all_goals simp at long

/-! ## The data of an address -/

theorem dropScheme_append (metadata data : List Char) :
    dropScheme (metadata ++ ',' :: data) = dropScheme metadata ++ ',' :: data := by
  fun_induction dropScheme metadata with
  | case1 rest ih => exact ih
  | case2 chars other =>
      rw [dropScheme]
      intro rest split
      match chars, other, split with
      | _ :: _ :: _ :: _ :: _ :: behind, other, split =>
          simp only [List.cons_append, List.cons.injEq] at split
          obtain ⟨rfl, rfl, rfl, rfl, rfl, -⟩ := split
          exact other behind rfl

theorem dropScheme_suffix (chars : List Char) : dropScheme chars <:+ chars := by
  fun_induction dropScheme chars with
  | case1 rest ih => exact ih.trans (List.suffix_append "data:".toList rest)
  | case2 chars => exact List.suffix_refl chars

theorem decode_of_percentEncoded {url : String} {metadata data : List Char}
    (parts : url.toList = "data:".toList ++ metadata ++ ',' :: data) (first : ',' ∉ metadata)
    (plain : ¬";base64".toList <:+ metadata) :
    decode url = .ok (percentDecode escaped? (encodeUtf8 data)) := by
  have dropped : dropScheme url.toList = dropScheme metadata ++ ',' :: data := by
    rw [parts, List.append_assoc]
    exact dropScheme_append metadata data
  have within := dropScheme_suffix metadata
  have noComma : ∀ c ∈ dropScheme metadata, (c != ',') = true := fun c member =>
    bne_iff_ne.mpr fun comma => first (comma ▸ within.subset member)
  have encoded : ¬";base64".toList.isSuffixOf (dropScheme metadata) = true := fun marked =>
    plain ((List.isSuffixOf_iff_suffix.mp marked).trans within)
  have ahead : (dropScheme metadata ++ ',' :: data).takeWhile (· != ',') =
      dropScheme metadata := by
    simp [List.takeWhile_append_of_pos noComma]
  have behind : (dropScheme metadata ++ ',' :: data).dropWhile (· != ',') = ',' :: data := by
    simp [List.dropWhile_append_of_pos noComma]
  simp only [decode, dropped, ahead, behind, if_neg encoded]

/-- Data that is not in base 64 decodes to the bytes that are left when its escapes are
replaced, those with a plus sign among them.  There is one way to replace the escapes of two
digits only, and it leaves the same bytes just if the data has no escape with a plus sign. -/
theorem decode_unescapes (url : String) (metadata data : List Char)
    (parts : url.toList = "data:".toList ++ metadata ++ ',' :: data) (first : ',' ∉ metadata)
    (plain : ¬";base64".toList <:+ metadata) :
    ∃ bytes reference, decode url = .ok bytes ∧
      (∀ decoded, Unescaped SignedPair (encodeUtf8 data) decoded ↔ decoded = bytes) ∧
      (∀ decoded, Unescaped HexPair (encodeUtf8 data) decoded ↔ decoded = reference) ∧
      (bytes = reference ↔ ¬HasSignedEscape (encodeUtf8 data)) :=
  ⟨_, _, decode_of_percentEncoded parts first plain,
    fun _ => unescaped_iff_eq_percentDecode fun _ _ _ => escaped?_eq_some_iff,
    fun _ => unescaped_iff_eq_percentDecode fun _ _ _ => hexPair?_eq_some_iff,
    percentDecode_escaped?_eq_iff⟩

/-- Escapes without a plus sign decode to what their digits write. -/
theorem decode_unescapes_blanks :
    "data:text/css,p%20%7b".toList =
        "data:".toList ++ "text/css".toList ++ ',' :: "p%20%7b".toList ∧
      ',' ∉ "text/css".toList ∧ ¬";base64".toList <:+ "text/css".toList ∧
      decode "data:text/css,p%20%7b" = .ok [0x70, 0x20, 0x7B] ∧
      ∀ decoded, Unescaped HexPair (encodeUtf8 "p%20%7b".toList) decoded ↔
        decoded = [0x70, 0x20, 0x7B] := by
  obtain ⟨bytes, reference, decodes, -, digits, same⟩ :=
    decode_unescapes "data:text/css,p%20%7b" "text/css".toList "p%20%7b".toList
      (by decide) (by decide) (by decide)
  have found : decode "data:text/css,p%20%7b" = .ok [0x70, 0x20, 0x7B] := by decide
  have unsigned : ¬HasSignedEscape (encodeUtf8 "p%20%7b".toList) :=
    percentDecode_escaped?_eq_iff.mp (by decide)
  obtain rfl : bytes = [0x70, 0x20, 0x7B] := Except.ok.inj (decodes.symm.trans found)
  obtain rfl := same.mpr unsigned
  exact ⟨by decide, by decide, by decide, found, digits⟩

/-- The percent sign of a sum becomes part of an escape. -/
theorem decode_signed :
    decode "data:,50%+5px" = .ok [0x35, 0x30, 0x05, 0x70, 0x78] ∧
      Unescaped HexPair (encodeUtf8 "50%+5px".toList) (encodeUtf8 "50%+5px".toList) ∧
      ¬Unescaped HexPair (encodeUtf8 "50%+5px".toList) [0x35, 0x30, 0x05, 0x70, 0x78] := by
  have pairs : ∀ high low value, hexPair? high low = some value ↔ HexPair high low value :=
    fun _ _ _ => hexPair?_eq_some_iff
  rw [unescaped_iff_eq_percentDecode pairs, unescaped_iff_eq_percentDecode pairs]
  decide

end SelectorTree.DataUrl
