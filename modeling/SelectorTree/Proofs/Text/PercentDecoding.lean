import SelectorTree.Text.Percent

/-!
# What percent escapes stand for

Decoding goes through the bytes once: an escape becomes its byte, and every other byte stays,
the percent sign of what is no escape included.  Which pairs of bytes make an escape is left
open here; the pairs of hexadecimal digits are those that write a byte, in either case of their
letters.
-/

namespace SelectorTree.Text

variable {bytes decoded rest : List UInt8} {byte high low value : UInt8}
  {escaped? : UInt8 → UInt8 → Option UInt8}

/-- The bytes that are left when all escapes are replaced.  `Escapes high low value` says that a
percent sign before `high` and `low` stands for `value`. -/
inductive Unescaped (Escapes : UInt8 → UInt8 → UInt8 → Prop) : List UInt8 → List UInt8 → Prop where
  | nil : Unescaped Escapes [] []
  | escape {high low value : UInt8} {rest decoded : List UInt8} (stands : Escapes high low value)
      (others : Unescaped Escapes rest decoded) :
      Unescaped Escapes (0x25 :: high :: low :: rest) (value :: decoded)
  | byte {byte : UInt8} {rest decoded : List UInt8}
      (alone : ∀ high low value behind, byte = 0x25 → rest = high :: low :: behind →
        ¬Escapes high low value)
      (others : Unescaped Escapes rest decoded) : Unescaped Escapes (byte :: rest) (byte :: decoded)

/-! ## Going through the bytes -/

theorem percentDecode_escape (stands : escaped? high low = some value) :
    percentDecode escaped? (0x25 :: high :: low :: rest) =
      value :: percentDecode escaped? rest := by
  simp [percentDecode, stands]

theorem percentDecode_byte
    (alone : ∀ high low behind, byte = 0x25 → rest = high :: low :: behind →
      escaped? high low = none) :
    percentDecode escaped? (byte :: rest) = byte :: percentDecode escaped? rest := by
  match rest with
  | [] => rfl
  | [_] => rfl
  | high :: low :: behind =>
      by_cases percent : byte = 0x25
      · simp [percentDecode, alone high low behind percent rfl]
      · simp [percentDecode, percent]

/-- Decoding gives what is left when all escapes are replaced, and nothing else is. -/
theorem unescaped_iff_eq_percentDecode {Escapes : UInt8 → UInt8 → UInt8 → Prop}
    (reads : ∀ high low value, escaped? high low = some value ↔ Escapes high low value) :
    Unescaped Escapes bytes decoded ↔ decoded = percentDecode escaped? bytes := by
  constructor
  · intro unescaped
    induction unescaped with
    | nil => rfl
    | escape stands _ ih => rw [percentDecode_escape ((reads _ _ _).mpr stands), ih]
    | byte alone _ ih =>
        rw [percentDecode_byte, ih]
        intro high low behind percent split
        rw [Option.eq_none_iff_forall_ne_some]
        intro value stands
        exact alone high low value behind percent split ((reads _ _ _).mp stands)
  · rintro rfl
    fun_induction percentDecode escaped? bytes with
    | case1 byte high low rest value found ih =>
        split at found
        · next percent =>
            rw [percent]
            exact .escape ((reads _ _ _).mp found) ih
        · cases found
    | case2 byte high low rest missing ih =>
        refine .byte ?_ ih
        rintro _ _ value _ percent ⟨⟩ stands
        rw [if_pos percent, (reads _ _ _).mpr stands] at missing
        cases missing
    | case3 bytes short =>
        match bytes, short with
        | [], _ => exact .nil
        | [_], _ => exact .byte (by simp) .nil
        | [_, _], _ => exact .byte (by simp) (.byte (by simp) .nil)
        | byte :: high :: low :: rest, short => exact absurd rfl (short byte high low rest)

/-! ## Pairs of hexadecimal digits -/

/-- The character of a byte, in lower case. -/
def letterOf (byte : UInt8) : Char := (Char.ofNat byte.toNat).toLower

/-- Whether two bytes are the digits that write `value`, in either case of their letters. -/
def HexPair (high low value : UInt8) : Prop := [letterOf high, letterOf low] = byteHex value

instance (high low value : UInt8) : Decidable (HexPair high low value) :=
  inferInstanceAs (Decidable (_ = _))

theorem hexByte?_iff {digit : Nat} (small : digit < 16) :
    hexByte? byte = some (UInt8.ofNat digit) ↔ letterOf byte = hexDigit digit := by
  have all : ∀ code < 256, ∀ digit < 16, hexByte? (UInt8.ofNat code) = some (UInt8.ofNat digit) ↔
      letterOf (UInt8.ofNat code) = hexDigit digit := by decide +kernel
  have here := all byte.toNat (UInt8.toNat_lt byte) digit small
  rwa [UInt8.ofNat_toNat] at here

theorem lt_of_hexByte? (digit : hexByte? byte = some value) : value.toNat < 16 := by
  have all : ∀ code < 256, ∀ value ∈ hexByte? (UInt8.ofNat code), value.toNat < 16 := by
    decide +kernel
  refine all byte.toNat (UInt8.toNat_lt byte) value ?_
  rwa [UInt8.ofNat_toNat]

theorem hexPair?_eq_some_iff : hexPair? high low = some value ↔ HexPair high low value := by
  have upperSmall : value.toNat / 16 < 16 := Nat.div_lt_of_lt_mul (UInt8.toNat_lt value)
  have lowerSmall : value.toNat % 16 < 16 := Nat.mod_lt _ (by decide)
  have digits : HexPair high low value ↔
      hexByte? high = some (UInt8.ofNat (value.toNat / 16)) ∧
        hexByte? low = some (UInt8.ofNat (value.toNat % 16)) := by
    rw [hexByte?_iff upperSmall, hexByte?_iff lowerSmall, HexPair, byteHex]
    simp
  rw [digits, hexPair?]
  constructor
  · intro found
    obtain ⟨upper, readsHigh, found⟩ := Option.bind_eq_some_iff.mp found
    obtain ⟨lower, readsLow, rfl⟩ := Option.map_eq_some_iff.mp found
    have upperSmall := lt_of_hexByte? readsHigh
    have lowerSmall := lt_of_hexByte? readsLow
    have sum : (16 * upper + lower).toNat = 16 * upper.toNat + lower.toNat := by
      rw [UInt8.toNat_add, UInt8.toNat_mul, show (16 : UInt8).toNat = 16 from rfl]
      omega
    rw [sum, show (16 * upper.toNat + lower.toNat) / 16 = upper.toNat by omega,
      show (16 * upper.toNat + lower.toNat) % 16 = lower.toNat by omega,
      UInt8.ofNat_toNat, UInt8.ofNat_toNat]
    exact ⟨readsHigh, readsLow⟩
  · rintro ⟨readsHigh, readsLow⟩
    rw [readsHigh, readsLow, Option.bind_some, Option.map_some, Option.some_inj]
    apply UInt8.toNat_inj.mp
    rw [UInt8.toNat_add, UInt8.toNat_mul, UInt8.toNat_ofNat', UInt8.toNat_ofNat',
      show (16 : UInt8).toNat = 16 from rfl]
    omega

end SelectorTree.Text
