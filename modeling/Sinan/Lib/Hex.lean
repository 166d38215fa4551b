import Mathlib.Data.List.Basic

/-!
# Lower-case hexadecimal

`encodeHex` writes two digits for each byte, `decodeHex` reads them back and accepts digits of either
case, as the usual hex decoders do; `isLowerHex` is the spelling check a verifier makes first.
-/

namespace Sinan.Lib

def hexDigit (n : Nat) : Char := Char.ofNat (if n < 10 then 48 + n else 87 + n)

def hexValue (c : Char) : Option Nat :=
  if 48 ≤ c.toNat ∧ c.toNat ≤ 57 then some (c.toNat - 48)
  else if 97 ≤ c.toNat ∧ c.toNat ≤ 102 then some (c.toNat - 87)
  else if 65 ≤ c.toNat ∧ c.toNat ≤ 70 then some (c.toNat - 55)
  else none

/-- an ASCII digit or one of `a` to `f` -/
def isLowerHexDigit (c : Char) : Bool :=
  (48 ≤ c.toNat && c.toNat ≤ 57) || (97 ≤ c.toNat && c.toNat ≤ 102)

def isLowerHex (s : String) : Bool := s.toList.all isLowerHexDigit

def hexChars : List UInt8 → List Char
  | [] => []
  | b :: bs => hexDigit (b.toNat / 16) :: hexDigit (b.toNat % 16) :: hexChars bs

def encodeHex (bytes : List UInt8) : String := String.ofList (hexChars bytes)

def decodeHexChars : List Char → Option (List UInt8)
  | [] => some []
  | [_] => none
  | hi :: lo :: rest => do
    let h ← hexValue hi
    let l ← hexValue lo
    let bytes ← decodeHexChars rest
    return UInt8.ofNat (16 * h + l) :: bytes

def decodeHex (s : String) : Option (List UInt8) := decodeHexChars s.toList

theorem hexDigit_spec {n : Nat} (h : n < 16) :
    hexValue (hexDigit n) = some n ∧ isLowerHexDigit (hexDigit n) = true := by
  have htable : ∀ m : Fin 16, hexValue (hexDigit m) = some m.1 ∧
      isLowerHexDigit (hexDigit m) = true := by decide
  exact htable ⟨n, h⟩

theorem decodeHexChars_hexChars (bytes : List UInt8) :
    decodeHexChars (hexChars bytes) = some bytes := by
  induction bytes with
  | nil => rfl
  | cons b bs ih =>
    have hb := b.toNat_lt
    have hhi := (hexDigit_spec (n := b.toNat / 16) (by omega)).1
    have hlo := (hexDigit_spec (n := b.toNat % 16) (by omega)).1
    have hbyte : UInt8.ofNat (16 * (b.toNat / 16) + b.toNat % 16) = b := by
      rw [Nat.div_add_mod]
      exact UInt8.ofNat_toNat
    simp only [hexChars, decodeHexChars, hhi, hlo, ih, Option.bind_eq_bind, Option.bind_some,
      Option.pure_def, hbyte]

theorem decodeHex_encodeHex (bytes : List UInt8) : decodeHex (encodeHex bytes) = some bytes := by
  unfold decodeHex encodeHex
  rw [String.toList_ofList]
  exact decodeHexChars_hexChars bytes

theorem hexChars_lower (bytes : List UInt8) : (hexChars bytes).all isLowerHexDigit = true := by
  induction bytes with
  | nil => rfl
  | cons b bs ih =>
    have hb := b.toNat_lt
    have hhi := (hexDigit_spec (n := b.toNat / 16) (by omega)).2
    have hlo := (hexDigit_spec (n := b.toNat % 16) (by omega)).2
    simp only [hexChars, List.all_cons, hhi, hlo, ih, Bool.and_self]

theorem encodeHex_lower (bytes : List UInt8) : isLowerHex (encodeHex bytes) = true := by
  unfold isLowerHex encodeHex
  rw [String.toList_ofList]
  exact hexChars_lower bytes

theorem hexChars_length (bytes : List UInt8) : (hexChars bytes).length = 2 * bytes.length := by
  induction bytes with
  | nil => rfl
  | cons b bs ih =>
    simp only [hexChars, List.length_cons, ih]
    omega

theorem encodeHex_length (bytes : List UInt8) :
    (encodeHex bytes).toList.length = 2 * bytes.length := by
  unfold encodeHex
  rw [String.toList_ofList]
  exact hexChars_length bytes

end Sinan.Lib
