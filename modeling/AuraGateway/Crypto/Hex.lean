import AuraGateway.Auth.ApiKeys
import AuraGateway.Standard.Utf8

/-!
# Hexadecimal text

`hex::decode` reads two digits of either case as one byte. It gives back what `hex::encode`
wrote (`hexDecode_encode`).
-/

set_option autoImplicit false

namespace AuraGateway.Crypto

open AuraGateway.RustStd AuraGateway.Auth

/-- The bytes of a text. -/
def utf8 (t : List Char) : List UInt8 := t.flatMap String.utf8EncodeChar

/-- `hex::FromHexError`. -/
inductive FromHexError where
  | invalidHexCharacter (c : UInt8) (index : Nat)
  | oddLength
  deriving DecidableEq, Repr

/-- The value of a digit, which stands at an index of the text. -/
def hexVal (c : UInt8) (index : Nat) : Except FromHexError Nat :=
  let n := c.toNat
  if 65 ≤ n ∧ n ≤ 70 then .ok (n - 65 + 10)
  else if 97 ≤ n ∧ n ≤ 102 then .ok (n - 97 + 10)
  else if 48 ≤ n ∧ n ≤ 57 then .ok (n - 48)
  else .error (.invalidHexCharacter c index)

/-- The bytes of pairs of digits. -/
def hexPairs (index : Nat) : List UInt8 → Except FromHexError (List UInt8)
  | hi :: lo :: rest => do
      let high ← hexVal hi index
      let low ← hexVal lo (index + 1)
      let bytes ← hexPairs (index + 2) rest
      .ok (UInt8.ofNat (high * 16 + low) :: bytes)
  | _ => .ok []

/-- `hex::decode`. -/
def hexDecode (data : List UInt8) : Except FromHexError (List UInt8) :=
  if data.length % 2 ≠ 0 then .error .oddLength else hexPairs 0 data

/-! ## Reading back -/

/-- A written digit is one byte, and its value is read back. -/
theorem exists_utf8_hexDigit {n : Nat} (h : n < 16) :
    ∃ b, String.utf8EncodeChar (hexDigit n) = [b] ∧ ∀ index, hexVal b index = .ok n := by
  interval_cases n <;> exact ⟨_, rfl, fun _ => rfl⟩

theorem utf8_hexEncode_cons (b : UInt8) (bytes : List UInt8) :
    ∃ hi lo, utf8 (hexEncode (b :: bytes)) = hi :: lo :: utf8 (hexEncode bytes)
      ∧ (∀ index, hexVal hi index = .ok (b.toNat / 16))
      ∧ ∀ index, hexVal lo index = .ok (b.toNat % 16) := by
  have hlt := b.toNat_lt
  obtain ⟨hi, hhi, hhigh⟩ := exists_utf8_hexDigit (n := b.toNat / 16) (by omega)
  obtain ⟨lo, hlo, hlow⟩ := exists_utf8_hexDigit (n := b.toNat % 16) (by omega)
  refine ⟨hi, lo, ?_, hhigh, hlow⟩
  simp [utf8, hexEncode, hhi, hlo]

theorem hexPairs_encode (index : Nat) (bytes : List UInt8) :
    hexPairs index (utf8 (hexEncode bytes)) = .ok bytes := by
  induction bytes generalizing index with
  | nil => rfl
  | cons b bytes ih =>
      obtain ⟨hi, lo, heq, hhigh, hlow⟩ := utf8_hexEncode_cons b bytes
      have hvalue : UInt8.ofNat (b.toNat / 16 * 16 + b.toNat % 16) = b := by
        rw [Nat.div_add_mod', UInt8.ofNat_toNat]
      rw [heq, hexPairs, hhigh, hlow, ih]
      exact congrArg Except.ok (congrArg (· :: bytes) hvalue)

/-- What was encoded is decoded. -/
theorem hexDecode_encode (bytes : List UInt8) : hexDecode (utf8 (hexEncode bytes)) = .ok bytes := by
  have heven : (utf8 (hexEncode bytes)).length % 2 = 0 := by
    induction bytes with
    | nil => rfl
    | cons b bytes ih =>
        obtain ⟨hi, lo, heq, -⟩ := utf8_hexEncode_cons b bytes
        rw [heq, List.length_cons, List.length_cons]
        omega
  rw [hexDecode, if_neg (not_not.mpr heven), hexPairs_encode]

end AuraGateway.Crypto
