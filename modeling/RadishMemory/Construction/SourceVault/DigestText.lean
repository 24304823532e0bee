import RadishMemory.Construction.SourceVault.Aad

/-!
# Digests that the database holds as texts

An object is known by the thirty-two bytes of its digest.  The tables hold the digest as a text,
which the coordinators decode.
-/

namespace RadishMemory

/-- `char::to_digit(16)` of an ASCII character. -/
def toDigit16 (b : UInt8) : Option Nat :=
  if 0x30 ≤ b ∧ b ≤ 0x39 then some (b.toNat - 0x30)
  else if 0x61 ≤ b ∧ b ≤ 0x66 then some (b.toNat - 0x61 + 10)
  else if 0x41 ≤ b ∧ b ≤ 0x46 then some (b.toNat - 0x41 + 10)
  else none

/-- `u8::from_str_radix(_, 16)`: a `+` may stand before the digits, but not alone. -/
def u8FromStrRadix16 (src : List UInt8) : Option UInt8 :=
  let digits := if src.head? = some 0x2b ∧ 1 < src.length then src.tail else src
  if digits = [] then none
  else do
    let value ← digits.foldlM (fun value b => do
      let digit ← toDigit16 b
      if value * 16 + digit < 256 then some (value * 16 + digit) else none) 0
    return UInt8.ofNat value

def invalidObjectReference : SourceVaultError :=
  failure .attemptMismatch "invalid migration state or object reference"

/-- Two characters for each byte; the text is ASCII when it is cut. -/
def decodeDigest (value : String) : Except SourceVaultError (FixedBytes 32) := do
  let text := utf8Bytes value
  require (text.length = 64 ∧ text.all (· < 0x80) = true) invalidObjectReference
  let digest ← ((chunks 2 text).mapM u8FromStrRadix16).orError invalidObjectReference
  (FixedBytes.ofList 32 digest).orError invalidObjectReference

end RadishMemory
