import RadishMemory.Construction.Core.Model

/-!
# Parsing a timestamp

`Timestamp::parse` hands the text to the `time` crate, which says whether it is a date-time and
in which second; the leap second and the fraction are then read from the bytes of the text
itself.  The crate is the parameter `TimeCrate`.
-/

namespace RadishMemory

/-- What the crate returns of a date-time: the whole Unix second and the offset. -/
structure OffsetDateTime where
  unixTimestamp : Int
  offsetSeconds : Int
deriving DecidableEq, Repr

/-- `OffsetDateTime::parse` of the `time` crate, with the well-known format `Rfc3339`. -/
class TimeCrate where
  parse : String → Option OffsetDateTime

def isAsciiDigit (byte : UInt8) : Bool :=
  48 ≤ byte && byte ≤ 57

/-- `value - b'0'` of a digit. -/
def fractionalDigit (byte : UInt8) : Fin 10 :=
  ⟨(byte.toNat - 48) % 10, Nat.mod_lt _ (Nat.zero_lt_succ 9)⟩

/-- The digits after a point at byte 19, as they are written. -/
def fractionalSeconds (input : String) : List (Fin 10) :=
  if (utf8Bytes input)[19]? = some 46 then
    (((utf8Bytes input).drop 20).takeWhile isAsciiDigit).map fractionalDigit
  else []

def Timestamp.parse [TimeCrate] (input : String) : Except CoreError Timestamp := do
  let instant ← (TimeCrate.parse input).orError (.invalidTime .parse)
  let leapSecond := decide (((utf8Bytes input).drop 17).take 2 = [54, 48])
  return {
    original := input
    utcSecondKey := instant.unixTimestamp * 2 + (if leapSecond then 1 else 0)
    fractionalSeconds := RadishMemory.fractionalSeconds input
    offsetSeconds := instant.offsetSeconds }

end RadishMemory
