import RadishMemory.Construction.Core.CanonicalJson

/-!
# The arithmetic of canonical numbers

`normalizeNumber` once more, with every arithmetic step of the code as it is on a machine of 64
bits.  A step that the code checks refuses the number when its result does not fit; a step that it
does not check overflows.  An overflow stops a build with overflow checks and wraps in any other.
-/

namespace RadishMemory.CanonicalJson

namespace Machine

inductive NumberStop where
  | overflow
  | refused (reason : NonCanonicalJsonReason)
deriving DecidableEq, Repr

/-- `checked_add` and the like, and `i64::try_from`. -/
def checked (x : Int) : Except NumberStop Int :=
  (checkedI64 x).mapError .refused

/-- An unchecked operation on `i64`. -/
def plainI64 (x : Int) : Except NumberStop Int :=
  if -2 ^ 63 ≤ x ∧ x < 2 ^ 63 then .ok x else .error .overflow

/-- An unchecked operation on `usize`. -/
def plainUsize (x : Int) : Except NumberStop Nat :=
  if 0 ≤ x ∧ x < 2 ^ 64 then .ok x.toNat else .error .overflow

/-- An unchecked operation on `u8`. -/
def plainU8 (x : Int) : Except NumberStop Nat :=
  if 0 ≤ x ∧ x < 2 ^ 8 then .ok x.toNat else .error .overflow

/-- `usize::try_from` of an `i64`. -/
def usizeTryFrom (x : Int) : Except NumberStop Nat :=
  if 0 ≤ x then .ok x.toNat else .error (.refused .numberExpansionLimit)

def ensureNumberLength (length : Nat) : Except NumberStop Unit :=
  (CanonicalJson.ensureNumberLength length).mapError .refused

def parseExponentDigits (digits : List Char) : Except NumberStop Int :=
  digits.foldlM (fun exponent c => do
    let current ← checked (exponent * 10)
    let digit ← plainU8 ((c.toNat : Int) - '0'.toNat)
    checked (current + digit)) 0

def parseExponent (value : List Char) : Except NumberStop Int :=
  match value with
  | '-' :: digits => do
    let exponent ← parseExponentDigits digits
    checked (-exponent)
  | '+' :: digits => parseExponentDigits digits
  | digits => parseExponentDigits digits

def writePlain (negative : Bool) (significant : List Char) (decimalPosition : Int) :
    Except NumberStop (List Char) := do
  let sign := if negative then ['-'] else []
  if decimalPosition ≤ 0 then
    let zeroes ← usizeTryFrom (← plainI64 (-decimalPosition))
    let length ← plainUsize (sign.length + 2)
    let length ← plainUsize (length + zeroes)
    let length ← plainUsize (length + significant.length)
    ensureNumberLength length
    return sign ++ '0' :: '.' :: (List.replicate zeroes '0' ++ significant)
  else
    let position ← usizeTryFrom decimalPosition
    if significant.length ≤ position then
      let zeroes ← plainUsize ((position : Int) - significant.length)
      let length ← plainUsize (sign.length + significant.length)
      let length ← plainUsize (length + zeroes)
      ensureNumberLength length
      return sign ++ (significant ++ List.replicate zeroes '0')
    else
      let length ← plainUsize (sign.length + significant.length)
      let length ← plainUsize (length + 1)
      ensureNumberLength length
      return sign ++ (significant.take position ++ '.' :: significant.drop position)

def decimalPosition (integerLength leadingZeroes : Nat) (exponent : Int) :
    Except NumberStop Int := do
  let integerLength ← checked integerLength
  let leadingZeroes ← checked leadingZeroes
  let position ← checked (integerLength + exponent)
  checked (position - leadingZeroes)

def normalizeDigits (negative : Bool) (integer fraction : List Char) (exponent : Int) :
    Except NumberStop (List Char) := do
  let _ ← plainUsize (integer.length + fraction.length)
  let digits := integer ++ fraction
  let rest := digits.dropWhile (· = '0')
  if rest = [] then return ['0']
  else
    let significant := rest.rdropWhile (· = '0')
    let position ← decimalPosition integer.length (digits.takeWhile (· = '0')).length exponent
    writePlain negative significant position

def normalizeNumber (raw : List Char) : Except NumberStop (List Char) := do
  let negative := decide (raw.head? = some '-')
  let unsigned := if raw.head? = some '-' then raw.tail else raw
  let mantissa := unsigned.takeWhile fun c => !decide (Decimal.IsMarker c)
  let exponent ← match unsigned.dropWhile fun c => !decide (Decimal.IsMarker c) with
    | _ :: value => do
      let _ ← plainUsize (mantissa.length + 1)
      parseExponent value
    | [] => .ok 0
  normalizeDigits negative (mantissa.takeWhile (· ≠ '.')) (mantissa.dropWhile (· ≠ '.')).tail
    exponent

end Machine

/-- The text of a number in memory: no string is longer than `isize::MAX`. -/
structure NumberLexeme where
  text : List Char
  numeral : Decimal.IsNumeral text
  inMemory : text.length < 2 ^ 63

end RadishMemory.CanonicalJson
