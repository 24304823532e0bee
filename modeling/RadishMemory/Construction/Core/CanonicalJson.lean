import RadishMemory.Framework.Checked
import RadishMemory.Framework.Json
import RadishMemory.Construction.Core.Model
import Mathlib.Data.Char
import Mathlib.Data.List.Lex
import Mathlib.Data.List.Sort

/-!
# Canonical JSON

The parser keeps a cursor into the input; here it is the rest of the input behind the cursor.  It
looks only for delimiters in strings and numbers and hands the slice to the JSON library.  A
nesting budget stands for the depth check, so that the recursion is on the budget; the loops over
the members of an array or an object have the length of the input as fuel.

All delimiters are ASCII, so that the bytes that the source inspects are the characters that are
inspected here.
-/

namespace RadishMemory.CanonicalJson

open Json (isWhitespace)

inductive NonCanonicalJsonReason where
  | syntaxError
  | duplicateKey
  | nullForbidden
  | nestingLimit
  | numberExpansionLimit
deriving DecidableEq, Repr

def maxNestingDepth : Nat := 128

def maxCanonicalNumberBytes : Nat := 1024 * 1024

/-- The JSON library: a string literal to its value, and a number to its lexeme. -/
class SerdeJson where
  stringFromSlice : List Char → Option (List Char)
  numberFromSlice : List Char → Option (List Char)

inductive Value where
  | boolean (value : Bool)
  | number (lexeme : List Char)
  | string (value : List Char)
  | array (items : List Value)
  | object (members : List (List Char × Value))

/-- A parser that returns a value and the rest of the input. -/
abbrev Parser (α : Type) :=
  List Char → Except NonCanonicalJsonReason (α × List Char)

/-! ## The parser -/

def skipWhitespace (input : List Char) : List Char :=
  input.dropWhile isWhitespace

/-- Whether a literal or a number may end before the rest of the input. -/
def isValueBoundary (c : Char) : Bool :=
  isWhitespace c || c = ',' || c = ']' || c = '}'

/-- The slice up to the closing quotation mark. -/
def scanString : Parser (List Char)
  | [] => .error .syntaxError
  | '"' :: rest => .ok (['"'], rest)
  | ['\\'] => .error .syntaxError
  | '\\' :: c :: rest => do
    let (slice, rest) ← scanString rest
    return ('\\' :: c :: slice, rest)
  | c :: rest =>
    if c.toNat < 0x20 then .error .syntaxError
    else do
      let (slice, rest) ← scanString rest
      return (c :: slice, rest)

/-- The literal is there and ends at a boundary. -/
def literalAt (literal input : List Char) : Bool :=
  literal.isPrefixOf input && (input.drop literal.length).head?.all isValueBoundary

def parseLiteral (literal : List Char) (value : Value) : Parser Value := fun input =>
  if literalAt literal input then .ok (value, input.drop literal.length)
  else .error .syntaxError

def parseNull : Parser Value := fun input =>
  if literalAt ['n', 'u', 'l', 'l'] input then .error .nullForbidden else .error .syntaxError

/-- The loop of `parse_array`. -/
def parseItems (parse : Parser Value) : Nat → Parser (List Value)
  | 0, _ => .error .syntaxError
  | fuel + 1, input => do
    let (item, rest) ← parse input
    match skipWhitespace rest with
    | ']' :: rest => return ([item], rest)
    | ',' :: rest =>
      let (items, rest) ← parseItems parse fuel rest
      return (item :: items, rest)
    | _ => .error .syntaxError

/-- Called with the cursor at the opening bracket. -/
def parseArray (parse : Parser Value) : Parser Value := fun input =>
  match skipWhitespace input.tail with
  | ']' :: rest => .ok (.array [], rest)
  | rest => do
    let (items, rest) ← parseItems parse (rest.length + 1) rest
    return (.array items, rest)

section Parser

variable [SerdeJson]

/-- Called with the cursor at the opening quotation mark. -/
def parseString : Parser (List Char)
  | [] => .error .syntaxError
  | quote :: rest => do
    let (slice, rest) ← scanString rest
    let value ← (SerdeJson.stringFromSlice (quote :: slice)).orError .syntaxError
    return (value, rest)

def parseNumber : Parser (List Char) := fun input => do
  let slice := input.takeWhile fun c => !isValueBoundary c
  let lexeme ← (SerdeJson.numberFromSlice slice).orError .syntaxError
  return (lexeme, input.dropWhile fun c => !isValueBoundary c)

/-- The key of a member and the colon after it. -/
def parseKey (keys : List (List Char)) : Parser (List Char) := fun input => do
  let input := skipWhitespace input
  require (input.head? = some '"') .syntaxError
  let (key, rest) ← parseString input
  require (key ∉ keys) .duplicateKey
  match skipWhitespace rest with
  | ':' :: rest => return (key, rest)
  | _ => .error .syntaxError

/-- The loop of `parse_object`; `keys` are the keys that it has seen. -/
def parseMembers (parse : Parser Value) :
    Nat → List (List Char) → Parser (List (List Char × Value))
  | 0, _, _ => .error .syntaxError
  | fuel + 1, keys, input => do
    let (key, rest) ← parseKey keys input
    let (value, rest) ← parse rest
    match skipWhitespace rest with
    | '}' :: rest => return ([(key, value)], rest)
    | ',' :: rest =>
      let (members, rest) ← parseMembers parse fuel (key :: keys) rest
      return ((key, value) :: members, rest)
    | _ => .error .syntaxError

/-- Called with the cursor at the opening brace. -/
def parseObject (parse : Parser Value) : Parser Value := fun input =>
  match skipWhitespace input.tail with
  | '}' :: rest => .ok (.object [], rest)
  | rest => do
    let (members, rest) ← parseMembers parse (rest.length + 1) [] rest
    return (.object members, rest)

/-- `parse_value` with as many levels left as the budget. -/
def parseValue : Nat → Parser Value
  | 0, _ => .error .nestingLimit
  | budget + 1, input =>
    let input := skipWhitespace input
    match input.head? with
    | some '{' => parseObject (parseValue budget) input
    | some '[' => parseArray (parseValue budget) input
    | some '"' => do
      let (value, rest) ← parseString input
      return (.string value, rest)
    | some 't' => parseLiteral ['t', 'r', 'u', 'e'] (.boolean true) input
    | some 'f' => parseLiteral ['f', 'a', 'l', 's', 'e'] (.boolean false) input
    | some 'n' => parseNull input
    | some c =>
      if c = '-' ∨ c.isDigit then do
        let (lexeme, rest) ← parseNumber input
        return (.number lexeme, rest)
      else .error .syntaxError
    | none => .error .syntaxError

/-- `Parser::parse`: the root has depth 0. -/
def parse (input : List Char) : Except NonCanonicalJsonReason Value := do
  let (value, rest) ← parseValue (maxNestingDepth + 1) (skipWhitespace input)
  require (skipWhitespace rest = []) .syntaxError
  return value

end Parser

/-! ## Numbers -/

/-- The result of checked arithmetic on `i64`. -/
def checkedI64 (x : Int) : Except NonCanonicalJsonReason Int :=
  if -2 ^ 63 ≤ x ∧ x < 2 ^ 63 then .ok x else .error .numberExpansionLimit

def ensureNumberLength (length : Nat) : Except NonCanonicalJsonReason Unit :=
  require (length ≤ maxCanonicalNumberBytes) .numberExpansionLimit

/-- The digits of an exponent, with an overflow check after each multiplication and addition. -/
def parseExponentDigits (digits : List Char) : Except NonCanonicalJsonReason Int :=
  digits.foldlM (fun exponent c => do
    let current ← checkedI64 (exponent * 10)
    checkedI64 (current + (Decimal.digitValue c : Int))) 0

def parseExponent (value : List Char) : Except NonCanonicalJsonReason Int :=
  match value with
  | '-' :: digits => do
    let exponent ← parseExponentDigits digits
    checkedI64 (-exponent)
  | '+' :: digits => parseExponentDigits digits
  | digits => parseExponentDigits digits

/-- The plain text of the significant digits with the point at a position. -/
def writePlain (negative : Bool) (significant : List Char) (decimalPosition : Int) :
    Except NonCanonicalJsonReason (List Char) := do
  let sign := if negative then ['-'] else []
  if decimalPosition ≤ 0 then
    -- The negation of `i64::MIN` does not fit; the conversion of what it wraps to fails.
    let negated ← checkedI64 (-decimalPosition)
    let zeroes := negated.toNat
    ensureNumberLength (sign.length + 2 + zeroes + significant.length)
    return sign ++ '0' :: '.' :: (List.replicate zeroes '0' ++ significant)
  else
    let position := decimalPosition.toNat
    if significant.length ≤ position then
      let zeroes := position - significant.length
      ensureNumberLength (sign.length + significant.length + zeroes)
      return sign ++ (significant ++ List.replicate zeroes '0')
    else
      ensureNumberLength (sign.length + significant.length + 1)
      return sign ++ (significant.take position ++ '.' :: significant.drop position)

/-- Where the point stands relative to the first significant digit. -/
def decimalPosition (integerLength leadingZeroes : Nat) (exponent : Int) :
    Except NonCanonicalJsonReason Int := do
  let integerLength ← checkedI64 integerLength
  let leadingZeroes ← checkedI64 leadingZeroes
  let position ← checkedI64 (integerLength + exponent)
  checkedI64 (position - leadingZeroes)

/-- The plain text of the digits of both parts, scaled by an exponent. -/
def normalizeDigits (negative : Bool) (integer fraction : List Char) (exponent : Int) :
    Except NonCanonicalJsonReason (List Char) := do
  let digits := integer ++ fraction
  let rest := digits.dropWhile (· = '0')
  if rest = [] then return ['0']
  else
    let significant := rest.rdropWhile (· = '0')
    let position ← decimalPosition integer.length (digits.takeWhile (· = '0')).length exponent
    writePlain negative significant position

def normalizeNumber (raw : List Char) : Except NonCanonicalJsonReason (List Char) := do
  let negative := decide (raw.head? = some '-')
  let unsigned := if raw.head? = some '-' then raw.tail else raw
  let mantissa := unsigned.takeWhile fun c => !decide (Decimal.IsMarker c)
  let exponent ← match unsigned.dropWhile fun c => !decide (Decimal.IsMarker c) with
    | _ :: value => parseExponent value
    | [] => .ok 0
  normalizeDigits negative (mantissa.takeWhile (· ≠ '.')) (mantissa.dropWhile (· ≠ '.')).tail
    exponent

/-! ## The writer -/

def hexDigit (n : Nat) : Char :=
  if n < 10 then Char.ofNat ('0'.toNat + n) else Char.ofNat ('a'.toNat + (n - 10))

def writeCharacter (c : Char) : List Char :=
  if c = '"' then ['\\', '"']
  else if c = '\\' then ['\\', '\\']
  else if c = '\x08' then ['\\', 'b']
  else if c = '\t' then ['\\', 't']
  else if c = '\n' then ['\\', 'n']
  else if c = '\x0c' then ['\\', 'f']
  else if c = '\r' then ['\\', 'r']
  else if c.toNat ≤ 0x1f then
    ['\\', 'u', '0', '0', hexDigit (c.toNat / 16), hexDigit (c.toNat % 16)]
  else [c]

def writeString (value : List Char) : List Char :=
  '"' :: (value.flatMap writeCharacter ++ ['"'])

/-- A member with its value written, for the sort by the code points of the key. -/
def keyLe (a b : List Char × List Char) : Prop :=
  a.1 ≤ b.1

instance : DecidableRel keyLe := fun a b => inferInstanceAs (Decidable (a.1 ≤ b.1))

def writeMember (member : List Char × List Char) : List Char :=
  writeString member.1 ++ ':' :: member.2

mutual

def writeValue : Value → Except NonCanonicalJsonReason (List Char)
  | .boolean value => .ok (if value then ['t', 'r', 'u', 'e'] else ['f', 'a', 'l', 's', 'e'])
  | .number lexeme => normalizeNumber lexeme
  | .string value => .ok (writeString value)
  | .array items => do
    let written ← writeItems items
    return '[' :: ([','].intercalate written ++ [']'])
  | .object members => do
    -- Every failure to write a member is the same error, so the members may be sorted afterwards.
    let written ← writeMembers members
    return '{' :: ([','].intercalate ((written.insertionSort keyLe).map writeMember) ++ ['}'])

def writeItems : List Value → Except NonCanonicalJsonReason (List (List Char))
  | [] => .ok []
  | item :: items => do
    let written ← writeValue item
    let rest ← writeItems items
    return written :: rest

def writeMembers :
    List (List Char × Value) → Except NonCanonicalJsonReason (List (List Char × List Char))
  | [] => .ok []
  | (key, value) :: members => do
    let written ← writeValue value
    let rest ← writeMembers members
    return (key, written) :: rest

end

/-- `canonicalize_json`: the bytes of the canonical text. -/
def canonicalizeJson [SerdeJson] (input : String) : Except NonCanonicalJsonReason (List UInt8) := do
  let value ← parse input.toList
  let output ← writeValue value
  return utf8Bytes (String.ofList output)

end RadishMemory.CanonicalJson
