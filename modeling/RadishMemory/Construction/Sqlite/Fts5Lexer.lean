import RadishMemory.Construction.Sqlite.DerivedIndex

/-!
# How the full-text engine cuts an expression into tokens

MATCH takes its expression as a C string: it ends at the first zero byte.  Between tokens there
may be spaces.  A token is a string in double quotes, in which a quote is written twice, a word of
certain characters, or an operator of one character.
-/

namespace RadishMemory

/-- The words that are operators (`AND`, `OR`, `NOT`) are told apart after this. -/
inductive Fts5Token where
  | string (bytes : List UInt8)
  | word (bytes : List UInt8)
  | operator (byte : UInt8)
deriving DecidableEq, Repr

namespace Fts5Token

def doubleQuote : UInt8 :=
  0x22

/-- Space, tab, newline and carriage return. -/
def isSpace (b : UInt8) : Bool :=
  b == 0x20 || b == 0x09 || b == 0x0a || b == 0x0d

/-- `( ) { } : , + * - ^` -/
def isOperator (b : UInt8) : Bool :=
  [0x28, 0x29, 0x7b, 0x7d, 0x3a, 0x2c, 0x2b, 0x2a, 0x2d, 0x5e].contains b

/-- Letters, digits, the underscore, the substitute character and every byte beyond ASCII. -/
def isBareword (b : UInt8) : Bool :=
  decide (0x80 ≤ b) || b == 0x1a || b == 0x5f || (decide (0x30 ≤ b) && decide (b ≤ 0x39)) ||
    (decide (0x41 ≤ b) && decide (b ≤ 0x5a)) || (decide (0x61 ≤ b) && decide (b ≤ 0x7a))

/-- Where the lexer is: between tokens, in a string, behind a quote that ends the string unless
another one follows, or in a word. -/
inductive Lexer where
  | between
  | inside (bytes : List UInt8)
  | quoted (bytes : List UInt8)
  | word (bytes : List UInt8)
deriving DecidableEq, Repr

namespace Lexer

/-- The token that ends when the next one begins. -/
def finished : Lexer → List Fts5Token
  | between => []
  | inside _ => []
  | quoted bytes => [.string bytes]
  | word bytes => [.word bytes]

/-- The first byte of a token, or a space; any other byte is a syntax error. -/
def start (b : UInt8) : Option (List Fts5Token × Lexer) :=
  if isSpace b then some ([], between)
  else if b = doubleQuote then some ([], inside [])
  else if isOperator b then some ([.operator b], between)
  else if isBareword b then some ([], word [b])
  else none

def step : Lexer → UInt8 → Option (List Fts5Token × Lexer)
  | between, b => start b
  | inside bytes, b =>
    if b = doubleQuote then some ([], quoted bytes) else some ([], inside (bytes ++ [b]))
  | quoted bytes, b =>
    if b = doubleQuote then some ([], inside (bytes ++ [doubleQuote]))
    else do
      let (tokens, lexer) ← start b
      return (.string bytes :: tokens, lexer)
  | word bytes, b =>
    if isBareword b then some ([], word (bytes ++ [b]))
    else do
      let (tokens, lexer) ← start b
      return (.word bytes :: tokens, lexer)

/-- The tokens up to the end, where a string may not be open. -/
def lex : Lexer → List UInt8 → Option (List Fts5Token)
  | inside _, [] => none
  | lexer, [] => some lexer.finished
  | lexer, b :: rest => do
    let (tokens, next) ← lexer.step b
    let later ← next.lex rest
    return tokens ++ later

end Lexer

/-- What a C string has of these bytes. -/
def cString (bytes : List UInt8) : List UInt8 :=
  bytes.takeWhile (· ≠ 0)

/-- The tokens that MATCH reads in an expression, unless it is a syntax error. -/
def tokens (expression : String) : Option (List Fts5Token) :=
  Lexer.between.lex (cString (utf8Bytes expression))

end Fts5Token

end RadishMemory
