import RadishMemory.Construction.Sqlite.DerivedIndex
import RadishMemory.Framework.Method
import Mathlib.Data.Prod.Lex
import Mathlib.Data.String.Basic

/-!
# Search on one connection

`search` again, statement by statement: the eligible keys go into a temporary table of the
connection, one query joins it with the full-text table, the temporary table is cleared, and the
first hits of the answer are taken.  The temporary table belongs to the connection and survives
the call, so the connection is the state (`SearchConnection`).

MATCH and `bm25` are given functions of the full-text engine (`Fts5`).  What the engine is asked is
not: the expression is read as the engine reads quoted strings (`phrasesOf`).
-/

namespace RadishMemory

/-- The full-text engine.  `matchesAll` is MATCH on quoted phrases that stand next to each other,
an implicit AND; nothing is assumed of phrases in which the tokenizer finds no token.  `bm25` is a
function of the phrases, the whole table and the row. -/
class Fts5 where
  Rank : Type
  rankOrder : LinearOrder Rank
  hasToken : String → Bool
  matchesAll : List String → RecallRow → Bool
  bm25 : List String → List RecallRow → RecallRow → Rank
  implicitAnd : ∀ phrases row, phrases ≠ [] → (∀ phrase ∈ phrases, hasToken phrase = true) →
    (matchesAll phrases row = true ↔ ∀ phrase ∈ phrases, matchesAll [phrase] row = true)

instance Fts5.instLinearOrderRank [Fts5] : LinearOrder Fts5.Rank :=
  Fts5.rankOrder

/-! ## Expressions of quoted phrases -/

/-- Where the reader of an expression is: between strings, in a string, or behind a quote that
closes the string unless another one follows. -/
inductive PhraseReader where
  | outside
  | inside (text : List Char)
  | quoted (text : List Char)

def isExpressionSpace (c : Char) : Bool :=
  c = ' ' || c = '\t' || c = '\n' || c = '\r'

/-- Read quoted strings up to the end; anything else is not an expression of phrases. -/
def PhraseReader.read : PhraseReader → List Char → Option (List String)
  | .outside, [] => some []
  | .inside _, [] => none
  | .quoted text, [] => some [String.ofList text]
  | .outside, c :: rest =>
      if isExpressionSpace c then PhraseReader.outside.read rest
      else if c = '"' then (PhraseReader.inside []).read rest
      else none
  | .inside text, c :: rest =>
      if c = '"' then (PhraseReader.quoted text).read rest
      else (PhraseReader.inside (text ++ [c])).read rest
  | .quoted text, c :: rest =>
      if c = '"' then (PhraseReader.inside (text ++ ['"'])).read rest
      else if isExpressionSpace c then
        (PhraseReader.outside.read rest).map (String.ofList text :: ·)
      else none

/-- The phrases of an expression that has nothing but quoted strings. -/
def phrasesOf (expression : String) : Option (List String) :=
  PhraseReader.outside.read expression.toList

/-! ## The query -/

def RecallKind.asStr : RecallKind → String
  | .sourceFragment => "source_fragment"
  | .memoryRecord => "memory_record"

/-- `ORDER BY bm25(radishmemory_recall_fts), recall.object_kind, recall.object_id` -/
def rankKey [Fts5] (phrases : List String) (table : List RecallRow) (row : RecallRow) :
    Fts5.Rank ×ₗ String ×ₗ String :=
  toLex (Fts5.bm25 phrases table row,
    toLex (row.key.objectKind.asStr, row.key.objectId.asStr))

/-- The rows that match and join with a row of the temporary table, in order. -/
def joinedRows [Fts5] (phrases : List String) (table : List RecallRow)
    (eligible : List RecallKey) : List RecallRow :=
  let joined := table.flatMap fun row =>
    if Fts5.matchesAll phrases row then
      (eligible.filter (· == row.key)).map fun _ => row
    else []
  joined.insertionSort fun a b => rankKey phrases table a ≤ rankKey phrases table b

def Catalog.hit [Platform] (self : Catalog) (key : RecallKey) :
    Except SqliteError LocalSearchHit := do
  let candidate ← (lookup Candidate.key self.candidates key).orError derivedMismatch
  return candidate.hit

/-! ## The connection -/

/-- A connection and its temporary table, which is missing until the first search creates it. -/
structure SearchConnection where
  db : Database
  searchEligible : Option (List RecallKey)

namespace SearchConnection

open Method

def opened (db : Database) : SearchConnection :=
  { db, searchEligible := none }

/-- The temporary table holds nothing. -/
def eligibilityEmpty (self : SearchConnection) : Prop :=
  self.searchEligible = none ∨ self.searchEligible = some []

/-- `CREATE TEMP TABLE IF NOT EXISTS`, then `DELETE`. -/
def createSearchEligible : Method SearchConnection SqliteError Unit :=
  modify fun connection => { connection with searchEligible := some [] }

/-- The table must exist and its primary key must be free. -/
def insertSearchEligible (key : RecallKey) : Method SearchConnection SqliteError Unit :=
  ofOutcome fun connection =>
    match connection.searchEligible with
    | none => (.error searchError, connection)
    | some keys =>
        if key ∈ keys then (.error searchError, connection)
        else (.ok (), { connection with searchEligible := some (keys ++ [key]) })

def insertAllSearchEligible : List RecallKey → Method SearchConnection SqliteError Unit
  | [] => pure ()
  | key :: rest => do
      insertSearchEligible key
      insertAllSearchEligible rest

def populateSearchEligibility (eligible : List RecallKey) :
    Method SearchConnection SqliteError Unit := do
  createSearchEligible
  insertAllSearchEligible eligible

/-- The one query.  `queryFails` is the engine's word that preparing or stepping it fails; an
expression that is not made of phrases is refused. -/
def selectMatches [Fts5] (queryFails : Bool) (expression : String) :
    Method SearchConnection SqliteError (List RecallKey) :=
  ofOutcome fun connection =>
    match queryFails, connection.searchEligible, phrasesOf expression with
    | false, some eligible, some phrases =>
        (.ok ((joinedRows phrases connection.db.recallFts eligible).map RecallRow.key), connection)
    | _, _, _ => (.error searchError, connection)

/-- `DELETE FROM temp.radishmemory_search_eligible` -/
def clearSearchEligible : Method SearchConnection SqliteError Unit :=
  ofOutcome fun connection =>
    match connection.searchEligible with
    | none => (.error searchError, connection)
    | some _ => (.ok (), { connection with searchEligible := some [] })

variable [Platform] [Fts5]

omit [Fts5] in
/-- The hits behind the first `topK` keys. -/
def firstHits (catalog : Catalog) (topK : Nat) (keys : List RecallKey) :
    Except SqliteError (List LocalSearchHit) :=
  (keys.take topK).mapM catalog.hit

def searchWithSources (loadSource : SourceLoader) (queryFails : Bool)
    (request : LocalSearchRequest) : Method SearchConnection SqliteError (List LocalSearchHit) := do
  let connection ← get
  let catalog ← .ofExcept (Catalog.loadWith loadSource connection.db)
  .ofExcept (verifyCatalog connection.db catalog)
  let eligible := (catalog.candidates.filter (·.isEligible request)).map Candidate.key
  if eligible.isEmpty then return []
  else do
    populateSearchEligibility eligible
    let queryResult ← (selectMatches queryFails (ftsExpression request.query.asStr)).attempt
    let cleanupResult ← clearSearchEligible.attempt
    let keys ← .ofExcept queryResult
    .ofExcept cleanupResult
    .ofExcept (firstHits catalog request.topK keys)

def search (queryFails : Bool) (request : LocalSearchRequest) :
    Method SearchConnection SqliteError (List LocalSearchHit) :=
  searchWithSources loadSourceArtifact queryFails request

end SearchConnection

end RadishMemory
