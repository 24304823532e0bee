import RadishMemory.Construction.Sqlite.SearchQuery
import RadishMemory.Construction.Samples
import RadishMemory.Framework.Bm25

/-!
# A sample engine and two libraries

A full-text engine for ASCII texts that ranks by BM25, and two libraries that differ in one long
file of another namespace.
-/

namespace RadishMemory

namespace SearchSample

open Sample

/-! ## The engine -/

/-- The runs of letters and digits of an ASCII text, in lower case. -/
def tokens (text : String) : List String :=
  ((text.toList.map Char.toLower).splitOnP fun c => !c.isAlphanum).filterMap fun run =>
    if run.isEmpty then none else some (String.ofList run)

def hasToken (phrase : String) : Bool :=
  !(tokens phrase).isEmpty

/-- How often the tokens of the phrase follow each other in the row. -/
def frequency (phrase : String) (row : RecallRow) : Nat :=
  (tokens row.content).tails.countP ((tokens phrase).isPrefixOf ·)

/-- Phrases without a token are left out, and nothing matches when no phrase is left. -/
def matchesAll (phrases : List String) (row : RecallRow) : Bool :=
  let searched := phrases.filter hasToken
  !searched.isEmpty && searched.all fun phrase => 0 < frequency phrase row

def length (row : RecallRow) : Nat :=
  (tokens row.content).length

noncomputable def averageLength (table : List RecallRow) : ℝ :=
  ((table.map length).sum : ℕ) / (table.length : ℝ)

/-- The better row has the smaller rank. -/
noncomputable def bm25 (phrases : List String) (table : List RecallRow) (row : RecallRow) : ℝ :=
  -((phrases.filter hasToken).map fun phrase =>
    Bm25.relevance (Bm25.idf table.length (table.countP fun r => 0 < frequency phrase r))
      (averageLength table) (frequency phrase row) (length row)).sum

theorem matchesAll_iff {phrases : List String} {row : RecallRow} (hne : phrases ≠ [])
    (h : ∀ phrase ∈ phrases, hasToken phrase = true) :
    matchesAll phrases row = true ↔ ∀ phrase ∈ phrases, 0 < frequency phrase row := by
  rw [matchesAll, List.filter_eq_self.2 h]
  simp [hne]

noncomputable scoped instance fts5 : Fts5 where
  Rank := ℝ
  rankOrder := inferInstance
  hasToken
  matchesAll
  bm25
  implicitAnd phrases row hne h := by
    rw [matchesAll_iff hne h]
    refine forall₂_congr fun phrase hphrase => ?_
    have hsingle : ∀ p ∈ [phrase], hasToken p = true := fun p hp => by
      rw [List.mem_singleton.1 hp]
      exact h phrase hphrase
    rw [matchesAll_iff (List.cons_ne_nil _ _) hsingle]
    simp

/-! ## Files -/

def sourceParams (sourceId namespaceId : Identifier) (content : NonEmptyText) :
    SourceArtifactParams :=
  { Sample.sourceParams sourceId sourceId none with
    namespaceId
    content
    contentLength := (utf8Bytes content.asStr).length
    contentDigest := computeExactBytesDigest (utf8Bytes content.asStr) }

def fragmentParams (sourceId namespaceId : Identifier) (content : NonEmptyText) :
    SourceFragmentParams :=
  { Sample.fragmentParams sourceId sourceId 0 .active with
    namespaceId
    byteEnd := (utf8Bytes content.asStr).length
    content
    contentDigest := computeExactBytesDigest (utf8Bytes content.asStr) }

/-- A file that is its only fragment. -/
def file (sourceId namespaceId : Identifier) (content : NonEmptyText)
    (hsource : (sourceParams sourceId namespaceId content).check = .ok () := by decide +kernel)
    (hfragment : (fragmentParams sourceId namespaceId content).check = .ok () := by
      decide +kernel) : ResolvedSource :=
  { source := ⟨sourceParams sourceId namespaceId content, hsource⟩
    fragment := ⟨fragmentParams sourceId namespaceId content, hfragment⟩ }

def once : ResolvedSource :=
  file (identifier "once") namespaceId (text "ember")

def twice : ResolvedSource :=
  file (identifier "twice") namespaceId (text "ember ember b b")

/-- A long file of another namespace. -/
def elsewhere : ResolvedSource :=
  file (identifier "elsewhere") (identifier "another-library")
    (text "b b b b b b b b b b b b b b b")

/-! ## Libraries -/

/-- A library that has the files and nothing else. -/
def library (files : List ResolvedSource) : Database :=
  let rows := files.map fun resolved => SourceRow.ofArtifact resolved.source.params
  { sources := rows
    bodies := files.map fun resolved => BodyRow.ofArtifact resolved.source.params
    fragments := files.map fun resolved => FragmentRow.ofFragment resolved.fragment.params
    tips := rows.map TipRow.ofSource
    recallFts := files.map fun resolved => RecallRow.ofFragment resolved.fragment }

def small : Database :=
  library [once, twice]

def large : Database :=
  library [once, twice, elsewhere]

theorem small_verified : verifyDerivedIndex small = .ok () := by
  decide +kernel

theorem large_verified : verifyDerivedIndex large = .ok () := by
  decide +kernel

/-- The one best match of a word. -/
def firstEmber : LocalSearchRequest :=
  { namespaceId
    query := text "ember"
    asOf := time 9
    topK := 1
    allowedSensitivities := [.personal]
    queryHasTerm := by decide
    topKPositive := by decide
    sensitivitiesNonempty := by decide }

end SearchSample

end RadishMemory
