import RadishMemory.Construction.Sqlite.SearchSamples
import RadishMemory.Properties.TimestampOrder
import RadishMemory.Properties.Verification

/-!
# Search returns the best eligible matches

What the engine is asked is what the user typed: the expression of a query is read back as the
terms of the query (`phrasesOf_ftsExpression`).  What it answers is taken from the rows whose
objects are eligible, and every full-text row of a verified library stands for one object of the
catalog (`Stands`), so eligibility of a candidate is eligibility of the object behind the row.

The temporary table starts every query empty and ends it empty, whether the query fails or not.
-/

namespace RadishMemory

/-! ## Reading an expression -/

/-- The characters of a term between its quotes. -/
def escapeTerm (term : List Char) : List Char :=
  term.flatMap fun c => if c = '"' then ['"', '"'] else [c]

namespace PhraseReader

theorem read_escapeTerm (term text rest : List Char) :
    (inside text).read (escapeTerm term ++ '"' :: rest) = (quoted (text ++ term)).read rest := by
  induction term generalizing text with
  | nil => simp [escapeTerm, read]
  | cons c term ih =>
    by_cases hc : c = '"'
    · subst hc
      have hescape : escapeTerm ('"' :: term) = '"' :: '"' :: escapeTerm term := rfl
      rw [hescape, List.cons_append, List.cons_append, read, if_pos rfl, read, if_pos rfl, ih,
        List.append_assoc, List.singleton_append]
    · have hescape : escapeTerm (c :: term) = c :: escapeTerm term := by
        simp [escapeTerm, hc]
      rw [hescape, List.cons_append, read, if_neg hc, ih, List.append_assoc,
        List.singleton_append]

theorem read_term (term rest : List Char) :
    outside.read ('"' :: (escapeTerm term ++ '"' :: rest)) = (quoted term).read rest := by
  rw [read, if_neg (by decide), if_pos rfl, read_escapeTerm, List.nil_append]

theorem read_terms (terms : List String) :
    outside.read ([' '].intercalate
      (terms.map fun term => '"' :: (escapeTerm term.toList ++ ['"']))) = some terms := by
  induction terms with
  | nil => rfl
  | cons term rest ih =>
    cases rest with
    | nil =>
      rw [List.map_singleton, List.intercalate_singleton, read_term, read, String.ofList_toList]
    | cons next rest =>
      have hsplit (tail : List Char) : '"' :: (escapeTerm term.toList ++ ['"']) ++ [' '] ++ tail =
          '"' :: (escapeTerm term.toList ++ '"' :: ' ' :: tail) := by
        simp
      rw [List.map_cons] at ih
      rw [List.map_cons, List.map_cons, List.intercalate_cons_cons, hsplit, read_term, read,
        if_neg (by decide), if_pos (by decide), ih, Option.map_some, String.ofList_toList]

end PhraseReader

/-- The engine is asked for the terms of the query and nothing else. -/
theorem phrasesOf_ftsExpression (query : String) :
    phrasesOf (ftsExpression query) = some (splitWhitespace query) := by
  have hterm : ∀ term : String, ("\"" ++ String.ofList (escapeTerm term.toList) ++ "\"").toList =
      '"' :: (escapeTerm term.toList ++ ['"']) := by
    intro term
    simp
  rw [phrasesOf, ftsExpression, String.toList_intercalate, List.map_map]
  have hmap : (String.toList ∘ fun term : String =>
      "\"" ++ String.ofList (escapeTerm term.toList) ++ "\"") =
      fun term => '"' :: (escapeTerm term.toList ++ ['"']) := funext hterm
  exact (congrArg (fun f => PhraseReader.outside.read
    ([' '].intercalate ((splitWhitespace query).map f))) hmap).trans
    (PhraseReader.read_terms _)

/-! ## Eligible objects -/

/-- What the request asks of any object. -/
structure LocalSearchRequest.Admits (request : LocalSearchRequest) (namespaceId : Identifier)
    (governance : Governance) (availableAt : Timestamp) : Prop where
  namespaceId : namespaceId = request.namespaceId
  sensitivity : governance.sensitivity ∈ request.allowedSensitivities
  available : availableAt ≤ request.asOf
  unexpired : governance.retention.mode = .untilTime →
    ∃ expiresAt, governance.retention.expiresAt = some expiresAt ∧ request.asOf < expiresAt

section Library

variable [Platform] {db : Database} {request : LocalSearchRequest}

/-- The object that the full-text row names loads as the hit and is what the request asks for. -/
inductive EligibleObject (db : Database) (request : LocalSearchRequest) :
    RecallRow → LocalSearchHit → Prop
  | sourceFragment {row : RecallRow} {resolved : ResolvedSource}
      (hkind : row.key.objectKind = .sourceFragment)
      (hload : loadResolvedFragmentWith loadSourceArtifact db row.namespaceId row.key.objectId =
        .ok (some resolved))
      (hadmits : request.Admits resolved.fragment.params.namespaceId
        resolved.fragment.params.governance resolved.source.params.capturedAt) :
      EligibleObject db request row (.sourceFragment resolved.fragment)
  | memoryRecord {row : RecallRow} {record : MemoryRecord} {events : List MemoryStateEvent}
      (hkind : row.key.objectKind = .memoryRecord)
      (hload : loadMemoryRecordClosureWith loadSourceArtifact db row.namespaceId
        row.key.objectId = .ok (some (record, events)))
      (hadmits : request.Admits record.params.namespaceId record.params.governance
        record.params.createdAt)
      (hconfirmed : record.params.currentState = .confirmed)
      (hvalid : record.params.validTime.contains request.asOf = true) :
      EligibleObject db request row (.memoryRecord record)

omit [Platform] in
theorem admits_iff {namespaceId : Identifier} {governance : Governance}
    {availableAt : Timestamp} :
    (namespaceId == request.namespaceId &&
      request.allowedSensitivities.contains governance.sensitivity &&
      !decide (request.asOf < availableAt) &&
      (governance.retention.mode != .untilTime ||
        governance.retention.expiresAt.any fun expiresAt =>
          !decide (expiresAt ≤ request.asOf))) = true ↔
      request.Admits namespaceId governance availableAt := by
  simp only [Bool.and_eq_true, beq_iff_eq, List.contains_iff_mem, Bool.not_eq_true',
    decide_eq_false_iff_not, Timestamp.not_lt, Bool.or_eq_true, bne_iff_ne, Option.any_eq_true,
    Timestamp.not_le]
  constructor
  · rintro ⟨⟨⟨hnamespace, hsensitivity⟩, havailable⟩, hretained⟩
    exact ⟨hnamespace, hsensitivity, havailable, fun hmode =>
      hretained.resolve_left fun hne => hne hmode⟩
  · rintro ⟨hnamespace, hsensitivity, havailable, hretained⟩
    refine ⟨⟨⟨hnamespace, hsensitivity⟩, havailable⟩, ?_⟩
    by_cases hmode : governance.retention.mode = .untilTime
    · exact .inr (hretained hmode)
    · exact .inl hmode

theorem isEligible_source {resolved : ResolvedSource} :
    (Candidate.source resolved).isEligible request = true ↔
      request.Admits resolved.fragment.params.namespaceId resolved.fragment.params.governance
        resolved.source.params.capturedAt := by
  rw [← admits_iff]
  exact Eq.congr_left (Bool.and_true _)

theorem isEligible_memory {record : MemoryRecord} :
    (Candidate.memory record).isEligible request = true ↔
      request.Admits record.params.namespaceId record.params.governance record.params.createdAt ∧
        record.params.validTime.contains request.asOf = true := by
  rw [← admits_iff, ← Bool.and_eq_true]
  rfl

/-! ## The objects behind the full-text rows -/

/-- The full-text row and the candidate stand for one object. -/
inductive Stands (db : Database) : RecallRow → Candidate → Prop
  | source {resolved : ResolvedSource}
      (hload : loadResolvedFragmentWith loadSourceArtifact db
        resolved.fragment.params.namespaceId resolved.fragment.params.fragmentId =
          .ok (some resolved)) :
      Stands db (RecallRow.ofFragment resolved.fragment) (Candidate.source resolved)
  | memory {record : MemoryRecord} {events : List MemoryStateEvent}
      (hload : loadMemoryRecordClosureWith loadSourceArtifact db record.params.namespaceId
        record.params.memoryId = .ok (some (record, events)))
      (hconfirmed : record.params.currentState = .confirmed) :
      Stands db (RecallRow.ofRecord record) (Candidate.memory record)

theorem Stands.key {row : RecallRow} {candidate : Candidate} (h : Stands db row candidate) :
    candidate.key = row.key := by
  cases h with
  | source hload => rfl
  | memory hload hconfirmed => rfl

theorem Stands.eligibleObject_iff {row : RecallRow} {candidate : Candidate}
    (h : Stands db row candidate) {hit : LocalSearchHit} :
    EligibleObject db request row hit ↔
      candidate.isEligible request = true ∧ candidate.hit = hit := by
  cases h with
  | @source resolved hload =>
    rw [isEligible_source]
    constructor
    · intro heligible
      cases heligible with
      | sourceFragment hkind hloaded hadmits =>
        have hsame := hload.symm.trans hloaded
        cases hsame
        exact ⟨hadmits, rfl⟩
      | memoryRecord hkind => cases hkind
    · rintro ⟨hadmits, rfl⟩
      exact .sourceFragment rfl hload hadmits
  | @memory record events hload hconfirmed =>
    rw [isEligible_memory]
    constructor
    · intro heligible
      cases heligible with
      | sourceFragment hkind => cases hkind
      | memoryRecord hkind hloaded hadmits hstate hvalid =>
        have hsame := hload.symm.trans hloaded
        cases hsame
        exact ⟨⟨hadmits, hvalid⟩, rfl⟩
    · rintro ⟨⟨hadmits, hvalid⟩, rfl⟩
      exact .memoryRecord rfl hload hadmits hconfirmed hvalid

theorem stands_source {row : FragmentRow} {resolved : ResolvedSource}
    (h : loadResolvedFragmentWith loadSourceArtifact db row.namespaceId row.fragmentId =
      .ok (some resolved)) :
    Stands db (RecallRow.ofFragment resolved.fragment) (Candidate.source resolved) := by
  obtain ⟨hactive, -⟩ := loadResolvedFragmentWith_eq_ok h
  obtain ⟨hlookup, hnamespace, -⟩ := activeFragmentRow_eq_some_iff.1 hactive
  have hkey := lookup_key hlookup
  have hid : resolved.fragment.params.fragmentId = row.fragmentId := hkey
  have hspace : resolved.fragment.params.namespaceId = row.namespaceId := hnamespace
  rw [← hid, ← hspace] at h
  exact .source h

theorem stands_memory {row : RecordRow} {record : MemoryRecord} {events : List MemoryStateEvent}
    (h : loadMemoryRecordClosureWith loadSourceArtifact db row.namespaceId row.memoryId =
      .ok (some (record, events))) (hconfirmed : record.params.currentState = .confirmed) :
    Stands db (RecallRow.ofRecord record) (Candidate.memory record) := by
  obtain ⟨stored, -, hstored, -, hid, hrow⟩ := loadMemoryRecordClosureWith_rows h
  obtain ⟨-, hnamespace, -⟩ := activeRecordRow_eq_some_iff.1 hstored
  rw [hrow] at hnamespace
  have hid : record.params.memoryId = row.memoryId := hid
  have hspace : record.params.namespaceId = row.namespaceId := hnamespace
  rw [← hid, ← hspace] at h
  exact .memory h hconfirmed

/-- The candidates of a search and the full-text rows stand for the same objects. -/
structure CandidatesStand (db : Database) (candidates : List Candidate) : Prop where
  keys : UniqueBy Candidate.key candidates
  rows : UniqueBy RecallRow.key db.recallFts
  stands : ∀ row ∈ db.recallFts, ∃ candidate ∈ candidates, Stands db row candidate
  named : ∀ candidate ∈ candidates, ∃ row ∈ db.recallFts, row.key = candidate.key

theorem candidatesStand {catalog : Catalog} {u : Unit}
    (hload : Catalog.loadWith loadSourceArtifact db = .ok catalog)
    (hverify : verifyCatalog db catalog = .ok u) : CandidatesStand db catalog.candidates := by
  obtain ⟨resolved, records, hread, hrows, -, hkeys, -, hcandidates⟩ :=
    Catalog.loadWith_eq_ok hload
  obtain ⟨-, hunique, -, hsame⟩ := verifyCatalog_eq_ok_iff.1 hverify
  have hkeysEq : catalog.candidates.map Candidate.key = catalog.recallRows.map RecallRow.key := by
    rw [hrows, hcandidates, catalogRecallRows]
    simp only [List.map_append, List.map_map]
    rfl
  refine ⟨?_, hunique, fun row hrow => ?_, fun candidate hcandidate => ?_⟩
  · rw [UniqueBy, hkeysEq]
    exact hkeys
  · rw [hsame, hrows] at hrow
    rw [hcandidates]
    rcases List.mem_append.1 hrow with hrow | hrow
    · obtain ⟨r, hr, rfl⟩ := List.mem_map.1 hrow
      obtain ⟨fragmentRow, -, hfragment⟩ :=
        List.Forall₂.exists_of_mem_right hread.fragments (List.mem_filter.1 hr).1
      exact ⟨_, List.mem_append_left _ (List.mem_map_of_mem hr), stands_source hfragment⟩
    · obtain ⟨record, hrecord, rfl⟩ := List.mem_map.1 hrow
      obtain ⟨hmem, hrecallable⟩ := List.mem_filter.1 hrecord
      obtain ⟨recordRow, -, events, hclosure⟩ :=
        List.Forall₂.exists_of_mem_right hread.memories hmem
      have hconfirmed : record.params.currentState = .confirmed :=
        beq_iff_eq.1 (Bool.and_eq_true_iff.1 hrecallable).1
      exact ⟨_, List.mem_append_right _ (List.mem_map_of_mem hrecord),
        stands_memory hclosure hconfirmed⟩
  · have hmem : candidate.key ∈ catalog.recallRows.map RecallRow.key := by
      rw [← hkeysEq]
      exact List.mem_map_of_mem hcandidate
    obtain ⟨row, hrow, hkey⟩ := List.mem_map.1 hmem
    exact ⟨row, (hsame row).2 hrow, hkey⟩

/-- The keys that go into the temporary table. -/
def eligibleKeys (candidates : List Candidate) (request : LocalSearchRequest) : List RecallKey :=
  (candidates.filter (·.isEligible request)).map Candidate.key

section Candidates

variable {candidates : List Candidate}

theorem CandidatesStand.nodup_eligibleKeys (h : CandidatesStand db candidates) :
    (eligibleKeys candidates request).Nodup :=
  h.keys.filter

/-- A row passes the join exactly if its object is eligible. -/
theorem CandidatesStand.mem_eligibleKeys_iff (h : CandidatesStand db candidates)
    {row : RecallRow} (hrow : row ∈ db.recallFts) :
    row.key ∈ eligibleKeys candidates request ↔ ∃ hit, EligibleObject db request row hit := by
  obtain ⟨candidate, hmem, hstands⟩ := h.stands row hrow
  constructor
  · intro heligible
    obtain ⟨other, hother, hkey⟩ := List.mem_map.1 heligible
    obtain ⟨hother, heligible⟩ := List.mem_filter.1 hother
    have hsame : other = candidate := h.keys.eq_of_mem hother hmem (hkey.trans hstands.key.symm)
    subst hsame
    exact ⟨_, hstands.eligibleObject_iff.2 ⟨heligible, rfl⟩⟩
  · rintro ⟨hit, heligible⟩
    rw [← hstands.key]
    exact List.mem_map_of_mem
      (List.mem_filter.2 ⟨hmem, (hstands.eligibleObject_iff.1 heligible).1⟩)

end Candidates

/-! ## The answer of the query -/

omit [Platform] in
theorem RecallKind.asStr_injective : Function.Injective RecallKind.asStr := by
  intro a b h
  cases a <;> cases b <;> first | rfl | exact absurd h (by decide)

section Query

omit [Platform]

variable [Fts5] {phrases : List String} {table : List RecallRow} {eligible : List RecallKey}

/-- Rows of one rank, kind and id are one row of the index. -/
theorem key_eq_of_rankKey_eq {a b : RecallRow}
    (h : rankKey phrases table a = rankKey phrases table b) : a.key = b.key := by
  simp only [rankKey, EmbeddingLike.apply_eq_iff_eq, Prod.mk.injEq] at h
  obtain ⟨-, hkind, hid⟩ := h
  obtain ⟨⟨kind, id⟩, _, _, _⟩ := a
  obtain ⟨⟨kind', id'⟩, _, _, _⟩ := b
  have hkind : kind = kind' := RecallKind.asStr_injective hkind
  have hid : id = id' := by
    cases id
    cases id'
    cases hid
    rfl
  rw [hkind, hid]

/-- A row joins at most once, because the temporary table has a primary key. -/
theorem joined_eq_filter (h : eligible.Nodup) :
    (table.flatMap fun row => if Fts5.matchesAll phrases row then
        (eligible.filter (· == row.key)).map fun _ => row else []) =
      table.filter fun row => Fts5.matchesAll phrases row && eligible.contains row.key := by
  induction table with
  | nil => rfl
  | cons row rest ih =>
    rw [List.flatMap_cons, ih, List.filter_cons, List.filter_beq, h.count]
    cases hmatches : Fts5.matchesAll phrases row with
    | false => simp
    | true =>
      by_cases hmem : row.key ∈ eligible
      · simp [hmem]
      · simp [hmem]

theorem mem_joinedRows_iff (h : eligible.Nodup) {row : RecallRow} :
    row ∈ joinedRows phrases table eligible ↔
      row ∈ table ∧ Fts5.matchesAll phrases row = true ∧ row.key ∈ eligible := by
  rw [joinedRows, List.mem_insertionSort, joined_eq_filter h, List.mem_filter]
  simp

theorem joinedRows_pairwise (h : eligible.Nodup) (htable : UniqueBy RecallRow.key table) :
    (joinedRows phrases table eligible).Pairwise fun a b =>
      rankKey phrases table a < rankKey phrases table b := by
  have hle : (joinedRows phrases table eligible).Pairwise fun a b =>
      rankKey phrases table a ≤ rankKey phrases table b := by
    have htotal : Std.Total fun a b : RecallRow =>
        rankKey phrases table a ≤ rankKey phrases table b := ⟨fun _ _ => le_total _ _⟩
    have htrans : IsTrans RecallRow fun a b =>
        rankKey phrases table a ≤ rankKey phrases table b := ⟨fun _ _ _ => le_trans⟩
    exact List.pairwise_insertionSort _ _
  have hkeys : UniqueBy RecallRow.key (joinedRows phrases table eligible) := by
    rw [UniqueBy, joinedRows, joined_eq_filter h,
      ((List.perm_insertionSort _ _).map RecallRow.key).nodup_iff]
    exact htable.filter
  have hne : (joinedRows phrases table eligible).Pairwise fun a b => a.key ≠ b.key :=
    List.pairwise_map.1 hkeys
  exact (hle.and hne).imp fun h => lt_of_le_of_ne h.1 fun heq => h.2 (key_eq_of_rankKey_eq heq)

end Query

theorem Catalog.hit_eq_ok {catalog : Catalog} (h : CandidatesStand db catalog.candidates)
    {row : RecallRow} (hrow : row ∈ db.recallFts)
    (hkey : row.key ∈ eligibleKeys catalog.candidates request) :
    ∃ hit, catalog.hit row.key = .ok hit ∧ EligibleObject db request row hit := by
  obtain ⟨candidate, hmem, hstands⟩ := h.stands row hrow
  obtain ⟨hit, heligible⟩ := (h.mem_eligibleKeys_iff hrow).1 hkey
  have hlookup : lookup Candidate.key catalog.candidates row.key = some candidate := by
    rw [← hstands.key]
    exact lookup_of_mem h.keys hmem
  refine ⟨hit, ?_, heligible⟩
  rw [Catalog.hit, hlookup, ← (hstands.eligibleObject_iff.1 heligible).2]
  rfl

/-- Every row of the answer has its hit. -/
theorem exists_hits {catalog : Catalog} (h : CandidatesStand db catalog.candidates)
    {rows : List RecallRow} (hrows : ∀ row ∈ rows,
      row ∈ db.recallFts ∧ row.key ∈ eligibleKeys catalog.candidates request) :
    ∃ hits, List.Forall₂ (fun key hit => catalog.hit key = .ok hit) (rows.map RecallRow.key)
      hits ∧ List.Forall₂ (EligibleObject db request) rows hits := by
  induction rows with
  | nil => exact ⟨[], .nil, .nil⟩
  | cons row rest ih =>
    obtain ⟨hits, hloaded, heligible⟩ := ih fun r hr => hrows r (List.mem_cons_of_mem _ hr)
    obtain ⟨hrow, hkey⟩ := hrows row List.mem_cons_self
    obtain ⟨hit, hhit, hobject⟩ := Catalog.hit_eq_ok h hrow hkey
    exact ⟨hit :: hits, .cons hhit hloaded, .cons hobject heligible⟩

/-! ## One search -/

namespace SearchConnection

open Method

section Table

omit [Platform]

theorem opened_db (db : Database) : (opened db).db = db := rfl

variable {connection : SearchConnection}

theorem outcome_insertAllSearchEligible {keys inserted : List RecallKey}
    (h : connection.searchEligible = some inserted) (hnodup : (inserted ++ keys).Nodup) :
    (insertAllSearchEligible keys).outcome connection =
      (.ok (), { connection with searchEligible := some (inserted ++ keys) }) := by
  induction keys generalizing inserted connection with
  | nil =>
    rw [insertAllSearchEligible, outcome_pure, List.append_nil, ← h]
  | cons key rest ih =>
    have hfresh : key ∉ inserted := fun hmem =>
      (List.nodup_append.1 hnodup).2.2 key hmem key List.mem_cons_self rfl
    have hinsert : (insertSearchEligible key).outcome connection =
        (.ok (), { connection with searchEligible := some (inserted ++ [key]) }) := by
      rw [insertSearchEligible, outcome_ofOutcome, h]
      exact if_neg hfresh
    rw [insertAllSearchEligible, outcome_bind, hinsert]
    have hrest : (insertAllSearchEligible rest).outcome
        { connection with searchEligible := some (inserted ++ [key]) } =
          (.ok (), { connection with searchEligible := some (inserted ++ [key] ++ rest) }) :=
      ih rfl (by rwa [List.append_assoc, List.singleton_append])
    rw [List.append_assoc, List.singleton_append] at hrest
    exact hrest

theorem outcome_populateSearchEligibility {keys : List RecallKey} (h : keys.Nodup) :
    (populateSearchEligibility keys).outcome connection =
      (.ok (), { connection with searchEligible := some keys }) := by
  have hinsert : (insertAllSearchEligible keys).outcome
      { connection with searchEligible := some [] } =
        (.ok (), { connection with searchEligible := some ([] ++ keys) }) :=
    outcome_insertAllSearchEligible rfl (by rwa [List.nil_append])
  rw [populateSearchEligibility, outcome_bind, createSearchEligible, outcome_modify]
  exact hinsert

end Table

variable [Fts5] {connection : SearchConnection}

/-- What a search over a verified library does, whatever its temporary table held. -/
theorem outcome_search {catalog : Catalog}
    (hload : Catalog.loadWith loadSourceArtifact connection.db = .ok catalog)
    (hverify : verifyCatalog connection.db catalog = .ok ()) (queryFails : Bool) :
    (search queryFails request).outcome connection =
      if (eligibleKeys catalog.candidates request).isEmpty then (.ok [], connection)
      else (if queryFails then .error searchError
        else firstHits catalog request.topK
          ((joinedRows (splitWhitespace request.query.asStr) connection.db.recallFts
            (eligibleKeys catalog.candidates request)).map RecallRow.key),
        { connection with searchEligible := some [] }) := by
  have hnodup : (eligibleKeys catalog.candidates request).Nodup :=
    (candidatesStand hload hverify).nodup_eligibleKeys
  rw [search, searchWithSources, outcome_bind, outcome_get]
  dsimp only
  rw [outcome_bind, outcome_ofExcept, hload]
  dsimp only
  rw [outcome_bind, outcome_ofExcept, hverify]
  change (if (eligibleKeys catalog.candidates request).isEmpty then _ else _ :
    Method SearchConnection SqliteError (List LocalSearchHit)).outcome connection = _
  cases hempty : (eligibleKeys catalog.candidates request).isEmpty with
  | true => rfl
  | false =>
    rw [if_neg Bool.false_ne_true, if_neg Bool.false_ne_true]
    change (populateSearchEligibility (eligibleKeys catalog.candidates request) >>= _ :
      Method SearchConnection SqliteError (List LocalSearchHit)).outcome connection = _
    rw [outcome_bind, outcome_populateSearchEligibility hnodup]
    dsimp only
    rw [outcome_bind, outcome_attempt, selectMatches, outcome_ofOutcome,
      phrasesOf_ftsExpression]
    cases queryFails with
    | true => rfl
    | false => rfl

/-- A search that cannot verify the library changes nothing. -/
theorem outcome_search_error
    (h : ∀ catalog, Catalog.loadWith loadSourceArtifact connection.db = .ok catalog →
      verifyCatalog connection.db catalog ≠ .ok ()) (queryFails : Bool) :
    ((search queryFails request).outcome connection).2 = connection := by
  rw [search, searchWithSources, outcome_bind, outcome_get]
  dsimp only
  rw [outcome_bind, outcome_ofExcept]
  cases hload : Catalog.loadWith loadSourceArtifact connection.db with
  | error e => rfl
  | ok catalog =>
    dsimp only
    rw [outcome_bind, outcome_ofExcept]
    cases hverify : verifyCatalog connection.db catalog with
    | error e => rfl
    | ok u => exact absurd hverify (h catalog hload)

/-- A search leaves the library as it is, and an empty temporary table empty. -/
theorem search_keeps (queryFails : Bool) (request : LocalSearchRequest) :
    ((search queryFails request).outcome connection).2.db = connection.db ∧
      (connection.eligibilityEmpty →
        ((search queryFails request).outcome connection).2.eligibilityEmpty) := by
  by_cases hverified : ∃ catalog, Catalog.loadWith loadSourceArtifact connection.db = .ok catalog ∧
      verifyCatalog connection.db catalog = .ok ()
  · obtain ⟨catalog, hload, hverify⟩ := hverified
    rw [outcome_search hload hverify]
    split
    · exact ⟨rfl, id⟩
    · exact ⟨rfl, fun _ => .inr rfl⟩
  · rw [outcome_search_error fun catalog hload hverify => hverified ⟨catalog, hload, hverify⟩]
    exact ⟨rfl, id⟩

/-- The connections of a program: opened on some library, then any changes of the library, by
whomever, and any searches on the connection. -/
inductive Reachable : SearchConnection → Prop
  | opened (db : Database) : Reachable (SearchConnection.opened db)
  | changed {connection : SearchConnection} (db : Database) (h : Reachable connection) :
      Reachable { connection with db := db }
  | searched {connection : SearchConnection} (queryFails : Bool) (request : LocalSearchRequest)
      (h : Reachable connection) :
      Reachable ((search queryFails request).outcome connection).2

theorem Reachable.eligibilityEmpty (h : Reachable connection) : connection.eligibilityEmpty := by
  induction h with
  | opened db => exact .inl rfl
  | changed db _ ih => exact ih
  | searched queryFails request _ ih => exact (search_keeps queryFails request).2 ih

end SearchConnection

/-! ## The best eligible matches -/

/-- The whitespace-separated terms of the query. -/
def LocalSearchRequest.terms (request : LocalSearchRequest) : List String :=
  splitWhitespace request.query.asStr

omit [Platform] in
/-- In the engine's sense of MATCH, the row matches every term of the query. -/
def MatchesEveryTerm [Fts5] (request : LocalSearchRequest) (row : RecallRow) : Prop :=
  Fts5.matchesAll request.terms row = true

omit [Platform] in
theorem matchesEveryTerm_iff [Fts5] {row : RecallRow}
    (h : ∀ term ∈ request.terms, Fts5.hasToken term = true) :
    MatchesEveryTerm request row ↔
      ∀ term ∈ request.terms, Fts5.matchesAll [term] row = true :=
  Fts5.implicitAnd _ _ request.queryHasTerm h

/-- What identifies a hit: its object type and id. -/
def LocalSearchHit.key : LocalSearchHit → RecallKey
  | .sourceFragment fragment => RecallKey.source fragment
  | .memoryRecord record => RecallKey.memory record

theorem EligibleObject.key {row : RecallRow} {hit : LocalSearchHit}
    (h : EligibleObject db request row hit) : hit.key = row.key := by
  cases h with
  | sourceFragment hkind hload =>
    obtain ⟨hactive, -⟩ := loadResolvedFragmentWith_eq_ok hload
    have hid := lookup_key (activeFragmentRow_eq_some_iff.1 hactive).1
    exact congrArg₂ RecallKey.mk hkind.symm hid
  | memoryRecord hkind hload =>
    obtain ⟨-, -, -, -, hid, -⟩ := loadMemoryRecordClosureWith_rows hload
    exact congrArg₂ RecallKey.mk hkind.symm hid

/-- A full-text row that matches the query and names an eligible object. -/
def EligibleMatch [Fts5] (db : Database) (request : LocalSearchRequest) (row : RecallRow) : Prop :=
  row ∈ db.recallFts ∧ MatchesEveryTerm request row ∧ ∃ hit, EligibleObject db request row hit

/-- The hits are the objects of the first `topK` of exactly the eligible matches, in rank order. -/
def BestMatches [Fts5] (db : Database) (request : LocalSearchRequest)
    (hits : List LocalSearchHit) : Prop :=
  ∃ rows : List RecallRow,
    (∀ row, row ∈ rows ↔ EligibleMatch db request row) ∧
    rows.Pairwise (fun a b => rankKey request.terms db.recallFts a <
      rankKey request.terms db.recallFts b) ∧
    List.Forall₂ (EligibleObject db request) (rows.take request.topK) hits

theorem forall₂_key {rows : List RecallRow} {hits : List LocalSearchHit}
    (h : List.Forall₂ (EligibleObject db request) rows hits) :
    hits.map LocalSearchHit.key = rows.map RecallRow.key := by
  induction h with
  | nil => rfl
  | cons hobject _ ih => rw [List.map_cons, List.map_cons, hobject.key, ih]

section BestMatches

variable [Fts5]

theorem BestMatches.nodup {hits : List LocalSearchHit} (h : BestMatches db request hits)
    (hunique : UniqueBy RecallRow.key db.recallFts) : (hits.map LocalSearchHit.key).Nodup := by
  obtain ⟨rows, hrows, hsorted, hhits⟩ := h
  rw [forall₂_key hhits]
  have hsub := List.take_sublist request.topK rows
  refine List.pairwise_map.2 ((hsorted.sublist hsub).imp_of_mem ?_)
  intro a b ha hb hlt hkey
  have hsame : a = b := hunique.eq_of_mem ((hrows a).1 (hsub.subset ha)).1
    ((hrows b).1 (hsub.subset hb)).1 hkey
  exact lt_irrefl _ (hsame ▸ hlt)

/-- The rows that the join lets through are the rows of the best matches. -/
theorem exists_bestMatches {catalog : Catalog} (h : CandidatesStand db catalog.candidates) :
    ∃ hits, SearchConnection.firstHits catalog request.topK ((joinedRows request.terms
        db.recallFts (eligibleKeys catalog.candidates request)).map RecallRow.key) = .ok hits ∧
      BestMatches db request hits := by
  have hnodup : (eligibleKeys catalog.candidates request).Nodup := h.nodup_eligibleKeys
  let rows := joinedRows request.terms db.recallFts (eligibleKeys catalog.candidates request)
  have hmem : ∀ row ∈ rows,
      row ∈ db.recallFts ∧ row.key ∈ eligibleKeys catalog.candidates request := by
    intro row hrow
    obtain ⟨hrow, -, hkey⟩ := (mem_joinedRows_iff hnodup).1 hrow
    exact ⟨hrow, hkey⟩
  obtain ⟨hits, hloaded, heligible⟩ :=
    exists_hits h fun row hrow => hmem row (List.mem_of_mem_take hrow)
  refine ⟨hits, ?_, rows, fun row => ?_, joinedRows_pairwise hnodup h.rows, heligible⟩
  · rw [SearchConnection.firstHits, List.mapM_eq_ok_iff, ← List.map_take]
    exact hloaded
  · rw [mem_joinedRows_iff hnodup]
    constructor
    · rintro ⟨hrow, hmatches, hkey⟩
      exact ⟨hrow, hmatches, (h.mem_eligibleKeys_iff hrow).1 hkey⟩
    · rintro ⟨hrow, hmatches, heligible⟩
      exact ⟨hrow, hmatches, (h.mem_eligibleKeys_iff hrow).2 heligible⟩

/-- With no eligible object at all there is nothing to find. -/
theorem bestMatches_nil {candidates : List Candidate} (h : CandidatesStand db candidates)
    (hempty : eligibleKeys candidates request = []) : BestMatches db request [] := by
  refine ⟨[], fun row => ⟨fun hrow => (List.not_mem_nil hrow).elim, ?_⟩, .nil, ?_⟩
  · rintro ⟨hrow, -, heligible⟩
    have hkey := (h.mem_eligibleKeys_iff hrow).2 heligible
    rw [hempty] at hkey
    exact (List.not_mem_nil hkey).elim
  · rw [List.take_nil]
    exact .nil

namespace SearchConnection

open Method

variable {connection : SearchConnection}

/-- Over a verified library only the engine makes a search fail. -/
theorem search_result (hverified : verifyDerivedIndex connection.db = .ok ())
    (queryFails : Bool) (request : LocalSearchRequest) :
    (∃ hits, ((search queryFails request).outcome connection).1 = .ok hits ∧
      BestMatches connection.db request hits) ∨
    queryFails = true ∧
      ((search queryFails request).outcome connection).1 = .error searchError := by
  rw [verifyDerivedIndex, Except.bind_eq_ok_iff] at hverified
  obtain ⟨catalog, hload, hverify⟩ := hverified
  have hstand := candidatesStand hload hverify
  rw [outcome_search hload hverify]
  cases hempty : (eligibleKeys catalog.candidates request).isEmpty with
  | true => exact .inl ⟨[], rfl, bestMatches_nil hstand (List.isEmpty_iff.1 hempty)⟩
  | false =>
    cases queryFails with
    | true => exact .inr ⟨rfl, rfl⟩
    | false => exact .inl (exists_bestMatches hstand)

theorem bestMatches_of_search {queryFails : Bool}
    {hits : List LocalSearchHit} (hverified : verifyDerivedIndex connection.db = .ok ())
    (h : ((search queryFails request).outcome connection).1 = .ok hits) :
    BestMatches connection.db request hits := by
  rcases search_result hverified queryFails request with
    ⟨found, hok, hbest⟩ | ⟨-, herror⟩
  · rw [h, Except.ok.injEq] at hok
    rwa [hok]
  · rw [h] at herror
    cases herror

end SearchConnection

end BestMatches

end Library

section Run

open Sample SearchSample

end Run

end RadishMemory
