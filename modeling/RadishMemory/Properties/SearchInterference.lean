import RadishMemory.Properties.ReadBack
import RadishMemory.Properties.Search

/-!
# What other objects can do to a search

Two libraries with the same eligible objects give the same eligible matches to a request.  The rank
of a match is a function of the whole index, though, and the index is one for all namespaces and
sensitivities: objects that the request may not see can change the order of the hits, and which of
them are among the first (`hidden_file_changes_the_best_match`).  That is all they can do
(`interference_is_only_of_rank`).
-/

namespace RadishMemory

section Library

variable [Platform] {db db' : Database} {request : LocalSearchRequest}

/-- The libraries have the same eligible objects, under equal full-text rows. -/
def SameEligible (db db' : Database) (request : LocalSearchRequest) : Prop :=
  ∀ row hit, row ∈ db.recallFts ∧ EligibleObject db request row hit ↔
    row ∈ db'.recallFts ∧ EligibleObject db' request row hit

/-- Search does not tell the libraries apart. -/
def SearchAlike [Fts5] (db db' : Database) (request : LocalSearchRequest) : Prop :=
  verifyDerivedIndex db = .ok () → verifyDerivedIndex db' = .ok () →
    SameEligible db db' request →
      ((SearchConnection.search false request).outcome (.opened db)).1 =
        ((SearchConnection.search false request).outcome (.opened db')).1

/-- Both indexes rank the eligible matches of the first library in the same way. -/
def RankAlike [Fts5] (db db' : Database) (request : LocalSearchRequest) : Prop :=
  ∀ a b, EligibleMatch db request a → EligibleMatch db request b →
    (Fts5.bm25 request.terms db.recallFts a ≤ Fts5.bm25 request.terms db.recallFts b ↔
      Fts5.bm25 request.terms db'.recallFts a ≤ Fts5.bm25 request.terms db'.recallFts b)

/-! ## The objects are the same -/

theorem EligibleObject.unique {row : RecallRow} {hit hit' : LocalSearchHit}
    (h : EligibleObject db request row hit) (h' : EligibleObject db request row hit') :
    hit = hit' := by
  cases h with
  | sourceFragment hkind hload =>
    cases h' with
    | sourceFragment hkind' hload' =>
      cases hload.symm.trans hload'
      rfl
    | memoryRecord hkind' => cases hkind.symm.trans hkind'
  | memoryRecord hkind hload =>
    cases h' with
    | sourceFragment hkind' => cases hkind.symm.trans hkind'
    | memoryRecord hkind' hload' =>
      cases hload.symm.trans hload'
      rfl

theorem forall₂_unique {rows : List RecallRow} {hits hits' : List LocalSearchHit}
    (h : List.Forall₂ (EligibleObject db request) rows hits)
    (h' : List.Forall₂ (EligibleObject db request) rows hits') : hits = hits' := by
  induction h generalizing hits' with
  | nil =>
    cases h'
    rfl
  | cons hobject _ ih =>
    cases h' with
    | cons hobject' hrest' => rw [hobject.unique hobject', ih hrest']

theorem forall₂_of_mem {R S : RecallRow → LocalSearchHit → Prop} {rows : List RecallRow}
    {hits : List LocalSearchHit} (h : List.Forall₂ R rows hits)
    (hS : ∀ row hit, row ∈ rows → R row hit → S row hit) : List.Forall₂ S rows hits := by
  induction h with
  | nil => exact .nil
  | cons hfirst _ ih =>
    exact .cons (hS _ _ List.mem_cons_self hfirst)
      (ih fun row hit hrow => hS row hit (List.mem_cons_of_mem _ hrow))

section Ranked

variable [Fts5] {rows rows' : List RecallRow}

theorem SameEligible.eligibleMatch_iff (h : SameEligible db db' request) {row : RecallRow} :
    EligibleMatch db request row ↔ EligibleMatch db' request row := by
  constructor
  · rintro ⟨hrow, hmatches, hit, heligible⟩
    obtain ⟨hrow', heligible'⟩ := (h row hit).1 ⟨hrow, heligible⟩
    exact ⟨hrow', hmatches, hit, heligible'⟩
  · rintro ⟨hrow, hmatches, hit, heligible⟩
    obtain ⟨hrow', heligible'⟩ := (h row hit).2 ⟨hrow, heligible⟩
    exact ⟨hrow', hmatches, hit, heligible'⟩

omit [Platform] in
theorem nodup_of_ranked {terms : List String} {table : List RecallRow}
    (h : rows.Pairwise fun a b => rankKey terms table a < rankKey terms table b) : rows.Nodup := by
  refine h.imp fun {a b} hlt heq => ?_
  subst heq
  exact lt_irrefl _ hlt

/-- The order of the answer depends on the ranks and on nothing else of the table. -/
theorem RankAlike.rankKey_lt (h : RankAlike db db' request) {a b : RecallRow}
    (ha : EligibleMatch db request a) (hb : EligibleMatch db request b)
    (hlt : rankKey request.terms db'.recallFts a < rankKey request.terms db'.recallFts b) :
    rankKey request.terms db.recallFts a < rankKey request.terms db.recallFts b := by
  have hab := h a b ha hb
  have hba := h b a hb ha
  rw [rankKey, rankKey, Prod.Lex.toLex_lt_toLex] at hlt ⊢
  rcases hlt with hlt | ⟨heq, hlt⟩
  · refine .inl (lt_of_not_ge fun hle => ?_)
    exact absurd (hba.1 hle) (not_le.2 hlt)
  · exact .inr ⟨le_antisymm (hab.2 heq.le) (hba.2 heq.ge), hlt⟩

/-- Lists of the eligible matches that are ordered alike are equal. -/
theorem RankAlike.rows_eq (h : RankAlike db db' request) (hperm : rows.Perm rows')
    (hrows : ∀ row ∈ rows, EligibleMatch db request row)
    (hsorted : rows.Pairwise fun a b =>
      rankKey request.terms db.recallFts a < rankKey request.terms db.recallFts b)
    (hsorted' : rows'.Pairwise fun a b =>
      rankKey request.terms db'.recallFts a < rankKey request.terms db'.recallFts b) :
    rows = rows' := by
  have hranked : rows'.Pairwise fun a b =>
      rankKey request.terms db.recallFts a < rankKey request.terms db.recallFts b :=
    hsorted'.imp_of_mem fun ha hb hlt =>
      h.rankKey_lt (hrows _ (hperm.mem_iff.2 ha)) (hrows _ (hperm.mem_iff.2 hb)) hlt
  exact hperm.eq_of_pairwise (fun a b _ _ hab hba => absurd hba (lt_asymm hab)) hsorted hranked

/-- Two searches for the same eligible objects differ in nothing but the rank. -/
theorem interference_is_only_of_rank {connection connection' : SearchConnection}
    (hverified : verifyDerivedIndex connection.db = .ok ())
    (hverified' : verifyDerivedIndex connection'.db = .ok ())
    (hsame : SameEligible connection.db connection'.db request) {queryFails queryFails' : Bool}
    {hits hits' : List LocalSearchHit}
    (h : ((SearchConnection.search queryFails request).outcome connection).1 = .ok hits)
    (h' : ((SearchConnection.search queryFails' request).outcome connection').1 = .ok hits') :
    ∃ rows rows' : List RecallRow, rows.Perm rows' ∧
      (∀ row, row ∈ rows ↔ EligibleMatch connection.db request row) ∧
      rows.Pairwise (fun a b => rankKey request.terms connection.db.recallFts a <
        rankKey request.terms connection.db.recallFts b) ∧
      rows'.Pairwise (fun a b => rankKey request.terms connection'.db.recallFts a <
        rankKey request.terms connection'.db.recallFts b) ∧
      List.Forall₂ (EligibleObject connection.db request) (rows.take request.topK) hits ∧
      List.Forall₂ (EligibleObject connection.db request) (rows'.take request.topK) hits' ∧
      (RankAlike connection.db connection'.db request → hits = hits') ∧
      (rows.length ≤ request.topK → hits.Perm hits') := by
  obtain ⟨rows, hrows, hsorted, hhits⟩ := SearchConnection.bestMatches_of_search hverified h
  obtain ⟨rows', hrows', hsorted', hhits'⟩ := SearchConnection.bestMatches_of_search hverified' h'
  have hperm : rows.Perm rows' := by
    refine (List.perm_ext_iff_of_nodup (nodup_of_ranked hsorted) (nodup_of_ranked hsorted')).2
      fun row => ?_
    rw [hrows, hrows', hsame.eligibleMatch_iff]
  have hobjects : List.Forall₂ (EligibleObject connection.db request) (rows'.take request.topK)
      hits' := by
    refine forall₂_of_mem hhits' fun row hit hrow heligible => ?_
    have hmatch := (hrows' row).1 (List.mem_of_mem_take hrow)
    exact ((hsame row hit).2 ⟨hmatch.1, heligible⟩).2
  refine ⟨rows, rows', hperm, hrows, hsorted, hsorted', hhits, hobjects, fun halike => ?_,
    fun hlength => ?_⟩
  · have heq := halike.rows_eq hperm (fun row hrow => (hrows row).1 hrow) hsorted hsorted'
    rw [← heq] at hobjects
    exact forall₂_unique hhits hobjects
  · rw [List.take_of_length_le hlength] at hhits
    rw [List.take_of_length_le (hperm.length_eq ▸ hlength)] at hobjects
    obtain ⟨hits₂, hhits₂, hperm₂⟩ := List.perm_comp_forall₂ hperm hobjects
    rw [forall₂_unique hhits hhits₂]
    exact hperm₂

/-- A request for one hit gets the match that ranks before all others. -/
theorem BestMatches.first {hits : List LocalSearchHit} (h : BestMatches db request hits)
    (htop : request.topK = 1) {row : RecallRow} (hmatch : EligibleMatch db request row)
    (hbest : ∀ other, EligibleMatch db request other → other ≠ row →
      rankKey request.terms db.recallFts row < rankKey request.terms db.recallFts other) :
    hits.map LocalSearchHit.key = [row.key] := by
  obtain ⟨rows, hrows, hsorted, hhits⟩ := h
  rw [forall₂_key hhits, htop]
  have hmem := (hrows row).2 hmatch
  cases rows with
  | nil => exact (List.not_mem_nil hmem).elim
  | cons first rest =>
    have hfirst : first = row := by
      by_contra hne
      have hlater : row ∈ rest := (List.mem_cons.1 hmem).resolve_left fun heq => hne heq.symm
      have hlt := hbest first ((hrows first).1 List.mem_cons_self) hne
      exact absurd hlt (lt_asymm ((List.pairwise_cons.1 hsorted).1 row hlater))
    rw [hfirst]
    rfl

end Ranked

end Library

/-! ## A hidden file that changes the best match -/

section Run

open Sample SearchSample

theorem stands_in_small {resolved : ResolvedSource} (h : resolved ∈ [once, twice]) :
    Stands small (RecallRow.ofFragment resolved.fragment) (Candidate.source resolved) := by
  refine .source (loadResolvedSourceFragment_eq_ok_iff.2 ?_)
  simp only [List.mem_cons, List.not_mem_nil, or_false] at h
  rcases h with rfl | rfl
  · exact ⟨rfl, rfl, loadSourceArtifact_eq_ok_iff.2 ⟨⟨rfl, rfl, rfl, by decide⟩, rfl, rfl, rfl⟩,
      by decide +kernel⟩
  · exact ⟨rfl, rfl, loadSourceArtifact_eq_ok_iff.2 ⟨⟨rfl, rfl, rfl, by decide⟩, rfl, rfl, rfl⟩,
      by decide +kernel⟩

theorem stands_in_large {resolved : ResolvedSource} (h : resolved ∈ [once, twice, elsewhere]) :
    Stands large (RecallRow.ofFragment resolved.fragment) (Candidate.source resolved) := by
  refine .source (loadResolvedSourceFragment_eq_ok_iff.2 ?_)
  simp only [List.mem_cons, List.not_mem_nil, or_false] at h
  rcases h with rfl | rfl | rfl
  · exact ⟨rfl, rfl, loadSourceArtifact_eq_ok_iff.2 ⟨⟨rfl, rfl, rfl, by decide⟩, rfl, rfl, rfl⟩,
      by decide +kernel⟩
  · exact ⟨rfl, rfl, loadSourceArtifact_eq_ok_iff.2 ⟨⟨rfl, rfl, rfl, by decide⟩, rfl, rfl, rfl⟩,
      by decide +kernel⟩
  · exact ⟨rfl, rfl, loadSourceArtifact_eq_ok_iff.2 ⟨⟨rfl, rfl, rfl, by decide⟩, rfl, rfl, rfl⟩,
      by decide +kernel⟩

theorem elsewhere_not_eligible : (Candidate.source elsewhere).isEligible firstEmber = false := by
  decide +kernel

/-- Both libraries have the two files and nothing else for the request. -/
theorem eligible_in_small {row : RecallRow} {hit : LocalSearchHit} :
    row ∈ small.recallFts ∧ EligibleObject small firstEmber row hit ↔
      ∃ resolved ∈ [once, twice], row = RecallRow.ofFragment resolved.fragment ∧
        (Candidate.source resolved).isEligible firstEmber = true ∧
        (Candidate.source resolved).hit = hit := by
  constructor
  · rintro ⟨hrow, heligible⟩
    obtain ⟨resolved, hmem, rfl⟩ := List.mem_map.1 hrow
    exact ⟨resolved, hmem, rfl, (stands_in_small hmem).eligibleObject_iff.1 heligible⟩
  · rintro ⟨resolved, hmem, rfl, heligible⟩
    exact ⟨List.mem_map_of_mem hmem, (stands_in_small hmem).eligibleObject_iff.2 heligible⟩

theorem eligible_in_large {row : RecallRow} {hit : LocalSearchHit} :
    row ∈ large.recallFts ∧ EligibleObject large firstEmber row hit ↔
      ∃ resolved ∈ [once, twice], row = RecallRow.ofFragment resolved.fragment ∧
        (Candidate.source resolved).isEligible firstEmber = true ∧
        (Candidate.source resolved).hit = hit := by
  constructor
  · rintro ⟨hrow, heligible⟩
    obtain ⟨resolved, hmem, rfl⟩ := List.mem_map.1 hrow
    obtain ⟨hadmitted, hhit⟩ := (stands_in_large hmem).eligibleObject_iff.1 heligible
    refine ⟨resolved, ?_, rfl, hadmitted, hhit⟩
    rcases List.mem_cons.1 hmem with rfl | hmem
    · exact List.mem_cons_self
    · rcases List.mem_cons.1 hmem with rfl | hmem
      · exact List.mem_cons_of_mem _ List.mem_cons_self
      · rw [List.mem_singleton.1 hmem, elsewhere_not_eligible] at hadmitted
        cases hadmitted
  · rintro ⟨resolved, hmem, rfl, heligible⟩
    have hmem : resolved ∈ [once, twice, elsewhere] := List.mem_append_left [elsewhere] hmem
    exact ⟨List.mem_map_of_mem hmem, (stands_in_large hmem).eligibleObject_iff.2 heligible⟩

theorem same_eligible : SameEligible small large firstEmber := fun _ _ =>
  eligible_in_small.trans eligible_in_large.symm

theorem opened_small : verifyDerivedIndex (SearchConnection.opened small).db = .ok () := by
  rw [SearchConnection.opened_db, small_verified]

theorem opened_large : verifyDerivedIndex (SearchConnection.opened large).db = .ok () := by
  rw [SearchConnection.opened_db, large_verified]

/-- The two libraries give the same hit unless their indexes rank the two files differently. -/
theorem interference_is_only_of_rank_of_two_files :
    ∃ hits hits', ((SearchConnection.search false firstEmber).outcome (.opened small)).1 =
        .ok hits ∧
      ((SearchConnection.search false firstEmber).outcome (.opened large)).1 = .ok hits' ∧
      (RankAlike small large firstEmber → hits = hits') := by
  rcases SearchConnection.search_result opened_small false firstEmber with
    ⟨hits, hok, -⟩ | ⟨hfails, -⟩
  · rcases SearchConnection.search_result opened_large false firstEmber with
      ⟨hits', hok', -⟩ | ⟨hfails, -⟩
    · obtain ⟨-, -, -, -, -, -, -, -, halike, -⟩ :=
        interference_is_only_of_rank opened_small opened_large same_eligible hok hok'
      exact ⟨hits, hits', hok, hok', halike⟩
    · cases hfails
  · cases hfails

/-! ### The ranks -/

def onceRow : RecallRow :=
  RecallRow.ofFragment once.fragment

def twiceRow : RecallRow :=
  RecallRow.ofFragment twice.fragment

/-- The rank of a row for the one term of the request. -/
theorem bm25_ember (table : List RecallRow) (row : RecallRow) :
    Fts5.bm25 firstEmber.terms table row =
      -Bm25.relevance (Bm25.idf table.length (table.countP fun r => 0 < frequency "ember" r))
        (averageLength table) (frequency "ember" row) (SearchSample.length row) := by
  have hterms : firstEmber.terms.filter hasToken = ["ember"] := by decide
  change bm25 firstEmber.terms table row = _
  rw [bm25, hterms, List.map_singleton, List.sum_singleton]

theorem frequency_once : frequency "ember" onceRow = 1 ∧ SearchSample.length onceRow = 1 := by
  decide

theorem frequency_twice : frequency "ember" twiceRow = 2 ∧ SearchSample.length twiceRow = 4 := by
  decide

theorem averageLength_small : averageLength small.recallFts = 5 / 2 := by
  have hsum : (small.recallFts.map SearchSample.length).sum = 5 := by decide
  have hlength : small.recallFts.length = 2 := rfl
  rw [averageLength, hsum, hlength]
  norm_num

theorem averageLength_large : averageLength large.recallFts = 20 / 3 := by
  have hsum : (large.recallFts.map SearchSample.length).sum = 20 := by decide
  have hlength : large.recallFts.length = 3 := rfl
  rw [averageLength, hsum, hlength]
  norm_num

/-- Alone, the short file with one occurrence is the better match. -/
theorem once_before_twice : rankKey firstEmber.terms small.recallFts onceRow <
    rankKey firstEmber.terms small.recallFts twiceRow := by
  refine Prod.Lex.toLex_lt_toLex.2 (.inl ?_)
  rw [bm25_ember, bm25_ember, averageLength_small, frequency_once.1, frequency_once.2,
    frequency_twice.1, frequency_twice.2]
  refine neg_lt_neg ((Bm25.relevance_lt_iff (Bm25.idf_pos _ _) (by norm_num) (by norm_num)
    (by norm_num) (by norm_num) (by norm_num)).2 ?_)
  norm_num [Bm25.b]

/-- Beside a long file the longer of the two is no longer a long one. -/
theorem twice_before_once : rankKey firstEmber.terms large.recallFts twiceRow <
    rankKey firstEmber.terms large.recallFts onceRow := by
  refine Prod.Lex.toLex_lt_toLex.2 (.inl ?_)
  rw [bm25_ember, bm25_ember, averageLength_large, frequency_once.1, frequency_once.2,
    frequency_twice.1, frequency_twice.2]
  refine neg_lt_neg ((Bm25.relevance_lt_iff (Bm25.idf_pos _ _) (by norm_num) (by norm_num)
    (by norm_num) (by norm_num) (by norm_num)).2 ?_)
  norm_num [Bm25.b]

theorem eligibleMatch_small {row : RecallRow} :
    EligibleMatch small firstEmber row ↔ row = onceRow ∨ row = twiceRow := by
  constructor
  · rintro ⟨hrow, -, hit, heligible⟩
    obtain ⟨resolved, hmem, rfl, -⟩ := eligible_in_small.1 ⟨hrow, heligible⟩
    simp only [List.mem_cons, List.not_mem_nil, or_false] at hmem
    rcases hmem with rfl | rfl
    · exact .inl rfl
    · exact .inr rfl
  · rintro (rfl | rfl)
    · have heligible : (Candidate.source once).isEligible firstEmber = true := by decide +kernel
      have hmatches : matchesAll firstEmber.terms onceRow = true := by decide
      obtain ⟨hrow, hobject⟩ := eligible_in_small.2 ⟨once, by simp, rfl, heligible, rfl⟩
      exact ⟨hrow, hmatches, _, hobject⟩
    · have heligible : (Candidate.source twice).isEligible firstEmber = true := by decide +kernel
      have hmatches : matchesAll firstEmber.terms twiceRow = true := by decide
      obtain ⟨hrow, hobject⟩ := eligible_in_small.2 ⟨twice, by simp, rfl, heligible, rfl⟩
      exact ⟨hrow, hmatches, _, hobject⟩

/-- A long file of another namespace, without the word, replaces the best match of the word. -/
theorem hidden_file_changes_the_best_match : ¬ SearchAlike small large firstEmber := by
  intro halike
  have heq := halike small_verified large_verified same_eligible
  rcases SearchConnection.search_result opened_small false firstEmber with
    ⟨hits, hok, hbest⟩ | ⟨hfails, -⟩
  · have hbest' := SearchConnection.bestMatches_of_search opened_large (heq.symm.trans hok)
    rw [SearchConnection.opened_db] at hbest hbest'
    have hfirst : hits.map LocalSearchHit.key = [onceRow.key] := by
      refine hbest.first rfl (eligibleMatch_small.2 (.inl rfl)) fun other hother hne => ?_
      rw [(eligibleMatch_small.1 hother).resolve_left hne]
      exact once_before_twice
    have hfirst' : hits.map LocalSearchHit.key = [twiceRow.key] := by
      refine hbest'.first rfl (same_eligible.eligibleMatch_iff.1
        (eligibleMatch_small.2 (.inr rfl))) fun other hother hne => ?_
      rw [(eligibleMatch_small.1 (same_eligible.eligibleMatch_iff.2 hother)).resolve_right hne]
      exact twice_before_once
    rw [hfirst] at hfirst'
    exact absurd hfirst' (by decide)
  · cases hfails

end Run

end RadishMemory
