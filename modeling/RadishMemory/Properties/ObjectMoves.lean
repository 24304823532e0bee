import RadishMemory.Properties.ObjectEntries

/-!
# What the operations of the encrypted library do to the objects

One lemma for each operation of the database: the entries that it moves, and that `Lifecycle`
holds afterwards.
-/

namespace RadishMemory

open ObjectEntry

namespace VaultDatabase

variable {db db' : VaultDatabase} {namespaceId sourceId : Identifier}

/-- The tables of objects are as they were. -/
structure SameObjects (db db' : VaultDatabase) : Prop where
  version : db.version ≤ db'.version
  attempts : db'.objectAttempts = db.objectAttempts
  references : db'.references = db.references
  deletions : db'.deletions = db.deletions

/-- One entry has moved. -/
structure Moved (db db' : VaultDatabase) (sourceId : Identifier) (e : ObjectEntry) : Prop where
  lifecycle : db'.Lifecycle
  entry : db'.entry = Function.update db.entry sourceId (some e)
  move : Move (db.entry sourceId) (some e)

theorem SameObjects.refl (db : VaultDatabase) : SameObjects db db :=
  ⟨Nat.le_refl _, rfl, rfl, rfl⟩

theorem SameObjects.trans {db'' : VaultDatabase} (h : SameObjects db db')
    (h' : SameObjects db' db'') : SameObjects db db'' :=
  ⟨h.version.trans h'.version, h'.attempts.trans h.attempts, h'.references.trans h.references,
    h'.deletions.trans h.deletions⟩

theorem SameObjects.entry (h : SameObjects db db') : db'.entry = db.entry :=
  entry_congr h.attempts h.deletions

theorem SameObjects.lifecycle (h : SameObjects db db') (hdb : db.Lifecycle) : db'.Lifecycle :=
  hdb.congr h.version h.attempts h.references h.deletions

theorem Lifecycle.sameObjects (library : Database) : SameObjects db { db with library } :=
  ⟨Nat.le_refl _, rfl, rfl, rfl⟩

/-- A reference is that of a committed object. -/
theorem Lifecycle.entry_of_reference (h : db.Lifecycle) {reference : ReferenceRow}
    (hreference : db.referenceOf sourceId = some reference) :
    ∃ row, db.entry sourceId = some ⟨row, none⟩ ∧ row.tokens = some reference.tokens ∧
      (row.phase = .referenced ∨ row.phase = .retired ∨ row.phase = .committed) := by
  have hread := h.references sourceId
  rw [hreference, Option.map_some] at hread
  obtain ⟨⟨row, deletion⟩, he, htokens⟩ := Option.bind_eq_some_iff.1 hread.symm
  unfold ObjectEntry.reference at htokens
  split at htokens
  · rename_i hdeletion hphase
    obtain rfl : deletion = none := hdeletion
    exact ⟨row, he, htokens, .inl hphase⟩
  · rename_i hdeletion hphase
    obtain rfl : deletion = none := hdeletion
    exact ⟨row, he, htokens, .inr (.inl hphase)⟩
  · rename_i hdeletion hphase
    obtain rfl : deletion = none := hdeletion
    exact ⟨row, he, htokens, .inr (.inr hphase)⟩
  · cases htokens

/-! ## Migrations of the schema -/

theorem migrateTo_eq_ok_iff {version : Nat} : db.migrateTo version = .ok db' ↔
    ∃ h, db' = { db with version, attemptsValid := h } := by
  unfold migrateTo
  split
  · rename_i hvalid
    rw [Except.ok.injEq]
    constructor
    · intro heq
      exact ⟨hvalid, heq.symm⟩
    · rintro ⟨_, heq⟩
      exact heq.symm
  · rename_i hinvalid
    constructor
    · intro heq
      cases heq
    · rintro ⟨hvalid, -⟩
      exact absurd hvalid hinvalid

/-- Migrations to later versions, in turn. -/
theorem foldlM_migrateTo {versions : List Nat} (h : versions.foldlM migrateTo db = .ok db')
    (hsorted : versions.Pairwise (· < ·)) (hlater : ∀ version ∈ versions, db.version < version) :
    SameObjects db db' ∧ db'.library = db.library ∧ db'.migration = db.migration ∧
      ∀ version ∈ versions, version ≤ db'.version := by
  induction versions generalizing db with
  | nil =>
    obtain rfl := Except.ok.inj h
    exact ⟨.refl _, rfl, rfl, by simp⟩
  | cons version rest ih =>
    rw [List.foldlM_cons, Except.bind_eq_ok_iff] at h
    obtain ⟨_, hmigrated, hrest⟩ := h
    obtain ⟨hvalid, rfl⟩ := migrateTo_eq_ok_iff.1 hmigrated
    rw [List.pairwise_cons] at hsorted
    obtain ⟨hsame, hlibrary, hmigration, hversions⟩ := ih hrest hsorted.2 hsorted.1
    have hstep : SameObjects db { db with version, attemptsValid := hvalid } :=
      ⟨(hlater version List.mem_cons_self).le, rfl, rfl, rfl⟩
    refine ⟨hstep.trans hsame, hlibrary, hmigration, ?_⟩
    intro other hother
    rcases List.mem_cons.1 hother with rfl | hmem
    · exact hsame.version
    · exact hversions other hmem

theorem applyPending_ok {target : Nat} (h : db.applyPending target = .ok db')
    (htarget : 8 ≤ target ∧ target ≤ 12) :
    SameObjects db db' ∧ db'.library = db.library ∧ db'.migration = db.migration ∧
      target ≤ db'.version := by
  unfold applyPending at h
  obtain ⟨hsame, hlibrary, hmigration, hversions⟩ := foldlM_migrateTo h
    (List.Pairwise.filter _ List.pairwise_lt_range') (by simp_all)
  refine ⟨hsame, hlibrary, hmigration, ?_⟩
  by_cases hversion : db.version < target
  · apply hversions target
    simp only [List.mem_filter, List.mem_range'_1, decide_eq_true_eq]
    exact ⟨⟨htarget.1, by unfold objectMigrationSchemaVersion; omega⟩, hversion, le_rfl⟩
  · have := hsame.version
    omega

theorem initializeCaptureSchema_ok (h : db.initializeCaptureSchema = .ok db') :
    SameObjects db db' := by
  unfold initializeCaptureSchema at h
  split at h
  · exact (applyPending_ok h (by decide)).1
  · obtain rfl := Except.ok.inj h
    exact .refl _

/-! ## Captures -/

/-- A prepared attempt has no deletion. -/
theorem Lifecycle.prepared (h : db.Lifecycle) {e : ObjectEntry}
    (he : db.entry sourceId = some e) (hphase : e.row.phase = .prepared) : e.deletion = none :=
  h.deletion_eq_none he (by simp [hphase])

/-- The reference of a prepared attempt, with a change of its state. -/
theorem reference_moved {tokens : ObjectTokens} {row : ObjectAttemptRow} {phase : AttemptPhase}
    {between : VaultDatabase} {n : Nat} (hdb : db.Lifecycle)
    (hrow : db.attemptOf sourceId = some row) (hprepared : row.phase = .prepared)
    (hphase : phase = .referenced ∨ phase = .committed) (htokens : row.tokens = some tokens)
    (hinsert : db.insertReference { sourceId, tokens } = .ok between)
    (hupdate : between.updateAttempts (·.sourceId == sourceId)
      (fun row => { row with phase }) = .ok (n, db')) :
    db.entry sourceId = some ⟨row, none⟩ ∧ Moved db db' sourceId ⟨{ row with phase }, none⟩ := by
  have hentry : db.entry sourceId =
      some ⟨row, (db.deletionOf sourceId).map ObjectDeletionRow.state⟩ :=
    entry_eq_some_iff.2 ⟨hrow, rfl⟩
  have hdeletion : (db.deletionOf sourceId).map ObjectDeletionRow.state = none :=
    hdb.prepared hentry hprepared
  rw [hdeletion] at hentry
  obtain ⟨hkeys, -, -, rfl⟩ := insertReference_eq_ok_iff.1 hinsert
  have hnew := entry_updateAttempts_one hupdate (fun _ => rfl) (fun _ hsame => by simpa using hsame)
    hentry (by simpa using (entry_row hentry).2)
  obtain ⟨⟨_, rfl⟩, -⟩ := updateAttempts_eq_ok_iff.1 hupdate
  refine ⟨hentry, ?_, hnew, ?_⟩
  · refine hdb.update hnew hdb.early ?_ (fun _ _ => rfl) ?_ (absurd rfl)
    · intro other hother
      exact lookup_append_of_ne (by simpa using fun heq => hother heq.symm)
    · have hfresh : ∀ reference ∈ db.references, reference.sourceId ≠ sourceId := by
        intro reference hreference
        have hunique := hkeys
        unfold UniqueBy at hunique
        rw [List.map_append, List.nodup_append] at hunique
        exact hunique.2.2 _ (List.mem_map_of_mem hreference) _ (by simp)
      have hfound : lookup ReferenceRow.sourceId (db.references ++ [⟨sourceId, tokens⟩]) sourceId =
          some ⟨sourceId, tokens⟩ := lookup_append_singleton hfresh
      unfold referenceOf
      rw [hfound]
      rcases hphase with rfl | rfl
      · exact htokens.symm
      · exact htokens.symm
  · rw [hentry]
    rcases hphase with rfl | rfl
    · exact .referenced hprepared
    · exact .committed hprepared

variable [Platform]

/-- The attempt of a capture gets its tokens, whether it is new or was prepared before. -/
theorem prepareCapture_ok {capture : SourceCapture} {tokens : ObjectTokens}
    (hdb : db.Lifecycle) (h : db.prepareCapture capture tokens = .ok db') :
    ∃ row, captureSchemaVersion ≤ db.version ∧ row.phase = .prepared ∧
      row.tokens = some tokens ∧
      Moved db db' capture.params.source.params.sourceId ⟨row, none⟩ ∧
      (row = captureAttempt capture tokens ∨
        ∃ old, db.entry capture.params.source.params.sourceId = some ⟨old, none⟩ ∧
          old.phase = .prepared ∧ row = { old with tokens := some tokens }) := by
  simp only [prepareCapture, Except.bind_eq_ok_iff, Except.exists_unit_iff,
    require_eq_ok_iff] at h
  obtain ⟨⟨hversion, -⟩, h⟩ := h
  cases hdigest : db.preparedDigest with
  | some existing =>
    simp only [hdigest, Except.bind_eq_ok_iff, Except.exists_unit_iff, require_eq_ok_iff,
      Except.pure_eq_ok_iff, Prod.exists] at h
    obtain ⟨-, n, _, hupdate, rfl, rfl⟩ := h
    obtain ⟨⟨old, deletion⟩, he, hselected, hentry⟩ := entry_updateAttempts_changed hupdate
      (fun _ => rfl) fun row hrow => by simpa using (Bool.and_eq_true_iff.1 hrow).1
    have hphase : old.phase = .prepared := by simpa using (Bool.and_eq_true_iff.1 hselected).2
    obtain rfl : deletion = none := hdb.prepared he hphase
    obtain ⟨⟨_, rfl⟩, -⟩ := updateAttempts_eq_ok_iff.1 hupdate
    have hmove : Move (some ⟨old, none⟩)
        (some ⟨{ old with phase := .prepared, tokens := some tokens }, none⟩) :=
      .prepared tokens (.inr hphase)
    have hrow : ({ old with phase := .prepared, tokens := some tokens } : ObjectAttemptRow) =
        { old with tokens := some tokens } := by
      rw [← hphase]
    rw [hrow] at hmove
    refine ⟨{ old with tokens := some tokens }, hversion, hphase, rfl, ⟨?_, hentry, he ▸ hmove⟩,
      .inr ⟨old, he, hphase, rfl⟩⟩
    refine hdb.updateAttempt hentry (Nat.le_refl _) rfl rfl rfl ?_
    rw [he]
    simp [ObjectEntry.reference, hphase]
  | none =>
    simp only [hdigest, Except.bind_eq_ok_iff] at h
    obtain ⟨-, -, hinsert⟩ := h
    obtain ⟨hnone, ⟨_, rfl⟩, hentry⟩ := entry_insertObjectAttempt hinsert
    have hdeletion := hdb.deletionOf_eq_none hnone
    rw [hdeletion] at hentry
    refine ⟨captureAttempt capture tokens, hversion, rfl, rfl, ⟨?_, hentry, ?_⟩, .inl rfl⟩
    · refine hdb.updateAttempt hentry (Nat.le_refl _) rfl rfl rfl ?_
      rw [hnone]
      rfl
    · rw [show capture.params.source.params.sourceId =
        (captureAttempt capture tokens).sourceId from rfl, hnone]
      exact .captured rfl

theorem commitCapture_ok {capture : SourceCapture} {sources : List SourceArtifact}
    {outcome : SourceCaptureOutcome} (hdb : db.Lifecycle)
    (h : db.commitCapture namespaceId capture sources = .ok (outcome, db')) :
    ∃ row, captureSchemaVersion ≤ db.version ∧
      db.entry capture.params.source.params.sourceId = some ⟨row, none⟩ ∧
      row.phase = .prepared ∧
      Moved db db' capture.params.source.params.sourceId
        ⟨{ row with phase := .committed }, none⟩ := by
  simp only [commitCapture, commitAttempt, Except.bind_eq_ok_iff, Except.exists_unit_iff,
    require_eq_ok_iff, Option.orError_eq_ok_iff, Except.pure_eq_ok_iff, Prod.exists,
    Prod.mk.injEq, Option.filter_eq_some_iff] at h
  obtain ⟨-, _, -, -, row, ⟨hrow, hprepared⟩, -, library, -, _, ⟨tokens, htokens, between, hinsert, n,
    _, hupdate, rfl⟩, -, -, rfl⟩ := h
  have hsame : SameObjects db { db with library } := Lifecycle.sameObjects library
  have hphase : row.phase = .prepared := by simpa using hprepared
  obtain ⟨hentry, hmoved⟩ := reference_moved (hsame.lifecycle hdb) hrow hphase (.inr rfl) htokens
    hinsert hupdate
  rw [hsame.entry] at hentry
  have hversion : captureSchemaVersion ≤ db.version := by
    obtain ⟨hkeys, -, -, rfl⟩ := insertReference_eq_ok_iff.1 hinsert
    obtain ⟨⟨hvalid, rfl⟩, -⟩ := updateAttempts_eq_ok_iff.1 hupdate
    have hchecked := hvalid.checked { row with phase := .committed }
      (mem_updateWhere.2 ⟨row, (attemptOf_eq_some_iff.1 hrow).1, by
        rw [if_pos (by simpa using (attemptOf_eq_some_iff.1 hrow).2)]⟩)
    simp only [ObjectAttemptRow.check, AttemptPhase.allowedAt, Bool.and_eq_true,
      decide_eq_true_eq] at hchecked
    exact hchecked.1.2
  refine ⟨row, hversion, hentry, hphase, hmoved.lifecycle, ?_, ?_⟩
  · rw [hmoved.entry, hsame.entry]
  · rw [← hsame.entry]
    exact hmoved.move

/-! ## Abandonments -/

section Abandonment

variable {target : CaptureAbandonmentTarget} {before after : AttemptPhase}

omit [Platform] in
theorem updateAbandonment_ok (hdb : db.Lifecycle)
    (hbefore : before = .prepared ∨ before = .abandoning)
    (hafter : after = .abandoning ∨ after = .abandoned)
    (h : db.updateAbandonment target before after = .ok db') :
    ∃ row, db.entry target.sourceId = some ⟨row, none⟩ ∧ row.phase = before ∧ db'.Lifecycle ∧
      db'.entry = Function.update db.entry target.sourceId
        (some ⟨{ row with phase := after }, none⟩) := by
  obtain ⟨between, selected, hsame, hselects, hupdate⟩ : ∃ between selected,
      SameObjects db between ∧
      (∀ row : ObjectAttemptRow, selected row = true →
        row.sourceId = target.sourceId ∧ row.phase = before) ∧
      between.updateAttempts selected (fun row => { row with phase := after }) = .ok (1, db') := by
    unfold updateAbandonment at h
    split at h
    · simp only [Except.bind_eq_ok_iff, Except.exists_unit_iff, require_eq_ok_iff,
        Except.pure_eq_ok_iff, Prod.exists] at h
      obtain ⟨between, hschema, n, _, hupdate, rfl, rfl⟩ := h
      exact ⟨between, _, (applyPending_ok hschema (by decide)).1, fun row hrow => by simp_all,
        hupdate⟩
    · simp only [Except.ok_bind, Except.bind_eq_ok_iff, Except.exists_unit_iff, require_eq_ok_iff,
        Except.pure_eq_ok_iff, Prod.exists] at h
      obtain ⟨n, _, hupdate, rfl, rfl⟩ := h
      exact ⟨db, _, .refl _, fun row hrow => by simp_all, hupdate⟩
  obtain ⟨⟨row, deletion⟩, he, hselected, hentry⟩ := entry_updateAttempts_changed hupdate
    (fun _ => rfl) fun row hrow => (hselects row hrow).1
  rw [hsame.entry] at he hentry
  have hphase : row.phase = before := (hselects row hselected).2
  obtain rfl : deletion = none := hdb.deletion_eq_none he (by
    rcases hbefore with rfl | rfl
    · simp [hphase]
    · simp [hphase])
  obtain ⟨⟨_, rfl⟩, -⟩ := updateAttempts_eq_ok_iff.1 hupdate
  refine ⟨row, he, hphase, ?_, hentry⟩
  refine hdb.updateAttempt hentry hsame.version hsame.references hsame.deletions rfl ?_
  rw [he]
  rcases hbefore with rfl | rfl
  · rcases hafter with rfl | rfl
    · simp [ObjectEntry.reference, hphase]
    · simp [ObjectEntry.reference, hphase]
  · rcases hafter with rfl | rfl
    · simp [ObjectEntry.reference, hphase]
    · simp [ObjectEntry.reference, hphase]

/-- A target selects a captured attempt, with its tokens. -/
theorem abandonmentItem_ok {item : CaptureObject}
    (h : db.abandonmentItem namespaceId target = .ok item) :
    ∃ row, db.attemptOf target.sourceId = some row ∧ db.objectOf row = .ok item ∧
      (row.phase = .prepared ∨ row.phase = .abandoning ∨ row.phase = .abandoned) := by
  simp only [abandonmentItem, Except.bind_eq_ok_iff, Except.exists_unit_iff, require_eq_ok_iff,
    Option.orError_eq_ok_iff, Prod.exists, loadAbandonmentTarget, Except.pure_eq_ok_iff,
    Prod.mk.injEq] at h
  obtain ⟨-, -, current, phase, ⟨row, hrow, _, -, _, -, _, -, -, rfl⟩, ⟨-, hphase⟩, items, hitems,
    hitem⟩ := h
  refine ⟨row, hrow, ?_, hphase⟩
  obtain ⟨other, hother, hobject⟩ := List.Forall₂.exists_of_mem_right (List.mapM_eq_ok_iff.1 hitems)
    (List.mem_of_find?_eq_some hitem)
  rw [List.mem_insertionSort] at hother
  have hid : other.sourceId = target.sourceId := by
    have hkey := List.find?_some hitem
    simp only [objectOf, Except.bind_eq_ok_iff, Option.orError_eq_ok_iff,
      Except.pure_eq_ok_iff] at hobject
    obtain ⟨_, -, _, -, rfl⟩ := hobject
    simpa using hkey
  have hsame : db.attemptOf target.sourceId = some other := attemptOf_eq_some_iff.2 ⟨hother, hid⟩
  rw [hrow] at hsame
  rw [Option.some.inj hsame]
  exact hobject

/-- The entry of a target, and the state that its item shows. -/
theorem abandonmentItem_entry {item : CaptureObject} (hdb : db.Lifecycle)
    (h : db.abandonmentItem namespaceId target = .ok item) :
    ∃ row, db.entry target.sourceId = some ⟨row, none⟩ ∧
      (row.phase = .prepared ∧ item.state = .prepared ∨
        row.phase = .abandoning ∧ item.state = .abandoning ∨
        row.phase = .abandoned ∧ item.state = .abandoned) := by
  obtain ⟨row, hrow, hobject, hphase⟩ := abandonmentItem_ok h
  have he : db.entry target.sourceId =
      some ⟨row, (db.deletionOf target.sourceId).map ObjectDeletionRow.state⟩ :=
    entry_eq_some_iff.2 ⟨hrow, rfl⟩
  have hdeletion : (db.deletionOf target.sourceId).map ObjectDeletionRow.state = none :=
    hdb.deletion_eq_none he (by rcases hphase with h | h | h <;> simp [h])
  rw [hdeletion] at he
  refine ⟨row, he, ?_⟩
  simp only [objectOf, Except.bind_eq_ok_iff, Except.pure_eq_ok_iff, hdb.knownDeletion,
    (attemptOf_eq_some_iff.1 hrow).2, hdeletion] at hobject
  obtain ⟨_, -, state, hstate, rfl⟩ := hobject
  rcases hphase with hphase | hphase | hphase
  · rw [hphase] at hstate
    exact .inl ⟨hphase, (Except.ok.inj hstate).symm⟩
  · rw [hphase] at hstate
    exact .inr (.inl ⟨hphase, (Except.ok.inj hstate).symm⟩)
  · rw [hphase] at hstate
    exact .inr (.inr ⟨hphase, (Except.ok.inj hstate).symm⟩)

/-- A transition has been made before, or it is made now. -/
theorem transitionAbandonment_ok {finish changed : Bool} (hdb : db.Lifecycle)
    (h : db.transitionAbandonment namespaceId target finish = .ok (changed, db')) :
    (db' = db ∧ ∃ row, db.entry target.sourceId = some ⟨row, none⟩ ∧
      (row.phase = .abandoning ∨ row.phase = .abandoned)) ∨
    ∃ row, db.entry target.sourceId = some ⟨row, none⟩ ∧
      row.phase = (if finish then .abandoning else .prepared) ∧
      Moved db db' target.sourceId
        ⟨{ row with phase := if finish then .abandoned else .abandoning }, none⟩ := by
  simp only [transitionAbandonment, Except.bind_eq_ok_iff] at h
  obtain ⟨item, hitem, h⟩ := h
  obtain ⟨row, he, hstate⟩ := abandonmentItem_entry hdb hitem
  split at h
  · rename_i hstate'
    refine .inl ⟨(Prod.mk.inj (Except.ok.inj h)).2.symm, row, he, ?_⟩
    rcases hstate with ⟨hphase, hitem⟩ | ⟨hphase, hitem⟩ | ⟨hphase, hitem⟩
    · rw [hitem] at hstate'
      cases hstate'
    · exact .inl hphase
    · exact .inr hphase
  · rename_i hstate'
    refine .inl ⟨(Prod.mk.inj (Except.ok.inj h)).2.symm, row, he, ?_⟩
    rcases hstate with ⟨hphase, hitem⟩ | ⟨hphase, hitem⟩ | ⟨hphase, hitem⟩
    · rw [hitem] at hstate'
      cases hstate'
    · exact .inl hphase
    · exact .inr hphase
  · cases h
  · cases h
  · simp only [Except.bind_eq_ok_iff, Except.pure_eq_ok_iff, Prod.mk.injEq] at h
    obtain ⟨_, hupdate, -, rfl⟩ := h
    obtain ⟨row, he, hphase, hlifecycle, hentry⟩ :=
      updateAbandonment_ok hdb (.inr rfl) (.inr rfl) hupdate
    exact .inr ⟨row, he, hphase, hlifecycle, hentry, he ▸ .abandoned hphase⟩
  · simp only [Except.bind_eq_ok_iff, Except.pure_eq_ok_iff, Prod.mk.injEq] at h
    rename_i hfinish
    obtain ⟨_, hupdate, -, rfl⟩ := h
    obtain ⟨row, he, hphase, hlifecycle, hentry⟩ :=
      updateAbandonment_ok hdb (.inl rfl) (.inl rfl) hupdate
    exact .inr ⟨row, he, hphase, hlifecycle, hentry, he ▸ .abandoning hphase⟩

end Abandonment

/-! ## Deletions -/

section Deletion

variable {deleteRequestId : Identifier}

/-- Deletions of committed objects have begun. -/
structure Began (db db' : VaultDatabase) : Prop where
  lifecycle : db'.Lifecycle
  version : db.version ≤ db'.version
  entry : ∀ sourceId, db'.entry sourceId = db.entry sourceId ∨
    ∃ row, db.entry sourceId = some ⟨row, none⟩ ∧
      (row.phase = .retired ∨ row.phase = .committed) ∧
      db'.entry sourceId = some ⟨row, some .deleting⟩

omit [Platform] in
theorem SameObjects.began (h : SameObjects db db') (hdb : db.Lifecycle) : Began db db' :=
  ⟨h.lifecycle hdb, h.version, fun _ => .inl (by rw [h.entry])⟩

omit [Platform] in
theorem Began.trans {db'' : VaultDatabase} (h : Began db db') (h' : Began db' db'') :
    Began db db'' where
  lifecycle := h'.lifecycle
  version := h.version.trans h'.version
  entry sourceId := by
    rcases h'.entry sourceId with hsame' | ⟨row, hrow, hphase, hentry⟩
    · rw [hsame']
      exact h.entry sourceId
    · right
      rcases h.entry sourceId with hsame | ⟨old, hold, hphase', hentry'⟩
      · exact ⟨row, by rw [← hsame, hrow], hphase, hentry⟩
      · rw [hentry'] at hrow
        cases hrow

omit [Platform] in
theorem beginTarget_ok (hdb : db.Lifecycle) (hversion : objectDeletionSchemaVersion ≤ db.version)
    (h : db.beginTarget deleteRequestId sourceId = .ok db') : Began db db' := by
  simp only [beginTarget, Except.bind_eq_ok_iff, Except.exists_unit_iff, require_eq_ok_iff] at h
  obtain ⟨hremoved, hinsert⟩ := h
  have hcount : 0 < db.references.countP fun row => row.sourceId == sourceId := by
    change db.references.countP (fun row => row.sourceId == sourceId) = 1 at hremoved
    omega
  obtain ⟨reference, hmem, hid⟩ := List.countP_pos_iff.1 hcount
  have hreference : db.referenceOf sourceId = some reference :=
    (lookup_eq_some_iff db.referenceKeys).2 ⟨hmem, by simpa using hid⟩
  obtain ⟨row, he, -, hphase⟩ := hdb.entry_of_reference hreference
  have hfinished : row.phase = .retired ∨ row.phase = .committed := by
    -- `referenced` is a state of the migration, which no longer exists in this version.
    have hchecked := db.attemptsValid.checked row (entry_row he).1
    simp only [ObjectAttemptRow.check, AttemptPhase.allowedAt, Bool.and_eq_true] at hchecked
    rcases hphase with hphase | hphase
    · simp only [hphase, decide_eq_true_eq] at hchecked
      unfold objectDeletionSchemaVersion at hversion
      unfold captureSchemaVersion at hchecked
      omega
    · exact hphase
  have hnone : db.deletionOf sourceId = none :=
    Option.map_eq_none_iff.1 (entry_eq_some_iff.1 he).2.symm
  obtain ⟨hkeys, -, -, rfl⟩ := insertObjectDeletion_eq_ok_iff.1 hinsert
  let deletion : ObjectDeletionRow := ⟨sourceId, deleteRequestId, .deleting⟩
  have hdeletion : lookup ObjectDeletionRow.sourceId (db.deletions ++ [deletion]) sourceId =
      some deletion := lookup_append_singleton (lookup_eq_none_iff.1 hnone)
  have hothers : ∀ other, other ≠ sourceId →
      lookup ObjectDeletionRow.sourceId (db.deletions ++ [deletion]) other = db.deletionOf other :=
    fun other hother => lookup_append_of_ne (by simpa [deletion] using fun heq => hother heq.symm)
  have hentry : ∀ other, entry { db with
      references := deleteWhere (fun row => row.sourceId == sourceId) db.references
      referenceKeys := db.referenceKeys.deleteWhere
      deletions := db.deletions ++ [deletion]
      deletionKeys := hkeys } other =
      Function.update db.entry sourceId (some ⟨row, some .deleting⟩) other := by
    intro other
    by_cases hsame : other = sourceId
    · subst hsame
      rw [Function.update_self]
      exact entry_eq_some_iff.2 ⟨(entry_eq_some_iff.1 he).1, by rw [deletionOf, hdeletion]; rfl⟩
    · rw [Function.update_of_ne hsame]
      unfold entry
      rw [deletionOf, hothers other hsame]
      rfl
  refine ⟨hdb.update (funext hentry) (fun hlt => absurd hversion (Nat.not_le.2 hlt)) ?_ hothers ?_
    (fun _ => hfinished), le_rfl, ?_⟩
  · intro other hother
    exact lookup_filter fun r _ hr => by simpa [hr] using hother
  · have hgone : lookup ReferenceRow.sourceId
        (deleteWhere (fun row => row.sourceId == sourceId) db.references) sourceId = none := by
      rw [lookup_eq_none_iff]
      intro r hr
      simpa using (mem_deleteWhere.1 hr).2
    exact Option.map_eq_none_iff.2 hgone
  · intro other
    have hother := hentry other
    by_cases hsame : other = sourceId
    · subst hsame
      rw [Function.update_self] at hother
      exact .inr ⟨row, he, hfinished, hother⟩
    · rw [Function.update_of_ne hsame] at hother
      exact .inl hother

omit [Platform] in
/-- A loop of such steps. -/
theorem foldlM_began {α : Type} {f : VaultDatabase → α → Except SqliteError VaultDatabase}
    {l : List α} (hdb : db.Lifecycle) (hversion : objectDeletionSchemaVersion ≤ db.version)
    (hf : ∀ db a db', db.Lifecycle → objectDeletionSchemaVersion ≤ db.version →
      f db a = .ok db' → Began db db')
    (h : l.foldlM f db = .ok db') : Began db db' := by
  induction l generalizing db with
  | nil =>
    obtain rfl := Except.ok.inj h
    exact (SameObjects.refl _).began hdb
  | cons a rest ih =>
    rw [List.foldlM_cons, Except.bind_eq_ok_iff] at h
    obtain ⟨between, hfirst, hrest⟩ := h
    have hstep := hf _ _ _ hdb hversion hfirst
    exact hstep.trans (ih hstep.lifecycle (hversion.trans hstep.version) hrest)

theorem registerPlan_ok (h : db.registerPlan deleteRequestId = .ok db') : SameObjects db db' := by
  simp only [registerPlan, Except.bind_eq_ok_iff] at h
  obtain ⟨_, -, hinsert⟩ := h
  unfold insertDeletePlan at hinsert
  split at hinsert
  · split at hinsert
    · obtain rfl := Except.ok.inj hinsert
      exact ⟨le_rfl, rfl, rfl, rfl⟩
    · cases hinsert
  · cases hinsert

theorem beginNewDeletion_ok {request : DeleteRequest} {sources : List SourceArtifact}
    (hdb : db.Lifecycle) (h : db.beginNewDeletion request sources = .ok db') : Began db db' := by
  simp only [beginNewDeletion, Except.bind_eq_ok_iff, Except.exists_unit_iff, require_eq_ok_iff,
    Except.pure_eq_ok_iff] at h
  obtain ⟨_, -, -, -, _, -, migrated, hschema, library, -, closed, -, registered, hplan, _, htargets,
    -, rfl⟩ := h
  obtain ⟨hmigrated, -, -, hversion⟩ := applyPending_ok hschema (by decide)
  have hsame := (hmigrated.trans (Lifecycle.sameObjects closed)).trans (registerPlan_ok hplan)
  have hbegan := hsame.began hdb
  refine hbegan.trans (foldlM_began hbegan.lifecycle ?_ ?_ htargets)
  · exact hversion.trans (registerPlan_ok hplan).version
  · intro db sourceId db' hdb hversion h
    exact beginTarget_ok hdb hversion h

omit [Platform] in
theorem adoptBody_ok {body : Identifier × Option Nat} (hdb : db.Lifecycle)
    (hversion : objectDeletionSchemaVersion ≤ db.version)
    (h : adoptBody deleteRequestId db body = .ok db') : Began db db' := by
  obtain ⟨sourceId, proof⟩ := body
  cases proof with
  | none => exact beginTarget_ok hdb hversion h
  | some attemptOrdinal =>
    refine SameObjects.began ?_ hdb
    unfold adoptBody insertLegacyRetirement at h
    dsimp only at h
    split at h
    · split at h
      · obtain rfl := Except.ok.inj h
        exact ⟨le_rfl, rfl, rfl, rfl⟩
      · cases h
    · cases h

theorem adoptLegacyDeletion_ok {request : DeleteRequest} (hdb : db.Lifecycle)
    (h : db.adoptLegacyDeletion request = .ok db') : Began db db' := by
  simp only [adoptLegacyDeletion, Except.bind_eq_ok_iff, Except.exists_unit_iff,
    require_eq_ok_iff] at h
  obtain ⟨_, -, -, bodies, -, migrated, hschema, registered, hplan, hbodies⟩ := h
  obtain ⟨hmigrated, -, -, hversion⟩ := applyPending_ok hschema (by decide)
  have hsame := hmigrated.trans (registerPlan_ok hplan)
  have hbegan := hsame.began hdb
  refine hbegan.trans (foldlM_began hbegan.lifecycle ?_ ?_ hbodies)
  · exact le_trans (by decide) (hversion.trans (registerPlan_ok hplan).version)
  · intro db body db' hdb hversion h
    exact adoptBody_ok hdb hversion h

theorem beginObjectDeletion_ok {request : DeleteRequest} {sources : List SourceArtifact}
    {changed : Bool} (hdb : db.Lifecycle)
    (h : db.beginObjectDeletion namespaceId request sources = .ok (changed, db')) :
    Began db db' := by
  simp only [beginObjectDeletion, Except.bind_eq_ok_iff] at h
  obtain ⟨_, -, _, -, stored, -, h⟩ := h
  cases stored with
  | none =>
    simp only [Except.bind_eq_ok_iff, Except.pure_eq_ok_iff, Prod.mk.injEq] at h
    obtain ⟨_, hnew, -, rfl⟩ := h
    exact beginNewDeletion_ok hdb hnew
  | some existing =>
    simp only [Except.bind_eq_ok_iff] at h
    obtain ⟨_, -, h⟩ := h
    split at h
    · simp only [Except.bind_eq_ok_iff, Except.pure_eq_ok_iff, Prod.mk.injEq] at h
      obtain ⟨_, -, -, rfl⟩ := h
      exact (SameObjects.refl _).began hdb
    · simp only [Except.bind_eq_ok_iff, Except.pure_eq_ok_iff, Prod.mk.injEq] at h
      obtain ⟨_, hadopt, -, rfl⟩ := h
      exact adoptLegacyDeletion_ok hdb hadopt

theorem deletionObjects_ok {request : DeleteRequest} {items : List CaptureObject}
    (h : db.deletionObjects namespaceId request = .ok items) :
    ∀ item ∈ items, ∃ row, db.attemptOf item.sourceId = some row ∧ db.objectOf row = .ok item ∧
      (db.deletionOf item.sourceId).isSome = true := by
  simp only [deletionObjects, Except.bind_eq_ok_iff, Except.pure_eq_ok_iff] at h
  obtain ⟨_, -, _, -, all, hall, rfl⟩ := h
  intro item hitem
  rw [List.mem_filter, List.any_eq_true] at hitem
  obtain ⟨hmem, deletion, hdeletion, hsame⟩ := hitem
  obtain ⟨row, hrow, hobject⟩ := List.Forall₂.exists_of_mem_right (List.mapM_eq_ok_iff.1 hall) hmem
  rw [List.mem_insertionSort] at hrow
  have hid : row.sourceId = item.sourceId := by
    simp only [objectOf, Except.bind_eq_ok_iff, Except.pure_eq_ok_iff] at hobject
    obtain ⟨_, -, _, -, rfl⟩ := hobject
    rfl
  refine ⟨row, attemptOf_eq_some_iff.2 ⟨hrow, hid⟩, hobject, ?_⟩
  rw [Bool.and_eq_true, beq_iff_eq] at hsame
  have hfound : db.deletionOf item.sourceId = some deletion :=
    (lookup_eq_some_iff db.deletionKeys).2 ⟨hdeletion, hsame.1⟩
  rw [hfound]
  rfl

/-- The object of a finished retirement. -/
theorem finishObjectRetirement_ok {request : DeleteRequest} (hdb : db.Lifecycle)
    (h : db.finishObjectRetirement namespaceId request sourceId = .ok db') :
    ∃ row state, db.entry sourceId = some ⟨row, some state⟩ ∧ db'.Lifecycle ∧
      db'.entry = Function.update db.entry sourceId (some ⟨row, some .deleted⟩) := by
  simp only [finishObjectRetirement, Except.bind_eq_ok_iff, Except.exists_unit_iff,
    require_eq_ok_iff, Except.pure_eq_ok_iff] at h
  obtain ⟨items, hitems, hany, hchanged, rfl⟩ := h
  let selected := fun row : ObjectDeletionRow =>
    row.sourceId == sourceId && row.deleteRequestId == request.params.deleteRequestId
  have hcount : 0 < db.deletions.countP selected := by
    change db.deletions.countP selected = 1 at hchanged
    omega
  obtain ⟨deletion, hmem, hselected⟩ := List.countP_pos_iff.1 hcount
  have hid : deletion.sourceId = sourceId := by simpa using (Bool.and_eq_true_iff.1 hselected).1
  have hfound : db.deletionOf sourceId = some deletion :=
    (lookup_eq_some_iff db.deletionKeys).2 ⟨hmem, hid⟩
  obtain ⟨row, hrow, hphase⟩ := hdb.deletions sourceId deletion hfound
  have he : db.entry sourceId = some ⟨row, some deletion.state⟩ :=
    entry_eq_some_iff.2 ⟨hrow, by rw [hfound]; rfl⟩
  have hlookup : ∀ other, lookup ObjectDeletionRow.sourceId
      (updateWhere selected (fun row => { row with state := .deleted }) db.deletions) other =
      (db.deletionOf other).map fun row => if selected row then { row with state := .deleted }
        else row := by
    intro other
    apply lookup_updateWhere
    intro row
    rfl
  have hothers : ∀ other, other ≠ sourceId → lookup ObjectDeletionRow.sourceId
      (updateWhere selected (fun row => { row with state := .deleted }) db.deletions) other =
      db.deletionOf other := by
    intro other hother
    rw [hlookup]
    cases hdeletion : db.deletionOf other with
    | none => rfl
    | some found =>
      have hkey : found.sourceId = other := lookup_key hdeletion
      rw [Option.map_some, if_neg]
      intro hsel
      exact hother (hkey.symm.trans (by simpa using (Bool.and_eq_true_iff.1 hsel).1))
  have hentry : (db.markDeleted sourceId request.params.deleteRequestId).2.entry =
      Function.update db.entry sourceId (some ⟨row, some .deleted⟩) := by
    funext other
    by_cases hsame : other = sourceId
    · subst hsame
      rw [Function.update_self]
      refine entry_eq_some_iff.2 ⟨hrow, ?_⟩
      change _ = (lookup ObjectDeletionRow.sourceId (updateWhere selected _ db.deletions)
        other).map _
      rw [hlookup, hfound, Option.map_some, if_pos hselected]
      rfl
    · rw [Function.update_of_ne hsame]
      change (db.attemptOf other).map (fun row => ObjectEntry.mk row ((lookup
        ObjectDeletionRow.sourceId (updateWhere selected _ db.deletions) other).map _)) = _
      rw [hothers other hsame]
      rfl
  refine ⟨row, deletion.state, he, ?_, hentry⟩
  refine hdb.update hentry ?_ (fun _ _ => rfl) hothers ?_ (fun _ => hphase)
  · intro hlt
    rw [show db.deletions = [] from hdb.early hlt] at hmem
    cases hmem
  · have hnone := hdb.references sourceId
    rw [he] at hnone
    exact hnone

end Deletion

/-! ## The migration of bodies -/

section BodyMigration

variable {item : BodyMigrationItem}

/-- The bodies of the inventory are planned; nothing else has moved. -/
theorem initializeInventory_ok (hdb : db.Lifecycle)
    (h : db.initializeInventory namespaceId = .ok db') :
    db'.Lifecycle ∧ ∀ sourceId, db'.entry sourceId = db.entry sourceId ∨
      db.entry sourceId = none ∧
        ∃ row, row.phase = .planned ∧ row.tokens = none ∧ db'.entry sourceId = some ⟨row, none⟩ := by
  simp only [initializeInventory, Except.bind_eq_ok_iff, Except.exists_unit_iff] at h
  obtain ⟨-, migrated, hschema, -, hrows⟩ := h
  obtain ⟨hsame, -, -, hversion⟩ := applyPending_ok hschema (by decide)
  have hmigrated := hsame.lifecycle hdb
  obtain ⟨hvalid, rfl⟩ := withAttempts_eq_ok_iff.1 hrows
  have hfound : ∀ sourceId, db.entry sourceId = none → ∀ row,
      lookup ObjectAttemptRow.sourceId
        (migrated.objectAttempts ++ migrated.inlineSources.map plannedAttempt) sourceId = some row →
      row.phase = .planned ∧ row.tokens = none := by
    intro sourceId hnone row hrow
    obtain ⟨hmem, hid⟩ := (lookup_eq_some_iff hvalid.sources).1 hrow
    rcases List.mem_append.1 hmem with hold | hnew
    · rw [← hsame.entry, entry_eq_none_iff] at hnone
      exact absurd hid (lookup_eq_none_iff.1 hnone row hold)
    · obtain ⟨source, -, rfl⟩ := List.mem_map.1 hnew
      exact ⟨rfl, rfl⟩
  have hentry : ∀ sourceId, entry { migrated with
      migration := some .migrating
      objectAttempts := migrated.objectAttempts ++ migrated.inlineSources.map plannedAttempt
      attemptsValid := hvalid } sourceId = db.entry sourceId ∨ db.entry sourceId = none ∧
        ∃ row, row.phase = .planned ∧ row.tokens = none ∧ entry { migrated with
          migration := some .migrating
          objectAttempts := migrated.objectAttempts ++ migrated.inlineSources.map plannedAttempt
          attemptsValid := hvalid } sourceId = some ⟨row, none⟩ := by
    intro sourceId
    cases he : db.entry sourceId with
    | some e =>
      left
      rw [← hsame.entry] at he
      obtain ⟨hrow, hdeletion⟩ := entry_eq_some_iff.1 he
      exact entry_eq_some_iff.2 ⟨lookup_append_of_some hrow, hdeletion⟩
    | none =>
      cases hrow : lookup ObjectAttemptRow.sourceId
        (migrated.objectAttempts ++ migrated.inlineSources.map plannedAttempt) sourceId with
      | none => exact .inl (entry_eq_none_iff.2 hrow)
      | some row =>
        obtain ⟨hphase, htokens⟩ := hfound sourceId he row hrow
        refine .inr ⟨rfl, row, hphase, htokens, entry_eq_some_iff.2 ⟨hrow, ?_⟩⟩
        have hnone := hdb.deletionOf_eq_none he
        rw [deletionOf, ← hsame.deletions] at hnone
        exact (Option.map_eq_none_iff.2 hnone).symm
  refine ⟨⟨hmigrated.early, ?_, ?_⟩, hentry⟩
  · intro sourceId
    have hread := hmigrated.references sourceId
    rw [hsame.entry] at hread
    rcases hentry sourceId with heq | ⟨hnone, row, hphase, -, heq⟩
    · rw [heq]
      exact hread
    · rw [heq]
      rw [hnone] at hread
      refine hread.trans ?_
      simp [ObjectEntry.reference, hphase]
  · intro sourceId deletion hdeletion
    obtain ⟨row, hrow, hphase⟩ := hmigrated.deletions sourceId deletion hdeletion
    exact ⟨row, lookup_append_of_some hrow, hphase⟩

omit [Platform] in
theorem prepareBody_ok {tokens : ObjectTokens} (hdb : db.Lifecycle)
    (h : db.prepareBody item tokens = .ok db') :
    ∃ old, db.entry item.sourceId = some ⟨old, none⟩ ∧
      (old.phase = .planned ∨ old.phase = .prepared) ∧
      Moved db db' item.sourceId
        ⟨{ old with phase := .prepared, tokens := some tokens }, none⟩ := by
  simp only [prepareBody, Except.bind_eq_ok_iff, Except.exists_unit_iff, require_eq_ok_iff,
    Except.pure_eq_ok_iff, Prod.exists] at h
  obtain ⟨n, _, hupdate, rfl, rfl⟩ := h
  obtain ⟨⟨old, deletion⟩, he, hselected, hentry⟩ := entry_updateAttempts_changed hupdate
    (fun _ => rfl) fun row hrow => by simpa using (Bool.and_eq_true_iff.1 hrow).1
  have hphase : old.phase = .planned ∨ old.phase = .prepared := by
    simpa using (Bool.and_eq_true_iff.1 hselected).2
  obtain rfl : deletion = none := hdb.deletion_eq_none he (by
    rcases hphase with hphase | hphase
    · simp [hphase]
    · simp [hphase])
  obtain ⟨⟨_, rfl⟩, -⟩ := updateAttempts_eq_ok_iff.1 hupdate
  refine ⟨old, he, hphase, ?_, hentry, he ▸ .prepared tokens hphase⟩
  refine hdb.updateAttempt hentry le_rfl rfl rfl rfl ?_
  rw [he]
  rcases hphase with hphase | hphase
  · simp [ObjectEntry.reference, hphase]
  · simp [ObjectEntry.reference, hphase]

omit [Platform] in
theorem commitReference_ok (hdb : db.Lifecycle) (h : db.commitReference item = .ok db') :
    ∃ row, db.entry item.sourceId = some ⟨row, none⟩ ∧ row.phase = .prepared ∧
      Moved db db' item.sourceId ⟨{ row with phase := .referenced }, none⟩ := by
  simp only [commitReference, Except.bind_eq_ok_iff, Option.orError_eq_ok_iff,
    Except.pure_eq_ok_iff, Prod.exists, Option.filter_eq_some_iff] at h
  obtain ⟨row, ⟨hrow, hprepared⟩, tokens, htokens, between, hinsert, n, _, hupdate, rfl⟩ := h
  have hphase : row.phase = .prepared := by simpa using hprepared
  obtain ⟨hentry, hmoved⟩ := reference_moved hdb hrow hphase (.inl rfl) htokens hinsert hupdate
  exact ⟨row, hentry, hphase, hmoved⟩

omit [Platform] in
theorem retireInline_ok (hdb : db.Lifecycle) (h : db.retireInline item = .ok db') :
    ∃ row, db.entry item.sourceId = some ⟨row, none⟩ ∧ row.phase = .referenced ∧
      Moved db db' item.sourceId ⟨{ row with phase := .retired }, none⟩ := by
  simp only [retireInline, Except.bind_eq_ok_iff, Except.exists_unit_iff, require_eq_ok_iff,
    Except.pure_eq_ok_iff, Prod.exists] at h
  obtain ⟨n, between, hupdate, rfl, -, rfl⟩ := h
  obtain ⟨⟨row, deletion⟩, he, hselected, hentry⟩ := entry_updateAttempts_changed hupdate
    (fun _ => rfl) fun row hrow => by simpa using (Bool.and_eq_true_iff.1 hrow).1
  have hphase : row.phase = .referenced := by simpa using (Bool.and_eq_true_iff.1 hselected).2
  obtain rfl : deletion = none := hdb.deletion_eq_none he (by simp [hphase])
  obtain ⟨⟨_, rfl⟩, -⟩ := updateAttempts_eq_ok_iff.1 hupdate
  refine ⟨row, he, hphase, ?_, hentry, he ▸ .retired hphase⟩
  refine hdb.updateAttempt hentry le_rfl rfl rfl rfl ?_
  rw [he]
  simp [ObjectEntry.reference, hphase]

omit [Platform] in
theorem finishMigration_ok (h : db.finishMigration namespaceId = .ok db') :
    SameObjects db db' := by
  simp only [finishMigration, Except.bind_eq_ok_iff, Except.pure_eq_ok_iff] at h
  obtain ⟨_, -, _, -, _, -, rfl⟩ := h
  exact ⟨le_rfl, rfl, rfl, rfl⟩

end BodyMigration

/-! ## Derived rows and components -/

theorem rebuildRecallDerivations_ok {sources : List SourceArtifact}
    (h : db.rebuildRecallDerivations namespaceId sources = .ok db') : SameObjects db db' := by
  simp only [rebuildRecallDerivations, Except.bind_eq_ok_iff, Except.pure_eq_ok_iff] at h
  obtain ⟨_, -, _, -, _, -, library, -, _, -, rfl⟩ := h
  exact Lifecycle.sameObjects library

theorem componentTransaction_ok {request : DeleteRequest} {execution : LocalDeletionExecution}
    {attemptOrdinal : Nat} {hasFailed faulty succeeded : Bool} {component : DeletionTarget}
    (h : componentTransaction request execution attemptOrdinal hasFailed faulty component db =
      .ok (succeeded, db')) : SameObjects db db' := by
  unfold componentTransaction at h
  split at h
  · obtain ⟨-, rfl⟩ := Prod.mk.inj (Except.ok.inj h)
    exact .refl _
  · split at h
    · simp only [Except.bind_eq_ok_iff, Except.pure_eq_ok_iff, Prod.mk.injEq] at h
      obtain ⟨_, -, library, -, -, rfl⟩ := h
      exact Lifecycle.sameObjects library
    · obtain ⟨-, rfl⟩ := Prod.mk.inj (Except.ok.inj h)
      exact .refl _

end VaultDatabase

end RadishMemory
