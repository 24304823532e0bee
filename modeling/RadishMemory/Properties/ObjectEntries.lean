import RadishMemory.Construction.SourceVault.BodyMigration
import Mathlib.Logic.Relation

/-!
# The life of an object in the database

`entry` is what the database holds of the object of a source, and `Move` are the edges along which
an entry goes: to a committed object and its deletion, or to an abandoned one.  `Lifecycle` ties
the references and the deletions to the entries.  The lemma of an operation says which entry it
moves and how; all other entries stay.
-/

namespace RadishMemory

/-! ## Entries -/

structure ObjectEntry where
  row : ObjectAttemptRow
  deletion : Option ObjectDeletionState

namespace ObjectEntry

/-- The tokens under which a committed object is read. -/
def reference (e : ObjectEntry) : Option ObjectTokens :=
  match e.deletion, e.row.phase with
  | none, .referenced | none, .retired | none, .committed => e.row.tokens
  | _, _ => none

inductive Move : Option ObjectEntry → Option ObjectEntry → Prop
  | planned {row : ObjectAttemptRow} (h : row.phase = .planned) : Move none (some ⟨row, none⟩)
  | captured {row : ObjectAttemptRow} (h : row.phase = .prepared) : Move none (some ⟨row, none⟩)
  | prepared {row : ObjectAttemptRow} (tokens : ObjectTokens)
      (h : row.phase = .planned ∨ row.phase = .prepared) :
      Move (some ⟨row, none⟩) (some ⟨{ row with phase := .prepared, tokens := some tokens }, none⟩)
  | referenced {row : ObjectAttemptRow} (h : row.phase = .prepared) :
      Move (some ⟨row, none⟩) (some ⟨{ row with phase := .referenced }, none⟩)
  | retired {row : ObjectAttemptRow} (h : row.phase = .referenced) :
      Move (some ⟨row, none⟩) (some ⟨{ row with phase := .retired }, none⟩)
  | committed {row : ObjectAttemptRow} (h : row.phase = .prepared) :
      Move (some ⟨row, none⟩) (some ⟨{ row with phase := .committed }, none⟩)
  | abandoning {row : ObjectAttemptRow} (h : row.phase = .prepared) :
      Move (some ⟨row, none⟩) (some ⟨{ row with phase := .abandoning }, none⟩)
  | abandoned {row : ObjectAttemptRow} (h : row.phase = .abandoning) :
      Move (some ⟨row, none⟩) (some ⟨{ row with phase := .abandoned }, none⟩)
  | deleting {row : ObjectAttemptRow} (h : row.phase = .retired ∨ row.phase = .committed) :
      Move (some ⟨row, none⟩) (some ⟨row, some .deleting⟩)
  | deleted {row : ObjectAttemptRow} :
      Move (some ⟨row, some .deleting⟩) (some ⟨row, some .deleted⟩)

end ObjectEntry

namespace VaultDatabase

/-- What the database holds of the object of a source. -/
def entry (db : VaultDatabase) (sourceId : Identifier) : Option ObjectEntry :=
  (db.attemptOf sourceId).map fun row =>
    { row, deletion := (db.deletionOf sourceId).map ObjectDeletionRow.state }

/-- The references and the deletions are those of the entries. -/
structure Lifecycle (db : VaultDatabase) : Prop where
  early : db.version < objectDeletionSchemaVersion → db.deletions = []
  references : ∀ sourceId, (db.referenceOf sourceId).map ReferenceRow.tokens =
    (db.entry sourceId).bind ObjectEntry.reference
  deletions : ∀ sourceId deletion, db.deletionOf sourceId = some deletion →
    ∃ row, db.attemptOf sourceId = some row ∧ (row.phase = .retired ∨ row.phase = .committed)

section Entries

variable {db db' : VaultDatabase} {sourceId : Identifier} {row : ObjectAttemptRow}
  {e : ObjectEntry}

theorem entry_eq_some_iff : db.entry sourceId = some e ↔
    db.attemptOf sourceId = some e.row ∧
      e.deletion = (db.deletionOf sourceId).map ObjectDeletionRow.state := by
  simp only [entry, Option.map_eq_some_iff]
  constructor
  · rintro ⟨row, hrow, rfl⟩
    exact ⟨hrow, rfl⟩
  · rintro ⟨hrow, hdeletion⟩
    refine ⟨e.row, hrow, ?_⟩
    rw [← hdeletion]

theorem entry_eq_none_iff : db.entry sourceId = none ↔ db.attemptOf sourceId = none :=
  Option.map_eq_none_iff

/-- Entries are those of these two tables. -/
theorem entry_congr (hattempts : db'.objectAttempts = db.objectAttempts)
    (hdeletions : db'.deletions = db.deletions) : db'.entry = db.entry := by
  funext sourceId
  rw [entry, entry, attemptOf, attemptOf, deletionOf, deletionOf, hattempts, hdeletions]

theorem attemptOf_eq_some_iff : db.attemptOf sourceId = some row ↔
    row ∈ db.objectAttempts ∧ row.sourceId = sourceId :=
  lookup_eq_some_iff db.attemptsValid.sources

theorem entry_row (h : db.entry sourceId = some e) :
    e.row ∈ db.objectAttempts ∧ e.row.sourceId = sourceId :=
  attemptOf_eq_some_iff.1 (entry_eq_some_iff.1 h).1

/-- An attempt that is not finished has no deletion. -/
theorem Lifecycle.deletion_eq_none (h : db.Lifecycle) (he : db.entry sourceId = some e)
    (hphase : e.row.phase ≠ .retired ∧ e.row.phase ≠ .committed) : e.deletion = none := by
  obtain ⟨hrow, hdeletion⟩ := entry_eq_some_iff.1 he
  rw [hdeletion, Option.map_eq_none_iff]
  cases hfound : db.deletionOf sourceId with
  | none => rfl
  | some deletion =>
    obtain ⟨row, hattempt, hfinished⟩ := h.deletions sourceId deletion hfound
    obtain rfl : row = e.row := Option.some.inj (hattempt.symm.trans hrow)
    exact absurd hfinished (not_or.2 hphase)

theorem Lifecycle.deletionOf_eq_none (h : db.Lifecycle) (hnone : db.entry sourceId = none) :
    db.deletionOf sourceId = none := by
  cases hfound : db.deletionOf sourceId with
  | none => rfl
  | some deletion =>
    obtain ⟨row, hattempt, -⟩ := h.deletions sourceId deletion hfound
    rw [entry_eq_none_iff.1 hnone] at hattempt
    cases hattempt

/-- The deletions that a version knows are all there are. -/
theorem Lifecycle.knownDeletion (h : db.Lifecycle) (sourceId : Identifier) :
    db.knownDeletion sourceId = db.deletionOf sourceId := by
  unfold VaultDatabase.knownDeletion
  split
  · rfl
  · rename_i hversion
    rw [deletionOf, h.early (by omega)]
    rfl

/-- The tables of objects may change only together. -/
theorem Lifecycle.congr (h : db.Lifecycle) (hversion : db.version ≤ db'.version)
    (hattempts : db'.objectAttempts = db.objectAttempts)
    (hreferences : db'.references = db.references) (hdeletions : db'.deletions = db.deletions) :
    db'.Lifecycle where
  early hlt := by
    rw [hdeletions]
    exact h.early (by omega)
  references sourceId := by
    rw [entry_congr hattempts hdeletions, ← h.references sourceId, referenceOf, referenceOf,
      hreferences]
  deletions sourceId deletion hfound := by
    rw [deletionOf, hdeletions] at hfound
    rw [attemptOf, hattempts]
    exact h.deletions sourceId deletion hfound

/-- One entry has moved, with its reference and its deletion. -/
theorem Lifecycle.update (h : db.Lifecycle)
    (hentry : db'.entry = Function.update db.entry sourceId (some e))
    (hearly : db'.version < objectDeletionSchemaVersion → db'.deletions = [])
    (hreferences : ∀ other, other ≠ sourceId → db'.referenceOf other = db.referenceOf other)
    (hdeletions : ∀ other, other ≠ sourceId → db'.deletionOf other = db.deletionOf other)
    (hreference : (db'.referenceOf sourceId).map ReferenceRow.tokens = e.reference)
    (hphase : e.deletion ≠ none → e.row.phase = .retired ∨ e.row.phase = .committed) :
    db'.Lifecycle where
  early := hearly
  references other := by
    rw [hentry]
    by_cases hsame : other = sourceId
    · subst hsame
      rw [Function.update_self, hreference]
      rfl
    · rw [Function.update_of_ne hsame, hreferences other hsame]
      exact h.references other
  deletions other deletion hfound := by
    by_cases hsame : other = sourceId
    · subst hsame
      have he : db'.entry other = some e := by rw [hentry, Function.update_self]
      obtain ⟨hrow, hdeletion⟩ := entry_eq_some_iff.1 he
      refine ⟨e.row, hrow, hphase ?_⟩
      rw [hdeletion, hfound]
      simp
    · rw [hdeletions other hsame] at hfound
      obtain ⟨row, hrow, hfinished⟩ := h.deletions other deletion hfound
      refine ⟨row, ?_, hfinished⟩
      have he : db'.entry other = db.entry other := by rw [hentry, Function.update_of_ne hsame]
      rw [entry, entry, hrow] at he
      obtain ⟨row', hrow', heq⟩ := Option.map_eq_some_iff.1 he
      rw [hrow', (ObjectEntry.mk.inj heq).1]

/-- One entry without a deletion has moved, and no other table. -/
theorem Lifecycle.updateAttempt (h : db.Lifecycle)
    (hentry : db'.entry = Function.update db.entry sourceId (some e))
    (hversion : db.version ≤ db'.version) (hreferences : db'.references = db.references)
    (hdeletions : db'.deletions = db.deletions) (hdeletion : e.deletion = none)
    (hreference : e.reference = (db.entry sourceId).bind ObjectEntry.reference) :
    db'.Lifecycle := by
  refine h.update hentry ?_ ?_ ?_ ?_ (absurd hdeletion)
  · intro hlt
    rw [hdeletions]
    exact h.early (by omega)
  · intro other _
    rw [referenceOf, referenceOf, hreferences]
  · intro other _
    rw [deletionOf, deletionOf, hdeletions]
  · rw [hreference, ← h.references sourceId, referenceOf, referenceOf, hreferences]

end Entries

/-! ## Statements -/

section Statements

variable {db db' : VaultDatabase} {sourceId : Identifier} {row : ObjectAttemptRow}
  {e : ObjectEntry} {n : Nat} {rows : List ObjectAttemptRow}

theorem withAttempts_eq_ok_iff : db.withAttempts rows = .ok db' ↔
    ∃ h, db' = { db with objectAttempts := rows, attemptsValid := h } := by
  unfold withAttempts
  split
  · rename_i hvalid
    rw [Except.ok.injEq]
    exact ⟨fun heq => ⟨hvalid, heq.symm⟩, fun ⟨_, heq⟩ => heq.symm⟩
  · rename_i hinvalid
    constructor
    · intro heq
      split at heq
      · cases heq
      · cases heq
    · rintro ⟨hvalid, -⟩
      exact absurd hvalid hinvalid

/-- The attempts of `db'` are those rows, and nothing else is changed. -/
def WithAttempts (db db' : VaultDatabase) (rows : List ObjectAttemptRow) : Prop :=
  ∃ h, db' = { db with objectAttempts := rows, attemptsValid := h }

variable {selected : ObjectAttemptRow → Bool} {update : ObjectAttemptRow → ObjectAttemptRow}

theorem updateAttempts_eq_ok_iff : db.updateAttempts selected update = .ok (n, db') ↔
    WithAttempts db db' (updateWhere selected update db.objectAttempts) ∧
      n = db.objectAttempts.countP selected := by
  simp only [updateAttempts, Except.bind_eq_ok_iff, Except.pure_eq_ok_iff, Prod.mk.injEq,
    withAttempts_eq_ok_iff, WithAttempts]
  constructor
  · rintro ⟨_, hupdated, rfl, rfl⟩
    exact ⟨hupdated, rfl⟩
  · rintro ⟨hupdated, rfl⟩
    exact ⟨db', hupdated, rfl, rfl⟩

theorem entry_updateAttempts (h : db.updateAttempts selected update = .ok (n, db'))
    (hkey : ∀ row, (update row).sourceId = row.sourceId) (sourceId : Identifier) :
    db'.entry sourceId = (db.entry sourceId).map fun e =>
      if selected e.row = true then { e with row := update e.row } else e := by
  obtain ⟨⟨_, rfl⟩, -⟩ := updateAttempts_eq_ok_iff.1 h
  unfold entry attemptOf
  rw [lookup_updateWhere hkey]
  cases lookup ObjectAttemptRow.sourceId db.objectAttempts sourceId with
  | none => rfl
  | some row =>
    simp only [Option.map_some, deletionOf]
    split
    · rfl
    · rfl

/-- An update of one entry. -/
theorem entry_updateAttempts_one (h : db.updateAttempts selected update = .ok (n, db'))
    (hkey : ∀ row, (update row).sourceId = row.sourceId)
    (hselected : ∀ row, selected row = true → row.sourceId = sourceId)
    (he : db.entry sourceId = some e) (hrow : selected e.row = true) :
    db'.entry = Function.update db.entry sourceId (some { e with row := update e.row }) := by
  funext other
  rw [entry_updateAttempts h hkey]
  by_cases hsame : other = sourceId
  · subst hsame
    rw [Function.update_self, he, Option.map_some, if_pos hrow]
  · rw [Function.update_of_ne hsame]
    cases hother : db.entry other with
    | none => rfl
    | some e' =>
      have hid := (entry_row hother).2
      rw [Option.map_some, if_neg]
      intro hsel
      exact hsame (hid.symm.trans (hselected e'.row hsel))

/-- An update that has changed one row. -/
theorem entry_updateAttempts_changed (h : db.updateAttempts selected update = .ok (1, db'))
    (hkey : ∀ row, (update row).sourceId = row.sourceId)
    (hselected : ∀ row, selected row = true → row.sourceId = sourceId) :
    ∃ e, db.entry sourceId = some e ∧ selected e.row = true ∧
      db'.entry = Function.update db.entry sourceId (some { e with row := update e.row }) := by
  obtain ⟨-, hcount⟩ := updateAttempts_eq_ok_iff.1 h
  obtain ⟨row, hmem, hrow⟩ := List.countP_pos_iff.1 (show 0 < db.objectAttempts.countP selected by
    omega)
  have he : db.entry sourceId =
      some ⟨row, (db.deletionOf sourceId).map ObjectDeletionRow.state⟩ :=
    entry_eq_some_iff.2 ⟨attemptOf_eq_some_iff.2 ⟨hmem, hselected row hrow⟩, rfl⟩
  exact ⟨_, he, hrow, entry_updateAttempts_one h hkey hselected he hrow⟩

theorem entry_insertObjectAttempt (h : db.insertObjectAttempt row = .ok db') :
    db.entry row.sourceId = none ∧ WithAttempts db db' (db.objectAttempts ++ [row]) ∧
      db'.entry = Function.update db.entry row.sourceId
        (some ⟨row, (db.deletionOf row.sourceId).map ObjectDeletionRow.state⟩) := by
  obtain ⟨hvalid, rfl⟩ := withAttempts_eq_ok_iff.1 h
  have hfresh : ∀ other ∈ db.objectAttempts, other.sourceId ≠ row.sourceId := by
    intro other hother
    have hunique := hvalid.sources
    unfold UniqueBy at hunique
    rw [List.map_append, List.nodup_append] at hunique
    exact hunique.2.2 _ (List.mem_map_of_mem hother) _ (by simp)
  refine ⟨entry_eq_none_iff.2 (lookup_eq_none_iff.2 hfresh), ⟨hvalid, rfl⟩, ?_⟩
  funext other
  unfold entry attemptOf
  dsimp only
  by_cases hsame : other = row.sourceId
  · subst hsame
    rw [Function.update_self, lookup_append_singleton hfresh]
    rfl
  · rw [Function.update_of_ne hsame, lookup_append_of_ne (by simpa using fun heq => hsame heq.symm)]
    rfl

theorem insertReference_eq_ok_iff {reference : ReferenceRow} :
    db.insertReference reference = .ok db' ↔
      ∃ h, db.hasSource reference.sourceId = true ∧
        (db.attemptOf reference.sourceId).bind ObjectAttemptRow.tokens = some reference.tokens ∧
        db' = { db with references := db.references ++ [reference], referenceKeys := h } := by
  unfold insertReference
  split
  · rename_i hunique
    split
    · rename_i hrefs
      rw [Except.ok.injEq]
      exact ⟨fun heq => ⟨hunique, hrefs.1, hrefs.2, heq.symm⟩, fun ⟨_, _, _, heq⟩ => heq.symm⟩
    · rename_i hrefs
      constructor
      · intro heq
        cases heq
      · rintro ⟨-, hsource, htokens, -⟩
        exact absurd ⟨hsource, htokens⟩ hrefs
  · rename_i hunique
    constructor
    · intro heq
      cases heq
    · rintro ⟨h, -⟩
      exact absurd h hunique

theorem insertObjectDeletion_eq_ok_iff {deletion : ObjectDeletionRow} :
    db.insertObjectDeletion deletion = .ok db' ↔
      ∃ h, (db.attemptOf deletion.sourceId).isSome = true ∧
        db.hasDeletePlan deletion.deleteRequestId = true ∧
        db' = { db with deletions := db.deletions ++ [deletion], deletionKeys := h } := by
  unfold insertObjectDeletion
  split
  · rename_i hunique
    split
    · rename_i hrefs
      rw [Except.ok.injEq]
      exact ⟨fun heq => ⟨hunique, hrefs.1, hrefs.2, heq.symm⟩, fun ⟨_, _, _, heq⟩ => heq.symm⟩
    · rename_i hrefs
      constructor
      · intro heq
        cases heq
      · rintro ⟨-, hattempt, hplan, -⟩
        exact absurd ⟨hattempt, hplan⟩ hrefs
  · rename_i hunique
    constructor
    · intro heq
      cases heq
    · rintro ⟨h, -⟩
      exact absurd h hunique

end Statements

end VaultDatabase

end RadishMemory
