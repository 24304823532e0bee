import RadishMemory.Properties.ObjectMoves
import RadishMemory.Properties.ObjectPublication

/-!
# The files of the encrypted library

Every attempt that has tokens is a publication of two names, and the state of its object says how
far the files are: `Sound` holds when each publication is at its stage, no other name leads to a
file, and every entry has moved only along the edges of `Move` since the library was `origin`.

A program on the files of one object keeps it when it keeps the object at its stage
(`upholds_objects`); a transaction keeps it when the files are already at the new stage
(`Sound.replace`).
-/

namespace RadishMemory

open DurableFiles ObjectEntry

/-! ## Names -/

theorem objectName_injective {a b : ObjectLocator} (h : objectName a = objectName b) : a = b := by
  have hchars := congrArg String.toList h
  simp only [objectName, String.toList_append] at hchars
  have htext := String.toList_inj.1 (List.append_cancel_right hchars)
  obtain ⟨⟨a, ha⟩⟩ := a
  obtain ⟨⟨b, hb⟩⟩ := b
  obtain rfl : a = b := htext
  rfl

theorem Sha256Hex.length_text (value : Sha256Hex) : value.text.toList.length = 64 := by
  have h := value.wellFormed
  simp only [isSha256Hex, Bool.and_eq_true, beq_iff_eq] at h
  exact h.1

theorem stagingName_injective {a b : ObjectLocator} {c d : AttemptId}
    (h : stagingName a c = stagingName b d) : a = b := by
  have hchars := congrArg String.toList h
  simp only [stagingName, String.toList_append, List.append_assoc] at hchars
  have htext := String.toList_inj.1 (List.append_inj_left hchars
    (a.token.length_text.trans b.token.length_text.symm))
  obtain ⟨⟨a, ha⟩⟩ := a
  obtain ⟨⟨b, hb⟩⟩ := b
  obtain rfl : a = b := htext
  rfl

/-- A name belongs to one locator. -/
theorem locator_eq_of_mem {a b : ObjectLocator} {c d : AttemptId} {place : VaultPath}
    (ha : place ∈ attemptPlaces a c) (hb : place ∈ attemptPlaces b d) : a = b := by
  rcases ha with rfl | rfl
  · rcases hb with hb | hb
    · exact stagingName_injective (congrArg Prod.snd hb)
    · cases congrArg Prod.fst hb
  · rcases hb with hb | hb
    · cases congrArg Prod.fst hb
    · exact objectName_injective (congrArg Prod.snd hb)

theorem eq_of_filterMap_nodup {α β : Type} {f : α → Option β} {l : List α} {a b : α} {c : β}
    (h : (l.filterMap f).Nodup) (ha : a ∈ l) (hb : b ∈ l) (hfa : f a = some c)
    (hfb : f b = some c) : a = b := by
  induction l with
  | nil => cases ha
  | cons first rest ih =>
    have hrest : (rest.filterMap f).Nodup := by
      rw [List.filterMap_cons] at h
      split at h
      · exact h
      · exact (List.nodup_cons.1 h).2
    have hfirst : f first = some c → ∀ other ∈ rest, f other ≠ some c := by
      intro hfound other hother heq
      rw [List.filterMap_cons, hfound] at h
      exact (List.nodup_cons.1 h).1 (List.mem_filterMap.2 ⟨other, hother, heq⟩)
    rcases List.mem_cons.1 ha with rfl | harest
    · rcases List.mem_cons.1 hb with rfl | hbrest
      · rfl
      · exact absurd hfb (hfirst hfa b hbrest)
    · rcases List.mem_cons.1 hb with rfl | hbrest
      · exact absurd hfa (hfirst hfb a harest)
      · exact ih hrest harest hbrest

/-- Two entries have no name in common. -/
theorem VaultDatabase.entry_of_place {db : VaultDatabase} {a b : Identifier} {e e' : ObjectEntry}
    {tokens tokens' : ObjectTokens} {place : VaultPath} (he : db.entry a = some e)
    (he' : db.entry b = some e') (htokens : e.row.tokens = some tokens)
    (htokens' : e'.row.tokens = some tokens')
    (hplace : place ∈ attemptPlaces tokens.objectLocator tokens.attemptId)
    (hplace' : place ∈ attemptPlaces tokens'.objectLocator tokens'.attemptId) : a = b := by
  have hlocator : tokens.locator = tokens'.locator :=
    congrArg ObjectLocator.token (locator_eq_of_mem hplace hplace')
  obtain ⟨hrow, ha⟩ := VaultDatabase.entry_row he
  obtain ⟨hrow', hb⟩ := VaultDatabase.entry_row he'
  have hsame : e.row = e'.row := eq_of_filterMap_nodup db.attemptsValid.locators hrow hrow'
    (by rw [ObjectAttemptRow.locator, htokens]; rfl)
    (by rw [ObjectAttemptRow.locator, htokens', hlocator]; rfl)
  rw [← ha, ← hb, hsame]

/-! ## Publications -/

/-- How far the files of an attempt are. -/
def AttemptPhase.stage (phase : AttemptPhase) : Option ObjectDeletionState → PublicationStage
  | some .deleting => .unfinished
  | some .deleted => .gone
  | none =>
    match phase with
    | .planned | .prepared => .resumable
    | .referenced | .retired | .committed => .published
    | .abandoning => .unfinished
    | .abandoned => .gone

def ObjectAttemptRow.metadata (row : ObjectAttemptRow) : Except MaintenanceError ObjectMetadata :=
  objectMetadata row.namespaceId row.sourceId row.digestValue row.contentLength row.mediaType

variable [Platform] [ObjectCipher]

def objectPublication (key : KeyEncryptionKey) (tokens : ObjectTokens) (metadata : ObjectMetadata)
    (stage : PublicationStage) : Publication VaultDirectory String where
  staging := stagingPath tokens.objectLocator tokens.attemptId
  final := objectPath tokens.objectLocator
  good := Authentic tokens.objectLocator tokens.attemptId metadata key
  stage := stage

/-- The publication of an entry. -/
def ObjectEntry.Publishes (key : KeyEncryptionKey) (e : ObjectEntry)
    (x : Publication VaultDirectory String) : Prop :=
  ∃ tokens metadata, e.row.tokens = some tokens ∧ e.row.metadata = .ok metadata ∧
    x = objectPublication key tokens metadata (e.row.phase.stage e.deletion)

def VaultDatabase.publications (db : VaultDatabase) (key : KeyEncryptionKey) :
    Set (Publication VaultDirectory String) :=
  {x | ∃ sourceId e, db.entry sourceId = some e ∧ e.Publishes key x}

structure Sound (key : KeyEncryptionKey) (origin : VaultDatabase) (vault : Vault) : Prop where
  lifecycle : vault.database.Lifecycle
  tracked : vault.files.Tracked (vault.database.publications key)
  moved : ∀ sourceId, Relation.ReflTransGen Move (origin.entry sourceId)
    (vault.database.entry sourceId)

section Publications

variable {key : KeyEncryptionKey} {origin db' : VaultDatabase} {vault : Vault}
  {sourceId : Identifier} {e : ObjectEntry} {x x' : Publication VaultDirectory String}

theorem ObjectEntry.Publishes.unique (h : e.Publishes key x) (h' : e.Publishes key x') :
    x = x' := by
  obtain ⟨tokens, metadata, htokens, hmetadata, rfl⟩ := h
  obtain ⟨tokens', metadata', htokens', hmetadata', rfl⟩ := h'
  rw [htokens] at htokens'
  rw [hmetadata] at hmetadata'
  rw [Option.some.inj htokens', Except.ok.inj hmetadata']

theorem ObjectEntry.Publishes.of_tokens {tokens : ObjectTokens} {metadata : ObjectMetadata}
    (htokens : e.row.tokens = some tokens) (hmetadata : e.row.metadata = .ok metadata) :
    e.Publishes key (objectPublication key tokens metadata (e.row.phase.stage e.deletion)) :=
  ⟨tokens, metadata, htokens, hmetadata, rfl⟩

theorem Sound.at_stage (h : Sound key origin vault) (he : vault.database.entry sourceId = some e)
    (hx : e.Publishes key x) : x.At vault.files :=
  h.tracked.at_stage x ⟨sourceId, e, he, hx⟩

/-- Publications of different sources have no name in common. -/
theorem source_eq_of_place {db : VaultDatabase} {a b : Identifier} {e' : ObjectEntry}
    {place : VaultPath} (he : db.entry a = some e) (he' : db.entry b = some e')
    (hx : e.Publishes key x) (hx' : e'.Publishes key x') (hplace : place ∈ x.places)
    (hplace' : place ∈ x'.places) : a = b := by
  obtain ⟨tokens, metadata, htokens, -, rfl⟩ := hx
  obtain ⟨tokens', metadata', htokens', -, rfl⟩ := hx'
  exact VaultDatabase.entry_of_place he he' htokens htokens' hplace hplace'

/-! ## Files -/

/-- The files of one object change, and the object stays at its stage. -/
theorem Sound.files {files : VaultFiles} (h : Sound key origin vault)
    (he : vault.database.entry sourceId = some e) (hx : e.Publishes key x)
    (hfs : vault.files.Endures x.places files) (hat : x.At files) :
    Sound key origin { vault with files } := by
  refine ⟨h.lifecycle, h.tracked.endures hfs (fun place hplace => ⟨x, ⟨_, _, he, hx⟩, hplace⟩) ?_,
    h.moved⟩
  rintro y ⟨other, e', he', hy⟩
  by_cases hsame : other = sourceId
  · subst hsame
    rw [he] at he'
    obtain rfl := Option.some.inj he'
    rw [hy.unique hx]
    exact .inl hat
  · right
    constructor
    · intro hmem
      exact hsame (source_eq_of_place he' he hy hx Publication.staging_mem_places hmem)
    · intro hmem
      exact hsame (source_eq_of_place he' he hy hx Publication.final_mem_places hmem)

theorem Sound.powerLoss {files : VaultFiles} (h : Sound key origin vault)
    (hloss : vault.files.PowerLoss files) : Sound key origin { vault with files } :=
  ⟨h.lifecycle, h.tracked.powerLoss hloss, h.moved⟩

/-! ## Transactions -/

/-- The files are at the stages of the new entries, and a name that is given up leads nowhere. -/
theorem Sound.replace (h : Sound key origin vault) (hlifecycle : db'.Lifecycle)
    (hmoved : ∀ sourceId, Relation.ReflTransGen Move (vault.database.entry sourceId)
      (db'.entry sourceId))
    (hat : ∀ sourceId e x, db'.entry sourceId = some e → e.Publishes key x →
      vault.database.entry sourceId = some e ∨ x.At vault.files)
    (hold : ∀ sourceId e x, vault.database.entry sourceId = some e → e.Publishes key x →
      (∃ e' x', db'.entry sourceId = some e' ∧ e'.Publishes key x' ∧ x'.places = x.places) ∨
        vault.files.Gone x.staging x.final) :
    Sound key origin { vault with database := db' } := by
  refine ⟨hlifecycle, h.tracked.replace ?_ ?_, fun sourceId => (h.moved sourceId).trans
    (hmoved sourceId)⟩
  · rintro x ⟨sourceId, e, he, hx⟩
    rcases hat sourceId e x he hx with hsame | hdone
    · exact h.at_stage hsame hx
    · exact hdone
  · rintro x ⟨sourceId, e, he, hx⟩ place hplace
    rcases hold sourceId e x he hx with ⟨e', x', he', hx', hsame⟩ | hgone
    · exact .inl ⟨x', ⟨sourceId, e', he', hx'⟩, hsame ▸ hplace⟩
    · right
      rcases hplace with rfl | rfl
      · exact hgone.atStaging
      · exact hgone.atFinal

theorem Sound.same (h : Sound key origin vault)
    (hsame : VaultDatabase.SameObjects vault.database db') :
    Sound key origin { vault with database := db' } := by
  have hentry := hsame.entry
  refine h.replace (hsame.lifecycle h.lifecycle) ?_ ?_ ?_
  · intro sourceId
    rw [hentry]
  · intro sourceId e x he _
    rw [hentry] at he
    exact .inl he
  · intro sourceId e x he hx
    exact .inl ⟨e, x, by rw [hentry, he], hx, rfl⟩

/-- One entry moves to a stage where its files are already. -/
theorem Sound.advance {old : ObjectEntry} (h : Sound key origin vault)
    (he : vault.database.entry sourceId = some old)
    (hmoved : VaultDatabase.Moved vault.database db' sourceId e)
    (htokens : e.row.tokens = old.row.tokens) (hmetadata : e.row.metadata = old.row.metadata)
    (hat : ∀ x, e.Publishes key x → x.At vault.files) :
    Sound key origin { vault with database := db' } := by
  have hnew : db'.entry sourceId = some e := by rw [hmoved.entry, Function.update_self]
  have hothers : ∀ other, other ≠ sourceId → db'.entry other = vault.database.entry other := by
    intro other hother
    rw [hmoved.entry, Function.update_of_ne hother]
  refine h.replace hmoved.lifecycle ?_ ?_ ?_
  · intro other
    by_cases hsame : other = sourceId
    · subst hsame
      rw [hnew]
      exact .single hmoved.move
    · rw [hothers other hsame]
  · intro other e' x he' hx
    by_cases hsame : other = sourceId
    · subst hsame
      rw [hnew] at he'
      obtain rfl := Option.some.inj he'
      exact .inr (hat x hx)
    · rw [hothers other hsame] at he'
      exact .inl he'
  · intro other e' x he' hx
    left
    by_cases hsame : other = sourceId
    · subst hsame
      rw [he] at he'
      obtain rfl := Option.some.inj he'
      obtain ⟨tokens, metadata, ht, hm, rfl⟩ := hx
      exact ⟨e, _, hnew, .of_tokens (htokens.trans ht) (hmetadata.trans hm), rfl⟩
    · exact ⟨e', x, by rw [hothers other hsame, he'], hx, rfl⟩

end Publications

end RadishMemory
