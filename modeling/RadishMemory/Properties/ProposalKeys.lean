import RadishMemory.Properties.ReadBack
import RadishMemory.Properties.Residue

/-!
# Stored proposals differ in what they propose

A proposal is stored only if no stored one has its namespace, operation, digest, source fragments
and targets.  Nothing but the redaction of a proposal changes any of these afterwards, and the
redaction removes all its links to fragments, so that the proposals that are not redacted stay
different.
-/

namespace RadishMemory

variable [Platform] {db db' : Database}

/-! ## What a proposal proposes -/

/-- The stored proposal cites the fragment. -/
def CitesFragment (db : Database) (proposalId fragmentId : Identifier) : Prop :=
  ∃ link ∈ db.proposalFragments, link.owner = proposalId ∧ link.value = fragmentId

/-- The stored proposal is to supersede the record. -/
def TargetsRecord (db : Database) (proposalId memoryId : Identifier) : Prop :=
  ∃ link ∈ db.proposalTargets, link.owner = proposalId ∧ link.value = memoryId

/-- The two stored proposals agree on all that two proposals may not share.  The fragments and the
targets are compared as sets. -/
structure SameProposed (db : Database) (p q : ProposalRow) : Prop where
  namespaceId : p.namespaceId = q.namespaceId
  operation : p.operation = q.operation
  digest : p.content.contentDigest = q.content.contentDigest
  cited : ∀ id, CitesFragment db p.proposalId id ↔ CitesFragment db q.proposalId id
  targeted : ∀ id, TargetsRecord db p.proposalId id ↔ TargetsRecord db q.proposalId id

/-- The content has been replaced by the marker, and no fragment is linked any more. -/
def ProposalRow.IsRedacted (db : Database) (row : ProposalRow) : Prop :=
  contentIsRedacted row.content ∧ ∀ id, ¬ CitesFragment db row.proposalId id

/-- The stored proposal agrees with a new one on all that two proposals may not share. -/
structure Proposes (db : Database) (row : ProposalRow) (proposal : MemoryProposal) : Prop where
  namespaceId : row.namespaceId = proposal.params.namespaceId
  operation : row.operation = proposal.params.operation
  digest : row.content.contentDigest = proposal.params.proposedContent.params.contentDigest
  cited : ∀ id, CitesFragment db row.proposalId id ↔ id ∈ proposal.params.sourceFragmentRefs
  targeted : ∀ id, TargetsRecord db row.proposalId id ↔ id ∈ proposal.params.targetMemoryIds

omit [Platform] in
theorem sameIdentifierSet_iff {l l' : List Identifier} :
    sameIdentifierSet l l' = true ↔ ∀ id, id ∈ l ↔ id ∈ l' := by
  simp only [sameIdentifierSet, Bool.and_eq_true, List.all_eq_true, decide_eq_true_eq]
  exact ⟨fun h id => ⟨h.1 id, h.2 id⟩, fun h => ⟨fun id => (h id).1, fun id => (h id).2⟩⟩

theorem isDuplicateProposal_iff {proposal : MemoryProposal} {row : ProposalRow} :
    isDuplicateProposal db proposal row = true ↔ Proposes db row proposal := by
  simp only [isDuplicateProposal, Bool.and_eq_true, beq_iff_eq, sameIdentifierSet_iff,
    List.mem_map, List.mem_filter, and_assoc]
  constructor
  · rintro ⟨hnamespace, hoperation, hdigest, hcited, htargeted⟩
    exact ⟨hnamespace, hoperation, hdigest, hcited, htargeted⟩
  · intro h
    exact ⟨h.namespaceId, h.operation, h.digest, h.cited, h.targeted⟩

theorem ensureProposalIsNotDuplicate_eq_ok_iff {proposal : MemoryProposal} :
    ensureProposalIsNotDuplicate db proposal = .ok () ↔
      ∀ row ∈ db.proposals, ¬ Proposes db row proposal := by
  simp only [ensureProposalIsNotDuplicate, require_eq_ok_iff, ← isDuplicateProposal_iff,
    Bool.not_eq_true]

/-! ## What a change leaves of a proposal -/

/-- The change leaves all that the proposal proposes. -/
structure ProposalKept (db db' : Database) (p p' : ProposalRow) : Prop where
  proposalId : p'.proposalId = p.proposalId
  namespaceId : p'.namespaceId = p.namespaceId
  operation : p'.operation = p.operation
  content : p'.content = p.content
  cited : ∀ id, CitesFragment db' p.proposalId id ↔ CitesFragment db p.proposalId id
  targeted : ∀ id, TargetsRecord db' p.proposalId id ↔ TargetsRecord db p.proposalId id

/-- The change redacts the proposal. -/
def Change.Redacts (db : Database) (c : Change) (proposalId : Identifier) : Prop :=
  ∃ executed n, c = .component executed n .memoryProposal ∧
    Frozen db executed.params.deleteRequestId .memoryProposal proposalId

theorem Change.Applies.cites_of_redacts (hc : Constraints db) {c : Change}
    (happlies : c.Applies db db') {proposalId : Identifier} (h : c.Redacts db proposalId)
    (id : Identifier) : ¬ CitesFragment db' proposalId id := by
  obtain ⟨executed, n, rfl, hfrozen⟩ := h
  rintro ⟨link, hlink, rfl, -⟩
  rcases (happlies.mem_proposalFragments hc).1 hlink with ⟨-, hkeeps⟩ | hnew
  · exact notFrozen_iff.1 hkeeps hfrozen
  · cases hnew

theorem Change.Applies.cites_iff (hc : Constraints db) {c : Change} (happlies : c.Applies db db')
    {p : ProposalRow} (hp : p ∈ db.proposals) (h : ¬ c.Redacts db p.proposalId)
    (id : Identifier) : CitesFragment db' p.proposalId id ↔ CitesFragment db p.proposalId id := by
  have hkeeps : ∀ link : Child Identifier Identifier, link.owner = p.proposalId →
      c.keepsProposalFragment db link = true := by
    rintro link howner
    cases c with
    | component executed n componentType =>
      cases componentType with
      | memoryProposal =>
        exact notFrozen_iff.2 fun hfrozen => h ⟨executed, n, rfl, howner ▸ hfrozen⟩
      | _ => rfl
    | _ => rfl
  constructor
  · rintro ⟨link, hlink, howner, hvalue⟩
    rcases (happlies.mem_proposalFragments hc).1 hlink with ⟨hold, -⟩ | hnew
    · exact ⟨link, hold, howner, hvalue⟩
    · exact absurd howner ((happlies.newProposal_ne hp).1 link hnew)
  · rintro ⟨link, hlink, howner, hvalue⟩
    exact ⟨link, (happlies.mem_proposalFragments hc).2 (.inl ⟨hlink, hkeeps link howner⟩), howner,
      hvalue⟩

theorem Change.Applies.targets_iff (hc : Constraints db) {c : Change}
    (happlies : c.Applies db db') {p : ProposalRow} (hp : p ∈ db.proposals) (id : Identifier) :
    TargetsRecord db' p.proposalId id ↔ TargetsRecord db p.proposalId id := by
  unfold TargetsRecord
  simp only [happlies.proposalTargets hc, List.mem_append]
  constructor
  · rintro ⟨link, hold | hnew, howner, hvalue⟩
    · exact ⟨link, hold, howner, hvalue⟩
    · exact absurd howner ((happlies.newProposal_ne hp).2 link hnew)
  · rintro ⟨link, hold, howner, hvalue⟩
    exact ⟨link, .inl hold, howner, hvalue⟩

theorem proposalTable_on_of_redacts {c : Change} {p : ProposalRow}
    (h : c.Redacts db p.proposalId) : proposalTable.on db c p = p.redact := by
  obtain ⟨executed, n, rfl, hfrozen⟩ := h
  exact (if_pos hfrozen).trans (if_pos rfl)

theorem proposalTable_on_content {c : Change} {p : ProposalRow}
    (h : ¬ c.Redacts db p.proposalId) : (proposalTable.on db c p).content = p.content := by
  unfold ClosedTable.on
  split
  · split
    · rfl
    · rfl
  · rename_i executed n componentType
    split
    · rename_i hfrozen
      rw [if_neg fun heq => h ⟨executed, n, by rw [heq]; rfl, hfrozen⟩]
      split
      · rfl
      · rfl
    · rfl
  · rfl

/-- A change redacts a proposal or leaves all that it proposes. -/
theorem Change.Applies.proposal_kept (hc : Constraints db) {c : Change}
    (happlies : c.Applies db db') {p : ProposalRow} (hp : p ∈ db.proposals) :
    ((proposalTable.on db c p).IsRedacted db' ∧ ∃ D, Frozen db D .memoryProposal p.proposalId) ∨
      ProposalKept db db' p (proposalTable.on db c p) := by
  by_cases hredacts : c.Redacts db p.proposalId
  · left
    rw [proposalTable_on_of_redacts hredacts]
    have hcites := happlies.cites_of_redacts hc hredacts
    obtain ⟨executed, n, -, hfrozen⟩ := hredacts
    exact ⟨⟨contentIsRedacted_redact p.content, hcites⟩, _, hfrozen⟩
  · right
    exact ⟨proposalTable.on_id c p, proposalTable.on_column (fun _ _ => rfl) (fun _ => rfl) c p,
      proposalTable.on_column (fun _ _ => rfl) (fun _ => rfl) c p,
      proposalTable_on_content hredacts, happlies.cites_iff hc hp hredacts,
      happlies.targets_iff hc hp⟩

omit [Platform] in
/-- What a proposal that is kept shares with another is what it shared before. -/
theorem ProposalKept.sameProposed {p p' q q' : ProposalRow} (hp : ProposalKept db db' p p')
    (hq : ProposalKept db db' q q') (h : SameProposed db' p' q') : SameProposed db p q where
  namespaceId := hp.namespaceId.symm.trans (h.namespaceId.trans hq.namespaceId)
  operation := hp.operation.symm.trans (h.operation.trans hq.operation)
  digest := by
    have hdigest := h.digest
    rwa [hp.content, hq.content] at hdigest
  cited id := by
    have hcited := h.cited id
    rwa [hp.proposalId, hq.proposalId, hp.cited, hq.cited] at hcited
  targeted id := by
    have htargeted := h.targeted id
    rwa [hp.proposalId, hq.proposalId, hp.targeted, hq.targeted] at htargeted

theorem ProposalKept.redacted {p p' : ProposalRow} (h : ProposalKept db db' p p')
    (hredacted : p.IsRedacted db) : p'.IsRedacted db' := by
  refine ⟨h.content ▸ hredacted.1, fun id => ?_⟩
  rw [h.proposalId, h.cited]
  exact hredacted.2 id

/-- What a proposal that is kept proposes it proposed before. -/
theorem ProposalKept.proposes {p p' : ProposalRow} {proposal : MemoryProposal}
    (hp : ProposalKept db db' p p') (h : Proposes db' p' proposal) : Proposes db p proposal where
  namespaceId := hp.namespaceId.symm.trans h.namespaceId
  operation := hp.operation.symm.trans h.operation
  digest := by
    have hdigest := h.digest
    rwa [hp.content] at hdigest
  cited id := by
    have hcited := h.cited id
    rwa [hp.proposalId, hp.cited] at hcited
  targeted id := by
    have htargeted := h.targeted id
    rwa [hp.proposalId, hp.targeted] at htargeted

theorem SameProposed.proposes {p q : ProposalRow} {proposal : MemoryProposal}
    (h : SameProposed db p q) (hq : Proposes db q proposal) : Proposes db p proposal where
  namespaceId := h.namespaceId.trans hq.namespaceId
  operation := h.operation.trans hq.operation
  digest := h.digest.trans hq.digest
  cited id := (h.cited id).trans (hq.cited id)
  targeted id := (h.targeted id).trans (hq.targeted id)

omit [Platform] in
theorem SameProposed.symm {p q : ProposalRow} (h : SameProposed db p q) : SameProposed db q p where
  namespaceId := h.namespaceId.symm
  operation := h.operation.symm
  digest := h.digest.symm
  cited id := (h.cited id).symm
  targeted id := (h.targeted id).symm

/-! ## New proposals -/

theorem storeMemoryProposal_new {proposal : MemoryProposal}
    (h : storeMemoryProposal db proposal = .ok db') :
    ∀ row ∈ db.proposals, ¬ Proposes db row proposal := by
  simp only [storeMemoryProposal, Except.bind_eq_ok_iff, Except.exists_unit_iff] at h
  exact ensureProposalIsNotDuplicate_eq_ok_iff.1 h.2.1

omit [Platform] in
/-- The values written for an owner without rows are the values of the owner. -/
theorem exists_link_iff {owner : Identifier} {rows : List (Child Identifier Identifier)}
    {values : List Identifier} (hfresh : ∀ link ∈ rows, link.owner ≠ owner) (id : Identifier) :
    (∃ link ∈ rows ++ enumerate owner 0 values, link.owner = owner ∧ link.value = id) ↔
      id ∈ values := by
  constructor
  · rintro ⟨link, hlink, howner, rfl⟩
    rcases List.mem_append.1 hlink with hold | hnew
    · exact absurd howner (hfresh link hold)
    · exact (mem_enumerate hnew).2.2
  · intro hmem
    obtain ⟨link, hlink, hvalue⟩ := exists_mem_enumerate owner 0 hmem
    exact ⟨link, List.mem_append_right _ hlink, (mem_enumerate hlink).1, hvalue⟩

omit [Platform] in
theorem link_ne_of_fresh {links : List (Child Identifier Identifier)}
    (howners : References Child.owner links ProposalRow.proposalId db.proposals)
    {proposalId : Identifier} (hfresh : ∀ r ∈ db.proposals, r.proposalId ≠ proposalId) :
    ∀ link ∈ links, link.owner ≠ proposalId := by
  intro link hlink howner
  obtain ⟨p, hp, hid⟩ := howners link hlink
  exact hfresh p hp (hid.trans howner)

/-- A new proposal is linked to what it cites and what it is to supersede, and to nothing else. -/
theorem proposes_of_stored (hc : Constraints db) {proposal : MemoryProposal}
    (h : storeMemoryProposal db proposal = .ok db') :
    Proposes db' (ProposalRow.ofProposal proposal.params) proposal := by
  obtain ⟨-, rfl, hfresh, -⟩ := storeMemoryProposal_eq_ok h
  exact ⟨rfl, rfl, rfl, exists_link_iff (link_ne_of_fresh hc.proposalFragmentOwners hfresh),
    exists_link_iff (link_ne_of_fresh hc.proposalTargetOwners hfresh)⟩

/-! ## The invariant -/

/-- Proposals that are not redacted differ in what they propose. -/
structure ProposalKeys (db : Database) : Prop where
  library : LibraryInvariant db
  unique : ∀ p ∈ db.proposals, ∀ q ∈ db.proposals, ¬ p.IsRedacted db → ¬ q.IsRedacted db →
    SameProposed db p q → p = q
  cited : ∀ p ∈ db.proposals, (∃ id, CitesFragment db p.proposalId id) ∨
    ∃ D, Frozen db D .memoryProposal p.proposalId

namespace ProposalKeys

theorem empty : ProposalKeys Database.empty where
  library := LibraryInvariant.empty
  unique _ hp := absurd hp List.not_mem_nil
  cited _ hp := absurd hp List.not_mem_nil

/-- A row that was there and is not redacted does not propose what a new proposal does. -/
theorem new_differs (hc : Constraints db) {new : MemoryProposal}
    (hstored : storeMemoryProposal db new = .ok db') {p : ProposalRow} (hp : p ∈ db.proposals)
    (hopen : ¬ (proposalTable.on db (.proposal new) p).IsRedacted db') :
    ¬ SameProposed db' (proposalTable.on db (.proposal new) p)
      (ProposalRow.ofProposal new.params) := by
  intro hsame
  have happlies : (Change.proposal new).Applies db db' := hstored
  rcases happlies.proposal_kept hc hp with hredacted | hkept
  · exact hopen hredacted.1
  · exact storeMemoryProposal_new hstored p hp
      (hkept.proposes (hsame.proposes (proposes_of_stored hc hstored)))

theorem unique_step (h : ProposalKeys db) {c : Change} (happlies : c.Applies db db') :
    ∀ p ∈ db'.proposals, ∀ q ∈ db'.proposals, ¬ p.IsRedacted db' → ¬ q.IsRedacted db' →
      SameProposed db' p q → p = q := by
  have hc := h.library.constraints
  intro p' hp' q' hq' hopen hopen' hsame
  rcases (proposalTable_sound.mem_rows hc happlies).1 hp' with ⟨p, hp, rfl⟩ | hpnew
  · rcases (proposalTable_sound.mem_rows hc happlies).1 hq' with ⟨q, hq, rfl⟩ | hqnew
    · obtain hredacted | hkept := happlies.proposal_kept hc hp
      · exact absurd hredacted.1 hopen
      · obtain hredacted | hkept' := happlies.proposal_kept hc hq
        · exact absurd hredacted.1 hopen'
        · rw [h.unique p hp q hq (mt hkept.redacted hopen) (mt hkept'.redacted hopen')
            (hkept.sameProposed hkept' hsame)]
    · cases c with
      | proposal new =>
        obtain rfl := List.mem_singleton.1 hqnew
        exact absurd hsame (new_differs hc happlies hp hopen)
      | _ => cases hqnew
  · cases c with
    | proposal new =>
      obtain rfl := List.mem_singleton.1 hpnew
      rcases (proposalTable_sound.mem_rows hc happlies).1 hq' with ⟨q, hq, rfl⟩ | hqnew
      · exact absurd hsame.symm (new_differs hc happlies hq hopen')
      · exact (List.mem_singleton.1 hqnew).symm
    | _ => cases hpnew

theorem cited_step (h : ProposalKeys db) {c : Change} (happlies : c.Applies db db') :
    ∀ p ∈ db'.proposals, (∃ id, CitesFragment db' p.proposalId id) ∨
      ∃ D, Frozen db' D .memoryProposal p.proposalId := by
  have hc := h.library.constraints
  intro p' hp'
  rcases (proposalTable_sound.mem_rows hc happlies).1 hp' with ⟨p, hp, rfl⟩ | hnew
  · obtain ⟨-, D, hfrozen⟩ | hkept := happlies.proposal_kept hc hp
    · have hid : (proposalTable.on db c p).proposalId = p.proposalId := proposalTable.on_id c p
      rw [hid]
      exact .inr ⟨D, happlies.frozen hfrozen⟩
    · rw [hkept.proposalId]
      rcases h.cited p hp with ⟨id, hid⟩ | ⟨D, hfrozen⟩
      · exact .inl ⟨id, (hkept.cited id).2 hid⟩
      · exact .inr ⟨D, happlies.frozen hfrozen⟩
  · cases c with
    | proposal new =>
      obtain rfl := List.mem_singleton.1 hnew
      have hvalid := new.valid
      simp only [MemoryProposalParams.check, Except.bind_eq_ok_iff, Except.exists_unit_iff,
        requireNonEmpty, require_eq_ok_iff] at hvalid
      obtain ⟨id, hid⟩ := List.exists_mem_of_ne_nil _ hvalid.1
      exact .inl ⟨id, ((proposes_of_stored hc happlies).cited id).2 hid⟩
    | _ => cases hnew

theorem step (h : ProposalKeys db) {c : Change} (happlies : c.Applies db db') :
    ProposalKeys db' :=
  ⟨h.library.step happlies, h.unique_step happlies, h.cited_step happlies⟩

theorem op {operation : Op} (h : ProposalKeys db) : ProposalKeys (operation.apply db) :=
  Op.preserves (fun _ _ _ hP _ happlies => hP.step happlies)
    h.library.constraints.resultAttempts h

end ProposalKeys

/-- The invariant holds of every library that operations can produce. -/
theorem proposalKeys_of_run (ops : List Op) : ProposalKeys (runOps .empty ops) :=
  runOps_invariant (fun _ _ h => h.op) .empty ops

/-- What holds of the proposals of a library, and of a new one that proposes the same. -/
structure ProposalsDiffer (db : Database) : Prop where
  /-- Two proposals that are not redacted do not propose the same. -/
  unique : ∀ p ∈ db.proposals, ∀ q ∈ db.proposals, ¬ p.IsRedacted db → ¬ q.IsRedacted db →
    SameProposed db p q → p = q
  /-- Only a proposal that a deletion request has frozen is redacted. -/
  redacted : ∀ p ∈ db.proposals, p.IsRedacted db → ∃ D, Frozen db D .memoryProposal p.proposalId
  /-- What a valid new proposal shares with a stored one is a duplicate, in any order of its
  lists. -/
  refused : ∀ proposal, validateProposalForStore db proposal = .ok () →
    (∃ row ∈ db.proposals, Proposes db row proposal) →
      storeMemoryProposal db proposal = .error (.conflict .duplicateProposal)
  /-- A refusal leaves every table as it was. -/
  unchanged : ∀ proposal e, storeMemoryProposal db proposal = .error e →
    Op.apply db (.storeMemoryProposal proposal) = db

/-- In every reachable library the proposals that are not redacted differ in what they propose. -/
theorem proposals_differ (ops : List Op) : ProposalsDiffer (runOps .empty ops) := by
  have h := proposalKeys_of_run ops
  refine ⟨h.unique, fun p hp hredacted => ?_, fun proposal hvalid hsame => ?_,
    fun proposal e he => ?_⟩
  · rcases h.cited p hp with ⟨id, hid⟩ | hfrozen
    · exact absurd hid (hredacted.2 id)
    · exact hfrozen
  · have hduplicate : ensureProposalIsNotDuplicate (runOps .empty ops) proposal =
        .error (.conflict .duplicateProposal) := by
      obtain ⟨row, hrow, hproposes⟩ := hsame
      refine require_of_not fun hnone => ?_
      have hdiffers := hnone row hrow
      rw [isDuplicateProposal_iff.2 hproposes] at hdiffers
      cases hdiffers
    unfold storeMemoryProposal
    rw [hvalid, Except.ok_bind, hduplicate, Except.error_bind]
  · change committed _ (storeMemoryProposal _ proposal) = _
    rw [he]
    rfl

end RadishMemory
