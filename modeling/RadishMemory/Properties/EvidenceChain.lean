import RadishMemory.Construction.Samples
import RadishMemory.Framework.Chain
import RadishMemory.Properties.Completion

/-!
# The evidence chain

The evidence rows of a request, in the order in which they were inserted, form a chain with
increasing ordinals.  An evidence write reads the latest attempt and the tip of the chain before
the transaction that inserts its row.  One connection alone keeps the chain; two connections keep
it as long as neither inserts while the other is between these reads, or between the second of
them and its own insert of a first row.
-/

namespace RadishMemory

section Library

variable [Platform] {db db' : Database}

/-! ## Chains -/

section Chains

omit [Platform]

/-- The evidence of a request, in the order in which it was inserted. -/
def evidenceRows (db : Database) (D : Identifier) : List EvidenceRow :=
  db.evidence.filter (·.deleteRequestId == D)

/-- The rows form a chain: one row without a predecessor, no two rows with the same one, and every
predecessor is a row of an earlier attempt. -/
structure EvidenceChain (rows : List EvidenceRow) : Prop where
  root : rows ≠ [] → ∃! row, row ∈ rows ∧ row.previousEvidenceId = none
  predecessors : ∀ a ∈ rows, ∀ b ∈ rows, a.previousEvidenceId = b.previousEvidenceId → a = b
  increasing : ∀ row ∈ rows, ∀ id, row.previousEvidenceId = some id → ∃ previous ∈ rows,
    previous.deletionEvidenceId = id ∧ previous.executionOrdinal < row.executionOrdinal

/-- The rows are a chain in the order of the list. -/
structure InOrder (rows : List EvidenceRow) : Prop where
  linked : Linked EvidenceRow.deletionEvidenceId EvidenceRow.previousEvidenceId (fun _ => True)
    rows
  increasing : rows.Pairwise (·.executionOrdinal < ·.executionOrdinal)

theorem InOrder.nil : InOrder [] :=
  ⟨.nil, .nil⟩

theorem InOrder.concat {rows : List EvidenceRow} {row : EvidenceRow} (h : InOrder rows)
    (hprevious : row.previousEvidenceId = rows.getLast?.map EvidenceRow.deletionEvidenceId)
    (hordinal : ∀ r ∈ rows, r.executionOrdinal < row.executionOrdinal) :
    InOrder (rows ++ [row]) := by
  refine ⟨h.linked.concat hprevious fun _ _ => trivial, List.pairwise_append.2
    ⟨h.increasing, List.pairwise_singleton _ _, fun r hr last hlast => ?_⟩⟩
  rw [List.mem_singleton.1 hlast]
  exact hordinal r hr

/-- The last row has the highest ordinal. -/
theorem ordinal_le_last {rows : List EvidenceRow}
    (h : rows.Pairwise (·.executionOrdinal < ·.executionOrdinal)) {last : EvidenceRow}
    (hlast : rows.getLast? = some last) {r : EvidenceRow} (hr : r ∈ rows) :
    r.executionOrdinal ≤ last.executionOrdinal := by
  obtain ⟨before, rfl⟩ := List.getLast?_eq_some_iff.1 hlast
  rcases List.mem_append.1 hr with hold | hnew
  · exact ((List.pairwise_append.1 h).2.2 r hold last List.mem_cons_self).le
  · rw [List.mem_singleton.1 hnew]

/-- A row names the row before it in the list. -/
theorem InOrder.previous {before after : List EvidenceRow} {row : EvidenceRow}
    (h : InOrder (before ++ row :: after)) :
    row.previousEvidenceId = before.getLast?.map EvidenceRow.deletionEvidenceId := by
  cases hlast : before.getLast? with
  | none =>
    rw [List.getLast?_eq_none_iff] at hlast
    subst hlast
    exact h.linked.root row rfl
  | some last =>
    have hlink := (List.isChain_append.1 h.linked.links).2.2 last hlast row rfl
    exact hlink.1

/-- The predecessor of a row is an earlier row. -/
theorem InOrder.earlier {rows : List EvidenceRow} (h : InOrder rows) {row : EvidenceRow}
    (hrow : row ∈ rows) {id : Identifier} (hid : row.previousEvidenceId = some id) :
    ∃ previous ∈ rows, previous.deletionEvidenceId = id ∧
      previous.executionOrdinal < row.executionOrdinal := by
  obtain ⟨before, after, rfl⟩ := List.append_of_mem hrow
  have hprevious := h.previous
  rw [hid] at hprevious
  obtain ⟨last, hlast, hlastId⟩ := Option.map_eq_some_iff.1 hprevious.symm
  have hmem := List.mem_of_getLast? hlast
  exact ⟨last, List.mem_append_left _ hmem, hlastId,
    (List.pairwise_append.1 h.increasing).2.2 last hmem row List.mem_cons_self⟩

/-- Two rows of different attempts have different predecessors. -/
theorem InOrder.previous_ne {rows : List EvidenceRow} (h : InOrder rows)
    (hids : UniqueBy EvidenceRow.deletionEvidenceId rows) {a b : EvidenceRow} (ha : a ∈ rows)
    (hb : b ∈ rows) (hlt : a.executionOrdinal < b.executionOrdinal) :
    a.previousEvidenceId ≠ b.previousEvidenceId := by
  intro hsame
  obtain ⟨before, after, rfl⟩ := List.append_of_mem hb
  have hsplit := List.pairwise_append.1 h.increasing
  have hbefore : a ∈ before := by
    rcases List.mem_append.1 ha with hbefore | hrest
    · exact hbefore
    rcases List.mem_cons.1 hrest with rfl | hafter
    · exact absurd hlt (lt_irrefl _)
    · have := (List.pairwise_cons.1 hsplit.2.1).1 a hafter
      omega
  -- The row before `b` would come before `a` as well.
  obtain ⟨last, hlast⟩ : ∃ last, before.getLast? = some last :=
    ⟨_, List.getLast?_eq_some_getLast (List.ne_nil_of_mem hbefore)⟩
  have hprevious := h.previous
  rw [hlast, Option.map_some] at hprevious
  obtain ⟨p, hp, hpid, hearlier⟩ := h.earlier ha (hsame.trans hprevious)
  have heq : p = last :=
    hids.eq_of_mem hp (List.mem_append_left _ (List.mem_of_getLast? hlast)) hpid
  have hle := ordinal_le_last hsplit.1 hlast hbefore
  rw [heq] at hearlier
  omega

/-- A list of rows in order is a chain. -/
theorem InOrder.chain {rows : List EvidenceRow} (h : InOrder rows)
    (hids : UniqueBy EvidenceRow.deletionEvidenceId rows) : EvidenceChain rows := by
  have hordinals : (rows.map EvidenceRow.executionOrdinal).Nodup :=
    List.pairwise_map.2 (h.increasing.imp fun hlt => hlt.ne)
  have hpredecessors : ∀ a ∈ rows, ∀ b ∈ rows, a.previousEvidenceId = b.previousEvidenceId →
      a = b := by
    intro a ha b hb hsame
    rcases lt_trichotomy a.executionOrdinal b.executionOrdinal with hlt | heq | hgt
    · exact absurd hsame (h.previous_ne hids ha hb hlt)
    · exact List.inj_on_of_nodup_map hordinals ha hb heq
    · exact absurd hsame.symm (h.previous_ne hids hb ha hgt)
  refine ⟨fun hsome => ?_, hpredecessors, fun row hrow id hid => h.earlier hrow hid⟩
  obtain ⟨first, rest, rfl⟩ := List.exists_cons_of_ne_nil hsome
  refine ⟨first, ⟨List.mem_cons_self, h.linked.root first rfl⟩, fun other hother => ?_⟩
  refine hpredecessors other hother.1 first List.mem_cons_self ?_
  rw [hother.2, h.linked.root first rfl]

/-- The tip that an evidence write reads is the last row. -/
theorem InOrder.evidenceTip {D : Identifier} (h : InOrder (evidenceRows db D)) :
    evidenceTip db D = (evidenceRows db D).getLast? := by
  rw [RadishMemory.evidenceTip]
  change ((evidenceRows db D).insertionSort _).head? = _
  have hperm := List.perm_insertionSort
    (fun a b : EvidenceRow => b.executionOrdinal ≤ a.executionOrdinal) (evidenceRows db D)
  cases hlast : (evidenceRows db D).getLast? with
  | none =>
    rw [List.getLast?_eq_none_iff] at hlast
    rw [hlast]
    rfl
  | some last =>
    have hmem := List.mem_of_getLast? hlast
    cases hsorted : (evidenceRows db D).insertionSort
        (fun a b => b.executionOrdinal ≤ a.executionOrdinal) with
    | nil =>
      rw [hsorted] at hperm
      rw [hperm.symm.eq_nil] at hmem
      cases hmem
    | cons tip rest =>
      -- The head has the highest ordinal, and so has the last row.
      rw [List.head?_cons, Option.some.injEq]
      have hge : last.executionOrdinal ≤ tip.executionOrdinal := by
        have hpairwise := List.pairwise_insertionSort
          (fun a b : EvidenceRow => b.executionOrdinal ≤ a.executionOrdinal) (evidenceRows db D)
        rw [hsorted, List.pairwise_cons] at hpairwise
        have hin := hperm.mem_iff.2 hmem
        rw [hsorted, List.mem_cons] at hin
        rcases hin with rfl | hrest
        · exact le_refl _
        · exact hpairwise.1 last hrest
      have htip : tip ∈ evidenceRows db D := by
        rw [← hperm.mem_iff, hsorted]
        exact List.mem_cons_self
      have hordinals : ((evidenceRows db D).map EvidenceRow.executionOrdinal).Nodup :=
        List.pairwise_map.2 (h.increasing.imp fun hlt => hlt.ne)
      exact List.inj_on_of_nodup_map hordinals htip hmem
        (le_antisymm (ordinal_le_last h.increasing hlast htip) hge)

end Chains

/-! ## The invariant -/

section Invariant

omit [Platform]

/-- The evidence of every request is in order, and is about attempts of the request. -/
structure EvidenceInvariant (db : Database) : Prop where
  inOrder : ∀ D, InOrder (evidenceRows db D)
  ids : UniqueBy EvidenceRow.deletionEvidenceId db.evidence
  attempts : ∀ e ∈ db.evidence, ∃ a ∈ db.attempts, a.deleteRequestId = e.deleteRequestId ∧
    a.attemptOrdinal = e.executionOrdinal

theorem mem_evidenceRows {D : Identifier} {e : EvidenceRow} :
    e ∈ evidenceRows db D ↔ e ∈ db.evidence ∧ e.deleteRequestId = D := by
  rw [evidenceRows, List.mem_filter, beq_iff_eq]

theorem evidenceRows_append {row : EvidenceRow} (h : db'.evidence = db.evidence ++ [row])
    (D : Identifier) : evidenceRows db' D =
      evidenceRows db D ++ if row.deleteRequestId = D then [row] else [] := by
  rw [evidenceRows, evidenceRows, h, List.filter_append]
  congr 1
  by_cases hD : row.deleteRequestId = D
  · rw [if_pos hD, List.filter_eq_self]
    intro r hr
    rw [List.mem_singleton.1 hr, beq_iff_eq, hD]
  · rw [if_neg hD, List.filter_eq_nil_iff]
    intro r hr
    rw [List.mem_singleton.1 hr, beq_iff_eq]
    exact hD

theorem EvidenceInvariant.chain (h : EvidenceInvariant db) (D : Identifier) :
    EvidenceChain (evidenceRows db D) :=
  (h.inOrder D).chain (h.ids.sublist (List.filter_sublist.map _))

theorem EvidenceInvariant.empty : EvidenceInvariant Database.empty where
  inOrder _ := .nil
  ids := .nil
  attempts _ he := absurd he List.not_mem_nil

/-- Attempts may be opened as long as the evidence stays as it is. -/
theorem EvidenceInvariant.of_same (h : EvidenceInvariant db)
    (hevidence : db'.evidence = db.evidence)
    (hattempts : ∀ a ∈ db.attempts, a ∈ db'.attempts) : EvidenceInvariant db' := by
  have hrows : ∀ D, evidenceRows db' D = evidenceRows db D := fun D => by
    rw [evidenceRows, evidenceRows, hevidence]
  refine ⟨fun D => by rw [hrows]; exact h.inOrder D, by rw [hevidence]; exact h.ids, fun e he => ?_⟩
  rw [hevidence] at he
  obtain ⟨a, ha, hsame⟩ := h.attempts e he
  exact ⟨a, hattempts a ha, hsame⟩

/-- The ordinals of stored evidence are not above the latest attempt. -/
theorem EvidenceInvariant.le_latest (h : EvidenceInvariant db) {D : Identifier} {latest : Nat}
    (hlatest : latestAttempt db D = some latest) {e : EvidenceRow} (he : e ∈ evidenceRows db D) :
    e.executionOrdinal ≤ latest := by
  rw [mem_evidenceRows] at he
  obtain ⟨a, ha, hD, hordinal⟩ := h.attempts e he.1
  rw [← hordinal]
  exact (latestAttempt_eq_some hlatest).2 a ha (hD.trans he.2)

/-- A row is inserted at the end of the chain. -/
theorem EvidenceInvariant.insert (h : EvidenceInvariant db) {row : EvidenceRow}
    (hinsert : db.insertEvidenceRow row = .ok db')
    (hprevious : row.previousEvidenceId =
      (evidenceRows db row.deleteRequestId).getLast?.map EvidenceRow.deletionEvidenceId)
    (hlatest : ∀ r ∈ evidenceRows db row.deleteRequestId,
      r.executionOrdinal ≤ row.executionOrdinal) : EvidenceInvariant db' := by
  have hattempt := Database.insertEvidenceRow_attempt hinsert
  obtain ⟨hfresh, rfl⟩ := Database.insertEvidenceRow_eq_ok hinsert
  refine ⟨fun D => ?_, h.ids.append_singleton fun r hr => (hfresh r hr).1, fun e he => ?_⟩
  · rw [evidenceRows_append rfl]
    by_cases hD : row.deleteRequestId = D
    · subst hD
      rw [if_pos rfl]
      refine (h.inOrder _).concat hprevious fun r hr => ?_
      have hne := ((hfresh r (mem_evidenceRows.1 hr).1).2 (mem_evidenceRows.1 hr).2).1
      have hle := hlatest r hr
      omega
    · rw [if_neg hD, List.append_nil]
      exact h.inOrder D
  · rcases List.mem_append.1 he with hold | hnew
    · exact h.attempts e hold
    · rw [List.mem_singleton.1 hnew]
      exact hattempt

end Invariant

/-! ## One connection -/

theorem Change.Applies.attempts_subset {c : Change} (h : c.Applies db db') :
    ∀ a ∈ db.attempts, a ∈ db'.attempts := by
  have heffect := h.deletionEffect
  intro a ha
  cases c with
  | request new closure =>
    have heq : db'.toDeletionTables = _ := heffect
    rw [heq]
    exact ha
  | attempt D =>
    obtain ⟨checkedAt, heq⟩ := heffect
    rw [heq]
    exact List.mem_append_left _ ha
  | component executed n componentType =>
    obtain ⟨planned, result, -, -, heq⟩ := heffect
    rw [heq]
    exact ha
  | failure executed n componentType =>
    obtain ⟨planned, result, -, -, heq⟩ := heffect
    rw [heq]
    exact ha
  | _ =>
    have heq : db'.toDeletionTables = _ := heffect
    rw [heq]
    exact ha

theorem EvidenceInvariant.step (h : EvidenceInvariant db) {c : Change}
    (happlies : c.Applies db db') :
    EvidenceInvariant db' := by
  rcases happlies.evidence with heq | ⟨new, latest, rfl, -⟩
  · exact h.of_same heq happlies.attempts_subset
  · obtain ⟨hchecked, hinsert⟩ := happlies
    refine h.insert hinsert ?_ fun r hr => h.le_latest hchecked.isLatest hr
    change new.params.previousEvidenceId = _
    rw [← hchecked.tip, (h.inOrder _).evidenceTip]
    rfl

theorem evidenceInvariant_of_run (ops : List Op) : EvidenceInvariant (runOps .empty ops) := by
  have hboth : EvidenceInvariant (runOps .empty ops) ∧ LibraryInvariant (runOps .empty ops) :=
    runOps_invariant (P := fun db => EvidenceInvariant db ∧ LibraryInvariant db)
      (fun db op h => ⟨Op.preserves (fun _ _ _ hP _ happlies => hP.step happlies)
        h.2.constraints.resultAttempts h.1, h.2.op⟩)
      ⟨.empty, .empty⟩ ops
  exact hboth.1

/-! ## Accesses -/

section Accesses

omit [Platform]

/-- What an access promises the other connection: only an evidence transaction adds evidence, and
only one row, of its own request. -/
def Promised (label : AccessKind) (db db' : Database) : Prop :=
  db'.evidence = db.evidence ∨ ∃ D previous row, label = .evidenceInsert D previous ∧
    row.deleteRequestId = D ∧ db'.evidence = db.evidence ++ [row]

/-- The access leaves the evidence as it is and forgets no attempt. -/
def Quiet (_ : AccessKind) (effect : Database → Database) : Prop :=
  ∀ db, (effect db).evidence = db.evidence ∧ ∀ a ∈ db.attempts, a ∈ (effect db).attempts

theorem quiet_id (label : AccessKind) : Quiet label id :=
  fun _ => ⟨rfl, fun _ ha => ha⟩

theorem quiet_commit {α : Type} {label : AccessKind}
    {body : Database → Except SqliteError (α × Database)}
    (h : ∀ db a db', body db = .ok (a, db') →
      db'.evidence = db.evidence ∧ ∀ a ∈ db.attempts, a ∈ db'.attempts) :
    Quiet label (Program.commit body) := by
  intro db
  unfold Program.commit
  cases hbody : body db with
  | error e => exact ⟨rfl, fun _ ha => ha⟩
  | ok result => exact h db result.1 result.2 hbody

/-- The evidence of a request after an access of the other connection. -/
theorem Promised.rows {label : AccessKind} (h : Promised label db db') (D : Identifier) :
    evidenceRows db' D = evidenceRows db D ∨ ∃ previous row, label = .evidenceInsert D previous ∧
      evidenceRows db' D = evidenceRows db D ++ [row] := by
  rcases h with hsame | ⟨D', previous, row, rfl, hrow, happend⟩
  · exact .inl (by rw [evidenceRows, evidenceRows, hsame])
  · rw [evidenceRows_append happend]
    by_cases hD : row.deleteRequestId = D
    · rw [if_pos hD]
      rw [← hrow, hD]
      exact .inr ⟨previous, row, rfl, rfl⟩
    · rw [if_neg hD, List.append_nil]
      exact .inl rfl

/-- An undisturbed access finds the evidence of its request as it was. -/
theorem Promised.rows_undisturbed {waiting acting : AccessKind} (h : Promised acting db db')
    (hcompatible : Undisturbed waiting acting) {D : Identifier}
    (hwaiting : waiting = .evidenceRead D ∨ waiting = .evidenceInsert D none) :
    evidenceRows db' D = evidenceRows db D := by
  rcases h.rows D with hsame | ⟨previous, row, hacting, -⟩
  · exact hsame
  · obtain ⟨hread, hinsert⟩ := hcompatible D previous hacting
    rcases hwaiting with heq | heq
    · exact absurd heq hread
    · exact absurd heq hinsert

/-- The evidence of the request is not from after the attempt. -/
def UpTo (D : Identifier) (latest : Nat) (db : Database) : Prop :=
  ∀ e ∈ evidenceRows db D, e.executionOrdinal ≤ latest

theorem upTo_stable (D : Identifier) (latest : Nat) :
    Program.StableAt EvidenceInvariant Promised Undisturbed (UpTo D latest) (.evidenceRead D) := by
  rintro db db' hP ⟨acting, hcompatible, hpromised, -⟩
  rw [UpTo, hpromised.rows_undisturbed hcompatible (.inl rfl)]
  exact hP

/-- The tip was read: it is the predecessor, or the predecessor has got a successor since. -/
def TipRead (D : Identifier) (latest : Nat) (db : Database) : Option Identifier → Prop
  | none => evidenceRows db D = []
  | some id => ∃ tip ∈ evidenceRows db D, tip.deletionEvidenceId = id ∧
      tip.executionOrdinal ≤ latest ∧ ((evidenceRows db D).getLast? = some tip ∨
        ∃ r ∈ evidenceRows db D, r.previousEvidenceId = some id)

theorem tipRead_stable (D : Identifier) (latest : Nat) (previous : Option Identifier) :
    Program.StableAt EvidenceInvariant Promised Undisturbed (TipRead D latest · previous)
      (.evidenceInsert D previous) := by
  rintro db db' hP ⟨acting, hcompatible, hpromised, hinvariant⟩
  cases previous with
  | none =>
    rw [TipRead, hpromised.rows_undisturbed hcompatible (.inr rfl)]
    exact hP
  | some id =>
    rcases hpromised.rows D with hsame | ⟨_, row, -, happend⟩
    · rw [TipRead, hsame]
      exact hP
    · obtain ⟨tip, htip, rfl, hle, hnext⟩ := hP
      rw [TipRead, happend]
      refine ⟨tip, List.mem_append_left _ htip, rfl, hle, .inr ?_⟩
      rcases hnext with hlast | ⟨r, hr, hprevious⟩
      · -- The row that was appended follows the tip.
        have horder := hinvariant.inOrder D
        rw [happend] at horder
        refine ⟨row, List.mem_append_right _ List.mem_cons_self, ?_⟩
        rw [horder.previous, hlast, Option.map_some]
      · exact ⟨r, List.mem_append_left _ hr, hprevious⟩

/-- The tip as an evidence write reads it. -/
theorem EvidenceInvariant.tipRead (h : EvidenceInvariant db) {D : Identifier} {latest : Nat}
    (hupTo : UpTo D latest db) :
    TipRead D latest db ((evidenceTip db D).map EvidenceRow.deletionEvidenceId) := by
  rw [(h.inOrder D).evidenceTip]
  cases hlast : (evidenceRows db D).getLast? with
  | none => exact List.getLast?_eq_none_iff.1 hlast
  | some tip =>
    have hmem := List.mem_of_getLast? hlast
    exact ⟨tip, hmem, rfl, hupTo tip hmem, .inl hlast⟩

/-- A row is inserted after the tip that was read, or not at all. -/
theorem EvidenceInvariant.insert_read (h : EvidenceInvariant db) {row : EvidenceRow}
    (hinsert : db.insertEvidenceRow row = .ok db')
    (hread : TipRead row.deleteRequestId row.executionOrdinal db row.previousEvidenceId) :
    EvidenceInvariant db' := by
  have hfresh := (Database.insertEvidenceRow_eq_ok hinsert).1
  cases hprevious : row.previousEvidenceId with
  | none =>
    rw [hprevious] at hread
    have hnil : evidenceRows db row.deleteRequestId = [] := hread
    refine h.insert hinsert ?_ ?_
    · rw [hprevious, hnil]
      rfl
    · rw [hnil]
      exact fun r hr => absurd hr List.not_mem_nil
  | some id =>
    rw [hprevious] at hread
    obtain ⟨tip, htip, rfl, hle, hlast | ⟨r, hr, hsucceeds⟩⟩ := hread
    · refine h.insert hinsert ?_ fun r hr => ?_
      · rw [hprevious, hlast]
        rfl
      · exact (ordinal_le_last (h.inOrder _).increasing hlast hr).trans hle
    · -- The predecessor is taken.
      obtain ⟨hmem, hD⟩ := mem_evidenceRows.1 hr
      have hclash := ((hfresh r hmem).2 hD).2 (by rw [hprevious]; rfl)
      rw [hprevious, hsucceeds] at hclash
      exact absurd rfl hclash

end Accesses

/-! ## Calls -/

omit [Platform] in
theorem quiet_respects {α : Type} {call : Call α} (hquiet : call.Each Quiet) :
    call.Respects EvidenceInvariant Promised Undisturbed (fun _ _ => True) db :=
  hquiet.respects (P := fun _ => True) trivial (fun _ _ _ _ _ _ _ => trivial)
    fun _ _ a hA _ hInv => ⟨.inl (hA a).1, hInv.of_same (hA a).1 (hA a).2, trivial⟩

theorem executeComponent_quiet (request : DeleteRequest) (execution : LocalDeletionExecution)
    (faulty : DeletionComponentType → Bool) (attemptOrdinal : Nat) (hasFailed : Bool)
    (componentType : DeletionComponentType) :
    (executeComponent request execution faulty attemptOrdinal hasFailed componentType).Each
      Quiet := by
  refine (Program.each_ofExcept _).bind fun component => ?_
  refine (Program.each_transact (quiet_commit fun db succeeded db' h => ?_)).bind
    fun succeeded => ?_
  · rcases componentTransaction_cases h with ⟨-, rfl⟩ |
      ⟨acted, action, result, -, haction, -, hinsert⟩
    · exact ⟨rfl, fun _ ha => ha⟩
    · have hframe := (executeComponentAction_effect haction).frame
      rw [insertExecutionResult_eq_ok hinsert]
      refine ⟨?_, fun a ha => ?_⟩
      · change acted.evidence = _
        rw [hframe]
      · change a ∈ acted.attempts
        rw [hframe]
        exact ha
  · cases succeeded with
    | true => exact Program.each_pure _
    | false =>
      refine (Program.each_ofExcept _).bind fun result => ?_
      refine (Program.each_transact (quiet_commit fun db _ db' h => ?_)).bind
        fun _ => Program.each_pure _
      simp only [failureTransaction, Except.bind_eq_ok_iff, Except.pure_eq_ok_iff,
        Prod.mk.injEq, true_and] at h
      obtain ⟨db₁, hinsert, rfl⟩ := h
      rw [insertExecutionResult_eq_ok hinsert]
      exact ⟨rfl, fun _ ha => ha⟩

theorem executeDeletion_quiet (namespaceId deleteRequestId : Identifier)
    (execution : LocalDeletionExecution) (faulty : DeletionComponentType → Bool) :
    (executeDeletion namespaceId deleteRequestId execution faulty).Each Quiet := by
  refine ((loadCheckedRequest_readOnly _ _).each quiet_id).bind fun request => ?_
  refine (Program.each_transact (quiet_commit fun db n db' h => ?_)).bind fun n => ?_
  · obtain ⟨-, -, rfl⟩ := insertNextAttempt_eq_ok h
    exact ⟨rfl, fun a ha => List.mem_append_left _ ha⟩
  · refine (Program.each_foldlM (fun b t => executeComponent_quiet _ _ _ _ b t) _ _).bind
      fun _ => ?_
    exact (loadExecutionResults_readOnly _ _ _).each quiet_id

/-- The reads of the results of an attempt carry what is known about the evidence. -/
theorem loadExecutionResults_respects {request : DeleteRequest} {D : Identifier} {latest n : Nat}
    (h : UpTo D latest db) :
    (loadExecutionResults (.evidenceRead D) request n).Respects EvidenceInvariant Promised
      Undisturbed (fun _ after => UpTo D latest after) db := by
  have heach : (loadExecutionResults (.evidenceRead D) request n).Each
      fun label effect => label = .evidenceRead D ∧ effect = id :=
    Program.each_mapM (fun _ => Program.each_read ⟨rfl, rfl⟩) _
  refine heach.respects (P := UpTo D latest) h ?_ ?_
  · rintro label effect ⟨rfl, -⟩
    exact upTo_stable D latest
  · rintro label effect a ⟨-, rfl⟩ hP hInv
    exact ⟨.inl rfl, hInv, hP⟩

theorem storeDeletionEvidence_respects (evidence : DeletionEvidence) :
    (storeDeletionEvidence evidence).Respects EvidenceInvariant Promised Undisturbed
      (fun _ _ => True) db := by
  have hload : (loadCheckedRequest evidence.params.namespaceId
      evidence.params.deleteRequestId).Respects EvidenceInvariant Promised Undisturbed
      (fun _ _ => True) db :=
    quiet_respects ((loadCheckedRequest_readOnly _ _).each quiet_id)
  refine Program.respects_bind (hload.mono fun loaded after _ => ?_)
  cases loaded with
  | error e => trivial
  | ok request =>
  refine Program.respects_bind (Program.respects_done ?_)
  cases (validateDeletionEvidence request evidence).mapError deletionCore with
  | error e => trivial
  | ok u =>
  -- The latest attempt is read: no evidence is from after it.
  refine Program.respects_bind (Program.respects_access (P := fun _ => True) trivial
    (fun _ _ _ _ => trivial) fun db _ hInv => ⟨.inl rfl, hInv, Program.respects_done ?_⟩)
  dsimp only [id]
  cases hlatest : latestAttempt db evidence.params.deleteRequestId with
  | none => trivial
  | some latest =>
  have hupTo : UpTo evidence.params.deleteRequestId latest db :=
    fun e he => hInv.le_latest hlatest he
  refine Program.respects_bind ((loadExecutionResults_respects hupTo).mono
    fun results after hP => ?_)
  cases results with
  | error e => trivial
  | ok persisted =>
  refine Program.respects_bind (Program.respects_done ?_)
  cases validateEvidenceResults evidence.params persisted with
  | error e => trivial
  | ok u =>
  -- The tip is read, and nothing was inserted since the latest attempt was.
  refine Program.respects_bind (Program.respects_access hP (upTo_stable _ _)
    fun db hP hInv => ⟨.inl rfl, hInv, Program.respects_done ?_⟩)
  have hread := hInv.tipRead hP
  refine Program.respects_bind (Program.respects_done ?_)
  by_cases htip : (evidenceTip db evidence.params.deleteRequestId).map
      EvidenceRow.deletionEvidenceId = evidence.params.previousEvidenceId
  · rw [require_of htip]
    rw [htip] at hread
    refine Program.respects_access hread (tipRead_stable _ _ _) fun db hread hInv => ?_
    unfold Program.commit
    cases hinsert : insertEvidence evidence.params latest db with
    | error e => exact ⟨.inl rfl, hInv, trivial⟩
    | ok inserted =>
      simp only [insertEvidence, Except.bind_eq_ok_iff, Except.pure_eq_ok_iff] at hinsert
      obtain ⟨final, hrow, rfl⟩ := hinsert
      refine ⟨.inr ⟨_, _, EvidenceRow.ofEvidence latest evidence.params, rfl, rfl, ?_⟩,
        hInv.insert_read hrow hread, trivial⟩
      dsimp only
      rw [(Database.insertEvidenceRow_eq_ok hrow).2]
  · rw [require_of_not htip]
    trivial

omit [Platform] in
theorem discard_respects {α : Type} {call : Call α}
    (h : call.Respects EvidenceInvariant Promised Undisturbed (fun _ _ => True) db) :
    (discard call).Respects EvidenceInvariant Promised Undisturbed (fun _ _ => True) db := by
  refine Program.respects_bind (h.mono fun result after _ => ?_)
  cases result with
  | error e => trivial
  | ok a => trivial

/-- Two connections keep the evidence of every request in a chain, as long as neither disturbs an
evidence write of the other. -/
theorem evidence_chain_is_linear (ops : List Op) (s : Connections)
    (hrun : Relation.ReflTransGen (Interleaving.Step DeletionCall Undisturbed)
      (Connections.opened (runOps .empty ops)) s) (D : Identifier) :
    EvidenceChain (evidenceRows s.store D) := by
  have hstart : Interleaving.Sound EvidenceInvariant Promised Undisturbed
      (Connections.opened (runOps .empty ops)) :=
    ⟨evidenceInvariant_of_run ops, fun _ => trivial⟩
  refine (hstart.run (fun p hp db _ => ?_) hrun).invariant.chain D
  cases hp with
  | executeDeletion namespaceId deleteRequestId execution faulty =>
    exact discard_respects (quiet_respects (executeDeletion_quiet _ _ _ _))
  | storeDeletionEvidence evidence =>
    exact discard_respects (storeDeletionEvidence_respects evidence)

end Library

section Run

open Sample

/-- The two runs below, evaluated. -/
theorem racing_evaluated :
    (((storingFirst 25).running .second).nextLabel = none ∧
      (executingAgain.running .second).nextLabel = none) ∧
    (evidenceRows (storingFirst 26).store (identifier "delete-1")).length = 1 ∧
    (evidenceRows (storingAgain.advance .first).store (identifier "delete-1")).map
        (fun row => (row.deletionEvidenceId, row.previousEvidenceId)) =
      [(identifier "evidence-2", none), (identifier "evidence-1", none)] := by
  decide +kernel

/-- The first connection stores evidence while the other one is idle. -/
theorem storingFirst_reaches (accesses : Nat) (compatible : AccessKind → AccessKind → Prop) :
    Relation.ReflTransGen (Interleaving.Step DeletionCall compatible)
      (Connections.opened (runOps .empty (firstRequested ++ [executeFirst])))
      (storingFirst accesses) := by
  refine (Interleaving.starting_reaches (i := .first)
    (.storeDeletionEvidence completedFirst) rfl).trans ?_
  refine Interleaving.Free.advanceFor (fun j hj waiting hwaiting => ?_) accesses
  cases j with
  | first => exact absurd rfl hj
  | second => cases hwaiting

/-- The evidence of the first execution, stored by one connection alone. -/
theorem evidence_chain_of_one_file :
    (evidenceRows (storingFirst 26).store (identifier "delete-1")).length = 1 ∧
      EvidenceChain (evidenceRows (storingFirst 26).store (identifier "delete-1")) :=
  ⟨racing_evaluated.2.1, evidence_chain_is_linear (firstRequested ++ [executeFirst])
    (storingFirst 26) (storingFirst_reaches 26 Undisturbed) (identifier "delete-1")⟩

/-- The first connection has read that there is no evidence yet; the second one executes the
request again and stores evidence of that; then the first one inserts its row, the second without
a predecessor. -/
theorem racing_evidence_has_two_roots :
    ∃ s, Relation.ReflTransGen (Interleaving.Step DeletionCall fun _ _ => True)
        (Connections.opened (runOps .empty (firstRequested ++ [executeFirst]))) s ∧
      ¬ EvidenceChain (evidenceRows s.store (identifier "delete-1")) := by
  obtain ⟨⟨hidle, hexecuted⟩, -, hrows⟩ := racing_evaluated
  have hfree : ∀ (s : Connections) i, s.Free (fun _ _ => True) i :=
    fun _ _ _ _ _ _ _ => trivial
  have hexecuting : Relation.ReflTransGen (Interleaving.Step DeletionCall fun _ _ => True)
      (storingFirst 25) executingAgain := by
    refine (Interleaving.starting_reaches (i := Connection.second)
      (DeletionCall.executeDeletion namespaceId (identifier "delete-1") execution fun _ => false)
      hidle).trans ?_
    exact (hfree _ .second).advanceFor 40
  have hstoring : Relation.ReflTransGen (Interleaving.Step DeletionCall fun _ _ => True)
      executingAgain storingAgain := by
    refine (Interleaving.starting_reaches (i := Connection.second)
      (DeletionCall.storeDeletionEvidence completedAgain) hexecuted).trans ?_
    exact (hfree _ .second).advanceFor 40
  have hinserting : Relation.ReflTransGen (Interleaving.Step DeletionCall fun _ _ => True)
      storingAgain (storingAgain.advance .first) :=
    (hfree storingAgain .first).advanceFor 1
  refine ⟨storingAgain.advance .first, ?_, fun hchain => ?_⟩
  · exact (storingFirst_reaches 25 _).trans (hexecuting.trans (hstoring.trans hinserting))
  · generalize evidenceRows (storingAgain.advance .first).store (identifier "delete-1") = rows
      at hrows hchain
    have hmem : ∀ id, id = identifier "evidence-2" ∨ id = identifier "evidence-1" →
        ∃ row ∈ rows, row.deletionEvidenceId = id ∧ row.previousEvidenceId = none := by
      intro id hid
      have hin : (id, none) ∈ rows.map
          (fun row => (row.deletionEvidenceId, row.previousEvidenceId)) := by
        rw [hrows]
        rcases hid with rfl | rfl
        · exact List.mem_cons_self
        · exact List.mem_cons_of_mem _ List.mem_cons_self
      obtain ⟨row, hrow, heq⟩ := List.mem_map.1 hin
      rw [Prod.mk.injEq] at heq
      exact ⟨row, hrow, heq⟩
    obtain ⟨a, ha, haId, haRoot⟩ := hmem _ (.inl rfl)
    obtain ⟨b, hb, hbId, hbRoot⟩ := hmem _ (.inr rfl)
    have hsame := hchain.predecessors a ha b hb (haRoot.trans hbRoot.symm)
    rw [← hsame, haId] at hbId
    exact absurd hbId (by decide)

end Run

end RadishMemory
