import RadishMemory.Framework.Checked

/-!
# Programs over a shared store

A call that makes several accesses to a store is a `Program`: it has finished with a result, or
it is about to make its next access.  An access is atomic: it changes the store and, from what
it saw, determines the rest of the program.  Between two accesses of one program the store may
be changed by somebody else.

A program is run alone to its end (`run`), alone until the store breaks down after a number of
accesses (`runFor`), or one access at a time by a scheduler (`Construction.Sqlite.Concurrency`
does so for two connections).

`Safe I Q p s` is the weakest precondition of a solitary run with a crash condition: every state
after an access satisfies `I`, and the result with its final state satisfies `Q`.  A run that
breaks down ends in a state that satisfies `I`, so one proof covers completed and interrupted
calls.
-/

universe u

/-- A computation that accesses a store of type `σ` step by step; every access has a label. -/
inductive Program (L : Type u) (σ : Type u) (ε : Type u) (α : Type u) where
  | done (result : Except ε α)
  | access (label : L) (effect : σ → σ) (next : σ → Program L σ ε α)

namespace Program

variable {L σ ε α β : Type u}

/-- Run a second program on the value of the first; an error ends both. -/
def bind : Program L σ ε α → (α → Program L σ ε β) → Program L σ ε β
  | .done (.ok a), f => f a
  | .done (.error e), _ => .done (.error e)
  | .access label effect next, f => .access label effect fun s => (next s).bind f

instance : Monad (Program L σ ε) where
  pure a := .done (.ok a)
  bind := bind

theorem bind_done (p : Program L σ ε α) : p.bind (fun a => .done (.ok a)) = p := by
  induction p with
  | done result =>
    cases result with
    | ok a => rfl
    | error e => rfl
  | access label effect next ih => exact congrArg (access label effect) (funext ih)

theorem bind_bind {γ : Type u} (p : Program L σ ε α) (f : α → Program L σ ε β)
    (g : β → Program L σ ε γ) : (p.bind f).bind g = p.bind fun a => (f a).bind g := by
  induction p with
  | done result =>
    cases result with
    | ok a => rfl
    | error e => rfl
  | access label effect next ih => exact congrArg (access label effect) (funext ih)

instance : LawfulMonad (Program L σ ε) :=
  LawfulMonad.mk' (Program L σ ε) bind_done (fun _ _ => rfl) bind_bind

/-- A computation that does not touch the store. -/
def ofExcept (x : Except ε α) : Program L σ ε α :=
  .done x

/-- One query. -/
def read (label : L) (query : σ → Except ε α) : Program L σ ε α :=
  .access label id fun s => .done (query s)

/-- What a transaction leaves behind: nothing, when it fails. -/
def commit (body : σ → Except ε (α × σ)) (s : σ) : σ :=
  match body s with
  | .ok (_, s') => s'
  | .error _ => s

/-- One transaction: it commits as a whole or changes nothing. -/
def transact (label : L) (body : σ → Except ε (α × σ)) : Program L σ ε α :=
  .access label (commit body) fun s => .done (Prod.fst <$> body s)

/-- Report errors in the terms of the caller. -/
def mapError {ε' : Type u} (f : ε → ε') : Program L σ ε α → Program L σ ε' α
  | .done result => .done (result.mapError f)
  | .access label effect next => .access label effect fun s => (next s).mapError f

/-- Hand the result to the caller, errors included. -/
def attempt : Program L σ ε α → Program L σ ε (Except ε α)
  | .done result => .done (.ok result)
  | .access label effect next => .access label effect fun s => (next s).attempt

/-- The label of the next access. -/
def nextLabel : Program L σ ε α → Option L
  | .done _ => none
  | .access label _ _ => some label

/-! ## Solitary runs -/

/-- Run alone to the end. -/
def run : Program L σ ε α → σ → Except ε α × σ
  | .done result, s => (result, s)
  | .access _ effect next, s => (next s).run (effect s)

/-- Run alone until the store refuses the access after the first `n` with `fault`. -/
def runFor (fault : ε) : Nat → Program L σ ε α → σ → Except ε α × σ
  | _, .done result, s => (result, s)
  | 0, .access _ _ _, s => (.error fault, s)
  | n + 1, .access _ effect next, s => runFor fault n (next s) (effect s)

/-- Run with an optional breakdown of the store. -/
def runWith (fault : ε) (breaksAfter : Option Nat) (p : Program L σ ε α) (s : σ) :
    Except ε α × σ :=
  match breaksAfter with
  | none => p.run s
  | some n => runFor fault n p s

@[simp] theorem run_pure (a : α) (s : σ) : (pure a : Program L σ ε α).run s = (.ok a, s) := rfl

@[simp] theorem run_ofExcept (x : Except ε α) (s : σ) :
    (ofExcept x : Program L σ ε α).run s = (x, s) := rfl

@[simp] theorem run_read (label : L) (query : σ → Except ε α) (s : σ) :
    (read label query).run s = (query s, s) := rfl

theorem run_transact (label : L) (body : σ → Except ε (α × σ)) (s : σ) :
    (transact label body).run s = (Prod.fst <$> body s, commit body s) := rfl

/-- A sequence runs its first part and then, on success, its second. -/
theorem run_bind (p : Program L σ ε α) (f : α → Program L σ ε β) (s : σ) :
    (p >>= f).run s =
      match p.run s with
      | (.ok a, s') => (f a).run s'
      | (.error e, s') => (.error e, s') := by
  change (p.bind f).run s = _
  induction p generalizing s with
  | done result =>
    cases result with
    | ok a => rfl
    | error e => rfl
  | access label effect next ih => exact ih s (effect s)

/-- What a sequence computes when it succeeds. -/
theorem run_bind_eq_ok_iff {p : Program L σ ε α} {f : α → Program L σ ε β} {s : σ} {b : β} :
    ((p >>= f).run s).1 = .ok b ↔
      ∃ a, (p.run s).1 = .ok a ∧ ((f a).run (p.run s).2).1 = .ok b := by
  rw [run_bind]
  cases hrun : p.run s with
  | mk result s' =>
    cases result with
    | ok a => simp
    | error e => simp

theorem run_mapError {ε' : Type u} (f : ε → ε') (p : Program L σ ε α) (s : σ) :
    (p.mapError f).run s = ((p.run s).1.mapError f, (p.run s).2) := by
  induction p generalizing s with
  | done result => rfl
  | access label effect next ih => exact ih s (effect s)

theorem runWith_none (fault : ε) (p : Program L σ ε α) (s : σ) :
    p.runWith fault none s = p.run s := rfl

/-- A run makes its next access, unless the store breaks down before it. -/
theorem runWith_access (fault : ε) (breaksAfter : Option Nat) (label : L) (effect : σ → σ)
    (next : σ → Program L σ ε α) (s : σ) :
    (access label effect next).runWith fault breaksAfter s =
      if breaksAfter = some 0 then (.error fault, s)
      else (next s).runWith fault (breaksAfter.map (· - 1)) (effect s) := by
  rcases breaksAfter with _ | _ | n
  · rfl
  · rfl
  · rfl

@[simp] theorem runWith_done (fault : ε) (breaksAfter : Option Nat) (result : Except ε α) (s : σ) :
    (done result : Program L σ ε α).runWith fault breaksAfter s = (result, s) := by
  rcases breaksAfter with _ | _ | n
  · rfl
  · rfl
  · rfl

/-! ## Crash safety -/

/-- Every state after an access satisfies `I`; the result and its final state satisfy `Q`. -/
def Safe (I : σ → Prop) (Q : Except ε α → σ → Prop) : Program L σ ε α → σ → Prop
  | .done result, s => Q result s
  | .access _ effect next, s => I (effect s) ∧ (next s).Safe I Q (effect s)

variable {I : σ → Prop} {Q Q' : Except ε α → σ → Prop} {s : σ}

theorem safe_done {result : Except ε α} (h : Q result s) :
    (done result : Program L σ ε α).Safe I Q s := h

theorem safe_pure {a : α} (h : Q (.ok a) s) : (pure a : Program L σ ε α).Safe I Q s := h

theorem safe_ofExcept {x : Except ε α} (h : Q x s) :
    (ofExcept x : Program L σ ε α).Safe I Q s := h

theorem safe_read {label : L} {query : σ → Except ε α} (hI : I s) (h : Q (query s) s) :
    (read label query).Safe I Q s := ⟨hI, h⟩

theorem safe_transact {label : L} {body : σ → Except ε (α × σ)}
    (hok : ∀ a s', body s = .ok (a, s') → I s' ∧ Q (.ok a) s')
    (herr : ∀ e, body s = .error e → I s ∧ Q (.error e) s) :
    (transact label body).Safe I Q s := by
  change I (commit body s) ∧ Q (Prod.fst <$> body s) (commit body s)
  unfold commit
  cases h : body s with
  | ok r => exact hok r.1 r.2 h
  | error e => exact herr e h

theorem Safe.mono {p : Program L σ ε α} (h : p.Safe I Q s) (hQ : ∀ r s, Q r s → Q' r s) :
    p.Safe I Q' s := by
  induction p generalizing s with
  | done result => exact hQ _ _ h
  | access label effect next ih => exact ⟨h.1, ih s h.2⟩

theorem Safe.weaken {I' : σ → Prop} {p : Program L σ ε α} (h : p.Safe I Q s)
    (hI : ∀ s, I s → I' s) : p.Safe I' Q s := by
  induction p generalizing s with
  | done result => exact h
  | access label effect next ih => exact ⟨hI _ h.1, ih s h.2⟩

/-- A safe program stays safe under a weaker crash condition and in the terms of the caller. -/
theorem Safe.mapError {ε' : Type u} {f : ε → ε'} {I' : σ → Prop} {R : Except ε' α → σ → Prop}
    {p : Program L σ ε α} (h : p.Safe I Q s) (hI : ∀ s, I s → I' s)
    (hR : ∀ r s, Q r s → R (r.mapError f) s) : (p.mapError f).Safe I' R s := by
  induction p generalizing s with
  | done result => exact hR _ _ h
  | access label effect next ih => exact ⟨hI _ h.1, ih s h.2⟩

theorem Safe.attempt {R : Except ε (Except ε α) → σ → Prop} {p : Program L σ ε α}
    (h : p.Safe I (fun r s => R (.ok r) s) s) : p.attempt.Safe I R s := by
  induction p generalizing s with
  | done result => exact h
  | access label effect next ih => exact ⟨h.1, ih s h.2⟩

theorem safe_bind {p : Program L σ ε α} {f : α → Program L σ ε β}
    {R : Except ε β → σ → Prop}
    (h : p.Safe I (fun r s => match r with
      | .ok a => (f a).Safe I R s
      | .error e => R (.error e) s) s) :
    (p >>= f).Safe I R s := by
  change (p.bind f).Safe I R s
  induction p generalizing s with
  | done result =>
    cases result with
    | ok a => exact h
    | error e => exact h
  | access label effect next ih => exact ⟨h.1, ih s h.2⟩

/-- A safe program ends in a state and with a result that satisfy the postcondition. -/
theorem Safe.run {p : Program L σ ε α} (h : p.Safe I Q s) : Q (p.run s).1 (p.run s).2 := by
  induction p generalizing s with
  | done result => exact h
  | access label effect next ih => exact ih s h.2

theorem Safe.run_crash {p : Program L σ ε α} (h : p.Safe I Q s) (hI : I s) : I (p.run s).2 := by
  induction p generalizing s with
  | done result => exact hI
  | access label effect next ih => exact ih s h.2 h.1

/-- However the run ends, it ends in a state that satisfies the crash condition. -/
theorem Safe.runWith {p : Program L σ ε α} {fault : ε} {breaksAfter : Option Nat}
    (h : p.Safe I Q s) (hI : I s) : I (p.runWith fault breaksAfter s).2 := by
  cases breaksAfter with
  | none => exact h.run_crash hI
  | some n =>
    change I (runFor fault n p s).2
    induction n generalizing p s with
    | zero =>
      cases p with
      | done result => exact hI
      | access label effect next => exact hI
    | succ n ih =>
      cases p with
      | done result => exact hI
      | access label effect next => exact ih h.2 h.1

/-! ## Programs that make no access -/

/-- The program has finished. -/
def Settled (p : Program L σ ε α) : Prop :=
  ∃ result, p = done result

theorem settled_pure (a : α) : (pure a : Program L σ ε α).Settled := ⟨_, rfl⟩

theorem settled_ofExcept (x : Except ε α) : (ofExcept x : Program L σ ε α).Settled := ⟨_, rfl⟩

theorem Settled.bind {p : Program L σ ε α} {f : α → Program L σ ε β} (hp : p.Settled)
    (hf : ∀ a, (f a).Settled) : (p >>= f).Settled := by
  obtain ⟨result, rfl⟩ := hp
  cases result with
  | ok a => exact hf a
  | error e => exact ⟨_, rfl⟩

theorem Settled.eq_done {p : Program L σ ε α} (hp : p.Settled) (s : σ) :
    p = done (p.run s).1 := by
  obtain ⟨result, rfl⟩ := hp
  rfl

/-! ## Programs that only read -/

/-- No access changes the store. -/
def ReadOnly : Program L σ ε α → Prop
  | .done _ => True
  | .access _ effect next => effect = id ∧ ∀ s, (next s).ReadOnly

theorem readOnly_pure (a : α) : (pure a : Program L σ ε α).ReadOnly := trivial

theorem readOnly_ofExcept (x : Except ε α) : (ofExcept x : Program L σ ε α).ReadOnly := trivial

theorem readOnly_read (label : L) (query : σ → Except ε α) : (read label query).ReadOnly :=
  ⟨rfl, fun _ => trivial⟩

theorem ReadOnly.bind {p : Program L σ ε α} {f : α → Program L σ ε β} (hp : p.ReadOnly)
    (hf : ∀ a, (f a).ReadOnly) : (p >>= f).ReadOnly := by
  change (p.bind f).ReadOnly
  induction p with
  | done result =>
    cases result with
    | ok a => exact hf a
    | error e => trivial
  | access label effect next ih => exact ⟨hp.1, fun s => ih s (hp.2 s)⟩

theorem readOnly_mapM {f : β → Program L σ ε α} (hf : ∀ b, (f b).ReadOnly) (l : List β) :
    (l.mapM f).ReadOnly := by
  induction l with
  | nil => exact readOnly_pure []
  | cons b rest ih =>
    rw [List.mapM_cons]
    exact (hf b).bind fun _ => ih.bind fun _ => readOnly_pure _

theorem ReadOnly.run_snd {p : Program L σ ε α} (hp : p.ReadOnly) (s : σ) : (p.run s).2 = s := by
  induction p generalizing s with
  | done result => rfl
  | access label effect next ih =>
    have hstate : effect s = s := by rw [hp.1]; rfl
    change ((next s).run (effect s)).2 = s
    rw [ih s (hp.2 s), hstate]

theorem ReadOnly.safe {p : Program L σ ε α} (hp : p.ReadOnly) (hI : I s)
    (h : Q (p.run s).1 s) : p.Safe I Q s := by
  induction p generalizing s with
  | done result => exact h
  | access label effect next ih =>
    have hstate : effect s = s := by rw [hp.1]; rfl
    change I (effect s) ∧ (next s).Safe I Q (effect s)
    change Q ((next s).run (effect s)).1 s at h
    rw [hstate] at h ⊢
    exact ⟨hI, ih s (hp.2 s) hI h⟩

/-- A loop of reads gives what the reads give on the one state they all see. -/
theorem run_mapM_readOnly {f : β → Program L σ ε α} (hf : ∀ b, (f b).ReadOnly) (l : List β)
    (s : σ) : (l.mapM f).run s = (l.mapM fun b => ((f b).run s).1, s) := by
  induction l with
  | nil => rfl
  | cons b rest ih =>
    have hstate := (hf b).run_snd s
    rw [List.mapM_cons, List.mapM_cons, run_bind]
    cases hrun : (f b).run s with
    | mk result s' =>
      rw [hrun] at hstate
      dsimp only at hstate
      subst hstate
      cases result with
      | error e => rfl
      | ok a =>
        change (rest.mapM f >>= fun as => pure (a :: as)).run s' = _
        rw [run_bind, ih]
        cases rest.mapM fun b => ((f b).run s').1 with
        | error e => rfl
        | ok as => rfl

end Program
