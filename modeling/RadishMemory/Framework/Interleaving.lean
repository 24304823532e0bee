import RadishMemory.Framework.Program
import Mathlib.Logic.Function.Basic
import Mathlib.Logic.Relation

/-!
# Interleaved programs

Several connections work on one store.  Each runs one program after the other, and a scheduler
lets them make one access at a time, in any order (`Interleaving.Step`).

`Respects` is the rely-guarantee reading of a program: whatever the others do to the store while
the program waits for its next access, the access keeps the invariant and does no more than its
label promises.  What the others may do depends on the label the program waits at, so a discipline
on schedules (`compatible`) can rule interference out at some accesses and not at others.
-/

universe u

/-- A store and the program each connection is running. -/
structure Interleaving (ι : Type) (L σ ε : Type u) where
  store : σ
  running : ι → Program L σ ε PUnit

namespace Interleaving

variable {ι : Type} [DecidableEq ι] {L σ ε : Type u}

/-- A connection that has finished starts one of the `calls`, or a connection makes its next
access while the accesses that the others wait for are compatible with it. -/
inductive Step (calls : Program L σ ε PUnit → Prop) (compatible : L → L → Prop) :
    Interleaving ι L σ ε → Interleaving ι L σ ε → Prop
  | start (s : Interleaving ι L σ ε) (i : ι) (p : Program L σ ε PUnit) (hcall : calls p)
      (hidle : (s.running i).Settled) :
      Step calls compatible s { s with running := Function.update s.running i p }
  | access (s : Interleaving ι L σ ε) (i : ι) (label : L) (effect : σ → σ)
      (next : σ → Program L σ ε PUnit) (hnext : s.running i = .access label effect next)
      (hcompatible : ∀ j ≠ i, ∀ waiting, (s.running j).nextLabel = some waiting →
        compatible waiting label) :
      Step calls compatible s
        { store := effect s.store
          running := Function.update s.running i (next s.store) }

end Interleaving

namespace Program

variable {L σ ε α β : Type u}

section Respects

variable (Inv : σ → Prop) (G : L → σ → σ → Prop) (compatible : L → L → Prop)

/-- What another connection may do while this one waits. -/
def Interferes (waiting : L) (s s' : σ) : Prop :=
  ∃ acting, compatible waiting acting ∧ G acting s s' ∧ Inv s'

/-- Every access keeps the invariant and its promise, after any interference. -/
def Respects (Q : Except ε α → σ → Prop) : Program L σ ε α → σ → Prop
  | .done result, s => Q result s
  | .access label effect next, s =>
    ∀ s', Relation.ReflTransGen (Interferes Inv G compatible label) s s' → Inv s' →
      G label s' (effect s') ∧ Inv (effect s') ∧ (next s').Respects Q (effect s')

end Respects

variable {Inv : σ → Prop} {G : L → σ → σ → Prop} {compatible : L → L → Prop}
  {Q Q' : Except ε α → σ → Prop} {P : σ → Prop} {s : σ}

/-- The fact about the store survives what others may do at the label. -/
def StableAt (Inv : σ → Prop) (G : L → σ → σ → Prop) (compatible : L → L → Prop) (P : σ → Prop)
    (label : L) : Prop :=
  ∀ s s', P s → Interferes Inv G compatible label s s' → P s'

theorem respects_done {result : Except ε α} (h : Q result s) :
    (done result : Program L σ ε α).Respects Inv G compatible Q s := h

/-- An access whose precondition is stable. -/
theorem respects_access {label : L} {effect : σ → σ} {next : σ → Program L σ ε α}
    (hP : P s) (hstable : StableAt Inv G compatible P label)
    (h : ∀ s, P s → Inv s → G label s (effect s) ∧ Inv (effect s) ∧
      (next s).Respects Inv G compatible Q (effect s)) :
    (access label effect next).Respects Inv G compatible Q s := by
  intro s' hstar hInv
  refine h s' ?_ hInv
  clear hInv
  induction hstar with
  | refl => exact hP
  | tail _ hlast ih => exact hstable _ _ ih hlast

theorem Respects.mono {p : Program L σ ε α} (h : p.Respects Inv G compatible Q s)
    (hQ : ∀ r s, Q r s → Q' r s) : p.Respects Inv G compatible Q' s := by
  induction p generalizing s with
  | done result => exact hQ _ _ h
  | access label effect next ih =>
    intro s' hstar hInv
    obtain ⟨hG, hkept, hnext⟩ := h s' hstar hInv
    exact ⟨hG, hkept, ih s' hnext⟩

theorem respects_bind {p : Program L σ ε α} {f : α → Program L σ ε β}
    {R : Except ε β → σ → Prop}
    (h : p.Respects Inv G compatible (fun r s => match r with
      | .ok a => (f a).Respects Inv G compatible R s
      | .error e => R (.error e) s) s) :
    (p >>= f).Respects Inv G compatible R s := by
  change (p.bind f).Respects Inv G compatible R s
  induction p generalizing s with
  | done result =>
    cases result with
    | ok a => exact h
    | error e => exact h
  | access label effect next ih =>
    intro s' hstar hInv
    obtain ⟨hG, hkept, hnext⟩ := h s' hstar hInv
    exact ⟨hG, hkept, ih s' hnext⟩

/-- A sequence whose caller promises nothing about errors. -/
theorem respects_bind_ok {p : Program L σ ε α} {f : α → Program L σ ε β} {P : α → σ → Prop}
    {R : Except ε β → σ → Prop}
    (hp : p.Respects Inv G compatible (fun r s => ∀ a, r = .ok a → P a s) s)
    (hf : ∀ a s, P a s → (f a).Respects Inv G compatible R s) (herror : ∀ e s, R (.error e) s) :
    (p >>= f).Respects Inv G compatible R s := by
  refine respects_bind (hp.mono fun r s hr => ?_)
  cases r with
  | ok a => exact hf a s (hr a rfl)
  | error e => exact herror e s

theorem respects_ofExcept {x : Except ε α} (h : Q x s) :
    (ofExcept x : Program L σ ε α).Respects Inv G compatible Q s := h

/-- A check before the rest. -/
theorem respects_ofExcept_bind {x : Except ε α} {f : α → Program L σ ε β}
    {R : Except ε β → σ → Prop}
    (hf : ∀ a, x = .ok a → (f a).Respects Inv G compatible R s) (herror : ∀ e, R (.error e) s) :
    (ofExcept x >>= f).Respects Inv G compatible R s := by
  cases x with
  | ok a => exact hf a rfl
  | error e => exact herror e

theorem respects_mapError {ε' : Type u} {f : ε → ε'} {R : Except ε' α → σ → Prop}
    {p : Program L σ ε α}
    (h : p.Respects Inv G compatible (fun r s => R (r.mapError f) s) s) :
    (p.mapError f).Respects Inv G compatible R s := by
  induction p generalizing s with
  | done result => exact h
  | access label effect next ih =>
    intro s' hstar hInv
    obtain ⟨hG, hkept, hnext⟩ := h s' hstar hInv
    exact ⟨hG, hkept, ih s' hnext⟩

theorem respects_attempt {R : Except ε (Except ε α) → σ → Prop} {p : Program L σ ε α}
    (h : p.Respects Inv G compatible (fun r s => R (.ok r) s) s) :
    p.attempt.Respects Inv G compatible R s := by
  induction p generalizing s with
  | done result => exact h
  | access label effect next ih =>
    intro s' hstar hInv
    obtain ⟨hG, hkept, hnext⟩ := h s' hstar hInv
    exact ⟨hG, hkept, ih s' hnext⟩

/-- A program that waits stays ready while others act. -/
theorem Respects.interfere {p : Program L σ ε α} {s' : σ}
    (h : p.Respects Inv G compatible (fun _ _ => True) s)
    (hstep : ∀ waiting, p.nextLabel = some waiting →
      Interferes Inv G compatible waiting s s') :
    p.Respects Inv G compatible (fun _ _ => True) s' := by
  cases p with
  | done result => trivial
  | access label effect next =>
    intro final hstar hInv
    exact h final (.head (hstep label rfl) hstar) hInv

/-! ## Programs whose accesses are all of one kind -/

/-- Every access of the program is of the kind. -/
def Each (A : L → (σ → σ) → Prop) : Program L σ ε α → Prop
  | .done _ => True
  | .access label effect next => A label effect ∧ ∀ s, (next s).Each A

variable {A : L → (σ → σ) → Prop}

theorem each_ofExcept (x : Except ε α) : (ofExcept x : Program L σ ε α).Each A := trivial

theorem each_pure (a : α) : (pure a : Program L σ ε α).Each A := trivial

theorem each_read {label : L} {query : σ → Except ε α} (h : A label id) :
    (read label query).Each A := ⟨h, fun _ => trivial⟩

theorem each_transact {label : L} {body : σ → Except ε (α × σ)} (h : A label (commit body)) :
    (transact label body).Each A := ⟨h, fun _ => trivial⟩

theorem Each.bind {p : Program L σ ε α} {f : α → Program L σ ε β} (hp : p.Each A)
    (hf : ∀ a, (f a).Each A) : (p >>= f).Each A := by
  change (p.bind f).Each A
  induction p with
  | done result =>
    cases result with
    | ok a => exact hf a
    | error e => trivial
  | access label effect next ih => exact ⟨hp.1, fun s => ih s (hp.2 s)⟩

theorem Each.attempt {p : Program L σ ε α} (hp : p.Each A) : p.attempt.Each A := by
  induction p with
  | done result => trivial
  | access label effect next ih => exact ⟨hp.1, fun s => ih s (hp.2 s)⟩

theorem Each.mapError {ε' : Type u} {f : ε → ε'} {p : Program L σ ε α} (hp : p.Each A) :
    (p.mapError f).Each A := by
  induction p with
  | done result => trivial
  | access label effect next ih => exact ⟨hp.1, fun s => ih s (hp.2 s)⟩

theorem ReadOnly.each {p : Program L σ ε α} (hp : p.ReadOnly) (h : ∀ label, A label id) :
    p.Each A := by
  induction p with
  | done result => trivial
  | access label effect next ih =>
    refine ⟨?_, fun s => ih s (hp.2 s)⟩
    rw [hp.1]
    exact h label

theorem each_mapM {f : β → Program L σ ε α} (hf : ∀ b, (f b).Each A) (l : List β) :
    (l.mapM f).Each A := by
  induction l with
  | nil => exact each_pure []
  | cons b rest ih =>
    rw [List.mapM_cons]
    exact (hf b).bind fun _ => ih.bind fun _ => each_pure _

theorem each_foldlM {f : β → α → Program L σ ε β} (hf : ∀ b a, (f b a).Each A) (l : List α)
    (b : β) : (l.foldlM f b).Each A := by
  induction l generalizing b with
  | nil => exact each_pure b
  | cons a rest ih =>
    rw [List.foldlM_cons]
    exact (hf b a).bind fun b' => ih b'

/-- A program of one kind of access carries every fact that the kind keeps. -/
theorem Each.respects {p : Program L σ ε α} (hp : p.Each A) (hP : P s)
    (hstable : ∀ label effect, A label effect → StableAt Inv G compatible P label)
    (hact : ∀ label effect s, A label effect → P s → Inv s →
      G label s (effect s) ∧ Inv (effect s) ∧ P (effect s)) :
    p.Respects Inv G compatible (fun _ s => P s) s := by
  induction p generalizing s with
  | done result => exact hP
  | access label effect next ih =>
    refine respects_access hP (hstable _ _ hp.1) fun s' hP' hInv => ?_
    obtain ⟨hG, hkept, hnext⟩ := hact _ _ s' hp.1 hP' hInv
    exact ⟨hG, hkept, ih s' (hp.2 s') hnext⟩

end Program

namespace Interleaving

open Program

variable {ι : Type} [DecidableEq ι] {L σ ε : Type u} {Inv : σ → Prop} {G : L → σ → σ → Prop}
  {calls : Program L σ ε PUnit → Prop} {compatible : L → L → Prop}

/-- The invariant holds, and every connection respects it from here on. -/
structure Sound (Inv : σ → Prop) (G : L → σ → σ → Prop) (compatible : L → L → Prop)
    (s : Interleaving ι L σ ε) : Prop where
  invariant : Inv s.store
  respects : ∀ i, (s.running i).Respects Inv G compatible (fun _ _ => True) s.store

theorem Sound.step {s s' : Interleaving ι L σ ε} (h : s.Sound Inv G compatible)
    (hcalls : ∀ p, calls p → ∀ a, Inv a → p.Respects Inv G compatible (fun _ _ => True) a)
    (hstep : Step calls compatible s s') : s'.Sound Inv G compatible := by
  cases hstep with
  | start i p hcall hidle =>
    refine ⟨h.invariant, fun j => ?_⟩
    by_cases hj : j = i
    · subst hj
      dsimp only
      rw [Function.update_self]
      exact hcalls p hcall _ h.invariant
    · dsimp only
      rw [Function.update_of_ne hj]
      exact h.respects j
  | access i label effect next hnext hcompatible =>
    have hown := h.respects i
    rw [hnext] at hown
    obtain ⟨hG, hkept, hrest⟩ := hown s.store .refl h.invariant
    refine ⟨hkept, fun j => ?_⟩
    by_cases hj : j = i
    · subst hj
      dsimp only
      rw [Function.update_self]
      exact hrest
    · dsimp only
      rw [Function.update_of_ne hj]
      exact (h.respects j).interfere fun waiting hwaiting =>
        ⟨label, hcompatible j hj waiting hwaiting, hG, hkept⟩

/-- What every call respects holds in every state of every interleaving. -/
theorem Sound.run {s s' : Interleaving ι L σ ε} (h : s.Sound Inv G compatible)
    (hcalls : ∀ p, calls p → ∀ a, Inv a → p.Respects Inv G compatible (fun _ _ => True) a)
    (hrun : Relation.ReflTransGen (Step calls compatible) s s') : s'.Sound Inv G compatible := by
  induction hrun with
  | refl => exact h
  | tail _ hlast ih => exact ih.step hcalls hlast

/-! ## Schedules -/

/-- One access of a connection. -/
def advance (s : Interleaving ι L σ ε) (i : ι) : Interleaving ι L σ ε :=
  match s.running i with
  | .done _ => s
  | .access _ effect next =>
    { store := effect s.store
      running := Function.update s.running i (next s.store) }

/-- Several accesses of a connection. -/
def advanceFor (i : ι) : Nat → Interleaving ι L σ ε → Interleaving ι L σ ε
  | 0, s => s
  | n + 1, s => advanceFor i n (s.advance i)

/-- A connection starts a program. -/
def starting (s : Interleaving ι L σ ε) (i : ι) (p : Program L σ ε PUnit) :
    Interleaving ι L σ ε :=
  { s with running := Function.update s.running i p }

/-- Nothing that the others wait for forbids an access of the connection. -/
def Free (compatible : L → L → Prop) (s : Interleaving ι L σ ε) (i : ι) : Prop :=
  ∀ j ≠ i, ∀ waiting, (s.running j).nextLabel = some waiting → ∀ label, compatible waiting label

theorem Free.advance {s : Interleaving ι L σ ε} {i : ι} (h : s.Free compatible i) :
    (s.advance i).Free compatible i := by
  intro j hj waiting hwaiting
  refine h j hj waiting ?_
  unfold Interleaving.advance at hwaiting
  split at hwaiting
  · exact hwaiting
  · dsimp only at hwaiting
    rwa [Function.update_of_ne hj] at hwaiting

/-- The accesses of a connection that nothing forbids are steps. -/
theorem Free.advanceFor {s : Interleaving ι L σ ε} {i : ι} (h : s.Free compatible i) (n : Nat) :
    Relation.ReflTransGen (Step calls compatible) s (advanceFor i n s) := by
  induction n generalizing s with
  | zero => exact .refl
  | succ n ih =>
    refine Relation.ReflTransGen.trans ?_ (ih h.advance)
    unfold Interleaving.advance
    split
    · exact .refl
    · rename_i label effect next hnext
      exact .single (.access s i label effect next hnext fun j hj waiting hwaiting =>
        h j hj waiting hwaiting label)

/-- An idle connection starts a call. -/
theorem starting_reaches {s : Interleaving ι L σ ε} {i : ι} {p : Program L σ ε PUnit}
    (hcall : calls p) (hidle : (s.running i).nextLabel = none) :
    Relation.ReflTransGen (Step calls compatible) s (s.starting i p) := by
  refine .single (.start s i p hcall ?_)
  cases hrunning : s.running i with
  | done result => exact ⟨result, rfl⟩
  | access label effect next =>
    rw [hrunning] at hidle
    cases hidle

end Interleaving
