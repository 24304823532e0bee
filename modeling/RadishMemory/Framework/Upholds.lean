import RadishMemory.Framework.Program
import Mathlib.Logic.Relation

/-!
# Programs that uphold an invariant

`p.Upholds I Q s` is the form of `Safe` for programs that handle no error: every state on the way
and at the end satisfies `I`, whatever ends the program, and a value that it returns satisfies
`Q`.  The rules follow the program from access to access; a part that only reads is replaced by
its run (`ReadOnly.upholds_bind`), and a part that works on one component of the store is proved
on that component (`Upholds.on`).

`Interrupted` are the runs of a store whose operations may break down after any access and which
may lose power between two of them.
-/

universe u v

namespace Program

variable {L M σ τ ε α β : Type u}

/-- Every state satisfies `I`, and a returned value `Q` in the final state. -/
def Upholds (I : σ → Prop) (p : Program L σ ε α) (Q : α → σ → Prop) (s : σ) : Prop :=
  p.Safe I (fun result s' => I s' ∧ ∀ a, result = .ok a → Q a s') s

section Rules

variable {I I' : σ → Prop} {P : β → σ → Prop} {Q Q' : α → σ → Prop} {s : σ}

theorem upholds_done {result : Except ε α} (hI : I s) (h : ∀ a, result = .ok a → Q a s) :
    (done result : Program L σ ε α).Upholds I Q s :=
  ⟨hI, h⟩

theorem upholds_pure {a : α} (hI : I s) (h : Q a s) : (pure a : Program L σ ε α).Upholds I Q s :=
  upholds_done hI fun _ heq => Except.ok.inj heq ▸ h

theorem upholds_read {label : L} {query : σ → Except ε α} (hI : I s)
    (h : ∀ a, query s = .ok a → Q a s) : (read label query).Upholds I Q s :=
  ⟨hI, hI, h⟩

theorem upholds_transact {label : L} {body : σ → Except ε (α × σ)} (hI : I s)
    (h : ∀ a s', body s = .ok (a, s') → I s' ∧ Q a s') :
    (transact label body).Upholds I Q s := by
  apply safe_transact
  · intro a s' hbody
    obtain ⟨hI', hQ⟩ := h a s' hbody
    exact ⟨hI', hI', fun _ heq => Except.ok.inj heq ▸ hQ⟩
  · intro e hbody
    exact ⟨hI, hI, fun _ heq => by cases heq⟩

theorem Upholds.mono {p : Program L σ ε α} (h : p.Upholds I Q s)
    (hQ : ∀ a s', I s' → Q a s' → Q' a s') : p.Upholds I Q' s :=
  Safe.mono h fun _ s' hend => ⟨hend.1, fun a heq => hQ a s' hend.1 (hend.2 a heq)⟩

theorem Upholds.weaken {p : Program L σ ε α} (h : p.Upholds I Q s) (hI : ∀ s', I s' → I' s') :
    p.Upholds I' Q s :=
  (Safe.weaken h hI).mono fun _ s' hend => ⟨hI s' hend.1, hend.2⟩

theorem Upholds.bind {p : Program L σ ε β} {f : β → Program L σ ε α} (h : p.Upholds I P s)
    (hf : ∀ b s', I s' → P b s' → (f b).Upholds I Q s') : (p >>= f).Upholds I Q s := by
  refine safe_bind (Safe.mono h ?_)
  rintro result s' ⟨hI, hend⟩
  cases result with
  | ok b => exact hf b s' hI (hend b rfl)
  | error e => exact ⟨hI, fun _ heq => by cases heq⟩

theorem upholds_ofExcept {x : Except ε α} (hI : I s) (h : ∀ a, x = .ok a → Q a s) :
    (ofExcept x : Program L σ ε α).Upholds I Q s :=
  upholds_done hI h

/-- A check that touches nothing, and what follows it. -/
theorem upholds_ofExcept_bind {x : Except ε β} {f : β → Program L σ ε α} (hI : I s)
    (h : ∀ b, x = .ok b → (f b).Upholds I Q s) : (ofExcept x >>= f).Upholds I Q s :=
  Upholds.bind (P := fun b s' => x = .ok b ∧ s' = s) (upholds_ofExcept hI fun _ hb => ⟨hb, rfl⟩)
    fun b _ _ hb => hb.2 ▸ h b hb.1

theorem upholds_read_bind {label : L} {query : σ → Except ε β} {f : β → Program L σ ε α}
    (hI : I s) (h : ∀ b, query s = .ok b → (f b).Upholds I Q s) :
    (read label query >>= f).Upholds I Q s :=
  Upholds.bind (P := fun b s' => query s = .ok b ∧ s' = s)
    (upholds_read hI fun _ hb => ⟨hb, rfl⟩) fun b _ _ hb => hb.2 ▸ h b hb.1

theorem upholds_transact_bind {label : L} {body : σ → Except ε (β × σ)}
    {f : β → Program L σ ε α} (hI : I s)
    (h : ∀ b s', body s = .ok (b, s') → I s' ∧ (f b).Upholds I Q s') :
    (transact label body >>= f).Upholds I Q s :=
  Upholds.bind (P := fun b s' => body s = .ok (b, s'))
    (upholds_transact hI fun b s' hb => ⟨(h b s' hb).1, hb⟩) fun b s' _ hb => (h b s' hb).2

/-- A part that only reads gives what it gives when it runs alone. -/
theorem ReadOnly.upholds {p : Program L σ ε α} (hp : p.ReadOnly) (hI : I s)
    (h : ∀ a, (p.run s).1 = .ok a → Q a s) : p.Upholds I Q s :=
  hp.safe hI ⟨hI, h⟩

theorem ReadOnly.upholds_bind {p : Program L σ ε β} {f : β → Program L σ ε α} (hp : p.ReadOnly)
    (hI : I s) (h : ∀ b, (p.run s).1 = .ok b → (f b).Upholds I Q s) :
    (p >>= f).Upholds I Q s :=
  Upholds.bind (P := fun b s' => (p.run s).1 = .ok b ∧ s' = s)
    (hp.upholds hI fun _ hb => ⟨hb, rfl⟩) fun b _ _ hb => hb.2 ▸ h b hb.1

theorem Upholds.mapError {ε' : Type u} {f : ε → ε'} {p : Program L σ ε α}
    (h : p.Upholds I Q s) : (p.mapError f).Upholds I Q s := by
  refine Safe.mapError h (fun _ h => h) ?_
  rintro result s' ⟨hI, hend⟩
  refine ⟨hI, ?_⟩
  intro a heq
  cases result with
  | ok b => exact hend a (by simpa [Except.mapError] using heq)
  | error e => cases heq

/-- A loop: what one round keeps, all rounds keep. -/
theorem upholds_foldlM {f : β → α → Program L σ ε β} {J : β → σ → Prop} {l : List α} {b : β}
    (hI : I s) (hJ : J b s)
    (hstep : ∀ b, ∀ a ∈ l, ∀ s, I s → J b s → (f b a).Upholds I J s) :
    (l.foldlM f b).Upholds I J s := by
  induction l generalizing b s with
  | nil => exact upholds_pure hI hJ
  | cons a rest ih =>
    rw [List.foldlM_cons]
    apply (hstep b a List.mem_cons_self s hI hJ).bind
    intro b' s' hI' hJ'
    exact ih hI' hJ' fun b'' a' hmem => hstep b'' a' (List.mem_cons_of_mem _ hmem)

theorem Upholds.run {p : Program L σ ε α} (h : p.Upholds I Q s) {a : α}
    (hrun : (p.run s).1 = .ok a) : I (p.run s).2 ∧ Q a (p.run s).2 := by
  obtain ⟨hI, hend⟩ := Safe.run h
  exact ⟨hI, hend a hrun⟩

/-- However the program ends. -/
theorem Upholds.runWith {p : Program L σ ε α} (h : p.Upholds I Q s) (hI : I s) (fault : ε)
    (breaksAfter : Option Nat) : I (p.runWith fault breaksAfter s).2 :=
  Safe.runWith h hI

end Rules

/-! ## Parts of a store -/

/-- A component of a store. -/
structure Part (τ σ : Type u) where
  get : τ → σ
  put : σ → τ → τ
  get_put : ∀ s t, get (put s t) = s
  put_get : ∀ t, put (get t) t = t
  put_put : ∀ s s' t, put s (put s' t) = put s t

/-- A program on a component of the store, with the labels of the store. -/
def on (part : Part τ σ) (rename : L → M) : Program L σ ε α → Program M τ ε α
  | .done result => .done result
  | .access label effect next =>
    .access (rename label) (fun t => part.put (effect (part.get t)) t)
      fun t => (next (part.get t)).on part rename

variable {part : Part τ σ} {rename : L → M} {t : τ}

theorem run_on (p : Program L σ ε α) (t : τ) :
    (p.on part rename).run t = ((p.run (part.get t)).1, part.put (p.run (part.get t)).2 t) := by
  induction p generalizing t with
  | done result =>
    change (result, t) = (result, part.put (part.get t) t)
    rw [part.put_get]
  | access label effect next ih =>
    change ((next (part.get t)).on part rename).run (part.put (effect (part.get t)) t) = _
    rw [ih, part.get_put, part.put_put]
    rfl

theorem ReadOnly.on {p : Program L σ ε α} (hp : p.ReadOnly) : (p.on part rename).ReadOnly := by
  induction p with
  | done result => trivial
  | access label effect next ih =>
    refine ⟨?_, fun t => ih (part.get t) (hp.2 _)⟩
    rw [hp.1]
    exact funext part.put_get

/-- What a program upholds on the component, it upholds of the component; the rest of the store
is not touched. -/
theorem Upholds.on {I : σ → Prop} {Q : α → σ → Prop} {p : Program L σ ε α} {J : τ → Prop}
    {R : α → τ → Prop} (h : p.Upholds I Q (part.get t))
    (hJ : ∀ s', I s' → J (part.put s' t)) (hR : ∀ a s', I s' → Q a s' → R a (part.put s' t)) :
    (p.on part rename).Upholds J R t := by
  induction p generalizing t with
  | done result =>
    have hJt := hJ _ h.1
    rw [part.put_get] at hJt
    refine ⟨hJt, ?_⟩
    intro a heq
    have hRt := hR a _ h.1 (h.2 a heq)
    rwa [part.put_get] at hRt
  | access label effect next ih =>
    refine ⟨hJ _ h.1, ih (part.get t) (t := part.put (effect (part.get t)) t) ?_ ?_ ?_⟩
    · rw [part.get_put]
      exact h.2
    · intro s' hs'
      rw [part.put_put]
      exact hJ s' hs'
    · intro a s' hI ha
      rw [part.put_put]
      exact hR a s' hI ha

end Program

/-! ## Interrupted runs -/

/-- Operations one after the other, each run to its end or to a breakdown, and losses of power
between them. -/
inductive Interrupted {L σ ε α : Type u} {Op : Type v} (program : Op → Program L σ ε α)
    (fault : ε) (powerLoss : σ → σ → Prop) : σ → σ → Prop
  | refl (s : σ) : Interrupted program fault powerLoss s s
  | ran {s s' : σ} (h : Interrupted program fault powerLoss s s') (op : Op)
      (breaksAfter : Option Nat) :
      Interrupted program fault powerLoss s ((program op).runWith fault breaksAfter s').2
  | lostPower {s s' s'' : σ} (h : Interrupted program fault powerLoss s s')
      (hloss : powerLoss s' s'') : Interrupted program fault powerLoss s s''

/-- What every operation upholds from every state that has it, and a loss of power keeps. -/
theorem Interrupted.invariant {L σ ε α : Type u} {Op : Type v}
    {program : Op → Program L σ ε α} {fault : ε} {powerLoss : σ → σ → Prop} {I : σ → Prop}
    {s s' : σ} (h : Interrupted program fault powerLoss s s') (hs : I s)
    (hop : ∀ op s, I s → (program op).Upholds I (fun _ _ => True) s)
    (hloss : ∀ s s', I s → powerLoss s s' → I s') : I s' := by
  induction h with
  | refl => exact hs
  | ran _ op breaksAfter ih => exact (hop op _ ih).runWith ih fault breaksAfter
  | lostPower _ hlost ih => exact hloss _ _ ih hlost
