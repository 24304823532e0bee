import RadishMemory.Framework.Interleaving

/-!
# Processes that may stop

Any number of processes work on one store, each running one program.  A scheduler lets them make
one access at a time, in any order; a process may stop before any access, and what it held is
then taken back (`recover`); the surroundings may change the store between two accesses.

Every access is labelled with the process that makes it.  `Program.Respects` at these labels is
rely-guarantee reasoning: a process relies on what the guarantees of the other actors allow.
-/

universe u

/-- Who changes the store. -/
inductive Actor (ι : Type u) where
  | process (i : ι)
  | environment

/-- A store and what each process has left to do. -/
structure Processes (ι σ ε α : Type u) where
  store : σ
  process : ι → Program (Actor ι) σ ε α

namespace Processes

variable {ι σ ε α : Type u} [DecidableEq ι]

/-- A process makes its next access, a process stops before its next access, or the surroundings
change the store. -/
inductive Step (recover : ι → σ → σ) (stopped : ε) (environment : σ → σ → Prop) :
    Processes ι σ ε α → Processes ι σ ε α → Prop
  | access (s : Processes ι σ ε α) (i : ι) (label : Actor ι) (effect : σ → σ)
      (next : σ → Program (Actor ι) σ ε α) (hnext : s.process i = .access label effect next) :
      Step recover stopped environment s
        { store := effect s.store
          process := Function.update s.process i (next s.store) }
  | stop (s : Processes ι σ ε α) (i : ι) (label : Actor ι) (effect : σ → σ)
      (next : σ → Program (Actor ι) σ ε α) (hnext : s.process i = .access label effect next) :
      Step recover stopped environment s
        { store := recover i s.store
          process := Function.update s.process i (.done (.error stopped)) }
  | environment (s : Processes ι σ ε α) (store : σ) (hchange : environment s.store store) :
      Step recover stopped environment s { s with store := store }

/-- Every process makes only accesses of its own. -/
def Own (i : ι) (label : Actor ι) (_ : σ → σ) : Prop :=
  label = .process i

/-- What the library of processes is assumed to guarantee, actor by actor. -/
structure Discipline (Inv : σ → Prop) (G : Actor ι → σ → σ → Prop)
    (Q : ι → Except ε α → σ → Prop) (recover : ι → σ → σ) (stopped : ε)
    (environment : σ → σ → Prop) : Prop where
  environment : ∀ s s', Inv s → environment s s' → Inv s' ∧ G .environment s s'
  recover : ∀ i s, Inv s → Inv (recover i s) ∧ G (.process i) s (recover i s)
  stopped : ∀ i s, Q i (.error stopped) s
  returned : ∀ i actor s s' result, actor ≠ .process i → G actor s s' → Q i result s →
    Q i result s'

/-- The invariant holds, and every process respects it from here on. -/
structure Sound (Inv : σ → Prop) (G : Actor ι → σ → σ → Prop)
    (Q : ι → Except ε α → σ → Prop) (s : Processes ι σ ε α) : Prop where
  invariant : Inv s.store
  own : ∀ i, (s.process i).Each (Own i)
  respects : ∀ i, (s.process i).Respects Inv G (· ≠ ·) (Q i) s.store

variable {Inv : σ → Prop} {G : Actor ι → σ → σ → Prop} {Q : ι → Except ε α → σ → Prop}
  {recover : ι → σ → σ} {stopped : ε} {environment : σ → σ → Prop} {s s' : Processes ι σ ε α}

omit [DecidableEq ι] in
/-- A process that waits, or has returned, is not disturbed by another actor. -/
theorem Sound.interfere (h : s.Sound Inv G Q)
    (hd : Discipline Inv G Q recover stopped environment) {i : ι} {actor : Actor ι}
    (hother : actor ≠ .process i) {store : σ} (hG : G actor s.store store) (hInv : Inv store) :
    (s.process i).Respects Inv G (· ≠ ·) (Q i) store := by
  have howned := h.own i
  have hresp := h.respects i
  cases hp : s.process i with
  | done result =>
    rw [hp] at hresp
    exact hd.returned i actor _ _ _ hother hG hresp
  | access label effect next =>
    rw [hp] at howned hresp
    have hlabel : label = .process i := howned.1
    intro final hstar hfinal
    refine hresp final (.head ⟨actor, ?_, hG, hInv⟩ hstar) hfinal
    rw [hlabel]
    exact fun heq => hother heq.symm

/-- A step keeps soundness and is a change that some actor's guarantee allows. -/
theorem Sound.step (h : s.Sound Inv G Q) (hd : Discipline Inv G Q recover stopped environment)
    (hstep : Step recover stopped environment s s') :
    s'.Sound Inv G Q ∧ ∃ actor, G actor s.store s'.store := by
  cases hstep with
  | access i label effect next hnext =>
    have howned := h.own i
    have hresp := h.respects i
    rw [hnext] at howned hresp
    have hlabel : label = .process i := howned.1
    obtain ⟨hG, hkept, hrest⟩ := hresp s.store .refl h.invariant
    rw [hlabel] at hG
    refine ⟨⟨hkept, fun j => ?_, fun j => ?_⟩, _, hG⟩
    · by_cases hj : j = i
      · subst hj
        dsimp only
        rw [Function.update_self]
        exact howned.2 s.store
      · dsimp only
        rw [Function.update_of_ne hj]
        exact h.own j
    · by_cases hj : j = i
      · subst hj
        dsimp only
        rw [Function.update_self]
        exact hrest
      · dsimp only
        rw [Function.update_of_ne hj]
        refine h.interfere hd (fun heq => hj ?_) hG hkept
        cases heq
        rfl
  | stop i label effect next hnext =>
    obtain ⟨hkept, hG⟩ := hd.recover i s.store h.invariant
    refine ⟨⟨hkept, fun j => ?_, fun j => ?_⟩, _, hG⟩
    · by_cases hj : j = i
      · subst hj
        dsimp only
        rw [Function.update_self]
        trivial
      · dsimp only
        rw [Function.update_of_ne hj]
        exact h.own j
    · by_cases hj : j = i
      · subst hj
        dsimp only
        rw [Function.update_self]
        exact hd.stopped j _
      · dsimp only
        rw [Function.update_of_ne hj]
        refine h.interfere hd (fun heq => hj ?_) hG hkept
        cases heq
        rfl
  | environment store hchange =>
    obtain ⟨hkept, hG⟩ := hd.environment _ _ h.invariant hchange
    refine ⟨⟨hkept, h.own, fun j => ?_⟩, _, hG⟩
    exact h.interfere hd (fun heq => by cases heq) hG hkept

/-- Soundness holds in every state of every run. -/
theorem Sound.run (h : s.Sound Inv G Q) (hd : Discipline Inv G Q recover stopped environment)
    (hrun : Relation.ReflTransGen (Step recover stopped environment) s s') :
    s'.Sound Inv G Q := by
  induction hrun with
  | refl => exact h
  | tail _ hlast ih => exact (ih.step hd hlast).1

/-- A property that every guarantee keeps holds at the end of a run. -/
theorem Sound.run_induction (h : s.Sound Inv G Q)
    (hd : Discipline Inv G Q recover stopped environment) {P : σ → Prop} (hP : P s.store)
    (hkeep : ∀ actor a b, G actor a b → P a → P b)
    (hrun : Relation.ReflTransGen (Step recover stopped environment) s s') : P s'.store := by
  induction hrun with
  | refl => exact hP
  | tail hfirst hlast ih =>
    obtain ⟨actor, hG⟩ := ((h.run hd hfirst).step hd hlast).2
    exact hkeep actor _ _ hG ih

omit [DecidableEq ι] in
/-- What a process has returned satisfies its postcondition. -/
theorem Sound.returned (h : s.Sound Inv G Q) {i : ι} {result : Except ε α}
    (hdone : s.process i = .done result) : Q i result s.store := by
  have hresp := h.respects i
  rw [hdone] at hresp
  exact hresp

/-! ## Schedules -/

/-- One access of a process. -/
def advance (s : Processes ι σ ε α) (i : ι) : Processes ι σ ε α :=
  match s.process i with
  | .done _ => s
  | .access _ effect next =>
    { store := effect s.store
      process := Function.update s.process i (next s.store) }

/-- Several accesses of a process. -/
def advanceFor (i : ι) : Nat → Processes ι σ ε α → Processes ι σ ε α
  | 0, s => s
  | n + 1, s => advanceFor i n (s.advance i)

theorem advanceFor_reaches (i : ι) (n : Nat) (s : Processes ι σ ε α) :
    Relation.ReflTransGen (Step recover stopped environment) s (advanceFor i n s) := by
  induction n generalizing s with
  | zero => exact .refl
  | succ n ih =>
    refine Relation.ReflTransGen.trans ?_ (ih (s.advance i))
    unfold advance
    split
    · exact .refl
    · rename_i label effect next hnext
      exact .single (.access s i label effect next hnext)

end Processes

/-! ## Results as values -/

namespace Program

variable {L σ ε ε' α : Type u}

/-- Hand the result to a caller with errors of its own. -/
def caught : Program L σ ε α → Program L σ ε' (Except ε α)
  | .done result => .done (.ok result)
  | .access label effect next => .access label effect fun s => (next s).caught

theorem respects_caught {Inv : σ → Prop} {G : L → σ → σ → Prop} {compatible : L → L → Prop}
    {R : Except ε' (Except ε α) → σ → Prop} {p : Program L σ ε α} {s : σ}
    (h : p.Respects Inv G compatible (fun r s => R (.ok r) s) s) :
    p.caught.Respects Inv G compatible R s := by
  induction p generalizing s with
  | done result => exact h
  | access label effect next ih =>
    intro s' hstar hInv
    obtain ⟨hG, hkept, hnext⟩ := h s' hstar hInv
    exact ⟨hG, hkept, ih s' hnext⟩

theorem Each.caught {A : L → (σ → σ) → Prop} {p : Program L σ ε α} (hp : p.Each A) :
    (p.caught : Program L σ ε' (Except ε α)).Each A := by
  induction p with
  | done result => trivial
  | access label effect next ih => exact ⟨hp.1, fun s => ih s (hp.2 s)⟩

end Program

/-! ## One program among others -/

namespace Program

variable {L σ ε α β : Type u}

/-- Run one program while others change the store: `others n` is what they do before its access
number `n`.  The trace records each access with the state it found. -/
def runAmong (others : Nat → σ → σ) : Nat → Program L σ ε α → σ → Except ε α × List (L × σ)
  | _, .done result, _ => (result, [])
  | n, .access label effect next, s =>
    let found := others n s
    let rest := runAmong others (n + 1) (next found) (effect found)
    (rest.1, (label, found) :: rest.2)

/-- A returned value and the trace satisfy `Q`, whatever state each access finds. -/
def Among (Q : α → List (L × σ) → Prop) : Program L σ ε α → Prop
  | .done result => ∀ a, result = .ok a → Q a []
  | .access label _ next => ∀ found, Among (fun a t => Q a ((label, found) :: t)) (next found)

variable {Q Q' : α → List (L × σ) → Prop}

theorem Among.mono {p : Program L σ ε α} (h : p.Among Q) (hQ : ∀ a t, Q a t → Q' a t) :
    p.Among Q' := by
  induction p generalizing Q Q' with
  | done result => exact fun a ha => hQ _ _ (h a ha)
  | access label effect next ih => exact fun found => ih found (h found) fun a t => hQ a _

theorem among_bind {p : Program L σ ε α} {f : α → Program L σ ε β}
    {R : β → List (L × σ) → Prop}
    (h : p.Among fun a t => (f a).Among fun b t' => R b (t ++ t')) : (p >>= f).Among R := by
  change (p.bind f).Among R
  induction p generalizing R with
  | done result =>
    cases result with
    | ok a => exact h a rfl
    | error e => exact fun b hb => by cases hb
  | access label effect next ih => exact fun found => ih found (h found)

theorem among_read {label : L} {query : σ → Except ε α}
    (h : ∀ found a, query found = .ok a → Q a [(label, found)]) : (read label query).Among Q := h

theorem among_ofExcept {x : Except ε α} (h : ∀ a, x = .ok a → Q a []) :
    (ofExcept x : Program L σ ε α).Among Q := h

theorem among_pure {a : α} (h : Q a []) : (pure a : Program L σ ε α).Among Q := by
  rintro b ⟨⟩
  exact h

theorem among_of_forall (p : Program L σ ε α) (h : ∀ a t, Q a t) : p.Among Q := by
  induction p generalizing Q with
  | done result => exact fun a _ => h a _
  | access label effect next ih => exact fun found => ih found fun a t => h a _

/-- What holds whatever each access finds holds of every run among others. -/
theorem Among.run {p : Program L σ ε α} (h : p.Among Q) {others : Nat → σ → σ} {n : Nat} {s : σ}
    {a : α} (ha : (p.runAmong others n s).1 = .ok a) : Q a (p.runAmong others n s).2 := by
  induction p generalizing Q n s with
  | done result => exact h a ha
  | access label effect next ih => exact ih (others n s) (h (others n s)) ha

end Program
