import RadishMemory.Framework.Checked
import Mathlib.Order.Defs.Unbundled

/-!
# Methods of an object

A `Method` acts on the object it is called on: it gives a value or an error, and what it had changed
before the error stays changed.  A method of a part of an object is a method of the object (`zoom`).

`Moves R x s` says that `x`, started in `s`, ends in a state that `R` relates to `s`, whether it
succeeds or fails.  For a preorder `R` this composes, so a relation between the states before and
after a method is proved method by method.
-/

universe u

/-- A computation on a state that may fail and keeps what it did. -/
abbrev Method (σ ε α : Type u) :=
  ExceptT ε (StateM σ) α

namespace Method

variable {σ τ ε α β : Type u}

/-- The result of a method and the state it ends in. -/
def outcome (x : Method σ ε α) (s : σ) : Except ε α × σ :=
  StateT.run (m := Id) (ExceptT.run x) s

/-- A method from its outcome. -/
def ofOutcome (f : σ → Except ε α × σ) : Method σ ε α :=
  ExceptT.mk (StateT.mk (m := Id) f)

/-- Act on a part of the state. -/
def zoom (part : σ → τ) (update : σ → τ → σ) (x : Method τ ε α) : Method σ ε α :=
  ofOutcome fun s => ((x.outcome (part s)).1, update s (x.outcome (part s)).2)

/-- Report errors in the terms of the caller. -/
def mapError {ε' : Type u} (f : ε → ε') (x : Method σ ε α) : Method σ ε' α :=
  ofOutcome fun s => ((x.outcome s).1.mapError f, (x.outcome s).2)

/-- Hand the result to the caller, errors included. -/
def attempt {ε' : Type u} (x : Method σ ε α) : Method σ ε' (Except ε α) :=
  ofOutcome fun s => (.ok (x.outcome s).1, (x.outcome s).2)

/-- A computation that does not touch the state. -/
def ofExcept (x : Except ε α) : Method σ ε α :=
  ofOutcome fun s => (x, s)

/-- Fail if the condition holds. -/
def refuseIf (refused : Bool) (e : ε) : Method σ ε PUnit :=
  if refused then throw e else pure ⟨⟩

@[simp] theorem outcome_ofOutcome (f : σ → Except ε α × σ) (s : σ) :
    (ofOutcome f).outcome s = f s := rfl

@[simp] theorem outcome_pure (a : α) (s : σ) :
    (pure a : Method σ ε α).outcome s = (.ok a, s) := rfl

@[simp] theorem outcome_throw (e : ε) (s : σ) :
    (throw e : Method σ ε α).outcome s = (.error e, s) := rfl

@[simp] theorem outcome_get (s : σ) : (get : Method σ ε σ).outcome s = (.ok s, s) := rfl

@[simp] theorem outcome_attempt {ε' : Type u} (x : Method σ ε α) (s : σ) :
    (x.attempt : Method σ ε' (Except ε α)).outcome s = (.ok (x.outcome s).1, (x.outcome s).2) :=
  rfl

@[simp] theorem outcome_ofExcept (x : Except ε α) (s : σ) :
    (ofExcept x : Method σ ε α).outcome s = (x, s) := rfl

@[simp] theorem outcome_modify (f : σ → σ) (s : σ) :
    (modify f : Method σ ε PUnit).outcome s = (.ok ⟨⟩, f s) := rfl

/-- A sequence does its first part and then, on success, its second. -/
theorem outcome_bind (x : Method σ ε α) (f : α → Method σ ε β) (s : σ) :
    (x >>= f).outcome s =
      match x.outcome s with
      | (.ok a, s') => (f a).outcome s'
      | (.error e, s') => (.error e, s') := by
  change (match x.outcome s with
    | (r, s') => (ExceptT.bindCont f r : StateM σ (Except ε β)) s') = _
  cases x.outcome s with
  | mk result s' =>
    cases result with
    | ok a => rfl
    | error e => rfl

/-! ## What a method does to its state -/

/-- However the method ends, it ends in a state that `R` relates to the first. -/
def Moves (R : σ → σ → Prop) (x : Method σ ε α) (s : σ) : Prop :=
  R s (x.outcome s).2

section Moves

variable {R : σ → σ → Prop} {x : Method σ ε α} {s : σ}

theorem Moves.mono {R' : σ → σ → Prop} (h : x.Moves R s) (hR : ∀ s s', R s s' → R' s s') :
    x.Moves R' s :=
  hR _ _ h

theorem moves_mapError {ε' : Type u} {f : ε → ε'} (h : x.Moves R s) :
    (x.mapError f).Moves R s := h

theorem moves_map {f : α → β} (h : x.Moves R s) : (f <$> x : Method σ ε β).Moves R s := by
  have hstate : ((f <$> x : Method σ ε β).outcome s).2 = (x.outcome s).2 := by
    change ((x >>= fun a => pure (f a)).outcome s).2 = _
    rw [outcome_bind]
    cases x.outcome s with
    | mk result s' =>
      cases result with
      | ok a => rfl
      | error e => rfl
  rw [Moves, hstate]
  exact h

theorem moves_attempt {ε' : Type u} (h : x.Moves R s) :
    (x.attempt : Method σ ε' (Except ε α)).Moves R s := h

theorem moves_zoom {S : τ → τ → Prop} {part : σ → τ} {update : σ → τ → σ} {x : Method τ ε α}
    (h : x.Moves S (part s)) (hR : ∀ t, S (part s) t → R s (update s t)) :
    (x.zoom part update).Moves R s :=
  hR _ h

theorem moves_modify {f : σ → σ} (h : R s (f s)) : (modify f : Method σ ε PUnit).Moves R s := h

theorem moves_get_bind {f : σ → Method σ ε α} (h : (f s).Moves R s) :
    (get >>= f : Method σ ε α).Moves R s := h

variable [IsPreorder σ R]

theorem moves_pure (a : α) : (pure a : Method σ ε α).Moves R s :=
  refl_of R s

theorem moves_throw (e : ε) : (throw e : Method σ ε α).Moves R s :=
  refl_of R s

theorem moves_ofExcept (x : Except ε α) : (ofExcept x : Method σ ε α).Moves R s :=
  refl_of R s

theorem moves_refuseIf (refused : Bool) (e : ε) :
    (refuseIf refused e : Method σ ε PUnit).Moves R s := by
  cases refused
  · exact moves_pure PUnit.unit
  · exact moves_throw e

/-- The second part starts where the first has ended. -/
theorem moves_bind {f : α → Method σ ε β} (hx : x.Moves R s)
    (hf : ∀ a s', x.outcome s = (.ok a, s') → R s s' → (f a).Moves R s') :
    (x >>= f).Moves R s := by
  change R s ((x >>= f).outcome s).2
  rw [outcome_bind]
  change R s (x.outcome s).2 at hx
  cases houtcome : x.outcome s with
  | mk result s' =>
    rw [houtcome] at hx
    cases result with
    | error e => exact hx
    | ok a => exact trans_of R hx (hf a s' houtcome hx)

end Moves

end Method
