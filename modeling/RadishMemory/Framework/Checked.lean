import Mathlib.Algebra.Group.Nat.Defs
import Mathlib.Data.List.Basic
import Mathlib.Tactic.Common

/-!
# Fallible computations and checked values

Programs that either return a value or stop at their first error are modelled in `Except`.
This file holds what every proof about such programs uses: the inversion of a successful
bind, the one-line guard `require`, loops over lists (`checkAll` for effect, `mapM` for a list
of results), and `Checked`, the type of values that passed a given check.

A `Checked check` carries the proof that its value passed `check`, so a function that takes
one never re-establishes well-formedness, and a decoder that rebuilds the same value from
storage is known to succeed (`Checked.new_params`).
-/

universe u v

variable {ε : Type u} {α β : Type v}

namespace Except

/-- The error of a failed computation. -/
def error? : Except ε α → Option ε
  | .ok _ => none
  | .error e => some e

/-- A successful bind is a successful first computation followed by a successful second. -/
theorem bind_eq_ok_iff {x : Except ε α} {f : α → Except ε β} {b : β} :
    (x >>= f) = .ok b ↔ ∃ a, x = .ok a ∧ f a = .ok b := by
  cases x with
  | error e => simp [bind, Except.bind]
  | ok a => simp [bind, Except.bind]

/-- The result of a computation that is only a check says nothing. -/
theorem exists_unit_iff {p : PUnit → Prop} : (∃ u, p u) ↔ p ⟨⟩ :=
  ⟨fun ⟨⟨⟩, h⟩ => h, fun h => ⟨⟨⟩, h⟩⟩

theorem pure_eq_ok_iff {a b : α} : (pure a : Except ε α) = .ok b ↔ a = b := by
  simp [pure, Except.pure]

theorem map_eq_ok_iff {x : Except ε α} {f : α → β} {b : β} :
    (f <$> x) = .ok b ↔ ∃ a, x = .ok a ∧ f a = b := by
  cases x with
  | error e => simp [Functor.map, Except.map]
  | ok a => simp [Functor.map, Except.map]

theorem mapError_eq_ok_iff {ε' : Type u} {x : Except ε α} {f : ε → ε'} {a : α} :
    x.mapError f = .ok a ↔ x = .ok a := by
  cases x with
  | error e => simp [Except.mapError]
  | ok a => simp [Except.mapError]

theorem ok_bind (a : α) (f : α → Except ε β) : ((.ok a : Except ε α) >>= f) = f a := rfl

theorem error_bind (e : ε) (f : α → Except ε β) : ((.error e : Except ε α) >>= f) = .error e :=
  rfl

theorem ok_of_toOption {x : Except ε α} {a : α} (h : x.toOption = some a) : x = .ok a := by
  cases x with
  | error e => cases h
  | ok b => exact congrArg Except.ok (Option.some.inj h)

end Except

/-- Stop with `e` unless `cond` holds. -/
def require (cond : Prop) [Decidable cond] (e : ε) : Except ε Unit :=
  if cond then .ok () else .error e

@[simp] theorem require_eq_ok_iff {cond : Prop} [Decidable cond] {e : ε} {u : Unit} :
    require cond e = .ok u ↔ cond := by
  unfold require
  split <;> simp_all

theorem require_of {cond : Prop} [Decidable cond] {e : ε} (h : cond) :
    require cond e = .ok () := by
  simp [require, h]

theorem require_of_not {cond : Prop} [Decidable cond] {e : ε} (h : ¬ cond) :
    require cond e = .error e := by
  simp [require, h]

/-- The value of an option, or the error `e` when there is none. -/
def Option.orError (o : Option α) (e : ε) : Except ε α :=
  match o with
  | some a => .ok a
  | none => .error e

@[simp] theorem Option.orError_eq_ok_iff {o : Option α} {e : ε} {a : α} :
    o.orError e = .ok a ↔ o = some a := by
  cases o <;> simp [Option.orError]

/-- Run a check on every element in turn and stop at the first that fails. -/
def checkAll (f : α → Except ε Unit) : List α → Except ε Unit
  | [] => .ok ()
  | a :: l => f a >>= fun _ => checkAll f l

/-- A checking loop succeeds exactly when every element passes. -/
@[simp] theorem checkAll_eq_ok_iff {f : α → Except ε Unit} {l : List α} {u : Unit} :
    checkAll f l = .ok u ↔ ∀ a ∈ l, f a = .ok () := by
  induction l with
  | nil => simp [checkAll]
  | cons a l ih =>
    simp only [checkAll, List.mem_cons, forall_eq_or_imp, ← ih]
    cases h : f a with
    | error e => simp [Except.error_bind]
    | ok v => simp [Except.ok_bind]

namespace List

/-- A collecting loop succeeds exactly when every element does, with the results in order. -/
theorem mapM_eq_ok_iff {f : α → Except ε β} {l : List α} {l' : List β} :
    l.mapM f = .ok l' ↔ Forall₂ (fun a b => f a = .ok b) l l' := by
  induction l generalizing l' with
  | nil =>
    rw [List.mapM_nil, Except.pure_eq_ok_iff]
    constructor
    · rintro rfl
      exact .nil
    · rintro ⟨⟩
      rfl
  | cons a l ih =>
    simp only [List.mapM_cons, Except.bind_eq_ok_iff, Except.pure_eq_ok_iff, ih]
    constructor
    · rintro ⟨b, hb, l'', hl, rfl⟩
      exact .cons hb hl
    · rintro (_ | ⟨hb, hl⟩)
      exact ⟨_, hb, _, hl, rfl⟩

theorem Forall₂.exists_of_mem_left {R : α → β → Prop} {l : List α} {l' : List β}
    (h : Forall₂ R l l') {a : α} (ha : a ∈ l) : ∃ b ∈ l', R a b := by
  induction h with
  | nil => cases ha
  | cons hhead _ ih =>
    rcases List.mem_cons.1 ha with rfl | ha
    · exact ⟨_, List.mem_cons_self, hhead⟩
    · obtain ⟨b, hb, hr⟩ := ih ha
      exact ⟨b, List.mem_cons_of_mem _ hb, hr⟩

theorem Forall₂.exists_of_mem_right {R : α → β → Prop} {l : List α} {l' : List β}
    (h : Forall₂ R l l') {b : β} (hb : b ∈ l') : ∃ a ∈ l, R a b := by
  induction h with
  | nil => cases hb
  | cons hhead _ ih =>
    rcases List.mem_cons.1 hb with rfl | hb
    · exact ⟨_, List.mem_cons_self, hhead⟩
    · obtain ⟨a, ha, hr⟩ := ih hb
      exact ⟨a, List.mem_cons_of_mem _ ha, hr⟩

theorem exists_forall₂ {R : α → β → Prop} {l : List α} (h : ∀ a ∈ l, ∃ b, R a b) :
    ∃ l', Forall₂ R l l' := by
  induction l with
  | nil => exact ⟨[], .nil⟩
  | cons a rest ih =>
    obtain ⟨b, hb⟩ := h a mem_cons_self
    obtain ⟨l', hl'⟩ := ih fun x hx => h x (mem_cons_of_mem a hx)
    exact ⟨b :: l', .cons hb hl'⟩

/-- A column that related elements share. -/
theorem Forall₂.map_eq {γ : Type} {R : α → β → Prop} (column : α → γ) (column' : β → γ)
    {l : List α} {l' : List β} (h : Forall₂ R l l')
    (hcolumn : ∀ a b, R a b → column' b = column a) : l'.map column' = l.map column := by
  induction h with
  | nil => rfl
  | cons hhead _ ih => rw [map_cons, map_cons, hcolumn _ _ hhead, ih]

/-- A loop whose every step succeeds succeeds. -/
theorem exists_mapM_eq_ok {f : α → Except ε β} {l : List α} (h : ∀ a ∈ l, ∃ b, f a = .ok b) :
    ∃ l', l.mapM f = .ok l' := by
  simp only [mapM_eq_ok_iff]
  exact exists_forall₂ h

theorem mapM_congr_of_mem {f g : α → Except ε β} {l : List α} (h : ∀ a ∈ l, f a = g a) :
    l.mapM f = l.mapM g := by
  induction l with
  | nil => rfl
  | cons a rest ih =>
    rw [mapM_cons, mapM_cons, h a mem_cons_self, ih fun x hx => h x (mem_cons_of_mem a hx)]

/-- A column of the results of a loop is a column of its elements. -/
theorem map_eq_of_mapM {γ : Type} {f : α → Except ε β} {l : List α} {l' : List β}
    {column : α → γ} {column' : β → γ} (h : l.mapM f = .ok l')
    (hcolumn : ∀ a ∈ l, ∀ b, f a = .ok b → column' b = column a) :
    l'.map column' = l.map column := by
  rw [mapM_eq_ok_iff] at h
  induction h with
  | nil => rfl
  | cons hhead _ ih =>
    rw [map_cons, map_cons, hcolumn _ mem_cons_self _ hhead,
      ih fun a ha => hcolumn a (mem_cons_of_mem _ ha)]

theorem mapM_ok_of_forall {f : α → Except ε β} {g : α → β} {l : List α}
    (h : ∀ a ∈ l, f a = .ok (g a)) : l.mapM f = .ok (l.map g) := by
  rw [mapM_eq_ok_iff]
  induction l with
  | nil => exact .nil
  | cons a l ih =>
    exact .cons (h a (by simp)) (ih fun b hb => h b (by simp [hb]))

end List

/-! ## Values that passed a check -/

/-- A value together with the proof that `check` accepts it. -/
structure Checked (check : α → Except ε Unit) where
  params : α
  valid : check params = .ok ()

namespace Checked

variable {check : α → Except ε Unit}

theorem ext {x y : Checked check} (h : x.params = y.params) : x = y := by
  cases x
  cases y
  simp_all

instance [DecidableEq α] : DecidableEq (Checked check) := fun x y =>
  decidable_of_iff (x.params = y.params) ⟨ext, congrArg params⟩

/-- Run the check and keep its verdict. -/
def new (check : α → Except ε Unit) (params : α) : Except ε (Checked check) :=
  match h : check params with
  | .ok () => .ok ⟨params, h⟩
  | .error e => .error e

theorem new_eq_ok_iff {params : α} {x : Checked check} :
    new check params = .ok x ↔ x.params = params := by
  unfold new
  split
  · rename_i hok
    constructor
    · rintro h
      cases h
      rfl
    · intro h
      exact congrArg Except.ok (ext h.symm)
  · rename_i e herr
    constructor
    · intro h
      cases h
    · rintro rfl
      rw [x.valid] at herr
      cases herr

/-- Rebuilding a checked value from its own fields gives it back. -/
@[simp] theorem new_params (x : Checked check) : new check x.params = .ok x :=
  new_eq_ok_iff.2 rfl

theorem new_of_ok {params : α} (h : check params = .ok ()) :
    new check params = .ok ⟨params, h⟩ :=
  new_eq_ok_iff.2 rfl

end Checked
