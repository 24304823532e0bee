import Mathlib.Data.Finset.Card
import Mathlib.Data.Finset.Basic
import Mathlib.Data.Finset.Dedup

/-!
# Readers that mark what they are reading

A recursive reader keeps a set of keys.  It puts a key in when it begins to read it and takes the
key out when it has ended, so that it notices a key that it meets again on the way down.  A reader
that nests deeper than it may has no result at all.  `Settles` says that a reader ends with a
result and leaves the set as it was.
-/

variable {κ ε α β : Type}

/-- A reader over a set of open keys. -/
abbrev Visiting (κ ε α : Type) :=
  ExceptT ε (StateT (Finset κ) Option) α

namespace Visiting

/-- The call that is not allowed, one level below the deepest. -/
def tooDeep : Visiting κ ε α :=
  ExceptT.mk fun _ => none

/-- A computation that does not touch the set. -/
def settled (x : Except ε α) : Visiting κ ε α :=
  ExceptT.mk (pure x)

/-- Run the reader and hand its result over, an error too. -/
def attempt (x : Visiting κ ε α) : Visiting κ ε (Except ε α) :=
  ExceptT.mk (x.run >>= fun result => pure (.ok result))

section Keys

variable [DecidableEq κ]

/-- Put a key in the set and tell whether it was not there before. -/
def enter (key : κ) : Visiting κ ε Bool :=
  ExceptT.mk fun opened => some (.ok (decide (key ∉ opened)), insert key opened)

/-- Take a key out of the set. -/
def leave (key : κ) : Visiting κ ε Unit :=
  ExceptT.mk fun opened => some (.ok (), opened.erase key)

end Keys

/-! ## What a reader settles on -/

/-- The reader ends with the result and leaves the set as it was. -/
def Settles (x : Visiting κ ε α) (opened : Finset κ) (result : Except ε α) : Prop :=
  x.run.run opened = some (result, opened)

variable {opened : Finset κ}

theorem settles_pure (a : α) : Settles (pure a : Visiting κ ε α) opened (pure a) :=
  rfl

theorem settles_throw (e : ε) : Settles (throw e : Visiting κ ε α) opened (.error e) :=
  rfl

theorem settles_settled (result : Except ε α) :
    Settles (settled result : Visiting κ ε α) opened result :=
  rfl

/-- A reader that ends well hands its set to the next one. -/
theorem run_bind_ok {x : Visiting κ ε α} {f : α → Visiting κ ε β} {a : α} {after : Finset κ}
    (hx : x.run.run opened = some (.ok a, after)) :
    (x >>= f).run.run opened = (f a).run.run after := by
  rw [ExceptT.run_bind, StateT.run_bind, hx]
  rfl

theorem run_bind_error {x : Visiting κ ε α} {f : α → Visiting κ ε β} {e : ε} {after : Finset κ}
    (hx : x.run.run opened = some (.error e, after)) :
    (x >>= f).run.run opened = some (.error e, after) := by
  rw [ExceptT.run_bind, StateT.run_bind, hx]
  rfl

theorem Settles.bind {x : Visiting κ ε α} {f : α → Visiting κ ε β} {result : Except ε α}
    {next : α → Except ε β} (hx : Settles x opened result)
    (hf : ∀ a, result = .ok a → Settles (f a) opened (next a)) :
    Settles (x >>= f) opened (result >>= next) := by
  cases result with
  | ok a => exact (run_bind_ok hx).trans (hf a rfl)
  | error e => exact run_bind_error hx

theorem Settles.mapM {f : α → Visiting κ ε β} {g : α → Except ε β} {l : List α}
    (h : ∀ a ∈ l, Settles (f a) opened (g a)) : Settles (l.mapM f) opened (l.mapM g) := by
  induction l with
  | nil => exact settles_pure []
  | cons a rest ih =>
    rw [List.mapM_cons, List.mapM_cons]
    refine (h a List.mem_cons_self).bind fun b _ => ?_
    exact (ih fun c hc => h c (List.mem_cons_of_mem a hc)).bind fun bs _ => settles_pure (b :: bs)

theorem Settles.run_attempt {x : Visiting κ ε α} {result : Except ε α}
    (h : Settles x opened result) :
    (attempt x).run.run opened = some (.ok result, opened) := by
  unfold attempt
  rw [ExceptT.run_mk, StateT.run_bind, h]
  rfl

variable [DecidableEq κ] {key : κ}

theorem run_enter :
    (enter key : Visiting κ ε Bool).run.run opened =
      some (.ok (decide (key ∉ opened)), insert key opened) :=
  rfl

theorem run_leave :
    (leave key : Visiting κ ε Unit).run.run opened = some (.ok (), opened.erase key) :=
  rfl

/-- A closed key is open while the body runs, and closed again however the body ends. -/
theorem settles_entered {body : Visiting κ ε α} {result : Except ε α} {again : ε}
    {finish : Except ε α → Except ε β} (hkey : key ∉ opened)
    (hbody : Settles body (insert key opened) result) :
    Settles (do
      if ← enter key then
        let result ← attempt body
        leave key
        settled (finish result)
      else throw again) opened (finish result) := by
  refine (run_bind_ok run_enter).trans ?_
  rw [decide_eq_true hkey, if_pos rfl]
  refine (run_bind_ok hbody.run_attempt).trans ?_
  refine (run_bind_ok run_leave).trans ?_
  rw [Finset.erase_insert hkey]
  exact settles_settled (finish result)

/-- An open key stops the reader, which leaves it open. -/
theorem settles_again {entered : Visiting κ ε β} {again : ε} (hkey : key ∈ opened) :
    Settles (do if ← enter key then entered else throw again) opened (.error again) := by
  refine (run_bind_ok run_enter).trans ?_
  rw [Finset.insert_eq_of_mem hkey, decide_eq_false (not_not_intro hkey)]
  exact settles_throw again

end Visiting
