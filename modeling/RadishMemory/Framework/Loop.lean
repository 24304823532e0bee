/-!
# Loops without a bound

A `loop` of the source is one pass of its body, taken again until the body leaves it.  `Ends`
says which result a loop is left with; a loop that never leaves has none.  `run` takes at most a
given number of passes, so it computes what `Ends` says once it has passes enough.
-/

universe u v

namespace Loop

variable {σ : Type u} {ρ : Type v} {body : σ → σ ⊕ ρ}

/-- From state `s`, the loop is left with `r`. -/
inductive Ends (body : σ → σ ⊕ ρ) : σ → ρ → Prop
  | leave {s : σ} {r : ρ} (pass : body s = .inr r) : Ends body s r
  | again {s s' : σ} {r : ρ} (pass : body s = .inl s') (rest : Ends body s' r) : Ends body s r

/-- The result of the loop, if at most `bound` passes leave it. -/
def run (body : σ → σ ⊕ ρ) : Nat → σ → Option ρ
  | 0, _ => none
  | bound + 1, s =>
    match body s with
    | .inr r => some r
    | .inl s' => run body bound s'

theorem Ends.unique {s : σ} {r r' : ρ} (h : Ends body s r) (h' : Ends body s r') : r = r' := by
  induction h with
  | leave pass =>
    cases h' with
    | leave pass' => simpa [pass] using pass'
    | again pass' _ => simp [pass] at pass'
  | again pass _ ih =>
    cases h' with
    | leave pass' => simp [pass] at pass'
    | again pass' rest' =>
      obtain rfl : _ = _ := by simpa [pass] using pass'
      exact ih rest'

/-- What holds before every pass, and of every result that a pass leaves with, holds of the
result of the loop. -/
theorem Ends.invariant {I : σ → Prop} {Q : ρ → Prop} {s : σ} {r : ρ} (h : Ends body s r)
    (hs : I s) (again : ∀ s s', I s → body s = .inl s' → I s')
    (leave : ∀ s r, I s → body s = .inr r → Q r) : Q r := by
  induction h with
  | leave pass => exact leave _ _ hs pass
  | again pass _ ih => exact ih (again _ _ hs pass)

theorem ends_of_run {bound : Nat} {s : σ} {r : ρ} (h : run body bound s = some r) :
    Ends body s r := by
  induction bound generalizing s with
  | zero => simp [run] at h
  | succ bound ih =>
    rw [run] at h
    cases hpass : body s with
    | inr r' =>
      obtain rfl : r' = r := by simpa [hpass] using h
      exact .leave hpass
    | inl s' =>
      rw [hpass] at h
      exact .again hpass (ih h)

/-- A loop whose passes lower a measure is left before the measure runs out. -/
theorem exists_run {I : σ → Prop} {m : σ → Nat} {s : σ} {bound : Nat} (hs : I s)
    (again : ∀ s s', I s → body s = .inl s' → I s' ∧ m s' < m s) (hbound : m s < bound) : ∃ r, run body bound s = some r := by
  induction bound generalizing s with
  | zero => omega
  | succ bound ih =>
    rw [run]
    cases hpass : body s with
    | inr r => exact ⟨r, rfl⟩
    | inl s' =>
      obtain ⟨hs', hlt⟩ := again s s' hs hpass
      exact ih hs' (by omega)

end Loop
