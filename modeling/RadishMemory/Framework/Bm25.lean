import Mathlib.Analysis.SpecialFunctions.Log.Basic
import Mathlib.Tactic.Linarith

/-!
# BM25

The relevance of a document to a phrase: a weight that falls with the number of documents that have
the phrase, times a factor that grows with the frequency of the phrase and falls with the length of
the document, measured against the average length of all documents.

Between two documents and one phrase the weight cancels, and the average length decides
(`relevance_lt_iff`).
-/

namespace Bm25

noncomputable section

def k1 : ℝ := 12 / 10

def b : ℝ := 3 / 4

/-- The weight of a phrase that `hits` of `rows` documents have; it is never below a small positive
constant. -/
def idf (rows hits : ℕ) : ℝ :=
  let weight := Real.log (((rows : ℝ) - hits + 1 / 2) / (hits + 1 / 2))
  if weight ≤ 0 then 1 / 1000000 else weight

/-- The relevance of a document of the given length to a phrase of the given weight. -/
def relevance (weight averageLength frequency length : ℝ) : ℝ :=
  weight * (frequency * (k1 + 1) /
    (frequency + k1 * (1 - b + b * length / averageLength)))

theorem idf_pos (rows hits : ℕ) : 0 < idf rows hits := by
  dsimp only [idf]
  split
  · norm_num
  · rename_i h
    exact not_le.1 h

/-- Which of two documents is the less relevant one. -/
theorem relevance_lt_iff {weight averageLength f₁ l₁ f₂ l₂ : ℝ} (hweight : 0 < weight)
    (haverage : 0 < averageLength) (hf₁ : 0 < f₁) (hl₁ : 0 ≤ l₁) (hf₂ : 0 < f₂) (hl₂ : 0 ≤ l₂) :
    relevance weight averageLength f₁ l₁ < relevance weight averageLength f₂ l₂ ↔
      f₁ * (1 - b + b * l₂ / averageLength) < f₂ * (1 - b + b * l₁ / averageLength) := by
  have hb : 0 < 1 - b := by
    norm_num [b]
  have hlength : ∀ l, 0 ≤ l → 0 < 1 - b + b * l / averageLength := by
    intro l hl
    have hshare : 0 ≤ b * l / averageLength :=
      div_nonneg (mul_nonneg (by norm_num [b]) hl) haverage.le
    linarith
  have hk : (0 : ℝ) < k1 := by
    norm_num [k1]
  have h₁ : 0 < f₁ + k1 * (1 - b + b * l₁ / averageLength) :=
    add_pos hf₁ (mul_pos hk (hlength l₁ hl₁))
  have h₂ : 0 < f₂ + k1 * (1 - b + b * l₂ / averageLength) :=
    add_pos hf₂ (mul_pos hk (hlength l₂ hl₂))
  rw [relevance, relevance, mul_lt_mul_iff_right₀ hweight, div_lt_div_iff₀ h₁ h₂]
  constructor
  · intro h
    have hfactor : (k1 + 1) * k1 * (f₁ * (1 - b + b * l₂ / averageLength)) <
        (k1 + 1) * k1 * (f₂ * (1 - b + b * l₁ / averageLength)) := by
      linarith
    exact lt_of_mul_lt_mul_left hfactor (by positivity)
  · intro h
    have hfactor : (k1 + 1) * k1 * (f₁ * (1 - b + b * l₂ / averageLength)) <
        (k1 + 1) * k1 * (f₂ * (1 - b + b * l₁ / averageLength)) :=
      mul_lt_mul_of_pos_left h (by positivity)
    linarith

end

end Bm25
