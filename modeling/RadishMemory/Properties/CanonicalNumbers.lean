import RadishMemory.Construction.Core.CanonicalJson

/-!
# Canonical numbers

The canonical text of a number is its plain decimal expansion.  It is written for every number
whose expansion is short enough, as long as the exponent and the position of the point fit the
machine integers that the code computes with (`PositionFits`).
-/

namespace RadishMemory.CanonicalJson

open Decimal

/-! ## Exponents -/

def FitsI64 (x : Int) : Prop :=
  -2 ^ 63 ≤ x ∧ x < 2 ^ 63

theorem checkedI64_eq_ok_iff {x y : Int} : checkedI64 x = .ok y ↔ FitsI64 x ∧ x = y := by
  unfold checkedI64 FitsI64
  split
  · rename_i h
    exact ⟨fun heq => ⟨h, Except.ok.inj heq⟩, fun heq => congrArg _ heq.2⟩
  · rename_i h
    exact ⟨fun heq => by (cases heq), fun heq => absurd heq.1 h⟩

/-- The digits of an exponent are read unless they overflow. -/
theorem parseExponentDigits_eq_ok_iff {digits : List Char} {exponent : Int} :
    parseExponentDigits digits = .ok exponent ↔
      (digitsValue digits : Int) = exponent ∧ digitsValue digits < 2 ^ 63 := by
  unfold parseExponentDigits
  induction digits using List.reverseRecOn generalizing exponent with
  | nil =>
    have hzero : digitsValue [] = 0 := rfl
    rw [List.foldlM_nil, Except.pure_eq_ok_iff, hzero]
    exact ⟨fun h => ⟨h, by norm_num⟩, fun h => h.1⟩
  | append_singleton front c ih =>
    have hvalue : digitsValue (front ++ [c]) = digitsValue front * 10 + digitValue c := by
      rw [digitsValue_append, digitsValue_cons]
      have hnil : digitsValue [] = 0 := rfl
      rw [hnil]
      simp
    rw [List.foldlM_append]
    simp only [Except.bind_eq_ok_iff, ih, List.foldlM_cons, List.foldlM_nil, checkedI64_eq_ok_iff,
      Except.pure_eq_ok_iff, FitsI64]
    rw [hvalue]
    constructor
    · rintro ⟨_, ⟨rfl, _⟩, _, ⟨_, ⟨_, rfl⟩, hfits, rfl⟩, rfl⟩
      push_cast
      omega
    · rintro ⟨rfl, hlt⟩
      refine ⟨_, ⟨rfl, by omega⟩, _, ⟨_, ⟨by omega, rfl⟩, by omega, rfl⟩, ?_⟩
      push_cast
      rfl

/-- An exponent is read unless its digits overflow. -/
theorem parseExponent_eq_ok_iff {e : Exponent} (h : e.WellFormed) {exponent : Int} :
    parseExponent (e.sign ++ e.digits) = .ok exponent ↔
      e.value = exponent ∧ digitsValue e.digits < 2 ^ 63 := by
  obtain ⟨c, rest, hdigits⟩ := List.exists_cons_of_ne_nil h.nonempty
  have hdigit : c.isDigit = true := h.digits c (hdigits ▸ List.mem_cons_self)
  unfold Exponent.value
  rcases h.sign with hsign | hsign | hsign
  · rw [hsign, if_neg (by simp), List.nil_append, hdigits]
    unfold parseExponent
    split
    · rename_i heq
      cases heq
      exact absurd hdigit (by decide)
    · rename_i heq
      cases heq
      exact absurd hdigit (by decide)
    · exact parseExponentDigits_eq_ok_iff
  · rw [hsign, if_neg (by simp)]
    exact parseExponentDigits_eq_ok_iff
  · rw [hsign, if_pos rfl]
    change (parseExponentDigits e.digits >>= fun exponent => checkedI64 (-exponent)) = _ ↔ _
    simp only [Except.bind_eq_ok_iff, parseExponentDigits_eq_ok_iff, checkedI64_eq_ok_iff, FitsI64]
    constructor
    · rintro ⟨_, ⟨rfl, hlt⟩, _, rfl⟩
      exact ⟨rfl, hlt⟩
    · rintro ⟨rfl, hlt⟩
      exact ⟨_, ⟨rfl, hlt⟩, by omega, rfl⟩

/-! ## The plain numeral of digits and a position -/

/-- The digits, which neither start nor end with zero. -/
structure Significant (significant : List Char) : Prop where
  digits : IsDigits significant
  nonempty : significant ≠ []
  leading : significant.head? ≠ some '0'
  trailing : significant.getLast? ≠ some '0'

def plainNumeral (negative : Bool) (significant : List Char) (position : Int) : Numeral :=
  if position ≤ 0 then
    { negative := negative
      integer := ['0']
      fraction := List.replicate (-position).toNat '0' ++ significant
      exponent := none }
  else if significant.length ≤ position.toNat then
    { negative := negative
      integer := significant ++ List.replicate (position.toNat - significant.length) '0'
      fraction := []
      exponent := none }
  else
    { negative := negative
      integer := significant.take position.toNat
      fraction := significant.drop position.toNat
      exponent := none }

variable {negative : Bool} {significant : List Char} {position : Int}

theorem Significant.value_ne_zero (h : Significant significant) : digitsValue significant ≠ 0 := by
  intro hzero
  obtain ⟨c, rest, rfl⟩ := List.exists_cons_of_ne_nil h.nonempty
  have hc := (digitsValue_eq_zero_iff h.digits).1 hzero c List.mem_cons_self
  exact h.leading (by rw [hc]; rfl)

theorem plainNumeral_coefficient :
    (plainNumeral negative significant position).coefficient =
      digitsValue significant * 10 ^ (position.toNat - significant.length) := by
  unfold plainNumeral Numeral.coefficient
  split
  · rename_i hposition
    have htoNat : position.toNat = 0 := by omega
    rw [htoNat, Nat.zero_sub, pow_zero, Nat.mul_one, ← List.append_assoc, digitsValue_append]
    have hzero : digitsValue (['0'] ++ List.replicate (-position).toNat '0') = 0 :=
      digitsValue_replicate ((-position).toNat + 1)
    rw [hzero, Nat.zero_mul, Nat.zero_add]
  · split
    · rw [List.append_nil, digitsValue_append, digitsValue_replicate, List.length_replicate,
        Nat.add_zero]
    · rename_i hlength
      have hsub : position.toNat - significant.length = 0 := by omega
      rw [List.take_append_drop, hsub, pow_zero, Nat.mul_one]

theorem plainNumeral_fraction_length :
    ((plainNumeral negative significant position).fraction.length : Int) =
      max 0 (significant.length - position) := by
  unfold plainNumeral
  split
  · rw [List.length_append, List.length_replicate]
    omega
  · split
    · rw [List.length_nil]
      omega
    · rw [List.length_drop]
      omega

/-- The numeral denotes the digits behind a point, moved by the position. -/
theorem plainNumeral_value :
    (plainNumeral negative significant position).value =
      (if negative then -1 else 1) * digitsValue significant *
        10 ^ (position - significant.length) := by
  have hnegative : (plainNumeral negative significant position).negative = negative := by
    unfold plainNumeral
    split
    · rfl
    · split
      · rfl
      · rfl
  have hexponent : (plainNumeral negative significant position).exponentValue = 0 := by
    unfold plainNumeral Numeral.exponentValue
    split
    · rfl
    · split
      · rfl
      · rfl
  unfold Numeral.value
  rw [hnegative, hexponent, plainNumeral_coefficient, plainNumeral_fraction_length]
  push_cast
  have hten : (10 : ℚ) ≠ 0 := by norm_num
  have hpow : (10 : ℚ) ^ (position.toNat - significant.length) *
      10 ^ (0 - max 0 ((significant.length : Int) - position)) =
        10 ^ (position - significant.length) := by
    rw [← zpow_natCast, ← zpow_add₀ hten]
    congr 1
    omega
  rw [mul_assoc, mul_assoc, hpow]
  ring

theorem plainNumeral_plain (h : Significant significant) :
    (plainNumeral negative significant position).Plain := by
  have hcoefficient : (plainNumeral negative significant position).coefficient ≠ 0 := by
    rw [plainNumeral_coefficient]
    exact Nat.mul_ne_zero h.value_ne_zero (by positivity)
  obtain ⟨c, rest, hhead⟩ := List.exists_cons_of_ne_nil h.nonempty
  have hleading : ∀ l, (c :: l).head? = some '0' → c :: l = ['0'] := by
    intro l hzero
    refine absurd ?_ h.leading
    rw [hhead]
    exact hzero
  have hnone : ∀ e ∈ (none : Option Exponent), e.WellFormed := fun e he => by cases he
  unfold plainNumeral at hcoefficient ⊢
  split
  · rename_i hposition
    rw [if_pos hposition] at hcoefficient
    have hzero : IsDigits ['0'] := isDigits_replicate 1
    have hfraction := isDigits_append.2 ⟨isDigits_replicate (-position).toNat, h.digits⟩
    refine ⟨⟨hzero, List.cons_ne_nil _ _, fun _ => rfl, hfraction, hnone⟩, rfl, ?_,
      fun hzero => absurd hzero hcoefficient⟩
    dsimp only
    rw [List.getLast?_append_of_ne_nil _ h.nonempty]
    exact h.trailing
  · rename_i hposition
    rw [if_neg hposition] at hcoefficient
    split
    · rename_i hlength
      rw [if_pos hlength] at hcoefficient
      have hnil : IsDigits [] := fun c hc => (List.not_mem_nil hc).elim
      have hinteger := isDigits_append.2
        ⟨h.digits, isDigits_replicate (position.toNat - significant.length)⟩
      refine ⟨⟨hinteger, ?_, ?_, hnil, hnone⟩, rfl, ?_, fun hzero => absurd hzero hcoefficient⟩
      · exact List.append_ne_nil_of_left_ne_nil h.nonempty _
      · rw [hhead]
        exact hleading _
      · exact fun heq => by cases heq
    · rename_i hlength
      rw [if_neg hlength] at hcoefficient
      have hsplit : IsDigits (significant.take position.toNat) ∧
          IsDigits (significant.drop position.toNat) := by
        rw [← isDigits_append, List.take_append_drop]
        exact h.digits
      have hdrop : significant.drop position.toNat ≠ [] := by
        rw [Ne, List.drop_eq_nil_iff]
        exact hlength
      have htake : ∃ l, significant.take position.toNat = c :: l := by
        obtain ⟨k, hk⟩ : ∃ k, position.toNat = k + 1 := ⟨position.toNat - 1, by omega⟩
        rw [hhead, hk, List.take_succ_cons]
        exact ⟨_, rfl⟩
      obtain ⟨l, hl⟩ := htake
      refine ⟨⟨hsplit.1, ?_, ?_, hsplit.2, hnone⟩, rfl, ?_,
        fun hzero => absurd hzero hcoefficient⟩
      · dsimp only
        rw [hl]
        exact List.cons_ne_nil _ _
      · dsimp only
        rw [hl]
        exact hleading _
      · have hlast : significant.getLast? = (significant.drop position.toNat).getLast? := by
          conv_lhs => rw [← List.take_append_drop position.toNat significant]
          exact List.getLast?_append_of_ne_nil _ hdrop
        dsimp only
        rw [← hlast]
        exact h.trailing

/-- The writer writes the plain numeral if its text is short enough. -/
theorem writePlain_eq_ok_iff (h : Significant significant) (hposition : FitsI64 position)
    {out : List Char} :
    writePlain negative significant position = .ok out ↔
      (plainNumeral negative significant position).text = out ∧
        out.length ≤ maxCanonicalNumberBytes := by
  unfold FitsI64 at hposition
  unfold writePlain ensureNumberLength
  by_cases hle : position ≤ 0
  · simp only [if_pos hle, plainNumeral, Numeral.text, Numeral.mantissaText]
    generalize (if negative = true then ['-'] else []) = sign
    have hfraction : List.replicate (-position).toNat '0' ++ significant ≠ [] :=
      List.append_ne_nil_of_right_ne_nil _ h.nonempty
    simp only [Except.bind_eq_ok_iff, Except.exists_unit_iff, Except.pure_eq_ok_iff,
      require_eq_ok_iff, checkedI64_eq_ok_iff, FitsI64, if_neg hfraction, Option.elim_none,
      List.append_nil]
    constructor
    · rintro ⟨_, ⟨_, rfl⟩, hlength, rfl⟩
      refine ⟨rfl, ?_⟩
      simp only [List.length_append, List.length_cons, List.length_replicate]
      omega
    · rintro ⟨rfl, hlength⟩
      simp only [List.length_append, List.length_cons, List.length_replicate,
        List.length_nil] at hlength
      have hlimit : maxCanonicalNumberBytes = 1048576 := rfl
      refine ⟨_, ⟨by omega, rfl⟩, by omega, rfl⟩
  · by_cases hlength : significant.length ≤ position.toNat
    · simp only [if_neg hle, if_pos hlength, plainNumeral, Numeral.text, Numeral.mantissaText,
        if_true]
      generalize (if negative = true then ['-'] else []) = sign
      simp only [Except.bind_eq_ok_iff, Except.exists_unit_iff, Except.pure_eq_ok_iff,
        require_eq_ok_iff, Option.elim_none, List.append_nil]
      constructor
      · rintro ⟨hlength, rfl⟩
        refine ⟨rfl, ?_⟩
        simp only [List.length_append, List.length_replicate]
        omega
      · rintro ⟨rfl, hlength⟩
        simp only [List.length_append, List.length_replicate] at hlength
        exact ⟨by omega, rfl⟩
    · have hdrop : significant.drop position.toNat ≠ [] := by
        rw [Ne, List.drop_eq_nil_iff]
        exact hlength
      have htotal : (significant.take position.toNat).length +
          (significant.drop position.toNat).length = significant.length := by
        rw [← List.length_append, List.take_append_drop]
      simp only [if_neg hle, if_neg hlength, plainNumeral, Numeral.text, Numeral.mantissaText,
        if_neg hdrop]
      generalize (if negative = true then ['-'] else []) = sign
      simp only [Except.bind_eq_ok_iff, Except.exists_unit_iff, Except.pure_eq_ok_iff,
        require_eq_ok_iff, Option.elim_none, List.append_nil]
      constructor
      · rintro ⟨hlength, rfl⟩
        refine ⟨rfl, ?_⟩
        simp only [List.length_append, List.length_cons]
        omega
      · rintro ⟨rfl, hlength⟩
        simp only [List.length_append, List.length_cons] at hlength
        exact ⟨by omega, rfl⟩

/-! ## The significant digits of a number -/

def leadingZeroes (digits : List Char) : Nat :=
  (digits.takeWhile (· = '0')).length

def significantDigits (digits : List Char) : List Char :=
  (digits.dropWhile (· = '0')).rdropWhile (· = '0')

variable {digits integer fraction : List Char}

theorem eq_replicate_zero {l : List Char} (h : ∀ c ∈ l, c = '0') :
    l = List.replicate l.length '0' :=
  List.eq_replicate_iff.2 ⟨rfl, h⟩

/-- Digits are zeros around the significant digits. -/
theorem digits_eq (digits : List Char) :
    ∃ trailing, digits = List.replicate (leadingZeroes digits) '0' ++
      (significantDigits digits ++ List.replicate trailing '0') := by
  have hleading := eq_replicate_zero (l := digits.takeWhile (· = '0'))
    fun c hc => by simpa using List.mem_takeWhile_imp hc
  have htrailing := eq_replicate_zero (l := (digits.dropWhile (· = '0')).rtakeWhile (· = '0'))
    fun c hc => by simpa using List.mem_rtakeWhile_imp hc
  refine ⟨((digits.dropWhile (· = '0')).rtakeWhile (· = '0')).length, ?_⟩
  unfold leadingZeroes significantDigits
  rw [← hleading, ← htrailing, List.rdropWhile_append_rtakeWhile, List.takeWhile_append_dropWhile]

theorem significantDigits_significant (hdigits : IsDigits digits)
    (hrest : digits.dropWhile (· = '0') ≠ []) : Significant (significantDigits digits) := by
  have hhead := List.head?_dropWhile_not (fun c => decide (c = '0')) digits
  obtain ⟨c, rest, hcons⟩ := List.exists_cons_of_ne_nil hrest
  rw [hcons] at hhead
  have hc : decide (c = '0') = false := by simpa using hhead
  have hnonempty : significantDigits digits ≠ [] := by
    unfold significantDigits
    rw [Ne, List.rdropWhile_eq_nil_iff, hcons]
    intro hall
    have := hall c List.mem_cons_self
    rw [hc] at this
    cases this
  refine ⟨fun d hd => ?_, hnonempty, ?_, ?_⟩
  · have hmem := (List.rdropWhile_prefix _ _).subset hd
    exact hdigits d ((List.dropWhile_suffix _).subset hmem)
  · obtain ⟨front, hfront⟩ := List.rdropWhile_prefix (fun c => decide (c = '0'))
      (digits.dropWhile (· = '0'))
    obtain ⟨d, rest', hsignificant⟩ := List.exists_cons_of_ne_nil hnonempty
    unfold significantDigits at hsignificant ⊢
    rw [hsignificant, hcons] at hfront
    rw [hsignificant]
    intro hzero
    cases hzero
    have hsame : '0' = c := (List.cons.inj hfront).1
    rw [← hsame] at hc
    cases hc
  · intro hlast
    unfold significantDigits at hlast hnonempty
    have hnot := List.rdropWhile_last_not _ _ hnonempty
    rw [List.getLast?_eq_some_getLast hnonempty] at hlast
    rw [Option.some.inj hlast] at hnot
    exact hnot rfl

theorem dropWhile_eq_nil_iff_value (hdigits : IsDigits digits) :
    digits.dropWhile (· = '0') = [] ↔ digitsValue digits = 0 := by
  rw [List.dropWhile_eq_nil_iff, digitsValue_eq_zero_iff hdigits]
  simp only [decide_eq_true_eq]

/-! ## Which numbers are written -/

/-- The position of the point is computed without overflow. -/
structure PointFits (integerLength zeroes : Nat) (exponent : Int) : Prop where
  integer : FitsI64 integerLength
  leading : FitsI64 zeroes
  moved : FitsI64 ((integerLength : Int) + exponent)
  position : FitsI64 ((integerLength : Int) + exponent - zeroes)

theorem decimalPosition_eq_ok_iff {integerLength leading : Nat} {exponent position : Int} :
    decimalPosition integerLength leading exponent = .ok position ↔
      PointFits integerLength leading exponent ∧
        (integerLength : Int) + exponent - leading = position := by
  unfold decimalPosition
  simp only [Except.bind_eq_ok_iff, checkedI64_eq_ok_iff]
  constructor
  · rintro ⟨_, ⟨hinteger, rfl⟩, _, ⟨hleading, rfl⟩, _, ⟨hmoved, rfl⟩, hposition, rfl⟩
    exact ⟨⟨hinteger, hleading, hmoved, hposition⟩, rfl⟩
  · rintro ⟨h, rfl⟩
    exact ⟨_, ⟨h.integer, rfl⟩, _, ⟨h.leading, rfl⟩, _, ⟨h.moved, rfl⟩, h.position, rfl⟩

/-- The exponent of the number and, unless it is zero, the position of its point fit `i64`. -/
structure PositionFits (n : Numeral) : Prop where
  exponent : ∀ e ∈ n.exponent, digitsValue e.digits < 2 ^ 63
  position : n.coefficient ≠ 0 →
    PointFits n.integer.length (leadingZeroes (n.integer ++ n.fraction)) n.exponentValue

/-- The number without exponent and superfluous zeros. -/
def plainForm (n : Numeral) : Numeral :=
  if n.coefficient = 0 then
    { negative := false, integer := ['0'], fraction := [], exponent := none }
  else
    plainNumeral n.negative (significantDigits (n.integer ++ n.fraction))
      (n.integer.length + n.exponentValue - leadingZeroes (n.integer ++ n.fraction))

theorem plainForm_plain {n : Numeral} (h : n.WellFormed) : (plainForm n).Plain := by
  unfold plainForm
  split
  · refine ⟨⟨isDigits_replicate 1, List.cons_ne_nil _ _, fun _ => rfl, ?_, ?_⟩, rfl, ?_, ?_⟩
    · exact fun c hc => (List.not_mem_nil hc).elim
    · exact fun e he => by cases he
    · exact fun heq => by cases heq
    · exact fun _ => rfl
  · rename_i hcoefficient
    have hdigits := isDigits_append.2 ⟨h.integer, h.fraction⟩
    refine plainNumeral_plain (significantDigits_significant hdigits fun hnil => hcoefficient ?_)
    exact (dropWhile_eq_nil_iff_value hdigits).1 hnil

/-- The plain form denotes the same number. -/
theorem plainForm_value {n : Numeral} (h : n.WellFormed) : (plainForm n).value = n.value := by
  have hdigits := isDigits_append.2 ⟨h.integer, h.fraction⟩
  unfold plainForm
  split
  · rename_i hcoefficient
    have hzero : digitsValue (['0'] ++ []) = 0 := rfl
    unfold Numeral.value
    rw [hcoefficient]
    unfold Numeral.coefficient
    rw [hzero]
    simp
  · obtain ⟨trailing, heq⟩ := digits_eq (n.integer ++ n.fraction)
    have hlength := congrArg List.length heq
    have hvalue := congrArg digitsValue heq
    rw [digitsValue_append (List.replicate _ _), digitsValue_replicate, Nat.zero_mul, Nat.zero_add,
      digitsValue_append (significantDigits _), digitsValue_replicate, Nat.add_zero,
      List.length_replicate] at hvalue
    simp only [List.length_append, List.length_replicate] at hlength
    have hten : (10 : ℚ) ≠ 0 := by norm_num
    have hpow : (10 : ℚ) ^ trailing * 10 ^ (n.exponentValue - n.fraction.length) =
        10 ^ (n.integer.length + n.exponentValue - leadingZeroes (n.integer ++ n.fraction) -
          (significantDigits (n.integer ++ n.fraction)).length) := by
      rw [← zpow_natCast, ← zpow_add₀ hten]
      congr 1
      omega
    rw [plainNumeral_value]
    unfold Numeral.value Numeral.coefficient
    rw [hvalue, ← hpow]
    push_cast
    ring

theorem normalizeDigits_eq_ok_iff {n : Numeral} (h : n.WellFormed) {out : List Char} :
    normalizeDigits n.negative n.integer n.fraction n.exponentValue = .ok out ↔
      ((plainForm n).text = out ∧ out.length ≤ maxCanonicalNumberBytes) ∧
        (n.coefficient ≠ 0 →
          PointFits n.integer.length (leadingZeroes (n.integer ++ n.fraction)) n.exponentValue) := by
  have hdigits := isDigits_append.2 ⟨h.integer, h.fraction⟩
  have hzero := dropWhile_eq_nil_iff_value hdigits
  unfold normalizeDigits plainForm
  by_cases hcoefficient : n.coefficient = 0
  · rw [if_pos (hzero.2 hcoefficient), if_pos hcoefficient, Except.pure_eq_ok_iff]
    constructor
    · rintro rfl
      exact ⟨⟨rfl, by decide⟩, fun hne => absurd hcoefficient hne⟩
    · exact fun hout => hout.1.1
  · have hrest := fun hnil => hcoefficient (hzero.1 hnil)
    have hsignificant := significantDigits_significant hdigits hrest
    rw [if_neg hrest, if_neg hcoefficient]
    simp only [Except.bind_eq_ok_iff, decimalPosition_eq_ok_iff]
    constructor
    · rintro ⟨_, ⟨hfits, rfl⟩, hwritten⟩
      exact ⟨(writePlain_eq_ok_iff hsignificant hfits.position).1 hwritten, fun _ => hfits⟩
    · rintro ⟨hout, hfits⟩
      refine ⟨_, ⟨hfits hcoefficient, rfl⟩, ?_⟩
      exact (writePlain_eq_ok_iff hsignificant (hfits hcoefficient).position).2 hout

/-- A number is written as its plain form, if that is short enough and its point can be placed. -/
theorem normalizeNumber_text_eq_ok_iff {n : Numeral} (h : n.WellFormed) {out : List Char} :
    normalizeNumber n.text = .ok out ↔
      ((plainForm n).text = out ∧ out.length ≤ maxCanonicalNumberBytes) ∧ PositionFits n := by
  have hsplit := h.split_text
  obtain ⟨hunsigned, hnegative⟩ := h.unsigned_text
  obtain ⟨hmantissa, hexponent⟩ := List.span_append h.mantissa_not_marker h.exponent_text_head
  have hinteger := congrArg Numeral.integer hsplit
  have hfraction := congrArg Numeral.fraction hsplit
  unfold split at hinteger hfraction
  unfold unsigned at hunsigned
  dsimp only [unsigned] at hinteger hfraction
  unfold normalizeNumber
  dsimp only
  rw [hnegative, hinteger, hfraction, hunsigned, hexponent]
  cases hcase : n.exponent with
  | none =>
    have hvalue : n.exponentValue = 0 := by
      unfold Numeral.exponentValue
      rw [hcase]
      rfl
    rw [Option.elim_none]
    simp only [Except.ok_bind]
    rw [← hvalue, normalizeDigits_eq_ok_iff h]
    refine and_congr_right fun _ => ⟨fun hfits => ⟨?_, hfits⟩, fun hfits => hfits.position⟩
    rw [hcase]
    exact fun e he => by cases he
  | some e =>
    have hvalue : n.exponentValue = e.value := by
      unfold Numeral.exponentValue
      rw [hcase]
      rfl
    have hwell := h.exponent e hcase
    rw [Option.elim_some]
    simp only [Exponent.text, Except.bind_eq_ok_iff, parseExponent_eq_ok_iff hwell]
    constructor
    · rintro ⟨_, ⟨rfl, hlt⟩, hnormalized⟩
      rw [← hvalue, normalizeDigits_eq_ok_iff h] at hnormalized
      refine ⟨hnormalized.1, ?_, hnormalized.2⟩
      rw [hcase]
      rintro _ ⟨⟩
      exact hlt
    · rintro ⟨hout, hfits⟩
      refine ⟨_, ⟨rfl, hfits.exponent e hcase⟩, ?_⟩
      rw [← hvalue, normalizeDigits_eq_ok_iff h]
      exact ⟨hout, hfits.position⟩

/-- The expansion of the number is short enough to be written. -/
def Expandable (t : List Char) : Prop :=
  ∃ plain, IsExpansion plain t ∧ plain.length ≤ maxCanonicalNumberBytes

/-- A number text is written exactly as its plain decimal expansion. -/
theorem normalizeNumber_eq_ok_iff {t out : List Char} (h : IsNumeral t) :
    normalizeNumber t = .ok out ↔
      (IsExpansion out t ∧ out.length ≤ maxCanonicalNumberBytes) ∧ PositionFits (split t) := by
  obtain ⟨hwell, htext⟩ := split_of_isNumeral h
  have hplain := plainForm_plain hwell
  have hvalue : textValue (plainForm (split t)).text = textValue t := by
    unfold textValue
    rw [hplain.wellFormed.split_text, plainForm_value hwell]
  have hexpansion : IsExpansion out t ↔ (plainForm (split t)).text = out := by
    constructor
    · rintro ⟨hout, heq⟩
      exact IsPlain.eq_of_value_eq ⟨_, hplain, rfl⟩ hout (hvalue.trans heq.symm)
    · rintro rfl
      exact ⟨⟨_, hplain, rfl⟩, hvalue⟩
  have hnormalized : normalizeNumber (split t).text = .ok out ↔ _ :=
    normalizeNumber_text_eq_ok_iff hwell
  rw [htext] at hnormalized
  rw [hnormalized, hexpansion]

theorem leadingZeroes_le (digits : List Char) : leadingZeroes digits ≤ digits.length :=
  (List.takeWhile_prefix _).length_le

/-- The bounds of the machine integers do not matter for a plain number. -/
theorem positionFits_of_plain {n : Numeral} (h : n.Plain)
    (hlength : n.text.length ≤ maxCanonicalNumberBytes) : PositionFits n := by
  have hexponent : n.exponentValue = 0 := by
    unfold Numeral.exponentValue
    rw [h.exponent]
    rfl
  have hdigits : n.integer.length + n.fraction.length ≤ n.text.length := by
    unfold Numeral.text Numeral.mantissaText
    by_cases hfraction : n.fraction = []
    · rw [if_pos hfraction, hfraction]
      simp only [List.length_append, List.length_nil]
      omega
    · rw [if_neg hfraction]
      simp only [List.length_append, List.length_cons]
      omega
  have hleading := leadingZeroes_le (n.integer ++ n.fraction)
  rw [List.length_append] at hleading
  unfold maxCanonicalNumberBytes at hlength
  refine ⟨fun e he => ?_, fun _ => ?_⟩
  · rw [h.exponent] at he
    cases he
  · rw [hexponent]
    constructor <;> unfold FitsI64 <;> omega

/-- The text is its own canonical text. -/
def Settled (t : List Char) : Prop :=
  IsNumeral t ∧ normalizeNumber t = .ok t

/-- The canonical text of a number is settled, and denotes the same. -/
theorem settled_of_normalized {t out : List Char} (h : IsNumeral t)
    (hout : normalizeNumber t = .ok out) : Settled out ∧ textValue out = textValue t := by
  obtain ⟨⟨⟨⟨n, hn, rfl⟩, hvalue⟩, hlength⟩, -⟩ := (normalizeNumber_eq_ok_iff h).1 hout
  have hnumeral : IsNumeral n.text := ⟨n, hn.wellFormed, rfl⟩
  have hfits : PositionFits (split n.text) := by
    rw [hn.wellFormed.split_text]
    exact positionFits_of_plain hn hlength
  exact ⟨⟨hnumeral, (normalizeNumber_eq_ok_iff hnumeral).2 ⟨⟨⟨⟨n, hn, rfl⟩, rfl⟩, hlength⟩, hfits⟩⟩,
    hvalue⟩

end RadishMemory.CanonicalJson
