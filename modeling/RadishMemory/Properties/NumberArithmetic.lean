import RadishMemory.Construction.Core.NumberArithmetic
import RadishMemory.Properties.CanonicalNumbers

/-!
# One step of the number arithmetic can overflow

Every step of `normalizeNumber` fits its machine integer, with one exception: the negation of a
position that is the least `i64`.  A number reaches it when its integer part is zero and its
exponent is the number of zeros at the front of its fraction, less 2 ^ 63.
-/

namespace RadishMemory.CanonicalJson

open Decimal

/-! ## Refusals -/

/-- The step with its refusal as a stop. -/
def lifted {α : Type} (x : Except NonCanonicalJsonReason α) : Except Machine.NumberStop α :=
  x.mapError .refused

theorem lifted_bind {α β : Type} (x : Except NonCanonicalJsonReason α)
    (f : α → Except NonCanonicalJsonReason β) :
    lifted (x >>= f) = lifted x >>= fun a => lifted (f a) := by
  cases x with
  | ok a => rfl
  | error e => rfl

theorem lifted_ok {α : Type} (a : α) : lifted (.ok a) = .ok a := rfl

theorem lifted_pure {α : Type} (a : α) : lifted (pure a) = pure a := rfl

theorem lifted_eq_ok_iff {α : Type} {x : Except NonCanonicalJsonReason α} {a : α} :
    lifted x = .ok a ↔ x = .ok a :=
  Except.mapError_eq_ok_iff

theorem lifted_ne_overflow {α : Type} (x : Except NonCanonicalJsonReason α) :
    lifted x ≠ .error .overflow := by
  cases x with
  | ok a => exact fun h => by cases h
  | error e => exact fun h => by cases h

theorem checked_eq (x : Int) : Machine.checked x = lifted (checkedI64 x) := rfl

theorem plainUsize_ok {x : Int} {n : Nat} (hx : x = n) (hn : n < 2 ^ 64) :
    Machine.plainUsize x = .ok n := by
  unfold Machine.plainUsize
  rw [if_pos (by omega), hx]
  simp

/-! ## The exponent -/

theorem plainU8_digit {c : Char} (h : c.isDigit = true) :
    Machine.plainU8 ((c.toNat : Int) - '0'.toNat) = .ok (digitValue c) := by
  have hrange := isDigit_iff.1 h
  have hzero : '0'.toNat = 48 := rfl
  unfold Machine.plainU8 digitValue
  rw [if_pos (by omega)]
  congr 1
  omega

theorem machine_parseExponentDigits {digits : List Char} (h : IsDigits digits) :
    Machine.parseExponentDigits digits = lifted (parseExponentDigits digits) := by
  unfold Machine.parseExponentDigits parseExponentDigits
  induction digits using List.reverseRecOn with
  | nil => rfl
  | append_singleton front c ih =>
    have hc : c.isDigit = true := h c (by simp)
    rw [List.foldlM_append, List.foldlM_append, lifted_bind,
      ih fun d hd => h d (List.mem_append_left _ hd)]
    congr 1
    funext exponent
    simp only [List.foldlM_cons, List.foldlM_nil, lifted_bind, checked_eq, plainU8_digit hc,
      Except.ok_bind, lifted_pure]

theorem parseExponent_unsigned {c : Char} {rest : List Char} (hminus : c ≠ '-')
    (hplus : c ≠ '+') : parseExponent (c :: rest) = parseExponentDigits (c :: rest) := by
  unfold parseExponent
  split
  · rename_i heq
    exact absurd (List.cons.inj heq).1 hminus
  · rename_i heq
    exact absurd (List.cons.inj heq).1 hplus
  · rfl

theorem machine_parseExponent_unsigned {c : Char} {rest : List Char} (hminus : c ≠ '-')
    (hplus : c ≠ '+') :
    Machine.parseExponent (c :: rest) = Machine.parseExponentDigits (c :: rest) := by
  unfold Machine.parseExponent
  split
  · rename_i heq
    exact absurd (List.cons.inj heq).1 hminus
  · rename_i heq
    exact absurd (List.cons.inj heq).1 hplus
  · rfl

theorem machine_parseExponent {e : Exponent} (h : e.WellFormed) :
    Machine.parseExponent (e.sign ++ e.digits) = lifted (parseExponent (e.sign ++ e.digits)) := by
  obtain ⟨c, rest, hdigits⟩ := List.exists_cons_of_ne_nil h.nonempty
  have hdigit : c.isDigit = true := h.digits c (hdigits ▸ List.mem_cons_self)
  rcases h.sign with hsign | hsign | hsign
  · have hminus := isDigit_ne hdigit (by decide : '-'.isDigit = false)
    have hplus := isDigit_ne hdigit (by decide : '+'.isDigit = false)
    rw [hsign, List.nil_append, hdigits, parseExponent_unsigned hminus hplus,
      machine_parseExponent_unsigned hminus hplus]
    exact machine_parseExponentDigits (hdigits ▸ h.digits)
  · rw [hsign]
    exact machine_parseExponentDigits h.digits
  · rw [hsign]
    change (Machine.parseExponentDigits e.digits >>= fun exponent => Machine.checked (-exponent)) =
      lifted (parseExponentDigits e.digits >>= fun exponent => checkedI64 (-exponent))
    rw [lifted_bind, machine_parseExponentDigits h.digits]
    rfl

/-! ## The text -/

/-- The lengths that are added up before the text is written fit. -/
structure LengthsFit (negative : Bool) (significant : List Char) (position : Int) : Prop where
  fits : FitsI64 position
  zeroes : position ≤ 0 →
    (if negative then 1 else 0) + 2 + (-position).toNat + significant.length < 2 ^ 64
  digits : (if negative then 1 else 0) + significant.length + 1 < 2 ^ 64

theorem usizeTryFrom_ok {x : Int} (h : 0 ≤ x) : Machine.usizeTryFrom x = .ok x.toNat := by
  unfold Machine.usizeTryFrom
  rw [if_pos h]

theorem signLength (negative : Bool) :
    (if negative then ['-'] else []).length = if negative then 1 else 0 := by
  cases negative with
  | true => rfl
  | false => rfl

theorem machine_writePlain {negative : Bool} {significant : List Char} {position : Int}
    (h : LengthsFit negative significant position) :
    Machine.writePlain negative significant position =
      if position = -2 ^ 63 then .error .overflow
      else lifted (writePlain negative significant position) := by
  obtain ⟨hlow, hhigh⟩ := h.fits
  have hdigits := h.digits
  unfold Machine.writePlain writePlain
  dsimp only
  rw [signLength]
  by_cases hnegative : position ≤ 0
  · have hzeroes := h.zeroes hnegative
    rw [if_pos hnegative, if_pos hnegative]
    by_cases hleast : position = -2 ^ 63
    · rw [if_pos hleast, hleast]
      rfl
    · have hnegated : Machine.plainI64 (-position) = .ok (-position) := by
        unfold Machine.plainI64
        rw [if_pos (by omega)]
      have hchecked : checkedI64 (-position) = .ok (-position) :=
        checkedI64_eq_ok_iff.2 ⟨⟨by omega, by omega⟩, rfl⟩
      rw [if_neg hleast, hnegated, hchecked, Except.ok_bind, Except.ok_bind,
        usizeTryFrom_ok (by omega), Except.ok_bind]
      generalize (if negative then 1 else 0 : Nat) = sign at hzeroes hdigits ⊢
      generalize (-position).toNat = zeroes at hzeroes ⊢
      rw [plainUsize_ok (n := sign + 2) (by push_cast; ring) (by omega), Except.ok_bind,
        plainUsize_ok (n := sign + 2 + zeroes) (by push_cast; ring) (by omega), Except.ok_bind,
        plainUsize_ok (n := sign + 2 + zeroes + significant.length) (by push_cast; ring) hzeroes,
        Except.ok_bind, lifted_bind]
      rfl
  · have hpositive : position ≠ -2 ^ 63 := by omega
    rw [if_neg hnegative, if_neg hnegative, if_neg hpositive, usizeTryFrom_ok (by omega),
      Except.ok_bind]
    have hposition : position.toNat < 2 ^ 63 := by omega
    have hsign : (if negative then 1 else 0 : Nat) ≤ 1 := by
      split
      · exact Nat.le_refl 1
      · exact Nat.zero_le 1
    generalize (if negative then 1 else 0 : Nat) = sign at hsign hdigits ⊢
    generalize position.toNat = place at hposition ⊢
    by_cases hlong : significant.length ≤ place
    · rw [if_pos hlong, if_pos hlong,
        plainUsize_ok (n := place - significant.length) (by omega) (by omega), Except.ok_bind,
        plainUsize_ok (n := sign + significant.length) (by push_cast; ring) (by omega),
        Except.ok_bind,
        plainUsize_ok (n := sign + significant.length + (place - significant.length))
          (by push_cast; ring) (by omega), Except.ok_bind, lifted_bind]
      rfl
    · rw [if_neg hlong, if_neg hlong,
        plainUsize_ok (n := sign + significant.length) (by push_cast; ring) (by omega),
        Except.ok_bind,
        plainUsize_ok (n := sign + significant.length + 1) (by push_cast; ring) hdigits,
        Except.ok_bind, lifted_bind]
      rfl

/-! ## The position of the point -/

/-- The position of the point is the least `i64`: the integer part is zero, and the exponent is the
number of zeros at the front of the fraction, less 2 ^ 63. -/
structure PointAtMinimum (n : Numeral) : Prop where
  integer : n.integer = ['0']
  nonzero : n.coefficient ≠ 0
  zeroes : 0 < leadingZeroes n.fraction
  exponent : n.exponentValue = (leadingZeroes n.fraction : Int) - 2 ^ 63

theorem leadingZeroes_zero (digits : List Char) :
    leadingZeroes ('0' :: digits) = leadingZeroes digits + 1 := by
  simp [leadingZeroes]

theorem position_eq_min_iff {n : Numeral} (h : n.WellFormed) (hnonzero : n.coefficient ≠ 0)
    (hexponent : -2 ^ 63 < n.exponentValue) :
    (n.integer.length : Int) + n.exponentValue - leadingZeroes (n.integer ++ n.fraction) =
      -2 ^ 63 ↔ PointAtMinimum n := by
  by_cases hzero : n.integer = ['0']
  · rw [hzero, List.singleton_append, leadingZeroes_zero, List.length_singleton]
    constructor
    · intro hposition
      exact ⟨hzero, hnonzero, by push_cast at hposition; omega,
        by push_cast at hposition; omega⟩
    · intro hmin
      have hvalue := hmin.exponent
      push_cast
      omega
  · obtain ⟨c, rest, hinteger⟩ := List.exists_cons_of_ne_nil h.nonempty
    have hc : c ≠ '0' := by
      rintro rfl
      exact hzero (h.leading (by rw [hinteger]; rfl))
    have hnone : leadingZeroes (n.integer ++ n.fraction) = 0 := by
      simp [hinteger, leadingZeroes, hc]
    rw [hnone]
    constructor
    · intro hposition
      push_cast at hposition
      omega
    · exact fun hmin => absurd hmin.integer hzero

theorem significantDigits_length (digits : List Char) :
    leadingZeroes digits + (significantDigits digits).length ≤ digits.length := by
  obtain ⟨trailing, heq⟩ := digits_eq digits
  have hlength := congrArg List.length heq
  simp only [List.length_append, List.length_replicate] at hlength
  omega

theorem text_length_eq (n : Numeral) :
    n.text.length = (if n.negative then 1 else 0) + n.mantissaText.length +
      (n.exponent.elim [] Exponent.text).length := by
  unfold Numeral.text
  rw [← signLength]
  simp only [List.length_append]
  omega

/-- The parts of a number are no longer than its text. -/
theorem text_length_ge (n : Numeral) (h : n.WellFormed) :
    (if n.negative then 1 else 0) + (n.integer ++ n.fraction).length +
      (if n.exponent.isSome then 2 else 0) ≤ n.text.length := by
  have hsign := signLength n.negative
  have hmantissa : (n.integer ++ n.fraction).length ≤ n.mantissaText.length := by
    unfold Numeral.mantissaText
    split
    · rename_i hfraction
      rw [hfraction]
    · simp only [List.length_append, List.length_cons]
      omega
  have hexponent : (if n.exponent.isSome then 2 else 0) ≤
      (n.exponent.elim [] Exponent.text).length := by
    cases hcase : n.exponent with
    | none => exact Nat.zero_le _
    | some e =>
      have hdigits := List.length_pos_iff.2 (h.exponent e hcase).nonempty
      simp only [Option.isSome_some, if_true, Option.elim_some, Exponent.text, List.length_cons,
        List.length_append]
      omega
  have htext := text_length_eq n
  omega

theorem lengthsFit {n : Numeral} (h : n.WellFormed) (hmemory : n.text.length < 2 ^ 63)
    (hfits : FitsI64
      ((n.integer.length : Int) + n.exponentValue - leadingZeroes (n.integer ++ n.fraction))) :
    LengthsFit n.negative (significantDigits (n.integer ++ n.fraction))
      ((n.integer.length : Int) + n.exponentValue - leadingZeroes (n.integer ++ n.fraction)) := by
  have htext := text_length_ge n h
  have hsignificant := significantDigits_length (n.integer ++ n.fraction)
  obtain ⟨hlow, hhigh⟩ := hfits
  have hsign : (if n.negative then 1 else 0 : Nat) ≤ 1 := by
    split
    · exact Nat.le_refl 1
    · exact Nat.zero_le 1
  refine ⟨⟨hlow, hhigh⟩, fun hnegative => ?_, by omega⟩
  by_cases hexponent : n.exponent.isSome
  · rw [if_pos hexponent] at htext
    omega
  · -- Without an exponent the zeros before the digits are zeros of the number.
    have hvalue : n.exponentValue = 0 := by
      unfold Numeral.exponentValue
      rw [Option.not_isSome_iff_eq_none.1 hexponent]
      rfl
    rw [if_neg hexponent] at htext
    omega

/-! ## The number -/

theorem machine_decimalPosition (integerLength zeroes : Nat) (exponent : Int) :
    Machine.decimalPosition integerLength zeroes exponent =
      lifted (decimalPosition integerLength zeroes exponent) := by
  unfold Machine.decimalPosition decimalPosition
  simp only [lifted_bind, checked_eq]

/-- The exponent is in the range of those that `parseExponent` returns. -/
def ExponentFits (exponent : Int) : Prop :=
  -2 ^ 63 < exponent ∧ exponent < 2 ^ 63

theorem PointAtMinimum.pointFits {n : Numeral} (h : PointAtMinimum n)
    (hlength : n.integer.length + n.fraction.length < 2 ^ 63) :
    PointFits n.integer.length (leadingZeroes (n.integer ++ n.fraction)) n.exponentValue := by
  have hvalue := h.exponent
  have hfraction := leadingZeroes_le n.fraction
  rw [h.integer, List.length_singleton] at hlength
  rw [h.integer, List.singleton_append, leadingZeroes_zero, List.length_singleton]
  refine ⟨⟨?_, ?_⟩, ⟨?_, ?_⟩, ⟨?_, ?_⟩, ⟨?_, ?_⟩⟩ <;> push_cast <;> omega

theorem PointAtMinimum.exponentFits {n : Numeral} (h : PointAtMinimum n)
    (hlength : n.integer.length + n.fraction.length < 2 ^ 63) :
    ExponentFits n.exponentValue := by
  have hvalue := h.exponent
  have hzeroes := h.zeroes
  have hfraction := leadingZeroes_le n.fraction
  unfold ExponentFits
  omega

/-- The machine and the integers agree, except where the point is at the minimum. -/
theorem machine_normalizeDigits {n : Numeral} (h : n.WellFormed)
    (hmemory : n.text.length < 2 ^ 63) (hexponent : ExponentFits n.exponentValue) :
    PointAtMinimum n ∧
        Machine.normalizeDigits n.negative n.integer n.fraction n.exponentValue =
          .error .overflow ∨
      ¬ PointAtMinimum n ∧
        Machine.normalizeDigits n.negative n.integer n.fraction n.exponentValue =
          lifted (normalizeDigits n.negative n.integer n.fraction n.exponentValue) := by
  have hdigits := isDigits_append.2 ⟨h.integer, h.fraction⟩
  have hzero := dropWhile_eq_nil_iff_value hdigits
  have htext := text_length_ge n h
  rw [List.length_append] at htext
  have hdigitsLength : n.integer.length + n.fraction.length < 2 ^ 63 := by omega
  have hlength : Machine.plainUsize (n.integer.length + n.fraction.length) =
      .ok (n.integer.length + n.fraction.length) :=
    plainUsize_ok (by push_cast; rfl) (by omega)
  unfold Machine.normalizeDigits normalizeDigits
  rw [hlength, Except.ok_bind]
  dsimp only
  by_cases hcoefficient : n.coefficient = 0
  · rw [if_pos (hzero.2 hcoefficient), if_pos (hzero.2 hcoefficient)]
    exact .inr ⟨fun hmin => hmin.nonzero hcoefficient, rfl⟩
  · have hrest := fun hnil => hcoefficient (hzero.1 hnil)
    rw [if_neg hrest, if_neg hrest, machine_decimalPosition, lifted_bind]
    cases hposition : decimalPosition n.integer.length
        ((n.integer ++ n.fraction).takeWhile (· = '0')).length n.exponentValue with
    | error reason =>
      refine .inr ⟨fun hmin => ?_, rfl⟩
      have hok := decimalPosition_eq_ok_iff.2 ⟨hmin.pointFits hdigitsLength, rfl⟩
      cases hposition.symm.trans hok
    | ok position =>
      obtain ⟨hfits, rfl⟩ := decimalPosition_eq_ok_iff.1 hposition
      have hmin := position_eq_min_iff h hcoefficient hexponent.1
      have hwritten := machine_writePlain (lengthsFit h hmemory hfits.position)
      change _ ∧ Machine.writePlain n.negative (significantDigits (n.integer ++ n.fraction)) _ = _ ∨
        _ ∧ Machine.writePlain n.negative (significantDigits (n.integer ++ n.fraction)) _ =
          lifted (writePlain n.negative (significantDigits (n.integer ++ n.fraction)) _)
      by_cases hleast : PointAtMinimum n
      · rw [if_pos (hmin.2 hleast)] at hwritten
        exact .inl ⟨hleast, hwritten⟩
      · rw [if_neg (mt hmin.1 hleast)] at hwritten
        exact .inr ⟨hleast, hwritten⟩

theorem exponentFits_of_parsed {e : Exponent} (h : e.WellFormed) {exponent : Int}
    (hparsed : parseExponent (e.sign ++ e.digits) = .ok exponent) : ExponentFits exponent := by
  obtain ⟨rfl, hlt⟩ := (parseExponent_eq_ok_iff h).1 hparsed
  unfold ExponentFits Exponent.value
  split
  · omega
  · omega

/-- An exponent in the range is not refused. -/
theorem parsed_of_exponentFits {e : Exponent} (h : e.WellFormed) (hfits : ExponentFits e.value) :
    parseExponent (e.sign ++ e.digits) = .ok e.value := by
  refine (parseExponent_eq_ok_iff h).2 ⟨rfl, ?_⟩
  unfold ExponentFits Exponent.value at hfits
  split at hfits
  · omega
  · omega

theorem machine_normalizeNumber {n : Numeral} (h : n.WellFormed)
    (hmemory : n.text.length < 2 ^ 63) :
    PointAtMinimum n ∧ Machine.normalizeNumber n.text = .error .overflow ∨
      ¬ PointAtMinimum n ∧
        Machine.normalizeNumber n.text = lifted (normalizeNumber n.text) := by
  have hdigits : n.integer.length + n.fraction.length < 2 ^ 63 := by
    have htext := text_length_ge n h
    rw [List.length_append] at htext
    omega
  have hsplit := h.split_text
  obtain ⟨hunsigned, hnegative⟩ := h.unsigned_text
  obtain ⟨hmantissa, hexponent⟩ := List.span_append h.mantissa_not_marker h.exponent_text_head
  have hinteger := congrArg Numeral.integer hsplit
  have hfraction := congrArg Numeral.fraction hsplit
  unfold split at hinteger hfraction
  unfold unsigned at hunsigned
  dsimp only [unsigned] at hinteger hfraction
  unfold Machine.normalizeNumber normalizeNumber
  dsimp only
  rw [hnegative, hinteger, hfraction, hunsigned, hexponent, hmantissa]
  cases hcase : n.exponent with
  | none =>
    have hvalue : n.exponentValue = 0 := by
      unfold Numeral.exponentValue
      rw [hcase]
      rfl
    have hfits : ExponentFits n.exponentValue := by
      unfold ExponentFits
      omega
    have hdone := machine_normalizeDigits h hmemory hfits
    rw [hvalue] at hdone
    rw [Option.elim_none]
    dsimp only
    rw [Except.ok_bind, Except.ok_bind]
    exact hdone
  | some e =>
    have hvalue : n.exponentValue = e.value := by
      unfold Numeral.exponentValue
      rw [hcase]
      rfl
    have hwell := h.exponent e hcase
    have htext := text_length_eq n
    have hmarker : Machine.plainUsize (n.mantissaText.length + 1) =
        .ok (n.mantissaText.length + 1) :=
      plainUsize_ok (by push_cast; rfl) (by omega)
    rw [Option.elim_some]
    simp only [Exponent.text, hmarker, Except.ok_bind]
    rw [machine_parseExponent hwell]
    cases hparsed : parseExponent (e.sign ++ e.digits) with
    | error reason =>
      refine .inr ⟨fun hmin => ?_, rfl⟩
      have hfits := hmin.exponentFits hdigits
      rw [hvalue] at hfits
      cases hparsed.symm.trans (parsed_of_exponentFits hwell hfits)
    | ok exponent =>
      have hfits := exponentFits_of_parsed hwell hparsed
      have hexponentValue := ((parseExponent_eq_ok_iff hwell).1 hparsed).1
      rw [← hexponentValue, ← hvalue] at hfits
      rw [← hexponentValue, ← hvalue, lifted_ok, Except.ok_bind, Except.ok_bind]
      exact machine_normalizeDigits h hmemory hfits

/-! ## Refusals name the expansion limit -/

/-- The step refuses for no other reason than the expansion limit. -/
def OnlyLimit {α : Type} (x : Except NonCanonicalJsonReason α) : Prop :=
  ∀ reason, x = .error reason → reason = .numberExpansionLimit

theorem OnlyLimit.ok {α : Type} (a : α) : OnlyLimit (.ok a) :=
  fun _ h => by cases h

theorem OnlyLimit.bind {α β : Type} {x : Except NonCanonicalJsonReason α}
    {f : α → Except NonCanonicalJsonReason β} (hx : OnlyLimit x) (hf : ∀ a, OnlyLimit (f a)) :
    OnlyLimit (x >>= f) := by
  intro reason h
  cases x with
  | ok a => exact hf a reason h
  | error _ =>
    cases h
    exact hx reason rfl

theorem onlyLimit_checkedI64 (x : Int) : OnlyLimit (checkedI64 x) := by
  intro reason h
  unfold checkedI64 at h
  split at h
  · cases h
  · cases h
    rfl

theorem onlyLimit_ensureNumberLength (length : Nat) :
    OnlyLimit (CanonicalJson.ensureNumberLength length) := by
  intro reason h
  unfold CanonicalJson.ensureNumberLength require at h
  split at h
  · cases h
  · cases h
    rfl

theorem onlyLimit_parseExponentDigits (digits : List Char) :
    OnlyLimit (parseExponentDigits digits) := by
  unfold parseExponentDigits
  generalize (0 : Int) = exponent
  induction digits generalizing exponent with
  | nil => exact .ok exponent
  | cons c rest ih =>
    rw [List.foldlM_cons]
    exact ((onlyLimit_checkedI64 _).bind fun current => onlyLimit_checkedI64 _).bind ih

theorem onlyLimit_parseExponent (value : List Char) : OnlyLimit (parseExponent value) := by
  unfold parseExponent
  split
  · exact (onlyLimit_parseExponentDigits _).bind fun exponent => onlyLimit_checkedI64 _
  · exact onlyLimit_parseExponentDigits _
  · exact onlyLimit_parseExponentDigits _

theorem onlyLimit_writePlain (negative : Bool) (significant : List Char) (position : Int) :
    OnlyLimit (writePlain negative significant position) := by
  unfold writePlain
  dsimp only
  split
  · exact (onlyLimit_checkedI64 _).bind fun negated =>
      (onlyLimit_ensureNumberLength _).bind fun _ => .ok _
  · split
    · exact (onlyLimit_ensureNumberLength _).bind fun _ => .ok _
    · exact (onlyLimit_ensureNumberLength _).bind fun _ => .ok _

theorem onlyLimit_normalizeDigits (negative : Bool) (integer fraction : List Char)
    (exponent : Int) : OnlyLimit (normalizeDigits negative integer fraction exponent) := by
  unfold normalizeDigits decimalPosition
  dsimp only
  split
  · exact .ok _
  · refine .bind ?_ fun position => onlyLimit_writePlain _ _ _
    exact (onlyLimit_checkedI64 _).bind fun integerLength =>
      (onlyLimit_checkedI64 _).bind fun leadingZeroes =>
        (onlyLimit_checkedI64 _).bind fun position => onlyLimit_checkedI64 _

theorem onlyLimit_normalizeNumber (raw : List Char) : OnlyLimit (normalizeNumber raw) := by
  unfold normalizeNumber
  dsimp only
  split
  · exact (onlyLimit_parseExponent _).bind fun exponent => onlyLimit_normalizeDigits _ _ _ _
  · exact (OnlyLimit.ok 0).bind fun exponent => onlyLimit_normalizeDigits _ _ _ _

/-! ## When every step fits -/

/-- No step overflows.  What is written is the plain text of the number and within the limit, and a
number without such a text is refused for its expansion. -/
structure ArithmeticFits (lexeme : NumberLexeme) : Prop where
  fits : Machine.normalizeNumber lexeme.text ≠ .error .overflow
  written : ∀ out, Machine.normalizeNumber lexeme.text = .ok out →
    IsExpansion out lexeme.text ∧ out.length ≤ maxCanonicalNumberBytes
  oversized : ¬ Expandable lexeme.text →
    Machine.normalizeNumber lexeme.text = .error (.refused .numberExpansionLimit)
  refused : ∀ reason, Machine.normalizeNumber lexeme.text = .error (.refused reason) →
    reason = .numberExpansionLimit

/-- The steps of a number fit unless its point is at the minimum. -/
theorem number_arithmetic_fits_iff (lexeme : NumberLexeme) :
    ArithmeticFits lexeme ↔ ¬ PointAtMinimum (split lexeme.text) := by
  obtain ⟨hwell, htext⟩ := split_of_isNumeral lexeme.numeral
  have hmemory := lexeme.inMemory
  rw [← htext] at hmemory
  have hagree := machine_normalizeNumber hwell hmemory
  rw [htext] at hagree
  obtain ⟨hmin, hoverflow⟩ | ⟨hmin, hlifted⟩ := hagree
  · exact ⟨fun h => absurd hoverflow h.fits, fun h => absurd hmin h⟩
  · refine ⟨fun _ => hmin, fun _ => ⟨?_, ?_, ?_, ?_⟩⟩
    · rw [hlifted]
      exact lifted_ne_overflow _
    · intro out hout
      rw [hlifted, lifted_eq_ok_iff, normalizeNumber_eq_ok_iff lexeme.numeral] at hout
      exact hout.1
    · intro hnone
      cases hresult : normalizeNumber lexeme.text with
      | ok out =>
        have hout := ((normalizeNumber_eq_ok_iff lexeme.numeral).1 hresult).1
        exact absurd ⟨out, hout.1, hout.2⟩ hnone
      | error reason =>
        rw [hlifted, hresult, onlyLimit_normalizeNumber _ _ hresult]
        rfl
    · intro reason hreason
      rw [hlifted] at hreason
      cases hresult : normalizeNumber lexeme.text with
      | ok out =>
        rw [hresult] at hreason
        cases hreason
      | error e =>
        rw [hresult] at hreason
        cases hreason
        exact onlyLimit_normalizeNumber _ _ hresult

/-- One zero before the first digit of the fraction and the exponent 1 - 2 ^ 63. -/
def NumberSample.leastPosition : List Char :=
  "0.01e-9223372036854775807".toList

/-- A number of 25 characters overflows. -/
theorem NumberSample.negation_overflows :
    IsNumeral leastPosition ∧ leastPosition.length = 25 ∧
      Machine.normalizeNumber leastPosition = .error .overflow := by
  decide +kernel

end RadishMemory.CanonicalJson
