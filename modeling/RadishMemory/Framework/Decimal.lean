import Mathlib.Algebra.Order.Field.Basic
import Mathlib.Algebra.Order.Field.Rat
import Mathlib.Algebra.Order.Ring.Abs
import Mathlib.Data.List.DropRight
import Mathlib.Data.List.TakeWhile
import Mathlib.Data.Rat.Cast.Order
import Mathlib.Tactic.FieldSimp
import Mathlib.Tactic.Linarith
import Mathlib.Tactic.NormNum
import Mathlib.Tactic.Positivity
import Mathlib.Tactic.Ring

/-!
# Decimal numerals

A numeral is a text with an optional sign, an integer part, an optional fraction and an optional
exponent; it denotes a rational number.  `split` takes a text apart, and a text is a numeral when
its parts are well formed and give the text back.

A plain numeral has no exponent, no zeros at the end of its fraction and no sign on a zero.  Two
plain numerals of equal value are the same text (`Plain.eq_of_value_eq`).
-/

/-- A list that begins with everything a test accepts, and goes on with something it rejects. -/
theorem List.span_append {α : Type} {p : α → Bool} {a b : List α} (ha : ∀ x ∈ a, p x = true)
    (hb : ∀ x ∈ b.head?, p x = false) :
    (a ++ b).takeWhile p = a ∧ (a ++ b).dropWhile p = b := by
  induction a with
  | nil =>
    cases b with
    | nil => exact ⟨rfl, rfl⟩
    | cons x rest =>
      have hx : p x = false := hb x rfl
      simp [hx]
  | cons x rest ih =>
    have hx : p x = true := ha x List.mem_cons_self
    obtain ⟨htake, hdrop⟩ := ih fun y hy => ha y (List.mem_cons_of_mem x hy)
    simp only [List.cons_append, List.takeWhile_cons, List.dropWhile_cons, hx, if_true, htake,
      hdrop, and_self]

namespace Decimal

/-! ## Lists of digits -/

def IsDigits (l : List Char) : Prop :=
  ∀ c ∈ l, c.isDigit = true

instance (l : List Char) : Decidable (IsDigits l) :=
  decidable_of_iff (l.all Char.isDigit = true) List.all_eq_true

def digitValue (c : Char) : Nat :=
  c.toNat - '0'.toNat

def digitsValue (l : List Char) : Nat :=
  l.foldl (fun n c => n * 10 + digitValue c) 0

theorem isDigit_iff {c : Char} : c.isDigit = true ↔ 48 ≤ c.toNat ∧ c.toNat ≤ 57 := by
  unfold Char.isDigit
  simp only [Bool.and_eq_true, decide_eq_true_eq, ge_iff_le, UInt32.le_iff_toNat_le]
  rfl

theorem digitValue_lt {c : Char} (h : c.isDigit = true) : digitValue c < 10 := by
  have hrange := isDigit_iff.1 h
  have hzero : '0'.toNat = 48 := rfl
  unfold digitValue
  omega

theorem digitValue_injective {c d : Char} (hc : c.isDigit = true) (hd : d.isDigit = true)
    (h : digitValue c = digitValue d) : c = d := by
  have hc' := isDigit_iff.1 hc
  have hd' := isDigit_iff.1 hd
  have hzero : '0'.toNat = 48 := rfl
  unfold digitValue at h
  apply Char.ext
  apply UInt32.toNat_inj.1
  change c.toNat = d.toNat
  omega

theorem digitValue_eq_zero {c : Char} (hc : c.isDigit = true) : digitValue c = 0 ↔ c = '0' := by
  constructor
  · exact fun h => digitValue_injective hc rfl h
  · rintro rfl
    rfl

theorem isDigits_append {a b : List Char} : IsDigits (a ++ b) ↔ IsDigits a ∧ IsDigits b := by
  unfold IsDigits
  simp only [List.mem_append]
  exact ⟨fun h => ⟨fun c hc => h c (.inl hc), fun c hc => h c (.inr hc)⟩,
    fun h c hc => hc.elim (h.1 c) (h.2 c)⟩

theorem IsDigits.cons {c : Char} {l : List Char} (hc : c.isDigit = true) (hl : IsDigits l) :
    IsDigits (c :: l) := by
  rintro d (_ | ⟨_, hd⟩)
  · exact hc
  · exact hl d hd

theorem isDigits_replicate (n : Nat) : IsDigits (List.replicate n '0') := by
  intro c hc
  rw [List.eq_of_mem_replicate hc]
  rfl

theorem digitsValue_foldl (l : List Char) (n : Nat) :
    l.foldl (fun n c => n * 10 + digitValue c) n = n * 10 ^ l.length + digitsValue l := by
  unfold digitsValue
  induction l generalizing n with
  | nil => simp
  | cons c rest ih =>
    rw [List.foldl_cons, List.foldl_cons, ih, ih (0 * 10 + digitValue c), List.length_cons]
    ring

theorem digitsValue_append (a b : List Char) :
    digitsValue (a ++ b) = digitsValue a * 10 ^ b.length + digitsValue b := by
  rw [digitsValue, List.foldl_append, digitsValue_foldl b]
  rfl

theorem digitsValue_cons (c : Char) (l : List Char) :
    digitsValue (c :: l) = digitValue c * 10 ^ l.length + digitsValue l := by
  rw [digitsValue, List.foldl_cons, digitsValue_foldl l, Nat.zero_mul, Nat.zero_add]

@[simp] theorem digitsValue_replicate (n : Nat) : digitsValue (List.replicate n '0') = 0 := by
  induction n with
  | zero => rfl
  | succ n ih =>
    have hzero : digitValue '0' = 0 := rfl
    rw [List.replicate_succ, digitsValue_cons, ih, hzero, Nat.zero_mul]

theorem digitsValue_lt {l : List Char} (h : IsDigits l) : digitsValue l < 10 ^ l.length := by
  induction l with
  | nil => exact Nat.one_pos
  | cons c rest ih =>
    have hc := digitValue_lt (h c List.mem_cons_self)
    have hrest := ih fun d hd => h d (List.mem_cons_of_mem c hd)
    rw [digitsValue_cons, List.length_cons, pow_succ]
    calc digitValue c * 10 ^ rest.length + digitsValue rest
        < digitValue c * 10 ^ rest.length + 10 ^ rest.length := by omega
      _ = (digitValue c + 1) * 10 ^ rest.length := by ring
      _ ≤ 10 * 10 ^ rest.length := Nat.mul_le_mul_right _ hc
      _ = 10 ^ rest.length * 10 := by ring

/-- Equally long lists of digits with one value are one list. -/
theorem digitsValue_injective {a b : List Char} (ha : IsDigits a) (hb : IsDigits b)
    (hlength : a.length = b.length) (h : digitsValue a = digitsValue b) : a = b := by
  induction a generalizing b with
  | nil => exact (List.length_eq_zero_iff.1 hlength.symm).symm
  | cons c rest ih =>
    cases b with
    | nil => cases hlength
    | cons d rest' =>
      have hrestLength : rest.length = rest'.length := Nat.succ.inj hlength
      have hrest : IsDigits rest := fun x hx => ha x (List.mem_cons_of_mem c hx)
      have hrest' : IsDigits rest' := fun x hx => hb x (List.mem_cons_of_mem d hx)
      rw [digitsValue_cons, digitsValue_cons, hrestLength] at h
      have hlt := digitsValue_lt hrest
      have hlt' := digitsValue_lt hrest'
      rw [hrestLength] at hlt
      have hpos : 0 < 10 ^ rest'.length := Nat.pow_pos (by norm_num)
      have hvalue : digitValue c = digitValue d := by
        have hdiv : (digitValue c * 10 ^ rest'.length + digitsValue rest) / 10 ^ rest'.length =
            (digitValue d * 10 ^ rest'.length + digitsValue rest') / 10 ^ rest'.length := by
          rw [h]
        rwa [Nat.mul_comm, Nat.mul_add_div hpos, Nat.div_eq_of_lt hlt, Nat.add_zero,
          Nat.mul_comm, Nat.mul_add_div hpos, Nat.div_eq_of_lt hlt', Nat.add_zero] at hdiv
      rw [hvalue] at h
      rw [digitValue_injective (ha c List.mem_cons_self) (hb d List.mem_cons_self) hvalue,
        ih hrest hrest' hrestLength (Nat.add_left_cancel h)]

/-- A list that starts with another digit than zero has a value of its length. -/
theorem le_digitsValue {c : Char} {l : List Char} (hc : c.isDigit = true) (hzero : c ≠ '0') :
    10 ^ l.length ≤ digitsValue (c :: l) := by
  have hpos : 1 ≤ digitValue c := Nat.one_le_iff_ne_zero.2 fun h =>
    hzero ((digitValue_eq_zero hc).1 h)
  rw [digitsValue_cons]
  calc 10 ^ l.length = 1 * 10 ^ l.length := (Nat.one_mul _).symm
    _ ≤ digitValue c * 10 ^ l.length := Nat.mul_le_mul_right _ hpos
    _ ≤ digitValue c * 10 ^ l.length + digitsValue l := Nat.le_add_right _ _

theorem digitsValue_eq_zero_iff {l : List Char} (h : IsDigits l) :
    digitsValue l = 0 ↔ ∀ c ∈ l, c = '0' := by
  induction l with
  | nil => exact ⟨fun _ c hc => (List.not_mem_nil hc).elim, fun _ => rfl⟩
  | cons c rest ih =>
    have hc := h c List.mem_cons_self
    have hrest := ih fun d hd => h d (List.mem_cons_of_mem c hd)
    have hpos : 0 < 10 ^ rest.length := Nat.pow_pos (by norm_num)
    rw [digitsValue_cons, Nat.add_eq_zero_iff, hrest, Nat.mul_eq_zero, digitValue_eq_zero hc,
      List.forall_mem_cons]
    constructor
    · rintro ⟨hfirst | hpow, hall⟩
      · exact ⟨hfirst, hall⟩
      · omega
    · rintro ⟨hfirst, hall⟩
      exact ⟨.inl hfirst, hall⟩

/-! ## Numerals -/

/-- The exponent of a numeral: its marker, its sign, if any, and its digits. -/
structure Exponent where
  marker : Char
  sign : List Char
  digits : List Char
deriving DecidableEq

/-- The parts of a numeral.  An empty fraction stands for a numeral without a point. -/
structure Numeral where
  negative : Bool
  integer : List Char
  fraction : List Char
  exponent : Option Exponent
deriving DecidableEq

def IsMarker (c : Char) : Prop :=
  c = 'e' ∨ c = 'E'

instance (c : Char) : Decidable (IsMarker c) :=
  inferInstanceAs (Decidable (_ ∨ _))

structure Exponent.WellFormed (e : Exponent) : Prop where
  marker : IsMarker e.marker
  sign : e.sign = [] ∨ e.sign = ['+'] ∨ e.sign = ['-']
  digits : IsDigits e.digits
  nonempty : e.digits ≠ []

def Exponent.text (e : Exponent) : List Char :=
  e.marker :: (e.sign ++ e.digits)

def Exponent.value (e : Exponent) : Int :=
  if e.sign = ['-'] then -(digitsValue e.digits) else digitsValue e.digits

instance (e : Exponent) : Decidable e.WellFormed :=
  decidable_of_iff (IsMarker e.marker ∧ (e.sign = [] ∨ e.sign = ['+'] ∨ e.sign = ['-']) ∧
      IsDigits e.digits ∧ e.digits.isEmpty = false)
    ⟨fun h => ⟨h.1, h.2.1, h.2.2.1, List.isEmpty_eq_false_iff.1 h.2.2.2⟩,
      fun h => ⟨h.marker, h.sign, h.digits, List.isEmpty_eq_false_iff.2 h.nonempty⟩⟩

namespace Numeral

/-- The integer part is zero or starts with another digit. -/
structure WellFormed (n : Numeral) : Prop where
  integer : IsDigits n.integer
  nonempty : n.integer ≠ []
  leading : n.integer.head? = some '0' → n.integer = ['0']
  fraction : IsDigits n.fraction
  exponent : ∀ e ∈ n.exponent, e.WellFormed

instance (n : Numeral) : Decidable n.WellFormed :=
  decidable_of_iff (IsDigits n.integer ∧ n.integer.isEmpty = false ∧
      (n.integer.head? = some '0' → n.integer = ['0']) ∧ IsDigits n.fraction ∧
        ∀ e ∈ n.exponent, e.WellFormed)
    ⟨fun h => ⟨h.1, List.isEmpty_eq_false_iff.1 h.2.1, h.2.2.1, h.2.2.2.1, h.2.2.2.2⟩,
      fun h => ⟨h.integer, List.isEmpty_eq_false_iff.2 h.nonempty, h.leading, h.fraction,
        h.exponent⟩⟩

def mantissaText (n : Numeral) : List Char :=
  n.integer ++ (if n.fraction = [] then [] else '.' :: n.fraction)

def text (n : Numeral) : List Char :=
  (if n.negative then ['-'] else []) ++ (n.mantissaText ++ n.exponent.elim [] Exponent.text)

def exponentValue (n : Numeral) : Int :=
  n.exponent.elim 0 Exponent.value

/-- The digits of both parts as one number. -/
def coefficient (n : Numeral) : Nat :=
  digitsValue (n.integer ++ n.fraction)

def value (n : Numeral) : ℚ :=
  (if n.negative then -1 else 1) * n.coefficient * 10 ^ (n.exponentValue - n.fraction.length)

end Numeral

/-! ## Taking a text apart -/

def unsigned (t : List Char) : List Char :=
  if t.head? = some '-' then t.tail else t

def splitExponent : List Char → Option Exponent
  | [] => none
  | marker :: rest => some
    { marker := marker
      sign := rest.takeWhile fun c => c = '+' || c = '-'
      digits := rest.dropWhile fun c => c = '+' || c = '-' }

def split (t : List Char) : Numeral :=
  let mantissa := (unsigned t).takeWhile fun c => !decide (IsMarker c)
  { negative := t.head? = some '-'
    integer := mantissa.takeWhile (· ≠ '.')
    fraction := (mantissa.dropWhile (· ≠ '.')).tail
    exponent := splitExponent ((unsigned t).dropWhile fun c => !decide (IsMarker c)) }

/-- The text is a numeral. -/
def IsNumeral (t : List Char) : Prop :=
  ∃ n : Numeral, n.WellFormed ∧ n.text = t

theorem isDigit_ne {c d : Char} (hc : c.isDigit = true) (hd : d.isDigit = false) : c ≠ d := by
  rintro rfl
  rw [hc] at hd
  cases hd

theorem not_isMarker {c : Char} (hc : c.isDigit = true) : ¬ IsMarker c := by
  rintro (rfl | rfl)
  · cases hc
  · cases hc

theorem Exponent.WellFormed.split_text {e : Exponent} (h : e.WellFormed) :
    splitExponent e.text = some e := by
  have hsign : ∀ c ∈ e.sign, (c = '+' || c = '-') = true := by
    rcases h.sign with hsign | hsign | hsign
    · rw [hsign]
      exact fun c hc => (List.not_mem_nil hc).elim
    · rw [hsign]
      exact fun c hc => by rw [List.mem_singleton.1 hc]; rfl
    · rw [hsign]
      exact fun c hc => by rw [List.mem_singleton.1 hc]; rfl
  have hdigits : ∀ c ∈ e.digits.head?, (c = '+' || c = '-') = false := by
    intro c hc
    have hdigit := h.digits c (List.mem_of_mem_head? hc)
    rw [Bool.or_eq_false_iff]
    exact ⟨decide_eq_false (isDigit_ne hdigit rfl), decide_eq_false (isDigit_ne hdigit rfl)⟩
  obtain ⟨htake, hdrop⟩ := List.span_append hsign hdigits
  unfold text splitExponent
  dsimp only
  rw [htake, hdrop]

namespace Numeral.WellFormed

variable {n : Numeral}

theorem mantissa_chars (h : n.WellFormed) :
    ∀ c ∈ n.mantissaText, c.isDigit = true ∨ c = '.' := by
  intro c hc
  unfold mantissaText at hc
  rcases List.mem_append.1 hc with hinteger | hfraction
  · exact .inl (h.integer c hinteger)
  · split at hfraction
    · cases hfraction
    · rcases List.mem_cons.1 hfraction with rfl | hfraction
      · exact .inr rfl
      · exact .inl (h.fraction c hfraction)

theorem head_isDigit (h : n.WellFormed) : ∃ c rest, n.integer = c :: rest ∧ c.isDigit = true := by
  cases hinteger : n.integer with
  | nil => exact absurd hinteger h.nonempty
  | cons c rest => exact ⟨c, rest, rfl, h.integer c (hinteger ▸ List.mem_cons_self)⟩

/-- The first character of a numeral is its sign or a digit. -/
theorem head_text (h : n.WellFormed) :
    ∃ c rest, n.text = c :: rest ∧ (c = '-' ∨ c.isDigit = true) := by
  obtain ⟨c, rest, hinteger, hdigit⟩ := h.head_isDigit
  unfold text
  cases n.negative with
  | true => exact ⟨_, _, rfl, .inl rfl⟩
  | false =>
    have hhead : n.mantissaText ++ n.exponent.elim [] Exponent.text =
        c :: (rest ++ (if n.fraction = [] then [] else '.' :: n.fraction) ++
          n.exponent.elim [] Exponent.text) := by
      unfold mantissaText
      rw [hinteger]
      rfl
    exact ⟨c, _, hhead, .inr hdigit⟩

theorem unsigned_text (h : n.WellFormed) :
    unsigned n.text = n.mantissaText ++ n.exponent.elim [] Exponent.text ∧
      decide (n.text.head? = some '-') = n.negative := by
  obtain ⟨c, rest, hinteger, hdigit⟩ := h.head_isDigit
  unfold unsigned text
  cases n.negative with
  | true => exact ⟨rfl, rfl⟩
  | false =>
    have hhead : (n.mantissaText ++ n.exponent.elim [] Exponent.text).head? = some c := by
      unfold mantissaText
      rw [hinteger]
      rfl
    have hne : some c ≠ some '-' := fun heq => isDigit_ne hdigit rfl (Option.some.inj heq)
    simp only [Bool.false_eq_true, if_false, List.nil_append]
    rw [hhead, if_neg hne]
    exact ⟨rfl, decide_eq_false hne⟩

theorem mantissa_not_marker (h : n.WellFormed) :
    ∀ c ∈ n.mantissaText, (!decide (IsMarker c)) = true := by
  intro c hc
  rw [Bool.not_eq_true', decide_eq_false_iff_not]
  rcases h.mantissa_chars c hc with hdigit | rfl
  · exact not_isMarker hdigit
  · rintro (h | h)
    · cases h
    · cases h

theorem exponent_text_head (h : n.WellFormed) :
    ∀ c ∈ (n.exponent.elim [] Exponent.text).head?, (!decide (IsMarker c)) = false := by
  intro c hc
  cases hexponent : n.exponent with
  | none =>
    rw [hexponent] at hc
    cases hc
  | some e =>
    rw [hexponent] at hc
    cases hc
    rw [Bool.not_eq_false', decide_eq_true_eq]
    exact (h.exponent e hexponent).marker

theorem split_text (h : n.WellFormed) : split n.text = n := by
  obtain ⟨hunsigned, hnegative⟩ := h.unsigned_text
  obtain ⟨hmantissa, hexponent⟩ := List.span_append h.mantissa_not_marker h.exponent_text_head
  have hinteger : ∀ c ∈ n.integer, (decide (c ≠ '.')) = true := fun c hc =>
    decide_eq_true (isDigit_ne (h.integer c hc) rfl)
  have hpoint : ∀ c ∈ (if n.fraction = [] then [] else '.' :: n.fraction).head?,
      (decide (c ≠ '.')) = false := by
    intro c hc
    by_cases hfraction : n.fraction = []
    · rw [if_pos hfraction] at hc
      cases hc
    · rw [if_neg hfraction] at hc
      cases hc
      rfl
  obtain ⟨hfst, hsnd⟩ := List.span_append hinteger hpoint
  have hfraction : (if n.fraction = [] then [] else '.' :: n.fraction).tail = n.fraction := by
    by_cases hfraction : n.fraction = []
    · rw [if_pos hfraction, hfraction]
      rfl
    · rw [if_neg hfraction]
      rfl
  have hsplit : splitExponent (n.exponent.elim [] Exponent.text) = n.exponent := by
    cases hcase : n.exponent with
    | none => rfl
    | some e => exact (h.exponent e hcase).split_text
  unfold split
  dsimp only
  rw [hunsigned, hnegative, hmantissa, hexponent, hsplit]
  unfold mantissaText
  rw [hfst, hsnd, hfraction]

end Numeral.WellFormed

/-- A numeral text has one reading. -/
theorem split_of_isNumeral {t : List Char} (h : IsNumeral t) :
    (split t).WellFormed ∧ (split t).text = t := by
  obtain ⟨n, hn, rfl⟩ := h
  rw [hn.split_text]
  exact ⟨hn, rfl⟩

theorem isNumeral_iff {t : List Char} :
    IsNumeral t ↔ (split t).WellFormed ∧ (split t).text = t :=
  ⟨split_of_isNumeral, fun h => ⟨_, h⟩⟩

instance (t : List Char) : Decidable (IsNumeral t) :=
  decidable_of_iff _ isNumeral_iff.symm

/-- The rational number that a numeral text denotes. -/
def textValue (t : List Char) : ℚ :=
  (split t).value

/-! ## Plain numerals -/

namespace Numeral

/-- The shortest way to write a number without an exponent. -/
structure Plain (n : Numeral) : Prop where
  wellFormed : n.WellFormed
  exponent : n.exponent = none
  trailing : n.fraction.getLast? ≠ some '0'
  zero : n.coefficient = 0 → n.negative = false

theorem Plain.value_eq {n : Numeral} (h : n.Plain) :
    n.value = (if n.negative then -1 else 1) * n.coefficient / 10 ^ n.fraction.length := by
  unfold value exponentValue
  rw [h.exponent]
  simp only [Option.elim_none, zero_sub, zpow_neg, zpow_natCast, div_eq_mul_inv]

theorem Plain.abs_value {n : Numeral} (h : n.Plain) :
    |n.value| = n.coefficient / 10 ^ n.fraction.length := by
  have hpos : (0 : ℚ) < 10 ^ n.fraction.length := by positivity
  rw [h.value_eq, abs_div, abs_mul, abs_of_pos hpos, Nat.abs_cast]
  cases n.negative with
  | true => simp
  | false => simp

/-- Only a negative number carries a sign. -/
theorem Plain.negative_iff {n : Numeral} (h : n.Plain) : n.negative = true ↔ n.value < 0 := by
  have hpos : (0 : ℚ) < 10 ^ n.fraction.length := by positivity
  rw [h.value_eq]
  cases hneg : n.negative with
  | true =>
    have hcoefficient : (0 : ℚ) < n.coefficient := by
      rw [Nat.cast_pos]
      refine Nat.pos_of_ne_zero fun hzero => ?_
      have := h.zero hzero
      rw [hneg] at this
      cases this
    have hlt : (-1 : ℚ) * n.coefficient / 10 ^ n.fraction.length < 0 :=
      div_neg_of_neg_of_pos (by linarith) hpos
    simpa using hlt
  | false =>
    have hle : (0 : ℚ) ≤ 1 * n.coefficient / 10 ^ n.fraction.length := by positivity
    simpa using hle

/-- A fraction that does not end in zero has a value that ten does not divide. -/
theorem WellFormed.coefficient_mod {n : Numeral} (h : n.WellFormed)
    (htrailing : n.fraction.getLast? ≠ some '0') (hfraction : n.fraction ≠ []) :
    n.coefficient % 10 ≠ 0 := by
  obtain ⟨front, last, hlast⟩ : ∃ front last, n.fraction = front ++ [last] :=
    ⟨_, _, (List.dropLast_append_getLast hfraction).symm⟩
  have hdigit : last.isDigit = true := h.fraction last (by rw [hlast]; simp)
  have hne : last ≠ '0' := by
    rintro rfl
    rw [hlast, List.getLast?_append] at htrailing
    exact htrailing rfl
  unfold coefficient
  rw [hlast, ← List.append_assoc, digitsValue_append, digitsValue_cons]
  have hsingle : digitsValue [] = 0 := rfl
  have hlt := digitValue_lt hdigit
  have hvalue : digitValue last ≠ 0 := fun hzero => hne ((digitValue_eq_zero hdigit).1 hzero)
  simp only [List.length_singleton, List.length_nil, hsingle, pow_one, pow_zero]
  omega

/-- The shorter fraction of two plain numerals of one size is not shorter. -/
theorem Plain.fraction_length_le {a b : Numeral} (hb : b.Plain)
    (h : a.coefficient * 10 ^ b.fraction.length = b.coefficient * 10 ^ a.fraction.length) :
    b.fraction.length ≤ a.fraction.length := by
  by_contra hlt
  have hlonger : a.fraction.length < b.fraction.length := Nat.lt_of_not_le hlt
  obtain ⟨k, hk⟩ : ∃ k, b.fraction.length = a.fraction.length + (k + 1) :=
    ⟨b.fraction.length - a.fraction.length - 1, by omega⟩
  have hpos : 0 < 10 ^ a.fraction.length := Nat.pow_pos (by norm_num)
  have hcoefficient : b.coefficient = a.coefficient * 10 ^ k * 10 := by
    apply Nat.eq_of_mul_eq_mul_right hpos
    rw [← h, hk]
    ring
  have hnonempty : b.fraction ≠ [] := by
    intro hnil
    rw [hnil] at hlonger
    exact Nat.not_lt_zero _ hlonger
  apply hb.wellFormed.coefficient_mod hb.trailing hnonempty
  rw [hcoefficient]
  exact Nat.mul_mod_left _ 10

/-- Integer parts of one value are one text. -/
theorem WellFormed.integer_eq {a b : Numeral} (ha : a.WellFormed) (hb : b.WellFormed)
    (h : digitsValue a.integer = digitsValue b.integer) : a.integer = b.integer := by
  -- A longer integer part would have a greater value.
  have hlength : ∀ {a b : Numeral}, a.WellFormed → b.WellFormed →
      digitsValue a.integer = digitsValue b.integer → a.integer.length ≤ b.integer.length := by
    intro a b ha hb h
    by_contra hlt
    obtain ⟨c, rest, hinteger, hdigit⟩ := ha.head_isDigit
    obtain ⟨_, _, hinteger', _⟩ := hb.head_isDigit
    have hblt := digitsValue_lt hb.integer
    by_cases hzero : c = '0'
    · have hsingle := ha.leading (by rw [hinteger, hzero]; rfl)
      rw [hsingle, hinteger'] at hlt
      simp at hlt
    · have hle := le_digitsValue (l := rest) hdigit hzero
      rw [← hinteger, h] at hle
      rw [hinteger, List.length_cons] at hlt
      have hpow : 10 ^ b.integer.length ≤ 10 ^ rest.length :=
        Nat.pow_le_pow_right (by norm_num) (by omega)
      omega
  exact digitsValue_injective ha.integer hb.integer
    (le_antisymm (hlength ha hb h) (hlength hb ha h.symm)) h

/-- Plain numerals of equal value are equal. -/
theorem Plain.eq_of_value_eq {a b : Numeral} (ha : a.Plain) (hb : b.Plain)
    (h : a.value = b.value) : a = b := by
  have hcross : a.coefficient * 10 ^ b.fraction.length =
      b.coefficient * 10 ^ a.fraction.length := by
    have habs := ha.abs_value.symm.trans ((congrArg abs h).trans hb.abs_value)
    have hapos : (10 : ℚ) ^ a.fraction.length ≠ 0 := by positivity
    have hbpos : (10 : ℚ) ^ b.fraction.length ≠ 0 := by positivity
    rw [div_eq_div_iff hapos hbpos] at habs
    exact_mod_cast habs
  have hlength : a.fraction.length = b.fraction.length :=
    le_antisymm (ha.fraction_length_le hcross.symm) (hb.fraction_length_le hcross)
  have hcoefficient : a.coefficient = b.coefficient := by
    rw [hlength] at hcross
    exact Nat.eq_of_mul_eq_mul_right (Nat.pow_pos (by norm_num)) hcross
  unfold coefficient at hcoefficient
  rw [digitsValue_append, digitsValue_append, hlength] at hcoefficient
  have halt := digitsValue_lt ha.wellFormed.fraction
  have hblt := digitsValue_lt hb.wellFormed.fraction
  rw [hlength] at halt
  have hpos : 0 < 10 ^ b.fraction.length := Nat.pow_pos (by norm_num)
  have hintegerValue : digitsValue a.integer = digitsValue b.integer := by
    have hdiv : (digitsValue a.integer * 10 ^ b.fraction.length + digitsValue a.fraction) /
        10 ^ b.fraction.length =
      (digitsValue b.integer * 10 ^ b.fraction.length + digitsValue b.fraction) /
        10 ^ b.fraction.length := by
      rw [hcoefficient]
    rwa [Nat.mul_comm, Nat.mul_add_div hpos, Nat.div_eq_of_lt halt, Nat.add_zero, Nat.mul_comm,
      Nat.mul_add_div hpos, Nat.div_eq_of_lt hblt, Nat.add_zero] at hdiv
  have hinteger := ha.wellFormed.integer_eq hb.wellFormed hintegerValue
  rw [hintegerValue] at hcoefficient
  have hfraction := digitsValue_injective ha.wellFormed.fraction hb.wellFormed.fraction hlength
    (Nat.add_left_cancel hcoefficient)
  have hnegative : a.negative = b.negative := by
    rw [Bool.eq_iff_iff, ha.negative_iff, hb.negative_iff, h]
  have hexponent : a.exponent = b.exponent := ha.exponent.trans hb.exponent.symm
  cases a
  cases b
  simp_all

end Numeral

/-- The text is the shortest way to write its number without an exponent. -/
def IsPlain (t : List Char) : Prop :=
  ∃ n : Numeral, n.Plain ∧ n.text = t

/-- `plain` is the plain decimal expansion of the number that `t` denotes. -/
def IsExpansion (plain t : List Char) : Prop :=
  IsPlain plain ∧ textValue plain = textValue t

theorem IsPlain.eq_of_value_eq {a b : List Char} (ha : IsPlain a) (hb : IsPlain b)
    (h : textValue a = textValue b) : a = b := by
  obtain ⟨n, hn, rfl⟩ := ha
  obtain ⟨m, hm, rfl⟩ := hb
  unfold textValue at h
  rw [hn.wellFormed.split_text, hm.wellFormed.split_text] at h
  rw [hn.eq_of_value_eq hm h]

end Decimal
