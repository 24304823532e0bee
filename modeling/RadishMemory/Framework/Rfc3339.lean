import Mathlib.Algebra.Order.Field.Rat
import Mathlib.Data.Prod.Lex
import Mathlib.Order.Compare
import Mathlib.Order.Fin.Basic
import Mathlib.Tactic.FieldSimp
import Mathlib.Tactic.Linarith
import Mathlib.Tactic.Ring

/-!
# RFC 3339 date-times

A date-time as it is written, and the instant that it denotes.  The fraction of a second may have
any number of digits, so instants are counted in whole seconds and an exact rational; a leap
second is its own second, after the one it follows and before the next.
-/

/-! ## Fractions of a second -/

/-- The number whose decimal digits after the point are given. -/
def fractionValue : List (Fin 10) → ℚ
  | [] => 0
  | digit :: rest => (digit.val + fractionValue rest) / 10

theorem fractionValue_nonneg (digits : List (Fin 10)) : 0 ≤ fractionValue digits := by
  induction digits with
  | nil => simp [fractionValue]
  | cons digit rest ih =>
    have hdigit : (0 : ℚ) ≤ digit.val := by positivity
    rw [fractionValue]
    linarith

theorem fractionValue_lt_one (digits : List (Fin 10)) : fractionValue digits < 1 := by
  induction digits with
  | nil => simp [fractionValue]
  | cons digit rest ih =>
    have hdigit : (digit.val : ℚ) ≤ 9 := by exact_mod_cast Nat.le_of_lt_succ digit.isLt
    rw [fractionValue]
    linarith

/-- A fraction is its first digit and the fraction of the others; past the end all are zero. -/
theorem fractionValue_eq (digits : List (Fin 10)) :
    fractionValue digits = ((digits.getD 0 0).val + fractionValue digits.tail) / 10 := by
  cases digits with
  | nil => simp [fractionValue]
  | cons digit rest => simp [fractionValue]

/-- The first digits decide, unless they are equal. -/
theorem compare_fractionValue (left right : List (Fin 10)) :
    compare (fractionValue left) (fractionValue right) =
      (compare (left.getD 0 0) (right.getD 0 0)).then
        (compare (fractionValue left.tail) (fractionValue right.tail)) := by
  rw [fractionValue_eq left, fractionValue_eq right]
  have hleft := fractionValue_nonneg left.tail
  have hleft' := fractionValue_lt_one left.tail
  have hright := fractionValue_nonneg right.tail
  have hright' := fractionValue_lt_one right.tail
  generalize left.getD 0 0 = a, right.getD 0 0 = b at *
  rcases lt_trichotomy a b with hlt | rfl | hgt
  · have hdigits : (a.val : ℚ) + 1 ≤ b.val := by exact_mod_cast hlt
    rw [compare_lt_iff_lt.2 hlt, compare_lt_iff_lt.2 (by linarith)]
    rfl
  · rw [compare_eq_iff_eq.2 rfl, Ordering.eq_then]
    -- the same first digit is added on both sides
    rcases lt_trichotomy (fractionValue left.tail) (fractionValue right.tail) with
      hlt | heq | hgt
    · rw [compare_lt_iff_lt.2 hlt, compare_lt_iff_lt.2 (by linarith)]
    · rw [heq, compare_eq_iff_eq.2 rfl, compare_eq_iff_eq.2 rfl]
    · rw [compare_gt_iff_gt.2 hgt, compare_gt_iff_gt.2 (by linarith)]
  · have hdigits : (b.val : ℚ) + 1 ≤ a.val := by exact_mod_cast hgt
    rw [compare_gt_iff_gt.2 hgt, compare_gt_iff_gt.2 (by linarith)]
    rfl

/-! ## Days and seconds -/

/-- Days from 1 January 1970 to a day of the proleptic Gregorian calendar.  Years are counted
from March, so that a leap day ends its year. -/
def daysFromCivil (year month day : Nat) : Int :=
  let year : Int := if month ≤ 2 then (year : Int) - 1 else year
  let dayOfYear : Int := (153 * ((month + 9) % 12) + 2) / 5 + day - 1
  365 * year + year / 4 - year / 100 + year / 400 + dayOfYear - 719468

/-- How the offset from UTC is written. -/
inductive UtcOffset where
  | utc (upperCase : Bool)
  | numeric (ahead : Bool) (hour : Fin 24) (minute : Fin 60)
deriving DecidableEq, Repr

def UtcOffset.seconds : UtcOffset → Int
  | .utc _ => 0
  | .numeric ahead hour minute =>
    let seconds : Int := 3600 * hour.val + 60 * minute.val
    if ahead then seconds else -seconds

def daysInMonth (year month : Nat) : Nat :=
  if month = 2 then
    if year % 4 = 0 ∧ (year % 100 ≠ 0 ∨ year % 400 = 0) then 29 else 28
  else if month = 4 ∨ month = 6 ∨ month = 9 ∨ month = 11 then 30
  else 31

theorem daysInMonth_le (year month : Nat) : daysInMonth year month ≤ 31 := by
  unfold daysInMonth
  split_ifs <;> omega

/-- A date-time as it is written; without a fraction there are no digits of one.  Second 60 is a
leap second. -/
structure Rfc3339 where
  year : Nat
  month : Nat
  day : Nat
  upperCase : Bool
  hour : Nat
  minute : Nat
  second : Nat
  fraction : List (Fin 10)
  offset : UtcOffset
  yearFits : year < 10000
  monthExists : 1 ≤ month ∧ month ≤ 12
  dayExists : 1 ≤ day ∧ day ≤ daysInMonth year month
  hourFits : hour < 24
  minuteFits : minute < 60
  secondFits : second ≤ 60

namespace Rfc3339

def isLeapSecond (r : Rfc3339) : Bool :=
  r.second == 60

/-- The Unix second in which the date-time lies; a leap second counts as the one before it. -/
def unixSecond (r : Rfc3339) : Int :=
  86400 * daysFromCivil r.year r.month r.day + 3600 * r.hour + 60 * r.minute + min r.second 59 -
    r.offset.seconds

/-- An instant: the Unix second, whether it is the leap second after that second, and how much
of it has passed. -/
abbrev Instant := Int ×ₗ Bool ×ₗ ℚ

def instant (r : Rfc3339) : Instant :=
  toLex (r.unixSecond, toLex (r.isLeapSecond, fractionValue r.fraction))

/-! ## The text -/

/-- The last `width` decimal digits of a number, as characters. -/
def decimal : Nat → Nat → List Char
  | 0, _ => []
  | width + 1, n => decimal width (n / 10) ++ [Nat.digitChar (n % 10)]

def offsetText : UtcOffset → List Char
  | .utc upperCase => [if upperCase then 'Z' else 'z']
  | .numeric ahead hour minute =>
    (if ahead then '+' else '-') :: (decimal 2 hour ++ ':' :: decimal 2 minute)

def fractionText (digits : List (Fin 10)) : List Char :=
  if digits = [] then [] else '.' :: digits.map fun digit => Nat.digitChar digit.val

/-- The characters before the fraction. -/
def wholeText (r : Rfc3339) : List Char :=
  decimal 4 r.year ++ '-' :: (decimal 2 r.month ++ '-' :: (decimal 2 r.day ++
    (if r.upperCase then 'T' else 't') :: (decimal 2 r.hour ++ ':' :: (decimal 2 r.minute ++
      ':' :: decimal 2 r.second))))

def text (r : Rfc3339) : String :=
  String.ofList (r.wholeText ++ (fractionText r.fraction ++ offsetText r.offset))

/-! ## Where the parts of the text are -/

@[simp] theorem length_decimal (width n : Nat) : (decimal width n).length = width := by
  induction width generalizing n with
  | zero => rfl
  | succ width ih => simp [decimal, ih]

/-- The characters before the seconds. -/
theorem exists_front (r : Rfc3339) :
    ∃ front, front.length = 17 ∧ r.wholeText = front ++ decimal 2 r.second := by
  refine ⟨decimal 4 r.year ++ '-' :: (decimal 2 r.month ++ '-' :: (decimal 2 r.day ++
    (if r.upperCase then 'T' else 't') :: (decimal 2 r.hour ++ ':' :: (decimal 2 r.minute ++
      [':'])))), by simp, by simp [wholeText]⟩

theorem length_wholeText (r : Rfc3339) : r.wholeText.length = 19 := by
  obtain ⟨front, hlength, hwhole⟩ := r.exists_front
  simp [hwhole, hlength]

/-- The seconds are two characters wide and start at the seventeenth. -/
theorem seconds_of_text (r : Rfc3339) (later : List Char) :
    ((r.wholeText ++ later).drop 17).take 2 = decimal 2 r.second := by
  obtain ⟨front, hlength, hwhole⟩ := r.exists_front
  rw [hwhole, List.append_assoc, List.drop_left' hlength, List.take_left' (length_decimal _ _)]

theorem later_of_text (r : Rfc3339) (later : List Char) : (r.wholeText ++ later).drop 19 = later :=
  List.drop_left' r.length_wholeText

/-- The seconds read `60` in a leap second and in no other. -/
theorem decimal_second_eq_iff (r : Rfc3339) :
    decimal 2 r.second = ['6', '0'] ↔ r.isLeapSecond = true := by
  have hall : ∀ n ≤ 60, decimal 2 n = ['6', '0'] ↔ n = 60 := by decide
  simpa [isLeapSecond] using hall r.second r.secondFits

theorem offsetText_head (offset : UtcOffset) :
    ∃ c ∈ ['Z', 'z', '+', '-'], ∃ rest, offsetText offset = c :: rest := by
  cases offset with
  | utc upperCase => cases upperCase <;> exact ⟨_, by decide, [], rfl⟩
  | numeric ahead hour minute => cases ahead <;> exact ⟨_, by decide, _, rfl⟩

theorem digitChar_lt {digit : Nat} (h : digit < 10) : (Nat.digitChar digit).val < 128 := by
  have hall : ∀ digit < 10, (Nat.digitChar digit).val < 128 := by decide
  exact hall digit h

theorem decimal_ascii {width n : Nat} : ∀ c ∈ decimal width n, c.val < 128 := by
  induction width generalizing n with
  | zero => simp [decimal]
  | succ width ih =>
    intro c hc
    rw [decimal, List.mem_append, List.mem_singleton] at hc
    rcases hc with hc | rfl
    · exact ih c hc
    · exact digitChar_lt (Nat.mod_lt n (by decide))

/-- Every character of the text is ASCII. -/
theorem text_ascii (r : Rfc3339) : ∀ c ∈ r.text.toList, c.val < 128 := by
  have hwhole : ∀ c ∈ r.wholeText, c.val < 128 := by
    simp only [wholeText, List.forall_mem_append, List.forall_mem_cons]
    refine ⟨decimal_ascii, by decide, decimal_ascii, by decide, decimal_ascii, ?_, decimal_ascii,
      by decide, decimal_ascii, by decide, decimal_ascii⟩
    cases r.upperCase <;> decide
  have hfraction : ∀ c ∈ fractionText r.fraction, c.val < 128 := by
    unfold fractionText
    split
    · simp
    · simp only [List.forall_mem_cons, List.forall_mem_map]
      exact ⟨by decide, fun digit _ => digitChar_lt digit.isLt⟩
  have hoffset : ∀ c ∈ offsetText r.offset, c.val < 128 := by
    cases r.offset with
    | utc upperCase =>
      simp only [offsetText, List.forall_mem_singleton]
      cases upperCase <;> decide
    | numeric ahead hour minute =>
      simp only [offsetText, List.forall_mem_cons, List.forall_mem_append]
      refine ⟨?_, decimal_ascii, by decide, decimal_ascii⟩
      cases ahead <;> decide
  simpa only [text, String.toList_ofList, List.forall_mem_append] using
    ⟨hwhole, hfraction, hoffset⟩

/-! ## The text determines the date-time -/

theorem digitChar_inj {a b : Nat} (ha : a < 10) (hb : b < 10)
    (h : Nat.digitChar a = Nat.digitChar b) : a = b := by
  have hall : ∀ a < 10, ∀ b < 10, Nat.digitChar a = Nat.digitChar b → a = b := by decide
  exact hall a ha b hb h

theorem decimal_inj {width n m : Nat} (hn : n < 10 ^ width) (hm : m < 10 ^ width)
    (h : decimal width n = decimal width m) : n = m := by
  induction width generalizing n m with
  | zero => omega
  | succ width ih =>
    rw [pow_succ] at hn hm
    obtain ⟨hrest, hlast⟩ := List.append_inj h (by simp)
    have hdigit := digitChar_inj (Nat.mod_lt n (by decide)) (Nat.mod_lt m (by decide))
      (List.cons.inj hlast).1
    have hquotient : n / 10 = m / 10 := ih (by omega) (by omega) hrest
    omega

theorem offsetText_inj {offset offset' : UtcOffset} (h : offsetText offset = offsetText offset') :
    offset = offset' := by
  cases offset with
  | utc upperCase =>
    cases offset' with
    | utc upperCase' => cases upperCase <;> cases upperCase' <;> simp [offsetText] at h ⊢
    | numeric ahead hour minute =>
      cases upperCase <;> cases ahead <;> simp [offsetText] at h
  | numeric ahead hour minute =>
    cases offset' with
    | utc upperCase => cases upperCase <;> cases ahead <;> simp [offsetText] at h
    | numeric ahead' hour' minute' =>
      obtain ⟨hsign, hrest⟩ := List.cons.inj h
      obtain ⟨hhour, hminute⟩ := List.append_inj hrest (by simp)
      have hahead : ahead = ahead' := by
        cases ahead <;> cases ahead' <;> simp at hsign ⊢
      have hour_eq : hour.val = hour'.val := decimal_inj (by omega) (by omega) hhour
      have minute_eq : minute.val = minute'.val :=
        decimal_inj (by omega) (by omega) (List.cons.inj hminute).2
      rw [hahead, Fin.ext hour_eq, Fin.ext minute_eq]

/-- The digits of a fraction, up to the offset. -/
theorem takeWhile_fraction (digits : List (Fin 10)) (offset : UtcOffset) :
    ((digits.map fun digit => Nat.digitChar digit.val) ++ offsetText offset).takeWhile
      Char.isDigit = digits.map fun digit => Nat.digitChar digit.val := by
  obtain ⟨c, hc, rest, hoffset⟩ := offsetText_head offset
  have hnot : ∀ c ∈ ['Z', 'z', '+', '-'], c.isDigit = false := by
    simp only [List.forall_mem_cons]
    exact ⟨rfl, rfl, rfl, rfl, List.forall_mem_nil _⟩
  have hdigits : ∀ digit : Fin 10, (Nat.digitChar digit.val).isDigit = true := by decide
  rw [List.takeWhile_append_of_pos, hoffset, List.takeWhile_cons_of_neg, List.append_nil]
  · simp [hnot c hc]
  · intro d hd
    obtain ⟨digit, -, rfl⟩ := List.mem_map.1 hd
    exact hdigits digit

theorem fraction_offset_inj {digits digits' : List (Fin 10)} {offset offset' : UtcOffset}
    (h : fractionText digits ++ offsetText offset = fractionText digits' ++ offsetText offset') :
    digits = digits' ∧ offset = offset' := by
  obtain ⟨c, hc, rest, hoffset⟩ := offsetText_head offset
  obtain ⟨c', hc', rest', hoffset'⟩ := offsetText_head offset'
  have hpoint : ∀ c ∈ ['Z', 'z', '+', '-'], c ≠ '.' := by simp
  unfold fractionText at h
  by_cases hnone : digits = [] <;> by_cases hnone' : digits' = []
  · rw [if_pos hnone, if_pos hnone'] at h
    exact ⟨hnone.trans hnone'.symm, offsetText_inj h⟩
  · rw [if_pos hnone, if_neg hnone', hoffset] at h
    exact absurd (List.cons.inj h).1 (hpoint c hc)
  · rw [if_neg hnone, if_pos hnone', hoffset'] at h
    exact absurd (List.cons.inj h).1.symm (hpoint c' hc')
  · rw [if_neg hnone, if_neg hnone'] at h
    have hrest : (digits.map fun digit => Nat.digitChar digit.val) ++ offsetText offset =
        (digits'.map fun digit => Nat.digitChar digit.val) ++ offsetText offset' :=
      (List.cons.inj h).2
    have hdigits : (digits.map fun digit => Nat.digitChar digit.val) =
        digits'.map fun digit => Nat.digitChar digit.val := by
      rw [← takeWhile_fraction digits offset, hrest, takeWhile_fraction]
    refine ⟨?_, offsetText_inj ?_⟩
    · refine List.map_injective_iff.2 (fun a b hab => ?_) hdigits
      exact Fin.ext (digitChar_inj a.isLt b.isLt hab)
    · rw [hdigits] at hrest
      exact List.append_cancel_left hrest

theorem wholeText_inj {r r' : Rfc3339} (h : r.wholeText = r'.wholeText) :
    r.year = r'.year ∧ r.month = r'.month ∧ r.day = r'.day ∧ r.upperCase = r'.upperCase ∧
      r.hour = r'.hour ∧ r.minute = r'.minute ∧ r.second = r'.second := by
  obtain ⟨hyear, h⟩ := List.append_inj h (by simp)
  obtain ⟨hmonth, h⟩ := List.append_inj (List.cons.inj h).2 (by simp)
  obtain ⟨hday, h⟩ := List.append_inj (List.cons.inj h).2 (by simp)
  obtain ⟨hcase, h⟩ := List.cons.inj h
  obtain ⟨hhour, h⟩ := List.append_inj h (by simp)
  obtain ⟨hminute, h⟩ := List.append_inj (List.cons.inj h).2 (by simp)
  have hsecond := (List.cons.inj h).2
  have hdays := daysInMonth_le r.year r.month
  have hdays' := daysInMonth_le r'.year r'.month
  have hfits := r.monthExists
  have hfits' := r'.monthExists
  have hday_fits := r.dayExists
  have hday_fits' := r'.dayExists
  have hhour_fits := r.hourFits
  have hhour_fits' := r'.hourFits
  have hminute_fits := r.minuteFits
  have hminute_fits' := r'.minuteFits
  have hsecond_fits := r.secondFits
  have hsecond_fits' := r'.secondFits
  refine ⟨decimal_inj r.yearFits r'.yearFits hyear, decimal_inj (by omega) (by omega) hmonth,
    decimal_inj (by omega) (by omega) hday, ?_, decimal_inj (by omega) (by omega) hhour,
    decimal_inj (by omega) (by omega) hminute, decimal_inj (by omega) (by omega) hsecond⟩
  cases hr : r.upperCase <;> cases hr' : r'.upperCase <;> simp [hr, hr'] at hcase ⊢

theorem text_inj {r r' : Rfc3339} (h : r.text = r'.text) : r = r' := by
  have hchars := String.ofList_injective h
  obtain ⟨hwhole, hlater⟩ := List.append_inj hchars (by simp [length_wholeText])
  obtain ⟨hfraction, hoffset⟩ := fraction_offset_inj hlater
  have hparts := wholeText_inj hwhole
  cases r
  cases r'
  simp_all

end Rfc3339
