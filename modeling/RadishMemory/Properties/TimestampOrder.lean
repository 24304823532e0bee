import RadishMemory.Construction.Core.TimestampText
import RadishMemory.Framework.Rfc3339

/-!
# Timestamps are ordered as the instants they denote

A timestamp's key is the doubled Unix second with a leap bit, and its fraction is compared digit
by digit.  For every text that the `time` crate accepts, the comparison is that of the instants
which the texts denote (`cmp_eq_compare`); so timestamps in any spelling are equal exactly when
they denote one instant, and their order is total and transitive.
-/

namespace RadishMemory

section Fraction

/-! ## The order of timestamps -/

theorem Timestamp.cmp_swap (a b : Timestamp) : (a.cmp b).swap = b.cmp a := by
  have hcmp := compareAt_transCmp
    (List.range (max a.fractionalSeconds.length b.fractionalSeconds.length))
  have ha := le_max_left a.fractionalSeconds.length b.fractionalSeconds.length
  have hb := le_max_right a.fractionalSeconds.length b.fractionalSeconds.length
  have hseconds : compare b.utcSecondKey a.utcSecondKey =
      (compare a.utcSecondKey b.utcSecondKey).swap := Std.OrientedCmp.eq_swap
  rw [Timestamp.cmp, Timestamp.cmp, compareFraction_eq_compareAt ha hb,
    compareFraction_eq_compareAt hb ha, Ordering.swap_then, ← hcmp.eq_swap, hseconds]

theorem Timestamp.not_lt {a b : Timestamp} : ¬ a < b ↔ b ≤ a := by
  change ¬ a.cmp b = .lt ↔ b.cmp a ≠ .gt
  rw [← Timestamp.cmp_swap a b]
  cases a.cmp b <;> simp

theorem Timestamp.not_le {a b : Timestamp} : ¬ a ≤ b ↔ b < a := by
  rw [← Timestamp.not_lt, not_not]

theorem Timestamp.le_total (a b : Timestamp) : a ≤ b ∨ b ≤ a := by
  by_cases h : a ≤ b
  · exact .inl h
  · have hlt : b < a := Timestamp.not_le.1 h
    right
    show b.cmp a ≠ .gt
    rw [show b.cmp a = .lt from hlt]
    decide

theorem Timestamp.beq_of_le_of_le {a b : Timestamp} (hab : a ≤ b) (hba : b ≤ a) :
    (a == b) = true := by
  have hab' : a.cmp b ≠ .gt := hab
  have hba' : (a.cmp b).swap ≠ .gt := by
    rw [Timestamp.cmp_swap]
    exact hba
  show (a.cmp b == .eq) = true
  cases hcmp : a.cmp b <;> simp [hcmp] at hab' hba' ⊢

/-! ## Fractions -/

/-- Digits at the first positions, of fractions no longer than that, decide as their values do. -/
theorem compareAt_range_eq {bound : Nat} {left right : List (Fin 10)}
    (hleft : left.length ≤ bound) (hright : right.length ≤ bound) :
    compareAt (List.range bound) left right =
      compare (fractionValue left) (fractionValue right) := by
  induction bound generalizing left right with
  | zero =>
    obtain rfl : left = [] := by simpa using hleft
    obtain rfl : right = [] := by simpa using hright
    exact (compare_eq_iff_eq.2 rfl).symm
  | succ bound ih =>
    have hshift : ∀ positions : List Nat, compareAt (positions.map (· + 1)) left right =
        compareAt positions left.tail right.tail := by
      intro positions
      simp [compareAt, List.foldr_map, List.getD_eq_getElem?_getD]
    have hleft' : left.tail.length ≤ bound := by simp; omega
    have hright' : right.tail.length ≤ bound := by simp; omega
    have hrest := ih hleft' hright'
    rw [compare_fractionValue, ← hrest, ← hshift, List.range_succ_eq_map]
    rfl

theorem compareFraction_eq (left right : List (Fin 10)) :
    compareFraction left right = compare (fractionValue left) (fractionValue right) := by
  have hleft := le_max_left left.length right.length
  have hright := le_max_right left.length right.length
  rw [compareFraction_eq_compareAt hleft hright, compareAt_range_eq hleft hright]

end Fraction

section Text

/-! ## The bytes of a date-time -/

/-- The one byte of an ASCII character. -/
def asciiByte (c : Char) : UInt8 :=
  c.val.toUInt8

theorem utf8Bytes_ascii {text : String} (h : ∀ c ∈ text.toList, c.val < 128) :
    utf8Bytes text = text.toList.map asciiByte := by
  have hencode : ∀ chars : List Char, (∀ c ∈ chars, c.val < 128) →
      chars.flatMap String.utf8EncodeChar = chars.map asciiByte := by
    intro chars hchars
    induction chars with
    | nil => rfl
    | cons c chars ih =>
      have hc : c.val.toNat ≤ 127 := Nat.le_of_lt_succ (hchars c (by simp))
      have hbyte : String.utf8EncodeChar c = [asciiByte c] := by
        rw [String.utf8EncodeChar, if_pos hc]
        rfl
      rw [List.flatMap_cons, ih fun d hd => hchars d (List.mem_cons_of_mem _ hd), hbyte]
      rfl
  exact hencode text.toList h

theorem asciiByte_inj {c d : Char} (hc : c.val < 128) (hd : d.val < 128)
    (h : asciiByte c = asciiByte d) : c = d := by
  have hc' : c.val.toNat < 128 := hc
  have hd' : d.val.toNat < 128 := hd
  have hnat : (asciiByte c).toNat = (asciiByte d).toNat := by rw [h]
  simp only [asciiByte, UInt32.toNat_toUInt8] at hnat
  apply Char.ext
  apply UInt32.toNat_inj.1
  omega

theorem map_asciiByte_inj {left right : List Char} (hleft : ∀ c ∈ left, c.val < 128)
    (hright : ∀ c ∈ right, c.val < 128) (h : left.map asciiByte = right.map asciiByte) :
    left = right := by
  induction left generalizing right with
  | nil => simpa using h.symm
  | cons c left ih =>
    cases right with
    | nil => simp at h
    | cons d right =>
      obtain ⟨hhead, htail⟩ := List.cons.inj h
      rw [asciiByte_inj (hleft c (by simp)) (hright d (by simp)) hhead,
        ih (fun e he => hleft e (List.mem_cons_of_mem _ he))
          (fun e he => hright e (List.mem_cons_of_mem _ he)) htail]

theorem asciiByte_digitChar (digit : Fin 10) :
    isAsciiDigit (asciiByte (Nat.digitChar digit)) = true ∧
      fractionalDigit (asciiByte (Nat.digitChar digit)) = digit := by
  revert digit
  decide

open Rfc3339

/-- The bytes of a date-time: those before the fraction, and those after. -/
theorem utf8Bytes_text (r : Rfc3339) :
    utf8Bytes r.text = r.wholeText.map asciiByte ++
      ((fractionText r.fraction).map asciiByte ++ (offsetText r.offset).map asciiByte) := by
  rw [utf8Bytes_ascii r.text_ascii, Rfc3339.text, String.toList_ofList, List.map_append,
    List.map_append]

/-- Bytes 17 and 18 read `60` in a leap second and in no other. -/
theorem leapBytes_iff (r : Rfc3339) :
    ((utf8Bytes r.text).drop 17).take 2 = [54, 48] ↔ r.isLeapSecond = true := by
  have hseconds : ((utf8Bytes r.text).drop 17).take 2 = (decimal 2 r.second).map asciiByte := by
    rw [utf8Bytes_ascii r.text_ascii, Rfc3339.text, String.toList_ofList, ← List.map_drop,
      ← List.map_take, seconds_of_text]
  rw [hseconds, ← r.decimal_second_eq_iff]
  have hsixty : ([54, 48] : List UInt8) = ['6', '0'].map asciiByte := by decide
  have hascii : ∀ c ∈ decimal 2 r.second, c.val < 128 := decimal_ascii
  rw [hsixty]
  refine ⟨map_asciiByte_inj hascii (by simp), fun h => ?_⟩
  rw [h]

/-- The digits after byte 19 are those of the fraction. -/
theorem fractionalSeconds_text (r : Rfc3339) : fractionalSeconds r.text = r.fraction := by
  have hlength : (r.wholeText.map asciiByte).length = 19 := by
    rw [List.length_map, r.length_wholeText]
  obtain ⟨c, hc, rest, hoffset⟩ := offsetText_head r.offset
  have hlater : ∀ c ∈ ['Z', 'z', '+', '-'],
      asciiByte c ≠ 46 ∧ isAsciiDigit (asciiByte c) = false := by
    simp only [List.forall_mem_cons]
    exact ⟨by decide, by decide, by decide, by decide, List.forall_mem_nil _⟩
  obtain ⟨hpoint, hdigit⟩ := hlater c hc
  unfold fractionalSeconds
  rw [utf8Bytes_text, List.getElem?_append_right hlength.le, hlength]
  by_cases hnone : r.fraction = []
  · -- byte 19 is the first of the offset
    rw [fractionText, if_pos hnone, hoffset, if_neg (by simpa using hpoint), hnone]
  · have hdigits : (fractionText r.fraction).map asciiByte =
        46 :: r.fraction.map fun digit => asciiByte (Nat.digitChar digit.val) := by
      rw [fractionText, if_neg hnone, List.map_cons, List.map_map]
      rfl
    have hdrop : (r.wholeText.map asciiByte ++ ((fractionText r.fraction).map asciiByte ++
        (offsetText r.offset).map asciiByte)).drop 20 =
        r.fraction.map (fun digit => asciiByte (Nat.digitChar digit.val)) ++
          (offsetText r.offset).map asciiByte := by
      rw [hdigits, List.cons_append, List.append_cons]
      exact List.drop_left' (by rw [List.length_append, hlength, List.length_singleton])
    have htake : (r.fraction.map (fun digit => asciiByte (Nat.digitChar digit.val)) ++
        (offsetText r.offset).map asciiByte).takeWhile isAsciiDigit =
        r.fraction.map fun digit => asciiByte (Nat.digitChar digit.val) := by
      rw [List.takeWhile_append_of_pos, hoffset, List.map_cons, List.takeWhile_cons_of_neg,
        List.append_nil]
      · simp [hdigit]
      · intro byte hbyte
        obtain ⟨digit, -, rfl⟩ := List.mem_map.1 hbyte
        exact (asciiByte_digitChar digit).1
    rw [if_pos (by simp [hdigits]), hdrop, htake, List.map_map]
    refine (List.map_congr_left fun digit _ => ?_).trans (List.map_id _)
    exact (asciiByte_digitChar digit).2

end Text

section Parse

variable [TimeCrate]

/-! ## Parsed timestamps -/

/-- What is asked of the crate: every text it accepts is a date-time, and it says the Unix second
and the offset of that date-time, for a leap second those of the second before. -/
structure ReadsRfc3339 : Prop where
  reads : ∀ text instant, TimeCrate.parse text = some instant →
    ∃ r : Rfc3339, r.text = text ∧ instant.unixTimestamp = r.unixSecond ∧
      instant.offsetSeconds = r.offset.seconds

/-- The key and the digits of a parsed timestamp are those of the date-time. -/
structure ParsedAs (t : Timestamp) (r : Rfc3339) : Prop where
  original : t.original = r.text
  key : t.utcSecondKey = r.unixSecond * 2 + (if r.isLeapSecond then 1 else 0)
  digits : t.fractionalSeconds = r.fraction
  offset : t.offsetSeconds = r.offset.seconds

theorem parsedAs_of_parse (h : ReadsRfc3339) {r : Rfc3339} {t : Timestamp}
    (hparse : Timestamp.parse r.text = .ok t) : ParsedAs t r := by
  simp only [Timestamp.parse, Except.bind_eq_ok_iff, Option.orError_eq_ok_iff,
    Except.pure_eq_ok_iff] at hparse
  obtain ⟨instant, hinstant, rfl⟩ := hparse
  obtain ⟨r', htext, hsecond, hoffset⟩ := h.reads _ _ hinstant
  rw [Rfc3339.text_inj htext] at hsecond hoffset
  refine { original := rfl, key := ?_, digits := ?_, offset := hoffset }
  · dsimp only
    rw [hsecond]
    by_cases hleap : r.isLeapSecond = true
    · rw [decide_eq_true ((leapBytes_iff r).2 hleap), hleap]
    · have hordinary : r.isLeapSecond = false := by simpa using hleap
      rw [decide_eq_false (mt (leapBytes_iff r).1 hleap), hordinary]
  · dsimp only
    rw [fractionalSeconds_text]

omit [TimeCrate] in
/-- The doubled second with the leap bit is compared as the second, and then the bit. -/
theorem compare_key (s s' : Int) (leap leap' : Bool) :
    compare (s * 2 + (if leap then 1 else 0)) (s' * 2 + (if leap' then 1 else 0)) =
      (compare s s').then (compare leap leap') := by
  rcases lt_trichotomy s s' with hlt | rfl | hgt
  · rw [compare_lt_iff_lt.2 hlt, compare_lt_iff_lt.2 (by split_ifs <;> omega)]
    rfl
  · have hbefore : compare (s * 2) (s * 2 + 1) = .lt := compare_lt_iff_lt.2 (by omega)
    have hafter : compare (s * 2 + 1) (s * 2) = .gt := compare_gt_iff_gt.2 (by omega)
    rw [compare_eq_iff_eq.2 rfl, Ordering.eq_then]
    cases leap <;> cases leap' <;> simp [hbefore, hafter] <;> rfl
  · rw [compare_gt_iff_gt.2 hgt, compare_gt_iff_gt.2 (by split_ifs <;> omega)]
    rfl

omit [TimeCrate] in
/-- Parsed timestamps are compared as the instants that their texts denote. -/
theorem cmp_eq_compare {t t' : Timestamp} {r r' : Rfc3339} (h : ParsedAs t r)
    (h' : ParsedAs t' r') : t.cmp t' = compare r.instant r'.instant := by
  rw [Timestamp.cmp, h.key, h'.key, h.digits, h'.digits, compare_key, compareFraction_eq,
    Ordering.then_assoc]
  rfl

/-- The order of parsed timestamps is that of the instants they denote, leap seconds and
fractions of any length included. -/
structure OrderIsExact : Prop where
  denotes : ∀ text t, Timestamp.parse text = .ok t → ∃ r : Rfc3339, r.text = text
  compares : ∀ (r r' : Rfc3339) t t', Timestamp.parse r.text = .ok t →
    Timestamp.parse r'.text = .ok t' → t.cmp t' = compare r.instant r'.instant
  equal : ∀ (r r' : Rfc3339) t t', Timestamp.parse r.text = .ok t →
    Timestamp.parse r'.text = .ok t' → ((t == t') = true ↔ r.instant = r'.instant)
  leap : ∀ (r r' : Rfc3339) t t', Timestamp.parse r.text = .ok t →
    Timestamp.parse r'.text = .ok t' → r.second = 60 → r'.second ≠ 60 →
    (r'.unixSecond = r.unixSecond → t' < t) ∧ (r'.unixSecond = r.unixSecond + 1 → t < t')
  total : ∀ t t' : Timestamp, t ≤ t' ∨ t' ≤ t
  trans : ∀ t t' t'' : Timestamp, t ≤ t' → t' ≤ t'' → t ≤ t''
  consistent : ∀ t t' : Timestamp, (t == t') = true ↔ t ≤ t' ∧ t' ≤ t

theorem timestamp_order_is_exact (h : ReadsRfc3339) : OrderIsExact := by
  refine { denotes := ?_, compares := ?_, equal := ?_, leap := ?_, total := Timestamp.le_total,
           trans := fun _ _ _ => Timestamp.le_trans, consistent := ?_ }
  · intro text t hparse
    simp only [Timestamp.parse, Except.bind_eq_ok_iff, Option.orError_eq_ok_iff] at hparse
    obtain ⟨instant, hinstant, -⟩ := hparse
    obtain ⟨r, htext, -⟩ := h.reads _ _ hinstant
    exact ⟨r, htext⟩
  · intro r r' t t' ht ht'
    exact cmp_eq_compare (parsedAs_of_parse h ht) (parsedAs_of_parse h ht')
  · intro r r' t t' ht ht'
    have hcmp := cmp_eq_compare (parsedAs_of_parse h ht) (parsedAs_of_parse h ht')
    show (t.cmp t' == .eq) = true ↔ r.instant = r'.instant
    rw [beq_iff_eq, hcmp, compare_eq_iff_eq]
  · intro r r' t t' ht ht' hleap hnot
    have hr := parsedAs_of_parse h ht
    have hr' := parsedAs_of_parse h ht'
    have hkey := hr.key
    have hkey' := hr'.key
    simp only [Rfc3339.isLeapSecond, hleap, beq_iff_eq, if_true] at hkey
    simp only [Rfc3339.isLeapSecond, beq_iff_eq, hnot, if_false] at hkey'
    constructor
    · intro hsecond
      have hlt : t'.utcSecondKey < t.utcSecondKey := by omega
      show t'.cmp t = .lt
      rw [Timestamp.cmp, compare_lt_iff_lt.2 hlt]
      rfl
    · intro hsecond
      have hlt : t.utcSecondKey < t'.utcSecondKey := by omega
      show t.cmp t' = .lt
      rw [Timestamp.cmp, compare_lt_iff_lt.2 hlt]
      rfl
  · intro t t'
    refine ⟨fun heq => ?_, fun ⟨hle, hge⟩ => Timestamp.beq_of_le_of_le hle hge⟩
    have hcmp : t.cmp t' = .eq := beq_iff_eq.1 heq
    constructor
    · show t.cmp t' ≠ .gt
      rw [hcmp]
      decide
    · show t'.cmp t ≠ .gt
      rw [← Timestamp.cmp_swap, hcmp]
      decide

end Parse

section Witness

/-! ## A crate that reads two spellings -/

/-- Half of the leap second at the end of 2016, in UTC. -/
def leapInUtc : Rfc3339 :=
  { year := 2016, month := 12, day := 31, upperCase := true, hour := 23, minute := 59,
    second := 60, fraction := [⟨5, by decide⟩], offset := .utc true, yearFits := by decide,
    monthExists := by decide, dayExists := by decide, hourFits := by decide,
    minuteFits := by decide, secondFits := by decide }

/-- The same instant, eight hours ahead and with more digits. -/
def leapAhead : Rfc3339 :=
  { year := 2017, month := 1, day := 1, upperCase := true, hour := 7, minute := 59,
    second := 60, fraction := [⟨5, by decide⟩, ⟨0, by decide⟩], offset := .numeric true 8 0, yearFits := by decide,
    monthExists := by decide, dayExists := by decide, hourFits := by decide,
    minuteFits := by decide, secondFits := by decide }

example : leapInUtc.text = "2016-12-31T23:59:60.5Z" ∧ leapInUtc.unixSecond = 1483228799 := by
  decide

/-- What the crate says of these two texts. -/
def leapParse (text : String) : Option OffsetDateTime :=
  if text = leapInUtc.text then some ⟨1483228799, 0⟩
  else if text = leapAhead.text then some ⟨1483228799, 28800⟩
  else none

@[reducible] def leapCrate : TimeCrate :=
  ⟨leapParse⟩

theorem leapCrate_reads : @ReadsRfc3339 leapCrate := by
  refine @ReadsRfc3339.mk leapCrate fun text instant h => ?_
  change leapParse text = some instant at h
  unfold leapParse at h
  split_ifs at h with hutc hahead
  · obtain rfl := Option.some.inj h
    exact ⟨leapInUtc, hutc.symm, by decide, by decide⟩
  · obtain rfl := Option.some.inj h
    exact ⟨leapAhead, hahead.symm, by decide, by decide⟩

theorem timestamp_order_is_exact_for_a_leap_second : @OrderIsExact leapCrate :=
  @timestamp_order_is_exact leapCrate leapCrate_reads

end Witness

end RadishMemory
