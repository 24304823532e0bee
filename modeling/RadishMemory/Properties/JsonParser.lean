import RadishMemory.Construction.Core.CanonicalJson

/-!
# The parser and the grammar

The parser accepts exactly the JSON texts without null, without duplicate keys and without values
below the depth limit, and it returns what the text says.  Soundness is by induction on the
nesting budget; completeness follows a derivation of the grammar, with the rest of the input
behind the derived text.
-/

namespace RadishMemory.CanonicalJson

open Json (Tree Phrase Derives Admitted IsSpace isWhitespace IsString IsText)
open Decimal (IsNumeral)

/-- What the documentation of the JSON library says about the slices that the parser hands to it:
strings are decoded as RFC 8259 says, and a number keeps its text. -/
class SerdeJson.Documented [SerdeJson] : Prop where
  string : ∀ t s : List Char, t.head? = some '"' → t.getLast? = some '"' →
    (SerdeJson.stringFromSlice t = some s ↔ IsString t s)
  number : ∀ t lexeme : List Char, (∀ c ∈ t, isWhitespace c = false) →
    (SerdeJson.numberFromSlice t = some lexeme ↔ IsNumeral t ∧ lexeme = t)

/-! ## Values as trees -/

mutual

def Value.toTree : Value → Tree
  | .boolean value => .boolean value
  | .number lexeme => .number lexeme
  | .string value => .string value
  | .array items => .array (itemTrees items)
  | .object members => .object (memberTrees members)

def itemTrees : List Value → List Tree
  | [] => []
  | item :: items => item.toTree :: itemTrees items

def memberTrees : List (List Char × Value) → List (List Char × Tree)
  | [] => []
  | (key, value) :: members => (key, value.toTree) :: memberTrees members

end

theorem itemTrees_eq (items : List Value) : itemTrees items = items.map Value.toTree := by
  induction items with
  | nil => rfl
  | cons item items ih => rw [itemTrees, ih, List.map_cons]

theorem memberTrees_eq (members : List (List Char × Value)) :
    memberTrees members = members.map fun member => (member.1, member.2.toTree) := by
  induction members with
  | nil => rfl
  | cons member members ih => rw [memberTrees, ih, List.map_cons]

/-! ## White space -/

theorem skipWhitespace_eq (input : List Char) :
    ∃ a, IsSpace a ∧ input = a ++ skipWhitespace input :=
  ⟨input.takeWhile isWhitespace, fun _ hc => List.mem_takeWhile_imp hc,
    List.takeWhile_append_dropWhile.symm⟩

theorem skipWhitespace_append {a : List Char} (ha : IsSpace a) (input : List Char) :
    skipWhitespace (a ++ input) = skipWhitespace input := by
  unfold skipWhitespace
  induction a with
  | nil => rfl
  | cons c rest ih =>
    have hc : isWhitespace c = true := ha c List.mem_cons_self
    rw [List.cons_append, List.dropWhile_cons, if_pos hc]
    exact ih fun d hd => ha d (List.mem_cons_of_mem c hd)

theorem skipWhitespace_cons {c : Char} (hc : isWhitespace c = false) (rest : List Char) :
    skipWhitespace (c :: rest) = c :: rest := by
  unfold skipWhitespace
  rw [List.dropWhile_cons, if_neg (by simp [hc])]

theorem skipWhitespace_skipWhitespace (input : List Char) :
    skipWhitespace (skipWhitespace input) = skipWhitespace input :=
  List.dropWhile_idempotent _ input

example : skipWhitespace " \t\r\n[ ]".toList = "[ ]".toList := by decide +kernel

theorem isSpace_append {a b : List Char} (ha : IsSpace a) (hb : IsSpace b) : IsSpace (a ++ b) := by
  intro c hc
  rcases List.mem_append.1 hc with hc | hc
  · exact ha c hc
  · exact hb c hc

/-- What remains after a value may follow it. -/
def Boundary (rest : List Char) : Prop :=
  ∀ c ∈ rest.head?, isValueBoundary c = true

theorem boundary_append {b : List Char} (hb : IsSpace b) {c : Char} {rest : List Char}
    (hc : isValueBoundary c = true) : Boundary (b ++ c :: rest) := by
  cases b with
  | nil =>
    rintro _ ⟨⟩
    exact hc
  | cons d b =>
    rintro _ ⟨⟩
    unfold isValueBoundary
    rw [hb d List.mem_cons_self]
    rfl

theorem boundary_of_space {b : List Char} (hb : IsSpace b) : Boundary b := by
  intro c hc
  unfold isValueBoundary
  rw [hb c (List.mem_of_mem_head? hc)]
  rfl

/-! ## Strings -/

theorem scanString_sound {input slice rest : List Char} (h : scanString input = .ok (slice, rest)) :
    input = slice ++ rest ∧ slice.getLast? = some '"' := by
  induction input using scanString.induct generalizing slice with
  | case1 => cases h
  | case2 rest' =>
    cases h
    exact ⟨rfl, rfl⟩
  | case3 => cases h
  | case4 c rest' ih =>
    simp only [scanString, Except.bind_eq_ok_iff, Except.pure_eq_ok_iff, Prod.exists,
      Prod.mk.injEq] at h
    obtain ⟨front, _, hscan, rfl, rfl⟩ := h
    obtain ⟨heq, hlast⟩ := ih hscan
    refine ⟨by rw [heq]; rfl, ?_⟩
    rw [List.getLast?_cons_cons, List.getLast?_cons, hlast]
    rfl
  | case5 c rest' hquote hslash hescape hcontrol =>
    rw [scanString] at h
    · rw [if_pos hcontrol] at h
      cases h
    all_goals assumption
  | case6 c rest' hquote hslash hescape hcontrol ih =>
    rw [scanString] at h
    · rw [if_neg hcontrol] at h
      simp only [Except.bind_eq_ok_iff, Except.pure_eq_ok_iff, Prod.exists, Prod.mk.injEq] at h
      obtain ⟨front, _, hscan, rfl, rfl⟩ := h
      obtain ⟨heq, hlast⟩ := ih hscan
      refine ⟨by rw [heq]; rfl, ?_⟩
      rw [List.getLast?_cons, hlast]
      rfl
    all_goals assumption

theorem scanString_escape {c : Char} {x slice rest : List Char}
    (h : scanString x = .ok (slice, rest)) :
    scanString ('\\' :: c :: x) = .ok ('\\' :: c :: slice, rest) := by
  rw [scanString, h]
  rfl

theorem scanString_unescaped {c : Char} (hc : Json.IsUnescaped c) {x slice rest : List Char}
    (h : scanString x = .ok (slice, rest)) : scanString (c :: x) = .ok (c :: slice, rest) := by
  obtain ⟨hcontrol, hquote, hslash⟩ := hc
  rw [scanString, if_neg (by omega), h]
  · rfl
  · exact hquote
  · exact fun heq _ => hslash heq
  · exact fun _ _ heq => absurd heq hslash

theorem isUnescaped_of_hexValue {c : Char} {n : Nat} (h : Json.hexValue c = some n) :
    Json.IsUnescaped c := by
  have hrange : ('0' ≤ c ∧ c ≤ '9') ∨ ('a' ≤ c ∧ c ≤ 'f') ∨ ('A' ≤ c ∧ c ≤ 'F') := by
    unfold Json.hexValue at h
    split at h
    · exact .inl ‹_›
    · split at h
      · exact .inr (.inl ‹_›)
      · split at h
        · exact .inr (.inr ‹_›)
        · cases h
  have hlow : '0' ≤ c := by
    rcases hrange with hrange | hrange | hrange
    · exact hrange.1
    · exact le_trans (by decide) hrange.1
    · exact le_trans (by decide) hrange.1
  refine ⟨?_, ?_, ?_⟩
  · have : '0'.toNat ≤ c.toNat := UInt32.le_iff_toNat_le.1 hlow
    exact le_trans (by decide) this
  · rintro rfl
    exact absurd hlow (by decide)
  · rintro rfl
    revert hrange
    decide

theorem scanString_hex {a b c d : Char} {n : Nat} (h : Json.hex4 a b c d = some n)
    {x slice rest : List Char} (hx : scanString x = .ok (slice, rest)) :
    scanString ('\\' :: 'u' :: a :: b :: c :: d :: x) =
      .ok ('\\' :: 'u' :: a :: b :: c :: d :: slice, rest) := by
  simp only [Json.hex4, Option.bind_eq_bind, Option.bind_eq_some_iff] at h
  obtain ⟨_, ha, _, hb, _, hc, _, hd, _⟩ := h
  apply scanString_escape
  apply scanString_unescaped (isUnescaped_of_hexValue ha)
  apply scanString_unescaped (isUnescaped_of_hexValue hb)
  apply scanString_unescaped (isUnescaped_of_hexValue hc)
  exact scanString_unescaped (isUnescaped_of_hexValue hd) hx

/-- The scanner stops at the quotation mark that ends the literal. -/
theorem scanString_complete {body s : List Char} (h : Json.decodeChars body = some s)
    (rest : List Char) : scanString (body ++ '"' :: rest) = .ok (body ++ ['"'], rest) := by
  induction body using Json.decodeChars.induct generalizing s with
  | case1 => rfl
  | case2 a b c d rest' hhex => simp [Json.decodeChars, hhex] at h
  | case3 a b c d n hhex hhigh e f g i rest' hlow => simp [Json.decodeChars, hhex, hhigh, hlow] at h
  | case4 a b c d n hhex hhigh e f g i rest' m hhex' hlow ih =>
    simp only [Json.decodeChars, hhex, hhex', if_pos hhigh, if_pos hlow,
      Option.map_eq_some_iff] at h
    obtain ⟨tail, htail, _⟩ := h
    exact scanString_hex hhex (scanString_hex hhex' (ih htail))
  | case5 a b c d n hhex hhigh e f g i rest' m hhex' hlow =>
    simp [Json.decodeChars, hhex, hhigh, hhex', hlow] at h
  | case6 a b c d rest' n hhex hhigh hnot =>
    rw [Json.decodeChars, hhex] at h
    simp only [if_pos hhigh] at h
    cases h
  | case7 a b c d rest' n hhex hhigh hlow => simp [Json.decodeChars, hhex, hhigh, hlow] at h
  | case8 a b c d rest' n hhex hhigh hlow ih =>
    rw [Json.decodeChars, hhex] at h
    simp only [if_neg hhigh, if_neg hlow, Option.map_eq_some_iff] at h
    obtain ⟨tail, htail, _⟩ := h
    exact scanString_hex hhex (ih htail)
  | case9 c rest' hnot hescaped =>
    rw [Json.decodeChars, hescaped] at h
    · cases h
    · exact hnot
  | case10 c rest' hnot d hescaped ih =>
    rw [Json.decodeChars, hescaped] at h
    · simp only [Option.map_eq_some_iff] at h
      obtain ⟨tail, htail, _⟩ := h
      exact scanString_escape (ih htail)
    · exact hnot
  | case11 c rest' hnot hnot' hunescaped ih =>
    rw [Json.decodeChars, if_pos hunescaped] at h
    · simp only [Option.map_eq_some_iff] at h
      obtain ⟨tail, htail, _⟩ := h
      exact scanString_unescaped hunescaped (ih htail)
    all_goals assumption
  | case12 c rest' hnot hnot' hunescaped =>
    rw [Json.decodeChars, if_neg hunescaped] at h
    · cases h
    all_goals assumption

section Slices

variable [SerdeJson] [SerdeJson.Documented]

theorem parseString_sound {input s rest : List Char} (hquote : input.head? = some '"')
    (h : parseString input = .ok (s, rest)) : ∃ t, input = t ++ rest ∧ IsString t s := by
  cases input with
  | nil => cases hquote
  | cons quote input =>
    cases hquote
    simp only [parseString, Except.bind_eq_ok_iff, Except.pure_eq_ok_iff, Prod.exists,
      Prod.mk.injEq, Option.orError_eq_ok_iff] at h
    obtain ⟨slice, _, hscan, _, hvalue, rfl, rfl⟩ := h
    obtain ⟨heq, hlast⟩ := scanString_sound hscan
    refine ⟨'"' :: slice, by rw [heq]; rfl, ?_⟩
    have hlast' : ('"' :: slice).getLast? = some '"' := by
      rw [List.getLast?_cons, hlast]
      rfl
    exact (SerdeJson.Documented.string _ _ rfl hlast').1 hvalue

theorem parseString_complete {t s : List Char} (h : IsString t s) (rest : List Char) :
    parseString (t ++ rest) = .ok (s, rest) := by
  obtain ⟨body, rfl, hbody⟩ := h
  have hscan := scanString_complete hbody rest
  have hlast : ('"' :: (body ++ ['"'])).getLast? = some '"' := by
    rw [List.getLast?_cons, List.getLast?_append]
    rfl
  have hvalue : SerdeJson.stringFromSlice ('"' :: (body ++ ['"'])) = some s :=
    (SerdeJson.Documented.string _ _ rfl hlast).2 ⟨body, rfl, hbody⟩
  rw [List.cons_append, List.append_assoc, List.singleton_append]
  simp only [parseString, hscan, Except.ok_bind, hvalue]
  rfl

theorem parseNumber_sound {input lexeme rest : List Char}
    (h : parseNumber input = .ok (lexeme, rest)) :
    input = lexeme ++ rest ∧ IsNumeral lexeme := by
  simp only [parseNumber, Except.bind_eq_ok_iff, Except.pure_eq_ok_iff, Prod.mk.injEq,
    Option.orError_eq_ok_iff] at h
  obtain ⟨_, hvalue, rfl, rfl⟩ := h
  have hspace : ∀ c ∈ input.takeWhile fun c => !isValueBoundary c, isWhitespace c = false := by
    intro c hc
    have hboundary := List.mem_takeWhile_imp hc
    unfold isValueBoundary at hboundary
    simp only [Bool.not_or, Bool.and_eq_true, Bool.not_eq_true'] at hboundary
    exact hboundary.1.1.1
  obtain ⟨hnumeral, rfl⟩ := (SerdeJson.Documented.number _ _ hspace).1 hvalue
  exact ⟨List.takeWhile_append_dropWhile.symm, hnumeral⟩

omit [SerdeJson] [SerdeJson.Documented] in
/-- The characters of a number are not boundaries. -/
theorem not_isValueBoundary {t : List Char} (h : IsNumeral t) :
    ∀ c ∈ t, isValueBoundary c = false := by
  obtain ⟨n, hn, rfl⟩ := h
  have hdigit : ∀ c : Char, c.isDigit = true → isValueBoundary c = false := by
    intro c hc
    have hne : ∀ d : Char, d.isDigit = false → decide (c = d) = false := fun d hd =>
      decide_eq_false (Decimal.isDigit_ne hc hd)
    unfold isValueBoundary isWhitespace
    simp [hne]
  intro c hc
  unfold Decimal.Numeral.text at hc
  rcases List.mem_append.1 hc with hsign | hc
  · split at hsign
    · rw [List.mem_singleton.1 hsign]
      rfl
    · cases hsign
  rcases List.mem_append.1 hc with hmantissa | hexponent
  · rcases hn.mantissa_chars c hmantissa with hc | rfl
    · exact hdigit c hc
    · rfl
  · cases hcase : n.exponent with
    | none =>
      rw [hcase] at hexponent
      cases hexponent
    | some e =>
      rw [hcase] at hexponent
      have he := hn.exponent e hcase
      rcases List.mem_cons.1 hexponent with rfl | hexponent
      · rcases he.marker with hmarker | hmarker
        · rw [hmarker]
          rfl
        · rw [hmarker]
          rfl
      rcases List.mem_append.1 hexponent with hsign | hdigits
      · rcases he.sign with hnone | hplus | hminus
        · rw [hnone] at hsign
          cases hsign
        · rw [hplus] at hsign
          rw [List.mem_singleton.1 hsign]
          rfl
        · rw [hminus] at hsign
          rw [List.mem_singleton.1 hsign]
          rfl
      · exact hdigit c (he.digits c hdigits)

theorem parseNumber_complete {t rest : List Char} (h : IsNumeral t) (hrest : Boundary rest) :
    parseNumber (t ++ rest) = .ok (t, rest) := by
  have hchars := not_isValueBoundary h
  obtain ⟨htake, hdrop⟩ := List.span_append (p := fun c => !isValueBoundary c)
    (fun c hc => by rw [hchars c hc]; rfl) (b := rest) fun c hc => by rw [hrest c hc]; rfl
  have hspace : ∀ c ∈ t, isWhitespace c = false := by
    intro c hc
    have hboundary := hchars c hc
    unfold isValueBoundary at hboundary
    simp only [Bool.or_eq_false_iff] at hboundary
    exact hboundary.1.1.1
  have hvalue : SerdeJson.numberFromSlice t = some t :=
    (SerdeJson.Documented.number _ _ hspace).2 ⟨h, rfl⟩
  simp only [parseNumber, htake, hdrop, hvalue]
  rfl

end Slices

/-! ## Literals -/

theorem literalAt_iff {literal input : List Char} :
    literalAt literal input = true ↔ ∃ rest, input = literal ++ rest ∧ Boundary rest := by
  unfold literalAt Boundary
  rw [Bool.and_eq_true, List.isPrefixOf_iff_prefix, Option.all_eq_true]
  constructor
  · rintro ⟨⟨rest, rfl⟩, hrest⟩
    rw [List.drop_left] at hrest
    exact ⟨rest, rfl, hrest⟩
  · rintro ⟨rest, rfl, hrest⟩
    rw [List.drop_left]
    exact ⟨List.prefix_append _ _, hrest⟩

theorem parseLiteral_eq_ok_iff {literal input rest : List Char} {value v : Value} :
    parseLiteral literal value input = .ok (v, rest) ↔
      v = value ∧ input = literal ++ rest ∧ Boundary rest := by
  unfold parseLiteral
  by_cases hat : literalAt literal input = true
  · rw [if_pos hat]
    obtain ⟨rest', rfl, hrest'⟩ := literalAt_iff.1 hat
    rw [List.drop_left]
    constructor
    · intro h
      cases h
      exact ⟨rfl, rfl, hrest'⟩
    · rintro ⟨rfl, heq, _⟩
      rw [List.append_cancel_left heq]
  · rw [if_neg hat]
    constructor
    · intro h
      cases h
    · rintro ⟨_, heq, hrest⟩
      exact absurd (literalAt_iff.2 ⟨rest, heq, hrest⟩) hat

/-! ## Soundness -/

/-- The text between the cursor and the rest of the input is a value at the depth. -/
def Reads (depth : Nat) (input : List Char) (value : Value) (rest : List Char) : Prop :=
  ∃ a t, IsSpace a ∧ input = a ++ (t ++ rest) ∧ Derives (.value value.toTree) t ∧
    Admitted maxNestingDepth IsNumeral depth value.toTree

section Parsing

variable {parse : Parser Value} {depth : Nat}

theorem parseItems_sound
    (hparse : ∀ input value rest, parse input = .ok (value, rest) → Reads depth input value rest)
    (fuel : Nat) {input rest : List Char} {items : List Value}
    (h : parseItems parse fuel input = .ok (items, rest)) :
    ∃ t, input = t ++ ']' :: rest ∧ Derives (.items (itemTrees items)) t ∧
      ∀ tree ∈ itemTrees items, Admitted maxNestingDepth IsNumeral depth tree := by
  induction fuel generalizing input items with
  | zero => cases h
  | succ fuel ih =>
    simp only [parseItems, Except.bind_eq_ok_iff, Prod.exists] at h
    obtain ⟨item, after, hitem, h⟩ := h
    obtain ⟨a, t, ha, rfl, hderives, hadmitted⟩ := hparse _ _ _ hitem
    obtain ⟨b, hb, hafter⟩ := skipWhitespace_eq after
    split at h
    · rename_i rest' hclose
      cases h
      rw [hafter, hclose]
      refine ⟨a ++ (t ++ b), by simp, .lastItem ha hderives hb, ?_⟩
      simpa [itemTrees] using hadmitted
    · rename_i rest' hcomma
      simp only [Except.bind_eq_ok_iff, Except.pure_eq_ok_iff, Prod.exists, Prod.mk.injEq] at h
      obtain ⟨items', _, hitems, rfl, rfl⟩ := h
      obtain ⟨t', rfl, hderives', hadmitted'⟩ := ih hitems
      rw [hafter, hcomma]
      refine ⟨a ++ (t ++ (b ++ ',' :: t')), by simp, .item ha hderives hb hderives', ?_⟩
      simpa [itemTrees] using ⟨hadmitted, hadmitted'⟩
    · cases h

variable [SerdeJson] [SerdeJson.Documented]

theorem parseKey_sound {keys : List (List Char)} {input key rest : List Char}
    (h : parseKey keys input = .ok (key, rest)) :
    ∃ a k b, IsSpace a ∧ IsString k key ∧ IsSpace b ∧ input = a ++ (k ++ (b ++ ':' :: rest)) ∧
      key ∉ keys := by
  simp only [parseKey, Except.bind_eq_ok_iff, Except.exists_unit_iff, Prod.exists,
    require_eq_ok_iff] at h
  obtain ⟨hquote, key', after, hkey, hfresh, h⟩ := h
  obtain ⟨a, ha, hinput⟩ := skipWhitespace_eq input
  obtain ⟨k, hk, hstring⟩ := parseString_sound hquote hkey
  obtain ⟨b, hb, hafter⟩ := skipWhitespace_eq after
  split at h
  · rename_i rest' hcolon
    cases h
    refine ⟨a, k, b, ha, hstring, hb, ?_, hfresh⟩
    rw [hcolon] at hafter
    rw [hinput, hk, hafter]
  · cases h

theorem parseMembers_sound
    (hparse : ∀ input value rest, parse input = .ok (value, rest) → Reads depth input value rest)
    (fuel : Nat) {keys : List (List Char)} {input rest : List Char}
    {members : List (List Char × Value)}
    (h : parseMembers parse fuel keys input = .ok (members, rest)) :
    ∃ t, input = t ++ '}' :: rest ∧ Derives (.members (memberTrees members)) t ∧
      (members.map Prod.fst).Nodup ∧ (∀ key ∈ members.map Prod.fst, key ∉ keys) ∧
        ∀ member ∈ memberTrees members, Admitted maxNestingDepth IsNumeral depth member.2 := by
  induction fuel generalizing input members keys with
  | zero => cases h
  | succ fuel ih =>
    simp only [parseMembers, Except.bind_eq_ok_iff, Prod.exists] at h
    obtain ⟨key, afterKey, hkey, value, after, hvalue, h⟩ := h
    obtain ⟨a, k, b, ha, hk, hb, rfl, hfresh⟩ := parseKey_sound hkey
    obtain ⟨c, t, hc, rfl, hderives, hadmitted⟩ := hparse _ _ _ hvalue
    obtain ⟨d, hd, hafter⟩ := skipWhitespace_eq after
    split at h
    · rename_i rest' hclose
      cases h
      rw [hafter, hclose]
      refine ⟨a ++ (k ++ (b ++ ':' :: (c ++ (t ++ d)))), by simp,
        .lastMember ha hk hb hc hderives hd, by simp, by simpa using hfresh, ?_⟩
      simpa [memberTrees] using hadmitted
    · rename_i rest' hcomma
      simp only [Except.bind_eq_ok_iff, Except.pure_eq_ok_iff, Prod.exists, Prod.mk.injEq] at h
      obtain ⟨members', _, hmembers, rfl, rfl⟩ := h
      obtain ⟨t', rfl, hderives', hnodup, hkeys, hadmitted'⟩ := ih hmembers
      rw [hafter, hcomma]
      refine ⟨a ++ (k ++ (b ++ ':' :: (c ++ (t ++ (d ++ ',' :: t'))))), by simp,
        .member ha hk hb hc hderives hd hderives', ?_, ?_, ?_⟩
      · rw [List.map_cons, List.nodup_cons]
        exact ⟨fun hmem => hkeys _ hmem List.mem_cons_self, hnodup⟩
      · intro x hx
        rcases List.mem_cons.1 hx with rfl | hx
        · exact hfresh
        · exact fun hmem => hkeys x hx (List.mem_cons_of_mem _ hmem)
      · intro member hmember
        rcases List.mem_cons.1 hmember with rfl | hmember
        · exact hadmitted
        · exact hadmitted' member hmember
    · cases h

omit [SerdeJson] [SerdeJson.Documented] in
theorem derives_items_space {w t : List Char} {items : List Tree} (hw : IsSpace w)
    (h : Derives (.items items) t) : Derives (.items items) (w ++ t) := by
  cases h with
  | lastItem ha h hb =>
    rw [← List.append_assoc]
    exact .lastItem (isSpace_append hw ha) h hb
  | item ha h hb hrest =>
    rw [← List.append_assoc]
    exact .item (isSpace_append hw ha) h hb hrest

omit [SerdeJson] [SerdeJson.Documented] in
theorem derives_members_space {w t : List Char} {members : List (List Char × Tree)}
    (hw : IsSpace w) (h : Derives (.members members) t) : Derives (.members members) (w ++ t) := by
  cases h with
  | lastMember ha hk hb hc h hd =>
    rw [← List.append_assoc]
    exact .lastMember (isSpace_append hw ha) hk hb hc h hd
  | member ha hk hb hc h hd hrest =>
    rw [← List.append_assoc]
    exact .member (isSpace_append hw ha) hk hb hc h hd hrest

/-- The value starts at the cursor. -/
def ReadsHere (depth : Nat) (input : List Char) (value : Value) (rest : List Char) : Prop :=
  ∃ t, input = t ++ rest ∧ Derives (.value value.toTree) t ∧
    Admitted maxNestingDepth IsNumeral depth value.toTree

omit [SerdeJson] [SerdeJson.Documented] in
theorem parseArray_sound
    (hparse : ∀ input value rest, parse input = .ok (value, rest) →
      Reads (depth + 1) input value rest)
    {input rest : List Char} {value : Value} (hdepth : depth ≤ maxNestingDepth)
    (h : parseArray parse ('[' :: input) = .ok (value, rest)) :
    ReadsHere depth ('[' :: input) value rest := by
  obtain ⟨w, hw, hinput⟩ := skipWhitespace_eq input
  unfold parseArray at h
  rw [List.tail_cons] at h
  split at h
  · rename_i rest' hclose
    cases h
    rw [hclose] at hinput
    exact ⟨'[' :: (w ++ [']']), by rw [hinput]; simp, .emptyArray hw,
      .array hdepth fun item hitem => by cases hitem⟩
  · simp only [Except.bind_eq_ok_iff, Except.pure_eq_ok_iff, Prod.exists, Prod.mk.injEq] at h
    obtain ⟨items, _, hitems, rfl, rfl⟩ := h
    obtain ⟨t, heq, hderives, hadmitted⟩ := parseItems_sound hparse _ hitems
    rw [heq] at hinput
    exact ⟨'[' :: ((w ++ t) ++ [']']), by rw [hinput]; simp,
      .array (derives_items_space hw hderives), .array hdepth hadmitted⟩

theorem parseObject_sound
    (hparse : ∀ input value rest, parse input = .ok (value, rest) →
      Reads (depth + 1) input value rest)
    {input rest : List Char} {value : Value} (hdepth : depth ≤ maxNestingDepth)
    (h : parseObject parse ('{' :: input) = .ok (value, rest)) :
    ReadsHere depth ('{' :: input) value rest := by
  obtain ⟨w, hw, hinput⟩ := skipWhitespace_eq input
  unfold parseObject at h
  rw [List.tail_cons] at h
  split at h
  · rename_i rest' hclose
    cases h
    rw [hclose] at hinput
    exact ⟨'{' :: (w ++ ['}']), by rw [hinput]; simp, .emptyObject hw,
      .object hdepth .nil fun member hmember => by cases hmember⟩
  · simp only [Except.bind_eq_ok_iff, Except.pure_eq_ok_iff, Prod.exists, Prod.mk.injEq] at h
    obtain ⟨members, _, hmembers, rfl, rfl⟩ := h
    obtain ⟨t, heq, hderives, hnodup, _, hadmitted⟩ := parseMembers_sound hparse _ hmembers
    rw [heq] at hinput
    refine ⟨'{' :: ((w ++ t) ++ ['}']), by rw [hinput]; simp,
      .object (derives_members_space hw hderives), .object hdepth ?_ hadmitted⟩
    rw [memberTrees_eq, List.map_map]
    exact hnodup

/-- `parse_value` reads a value at the depth that the budget leaves. -/
theorem parseValue_sound (budget : Nat) {depth : Nat} {input rest : List Char} {value : Value}
    (hdepth : depth + budget = maxNestingDepth + 1)
    (h : parseValue budget input = .ok (value, rest)) : Reads depth input value rest := by
  induction budget generalizing depth input value rest with
  | zero => cases h
  | succ budget ih =>
    have hlimit : depth ≤ maxNestingDepth := by omega
    have hparse : ∀ input value rest, parseValue budget input = .ok (value, rest) →
        Reads (depth + 1) input value rest := fun input value rest h => ih (by omega) h
    obtain ⟨a, ha, hinput⟩ := skipWhitespace_eq input
    -- The value starts behind the white space.
    suffices hhere : ReadsHere depth (skipWhitespace input) value rest by
      obtain ⟨t, heq, hread⟩ := hhere
      exact ⟨a, t, ha, by rw [← heq]; exact hinput, hread⟩
    rw [parseValue] at h
    dsimp only at h
    generalize skipWhitespace input = start at h ⊢
    cases start with
    | nil => cases h
    | cons c tail =>
      rw [List.head?_cons] at h
      split at h
      · rename_i heq
        cases heq
        exact parseObject_sound hparse hlimit h
      · rename_i heq
        cases heq
        exact parseArray_sound hparse hlimit h
      · rename_i heq
        cases heq
        simp only [Except.bind_eq_ok_iff, Except.pure_eq_ok_iff, Prod.exists, Prod.mk.injEq] at h
        obtain ⟨s, _, hstring, rfl, rfl⟩ := h
        obtain ⟨t, ht, hvalue⟩ := parseString_sound rfl hstring
        exact ⟨t, ht, .string hvalue, .string hlimit⟩
      · obtain ⟨rfl, heq, _⟩ := parseLiteral_eq_ok_iff.1 h
        exact ⟨_, heq, .true, .boolean hlimit⟩
      · obtain ⟨rfl, heq, _⟩ := parseLiteral_eq_ok_iff.1 h
        exact ⟨_, heq, .false, .boolean hlimit⟩
      · unfold parseNull at h
        split at h
        · cases h
        · cases h
      · split at h
        · simp only [Except.bind_eq_ok_iff, Except.pure_eq_ok_iff, Prod.exists,
            Prod.mk.injEq] at h
          obtain ⟨lexeme, _, hnumber, rfl, rfl⟩ := h
          obtain ⟨heq, hnumeral⟩ := parseNumber_sound hnumber
          exact ⟨lexeme, heq, .number hnumeral, .number hlimit hnumeral⟩
        · cases h
      · cases h

/-! ## Completeness -/

/-- How a derived text starts: a value with a character that is neither white space nor a closing
bracket, and a list with such a value after white space, and with enough characters for its
elements. -/
def Starts : Phrase → List Char → Prop
  | .value _, t => ∃ c rest, t = c :: rest ∧ isWhitespace c = false ∧ c ≠ ']' ∧ c ≠ '}'
  | .items items, t => ∃ a c rest, IsSpace a ∧ t = a ++ c :: rest ∧ isWhitespace c = false ∧
      c ≠ ']' ∧ items.length ≤ rest.length + 1
  | .members members, t => ∃ a rest, IsSpace a ∧ t = a ++ '"' :: rest ∧
      members.length ≤ rest.length + 1

omit [SerdeJson] [SerdeJson.Documented] in
theorem isNumeral_head {t : List Char} (h : IsNumeral t) :
    ∃ c rest, t = c :: rest ∧ (c = '-' ∨ c.isDigit = true) := by
  obtain ⟨n, hn, rfl⟩ := h
  exact hn.head_text

omit [SerdeJson] [SerdeJson.Documented] in
theorem starts_of_derives {phrase : Phrase} {t : List Char} (h : Derives phrase t) :
    Starts phrase t := by
  induction h with
  | null => exact ⟨_, _, rfl, rfl, by decide, by decide⟩
  | true => exact ⟨_, _, rfl, rfl, by decide, by decide⟩
  | false => exact ⟨_, _, rfl, rfl, by decide, by decide⟩
  | number h =>
    obtain ⟨c, rest, rfl, hc⟩ := isNumeral_head h
    have hboundary := not_isValueBoundary h c List.mem_cons_self
    unfold isValueBoundary at hboundary
    simp only [Bool.or_eq_false_iff, decide_eq_false_iff_not] at hboundary
    exact ⟨c, rest, rfl, hboundary.1.1.1, hboundary.1.2, hboundary.2⟩
  | string h =>
    obtain ⟨body, rfl, _⟩ := h
    exact ⟨_, _, rfl, rfl, by decide, by decide⟩
  | emptyArray hw => exact ⟨_, _, rfl, rfl, by decide, by decide⟩
  | array h => exact ⟨_, _, rfl, rfl, by decide, by decide⟩
  | emptyObject hw => exact ⟨_, _, rfl, rfl, by decide, by decide⟩
  | object h => exact ⟨_, _, rfl, rfl, by decide, by decide⟩
  | lastItem ha h hb ih =>
    obtain ⟨c, rest, rfl, hspace, hbracket, _⟩ := ih
    exact ⟨_, c, _, ha, rfl, hspace, hbracket, Nat.le_add_left _ _⟩
  | item ha h hb hrest ih ihrest =>
    obtain ⟨c, rest, rfl, hspace, hbracket, _⟩ := ih
    obtain ⟨a', c', rest', _, rfl, _, _, hlength⟩ := ihrest
    refine ⟨_, c, _, ha, rfl, hspace, hbracket, ?_⟩
    simp only [List.length_cons, List.append_eq, List.length_append]
    omega
  | lastMember ha hk hb hc h hd ih =>
    obtain ⟨body, rfl, _⟩ := hk
    exact ⟨_, _, ha, rfl, Nat.le_add_left _ _⟩
  | member ha hk hb hc h hd hrest ih ihrest =>
    obtain ⟨body, rfl, _⟩ := hk
    obtain ⟨a', rest', _, rfl, hlength⟩ := ihrest
    refine ⟨_, _, ha, rfl, ?_⟩
    simp only [List.length_cons, List.append_eq, List.length_append]
    omega

/-- The parser accepts what the phrase derives, in front of anything that may follow. -/
def Complete : Phrase → List Char → Prop
  | .value tree, t => ∀ depth budget, depth + budget = maxNestingDepth + 1 →
      Admitted maxNestingDepth IsNumeral depth tree → ∀ a rest, IsSpace a → Boundary rest →
        ∃ value, value.toTree = tree ∧ parseValue budget (a ++ (t ++ rest)) = .ok (value, rest)
  | .items items, t => ∀ depth budget, depth + budget = maxNestingDepth + 1 →
      (∀ item ∈ items, Admitted maxNestingDepth IsNumeral depth item) →
        ∀ fuel rest, items.length ≤ fuel →
          ∃ values, itemTrees values = items ∧
            parseItems (parseValue budget) fuel (t ++ ']' :: rest) = .ok (values, rest)
  | .members members, t => ∀ depth budget, depth + budget = maxNestingDepth + 1 →
      (∀ member ∈ members, Admitted maxNestingDepth IsNumeral depth member.2) →
        (members.map Prod.fst).Nodup → ∀ fuel keys rest, members.length ≤ fuel →
          (∀ member ∈ members, member.1 ∉ keys) →
            ∃ values, memberTrees values = members ∧
              parseMembers (parseValue budget) fuel keys (t ++ '}' :: rest) = .ok (values, rest)

omit [SerdeJson.Documented] in
/-- White space before a value is skipped. -/
theorem parseValue_space (budget : Nat) {a : List Char} (ha : IsSpace a) (input : List Char) :
    parseValue budget (a ++ input) = parseValue budget input := by
  cases budget with
  | zero => rfl
  | succ budget => rw [parseValue, parseValue, skipWhitespace_append ha]

omit [SerdeJson] [SerdeJson.Documented] in
theorem admitted_depth {limit depth : Nat} {fits : List Char → Prop} {tree : Tree}
    (h : Admitted limit fits depth tree) : depth ≤ limit := by
  cases h with
  | boolean hdepth => exact hdepth
  | number hdepth hfits => exact hdepth
  | string hdepth => exact hdepth
  | array hdepth hitems => exact hdepth
  | object hdepth hkeys hmembers => exact hdepth

theorem parseKey_complete {keys : List (List Char)} {a k key b : List Char} (ha : IsSpace a)
    (hk : IsString k key) (hb : IsSpace b) (hfresh : key ∉ keys) (rest : List Char) :
    parseKey keys (a ++ (k ++ (b ++ ':' :: rest))) = .ok (key, rest) := by
  obtain ⟨body, hbody, _⟩ := id hk
  have hskip : skipWhitespace (a ++ (k ++ (b ++ ':' :: rest))) = k ++ (b ++ ':' :: rest) := by
    rw [skipWhitespace_append ha, hbody]
    exact skipWhitespace_cons rfl _
  have hquote : (k ++ (b ++ ':' :: rest)).head? = some '"' := by
    rw [hbody]
    rfl
  have hcolon : skipWhitespace (b ++ ':' :: rest) = ':' :: rest := by
    rw [skipWhitespace_append hb]
    exact skipWhitespace_cons rfl _
  simp only [parseKey, hskip, require_of hquote, Except.ok_bind, parseString_complete hk,
    require_of hfresh, hcolon]
  rfl

omit [SerdeJson.Documented] in
theorem parseItems_space (budget fuel : Nat) {a : List Char} (ha : IsSpace a)
    (input : List Char) :
    parseItems (parseValue budget) fuel (a ++ input) =
      parseItems (parseValue budget) fuel input := by
  cases fuel with
  | zero => rfl
  | succ fuel => rw [parseItems, parseItems, parseValue_space budget ha]

omit [SerdeJson.Documented] in
theorem parseMembers_space (budget fuel : Nat) (keys : List (List Char)) {a : List Char}
    (ha : IsSpace a) (input : List Char) :
    parseMembers (parseValue budget) fuel keys (a ++ input) =
      parseMembers (parseValue budget) fuel keys input := by
  have hkey : parseKey keys (a ++ input) = parseKey keys input := by
    unfold parseKey
    rw [skipWhitespace_append ha]
  cases fuel with
  | zero => rfl
  | succ fuel => rw [parseMembers, parseMembers, hkey]

/-- The first character of a value decides how it is read. -/
theorem parseValue_number_complete {t rest : List Char} (h : IsNumeral t) (hrest : Boundary rest)
    (budget : Nat) : parseValue (budget + 1) (t ++ rest) = .ok (.number t, rest) := by
  have hnumber := parseNumber_complete h hrest
  obtain ⟨c, tail, rfl, hspace, -, -⟩ := starts_of_derives (.number h)
  obtain ⟨d, tail', heq, hd⟩ := isNumeral_head h
  obtain ⟨rfl, rfl⟩ := List.cons.inj heq
  have hne : ∀ x : Char, x ≠ '-' → x.isDigit = false → x ≠ c := by
    rintro x hx hx' rfl
    rcases hd with hd | hd
    · exact hx hd
    · rw [hx'] at hd
      cases hd
  rw [List.cons_append] at hnumber ⊢
  rw [parseValue]
  dsimp only
  rw [skipWhitespace_cons hspace, List.head?_cons]
  split
  · rename_i hc
    exact absurd (Option.some.inj hc).symm (hne _ (by decide) (by decide))
  · rename_i hc
    exact absurd (Option.some.inj hc).symm (hne _ (by decide) (by decide))
  · rename_i hc
    exact absurd (Option.some.inj hc).symm (hne _ (by decide) (by decide))
  · rename_i hc
    exact absurd (Option.some.inj hc).symm (hne _ (by decide) (by decide))
  · rename_i hc
    exact absurd (Option.some.inj hc).symm (hne _ (by decide) (by decide))
  · rename_i hc
    exact absurd (Option.some.inj hc).symm (hne _ (by decide) (by decide))
  · rename_i hc
    cases hc
    rw [if_pos hd, hnumber]
    rfl
  · rename_i hc
    cases hc

theorem parseValue_string_complete {t s : List Char} (h : IsString t s) (rest : List Char)
    (budget : Nat) : parseValue (budget + 1) (t ++ rest) = .ok (.string s, rest) := by
  have hstring := parseString_complete h rest
  obtain ⟨body, rfl, _⟩ := h
  rw [List.cons_append] at hstring ⊢
  rw [parseValue]
  dsimp only
  rw [skipWhitespace_cons rfl]
  change (parseString ('"' :: (body ++ ['"'] ++ rest)) >>= _) = _
  rw [hstring]
  rfl

omit [SerdeJson.Documented] in
theorem parseValue_array (budget : Nat) (input : List Char) :
    parseValue (budget + 1) ('[' :: input) = parseArray (parseValue budget) ('[' :: input) := by
  rw [parseValue]
  dsimp only
  rw [skipWhitespace_cons rfl]
  rfl

omit [SerdeJson.Documented] in
theorem parseValue_object (budget : Nat) (input : List Char) :
    parseValue (budget + 1) ('{' :: input) = parseObject (parseValue budget) ('{' :: input) := by
  rw [parseValue]
  dsimp only
  rw [skipWhitespace_cons rfl]
  rfl

/-- What the grammar derives, the parser accepts. -/
theorem complete_of_derives {phrase : Phrase} {t : List Char} (h : Derives phrase t) :
    Complete phrase t := by
  have hbudget : ∀ {depth budget : Nat} {tree : Tree}, depth + budget = maxNestingDepth + 1 →
      Admitted maxNestingDepth IsNumeral depth tree → ∃ b, budget = b + 1 := by
    intro depth budget tree hdepth hadmitted
    have hlimit := admitted_depth hadmitted
    exact ⟨budget - 1, by omega⟩
  induction h with
  | null =>
    intro depth budget hdepth hadmitted
    cases hadmitted
  | true =>
    intro depth budget hdepth hadmitted a rest ha hrest
    obtain ⟨budget, rfl⟩ := hbudget hdepth hadmitted
    refine ⟨.boolean true, rfl, ?_⟩
    rw [parseValue_space _ ha, parseValue]
    exact parseLiteral_eq_ok_iff.2 ⟨rfl, rfl, hrest⟩
  | false =>
    intro depth budget hdepth hadmitted a rest ha hrest
    obtain ⟨budget, rfl⟩ := hbudget hdepth hadmitted
    refine ⟨.boolean false, rfl, ?_⟩
    rw [parseValue_space _ ha, parseValue]
    exact parseLiteral_eq_ok_iff.2 ⟨rfl, rfl, hrest⟩
  | number h =>
    intro depth budget hdepth hadmitted a rest ha hrest
    obtain ⟨budget, rfl⟩ := hbudget hdepth hadmitted
    exact ⟨.number _, rfl, by
      rw [parseValue_space _ ha, parseValue_number_complete h hrest]⟩
  | string h =>
    intro depth budget hdepth hadmitted a rest ha hrest
    obtain ⟨budget, rfl⟩ := hbudget hdepth hadmitted
    exact ⟨.string _, rfl, by rw [parseValue_space _ ha, parseValue_string_complete h]⟩
  | emptyArray hw =>
    intro depth budget hdepth hadmitted a rest ha hrest
    obtain ⟨budget, rfl⟩ := hbudget hdepth hadmitted
    refine ⟨.array [], rfl, ?_⟩
    rw [parseValue_space _ ha, List.cons_append, parseValue_array, parseArray, List.tail_cons,
      List.append_assoc, skipWhitespace_append hw, List.singleton_append, skipWhitespace_cons rfl]
    rfl
  | @array items t h ih =>
    intro depth budget hdepth hadmitted a rest ha hrest
    obtain ⟨budget, rfl⟩ := hbudget hdepth hadmitted
    obtain ⟨w, c, u, hw, rfl, hspace, hbracket, hlength⟩ := starts_of_derives h
    cases hadmitted with
    | array _ hitems =>
      have hskip : skipWhitespace (w ++ c :: u ++ [']'] ++ rest) = c :: (u ++ ']' :: rest) := by
        rw [List.append_assoc, List.append_assoc, skipWhitespace_append hw, List.cons_append,
          skipWhitespace_cons hspace]
        simp
      obtain ⟨values, hvalues, hparse⟩ := ih (depth + 1) budget (by omega) hitems
        ((c :: (u ++ ']' :: rest)).length + 1) rest (by simp; omega)
      rw [List.append_assoc, parseItems_space _ _ hw] at hparse
      refine ⟨.array values, by rw [Value.toTree, hvalues], ?_⟩
      rw [parseValue_space _ ha, List.cons_append, parseValue_array, parseArray, List.tail_cons,
        hskip]
      split
      · rename_i heq
        exact absurd (List.cons.inj heq).1 hbracket
      · rw [List.cons_append] at hparse
        rw [hparse]
        rfl
  | emptyObject hw =>
    intro depth budget hdepth hadmitted a rest ha hrest
    obtain ⟨budget, rfl⟩ := hbudget hdepth hadmitted
    refine ⟨.object [], rfl, ?_⟩
    rw [parseValue_space _ ha, List.cons_append, parseValue_object, parseObject, List.tail_cons,
      List.append_assoc, skipWhitespace_append hw, List.singleton_append, skipWhitespace_cons rfl]
    rfl
  | @object members t h ih =>
    intro depth budget hdepth hadmitted a rest ha hrest
    obtain ⟨budget, rfl⟩ := hbudget hdepth hadmitted
    obtain ⟨w, u, hw, rfl, hlength⟩ := starts_of_derives h
    cases hadmitted with
    | object _ hkeys hmembers =>
      have hskip : skipWhitespace (w ++ '"' :: u ++ ['}'] ++ rest) = '"' :: (u ++ '}' :: rest) := by
        rw [List.append_assoc, List.append_assoc, skipWhitespace_append hw, List.cons_append,
          skipWhitespace_cons rfl]
        simp
      obtain ⟨values, hvalues, hparse⟩ := ih (depth + 1) budget (by omega) hmembers hkeys
        (('"' :: (u ++ '}' :: rest)).length + 1) [] rest (by simp; omega) (by simp)
      rw [List.append_assoc, parseMembers_space _ _ _ hw] at hparse
      refine ⟨.object values, by rw [Value.toTree, hvalues], ?_⟩
      rw [parseValue_space _ ha, List.cons_append, parseValue_object, parseObject, List.tail_cons,
        hskip]
      rw [List.cons_append] at hparse
      change (parseMembers (parseValue budget) _ [] ('"' :: (u ++ '}' :: rest)) >>= _) = _
      rw [hparse]
      rfl
  | @lastItem tree a t b ha h hb ih =>
    intro depth budget hdepth hitems fuel rest hfuel
    obtain ⟨fuel, rfl⟩ : ∃ f, fuel = f + 1 := ⟨fuel - 1, by simp at hfuel; omega⟩
    obtain ⟨value, hvalue, hparse⟩ := ih depth budget hdepth (hitems _ List.mem_cons_self) a
      (b ++ ']' :: rest) ha (boundary_append hb rfl)
    have hclose : skipWhitespace (b ++ ']' :: rest) = ']' :: rest := by
      rw [skipWhitespace_append hb, skipWhitespace_cons rfl]
    refine ⟨[value], by rw [itemTrees, itemTrees, hvalue], ?_⟩
    rw [List.append_assoc, List.append_assoc, parseItems, hparse]
    simp only [Except.ok_bind, hclose]
    rfl
  | @item tree items a t b text ha h hb hrest ih ihrest =>
    intro depth budget hdepth hitems fuel rest hfuel
    obtain ⟨fuel, rfl⟩ : ∃ f, fuel = f + 1 := ⟨fuel - 1, by simp at hfuel; omega⟩
    obtain ⟨value, hvalue, hparse⟩ := ih depth budget hdepth (hitems _ List.mem_cons_self) a
      (b ++ ',' :: (text ++ ']' :: rest)) ha (boundary_append hb rfl)
    obtain ⟨values, hvalues, hparse'⟩ := ihrest depth budget hdepth
      (fun item hitem => hitems item (List.mem_cons_of_mem _ hitem)) fuel rest
      (by simp at hfuel; omega)
    have hcomma : skipWhitespace (b ++ ',' :: (text ++ ']' :: rest)) =
        ',' :: (text ++ ']' :: rest) := by
      rw [skipWhitespace_append hb, skipWhitespace_cons rfl]
    refine ⟨value :: values, by rw [itemTrees, hvalue, hvalues], ?_⟩
    rw [List.append_assoc, List.append_assoc, List.append_assoc, List.cons_append, parseItems,
      hparse]
    simp only [Except.ok_bind, hcomma, hparse']
    rfl
  | @lastMember key tree a k b c t d ha hk hb hc h hd ih =>
    intro depth budget hdepth hmembers hkeys fuel keys rest hfuel hfresh
    obtain ⟨fuel, rfl⟩ : ∃ f, fuel = f + 1 := ⟨fuel - 1, by simp at hfuel; omega⟩
    obtain ⟨value, hvalue, hparse⟩ := ih depth budget hdepth (hmembers _ List.mem_cons_self) c
      (d ++ '}' :: rest) hc (boundary_append hd rfl)
    have hkey := parseKey_complete ha hk hb (hfresh _ List.mem_cons_self)
      (c ++ (t ++ (d ++ '}' :: rest)))
    have hclose : skipWhitespace (d ++ '}' :: rest) = '}' :: rest := by
      rw [skipWhitespace_append hd, skipWhitespace_cons rfl]
    refine ⟨[(key, value)], by rw [memberTrees, memberTrees, hvalue], ?_⟩
    simp only [List.append_assoc, List.cons_append] at hkey ⊢
    rw [parseMembers, hkey]
    simp only [Except.ok_bind, hparse, hclose]
    rfl
  | @member key tree members a k b c t d text ha hk hb hc h hd hrest ih ihrest =>
    intro depth budget hdepth hmembers hkeys fuel keys rest hfuel hfresh
    obtain ⟨fuel, rfl⟩ : ∃ f, fuel = f + 1 := ⟨fuel - 1, by simp at hfuel; omega⟩
    obtain ⟨value, hvalue, hparse⟩ := ih depth budget hdepth (hmembers _ List.mem_cons_self) c
      (d ++ ',' :: (text ++ '}' :: rest)) hc (boundary_append hd rfl)
    have hkey := parseKey_complete ha hk hb (hfresh _ List.mem_cons_self)
      (c ++ (t ++ (d ++ ',' :: (text ++ '}' :: rest))))
    rw [List.map_cons, List.nodup_cons] at hkeys
    obtain ⟨values, hvalues, hparse'⟩ := ihrest depth budget hdepth
      (fun member hmember => hmembers member (List.mem_cons_of_mem _ hmember)) hkeys.2 fuel
      (key :: keys) rest (by simp at hfuel; omega) fun member hmember hseen => by
        rcases List.mem_cons.1 hseen with heq | hseen
        · refine hkeys.1 ?_
          rw [← heq]
          exact List.mem_map.2 ⟨member, hmember, rfl⟩
        · exact hfresh member (List.mem_cons_of_mem _ hmember) hseen
    have hcomma : skipWhitespace (d ++ ',' :: (text ++ '}' :: rest)) =
        ',' :: (text ++ '}' :: rest) := by
      rw [skipWhitespace_append hd, skipWhitespace_cons rfl]
    refine ⟨(key, value) :: values, by rw [memberTrees, hvalue, hvalues], ?_⟩
    simp only [List.append_assoc, List.cons_append] at hkey ⊢
    rw [parseMembers, hkey]
    simp only [Except.ok_bind, hparse, hcomma, hparse']
    rfl

end Parsing

/-! ## The whole input -/

section Whole

variable [SerdeJson] [SerdeJson.Documented]

theorem parse_sound {input : List Char} {value : Value} (h : parse input = .ok value) :
    IsText value.toTree input ∧ Admitted maxNestingDepth IsNumeral 0 value.toTree := by
  simp only [parse, Except.bind_eq_ok_iff, Except.exists_unit_iff, Except.pure_eq_ok_iff,
    Prod.exists, require_eq_ok_iff] at h
  obtain ⟨_, rest, hvalue, hrest, rfl⟩ := h
  obtain ⟨w, hw, hinput⟩ := skipWhitespace_eq input
  obtain ⟨b, hb, hend⟩ := skipWhitespace_eq rest
  have hreads : Reads 0 (skipWhitespace input) _ rest :=
    parseValue_sound (maxNestingDepth + 1) (by omega) hvalue
  obtain ⟨a, t, ha, heq, hderives, hadmitted⟩ := hreads
  rw [hrest, List.append_nil] at hend
  refine ⟨⟨w ++ a, t, b, isSpace_append hw ha, hderives, hb, ?_⟩, hadmitted⟩
  rw [hinput, heq, hend, List.append_assoc]

theorem parse_complete {input : List Char} {tree : Tree} (htext : IsText tree input)
    (hadmitted : Admitted maxNestingDepth IsNumeral 0 tree) :
    ∃ value, value.toTree = tree ∧ parse input = .ok value := by
  obtain ⟨a, t, b, ha, hderives, hb, rfl⟩ := htext
  obtain ⟨value, hvalue, hparse⟩ := complete_of_derives hderives 0 (maxNestingDepth + 1) (by omega)
    hadmitted [] b (by simp [IsSpace]) (boundary_of_space hb)
  obtain ⟨c, tail, hstart, hspace, -, -⟩ := starts_of_derives hderives
  have hskip : skipWhitespace (a ++ (t ++ b)) = t ++ b := by
    rw [skipWhitespace_append ha, hstart, List.cons_append, skipWhitespace_cons hspace]
  have hend : skipWhitespace b = [] := by
    rw [← List.append_nil b, skipWhitespace_append hb]
    rfl
  rw [List.nil_append] at hparse
  refine ⟨value, hvalue, ?_⟩
  unfold parse
  rw [hskip, hparse]
  simp only [Except.ok_bind, hend]
  rfl

/-- A text says one thing. -/
theorem tree_unique {input : List Char} {tree tree' : Tree} (htext : IsText tree input)
    (hadmitted : Admitted maxNestingDepth IsNumeral 0 tree) (htext' : IsText tree' input)
    (hadmitted' : Admitted maxNestingDepth IsNumeral 0 tree') : tree = tree' := by
  obtain ⟨value, rfl, hparse⟩ := parse_complete htext hadmitted
  obtain ⟨value', rfl, hparse'⟩ := parse_complete htext' hadmitted'
  rw [hparse] at hparse'
  rw [Except.ok.inj hparse']

end Whole

end RadishMemory.CanonicalJson
