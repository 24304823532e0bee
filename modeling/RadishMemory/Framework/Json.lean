import RadishMemory.Framework.Decimal
import Mathlib.Data.List.Basic

/-!
# JSON texts

The grammar of RFC 8259 over lists of characters, and what a text denotes.

`Derives` is the grammar, one constructor for each production, indexed by what a part of a text
stands for.  Strings stand for what they decode to, so a text with a lone surrogate is not
derived; numbers keep their text.  A `Tree` is what a text says, with the members of an object in
order; its `Denotation` has exact numbers and objects that are maps.
-/

namespace Json

/-! ## Strings -/

def hexValue (c : Char) : Option Nat :=
  if '0' ≤ c ∧ c ≤ '9' then some (c.toNat - '0'.toNat)
  else if 'a' ≤ c ∧ c ≤ 'f' then some (c.toNat - 'a'.toNat + 10)
  else if 'A' ≤ c ∧ c ≤ 'F' then some (c.toNat - 'A'.toNat + 10)
  else none

/-- The code unit of a `\u` escape. -/
def hex4 (a b c d : Char) : Option Nat := do
  let a ← hexValue a
  let b ← hexValue b
  let c ← hexValue c
  let d ← hexValue d
  return ((a * 16 + b) * 16 + c) * 16 + d

def IsHighSurrogate (n : Nat) : Prop :=
  0xD800 ≤ n ∧ n < 0xDC00

def IsLowSurrogate (n : Nat) : Prop :=
  0xDC00 ≤ n ∧ n < 0xE000

instance (n : Nat) : Decidable (IsHighSurrogate n) :=
  inferInstanceAs (Decidable (_ ∧ _))

instance (n : Nat) : Decidable (IsLowSurrogate n) :=
  inferInstanceAs (Decidable (_ ∧ _))

/-- The character of a surrogate pair. -/
def pairValue (high low : Nat) : Char :=
  Char.ofNat (0x10000 + (high - 0xD800) * 0x400 + (low - 0xDC00))

/-- The escapes of one character. -/
def escaped (c : Char) : Option Char :=
  match c with
  | '"' => some '"'
  | '\\' => some '\\'
  | '/' => some '/'
  | 'b' => some '\x08'
  | 'f' => some '\x0c'
  | 'n' => some '\n'
  | 'r' => some '\r'
  | 't' => some '\t'
  | _ => none

/-- A character that stands for itself. -/
def IsUnescaped (c : Char) : Prop :=
  0x20 ≤ c.toNat ∧ c ≠ '"' ∧ c ≠ '\\'

instance (c : Char) : Decidable (IsUnescaped c) :=
  inferInstanceAs (Decidable (_ ∧ _ ∧ _))

/-- The characters that the text between two quotation marks stands for. -/
def decodeChars : List Char → Option (List Char)
  | [] => some []
  | '\\' :: 'u' :: a :: b :: c :: d :: rest =>
    match hex4 a b c d with
    | none => none
    | some n =>
      if IsHighSurrogate n then
        match rest with
        | '\\' :: 'u' :: e :: f :: g :: h :: rest =>
          match hex4 e f g h with
          | none => none
          | some m =>
            if IsLowSurrogate m then (decodeChars rest).map (pairValue n m :: ·) else none
        | _ => none
      else if IsLowSurrogate n then none
      else (decodeChars rest).map (Char.ofNat n :: ·)
  | '\\' :: c :: rest =>
    match escaped c with
    | none => none
    | some d => (decodeChars rest).map (d :: ·)
  | c :: rest => if IsUnescaped c then (decodeChars rest).map (c :: ·) else none

/-- The string literal `t` stands for `s`. -/
def IsString (t s : List Char) : Prop :=
  ∃ body, t = '"' :: (body ++ ['"']) ∧ decodeChars body = some s

/-- The value of a string literal. -/
def stringValue (t : List Char) : Option (List Char) :=
  match t with
  | '"' :: rest => if rest.getLast? = some '"' then decodeChars rest.dropLast else none
  | _ => none

theorem stringValue_eq_some_iff {t s : List Char} : stringValue t = some s ↔ IsString t s := by
  constructor
  · intro h
    unfold stringValue at h
    split at h
    · rename_i rest
      split at h
      · rename_i hlast
        obtain ⟨body, hbody⟩ := List.getLast?_eq_some_iff.1 hlast
        subst hbody
        rw [List.dropLast_concat] at h
        exact ⟨body, rfl, h⟩
      · cases h
    · cases h
  · rintro ⟨body, rfl, hbody⟩
    unfold stringValue
    simp [hbody]

/-! ## The grammar -/

/-- What a JSON text says. -/
inductive Tree where
  | null
  | boolean (value : Bool)
  | number (text : List Char)
  | string (value : List Char)
  | array (items : List Tree)
  | object (members : List (List Char × Tree))

def isWhitespace (c : Char) : Bool :=
  c = ' ' || c = '\n' || c = '\r' || c = '\t'

def IsSpace (t : List Char) : Prop :=
  ∀ c ∈ t, isWhitespace c = true

/-- What a part of a text stands for: a value, the items of an array or the members of an
object. -/
inductive Phrase where
  | value (tree : Tree)
  | items (items : List Tree)
  | members (members : List (List Char × Tree))

inductive Derives : Phrase → List Char → Prop
  | null : Derives (.value .null) ['n', 'u', 'l', 'l']
  | true : Derives (.value (.boolean true)) ['t', 'r', 'u', 'e']
  | false : Derives (.value (.boolean false)) ['f', 'a', 'l', 's', 'e']
  | number {t : List Char} (h : Decimal.IsNumeral t) : Derives (.value (.number t)) t
  | string {t s : List Char} (h : IsString t s) : Derives (.value (.string s)) t
  | emptyArray {w : List Char} (hw : IsSpace w) :
      Derives (.value (.array [])) ('[' :: (w ++ [']']))
  | array {items : List Tree} {t : List Char} (h : Derives (.items items) t) :
      Derives (.value (.array items)) ('[' :: (t ++ [']']))
  | emptyObject {w : List Char} (hw : IsSpace w) :
      Derives (.value (.object [])) ('{' :: (w ++ ['}']))
  | object {members : List (List Char × Tree)} {t : List Char} (h : Derives (.members members) t) :
      Derives (.value (.object members)) ('{' :: (t ++ ['}']))
  | lastItem {tree : Tree} {a t b : List Char} (ha : IsSpace a) (h : Derives (.value tree) t)
      (hb : IsSpace b) : Derives (.items [tree]) (a ++ (t ++ b))
  | item {tree : Tree} {items : List Tree} {a t b rest : List Char} (ha : IsSpace a)
      (h : Derives (.value tree) t) (hb : IsSpace b) (hrest : Derives (.items items) rest) :
      Derives (.items (tree :: items)) (a ++ (t ++ (b ++ ',' :: rest)))
  | lastMember {key : List Char} {tree : Tree} {a k b c t d : List Char} (ha : IsSpace a)
      (hkey : IsString k key) (hb : IsSpace b) (hc : IsSpace c) (h : Derives (.value tree) t)
      (hd : IsSpace d) :
      Derives (.members [(key, tree)]) (a ++ (k ++ (b ++ ':' :: (c ++ (t ++ d)))))
  | member {key : List Char} {tree : Tree} {members : List (List Char × Tree)}
      {a k b c t d rest : List Char} (ha : IsSpace a) (hkey : IsString k key) (hb : IsSpace b)
      (hc : IsSpace c) (h : Derives (.value tree) t) (hd : IsSpace d)
      (hrest : Derives (.members members) rest) :
      Derives (.members ((key, tree) :: members))
        (a ++ (k ++ (b ++ ':' :: (c ++ (t ++ (d ++ ',' :: rest))))))

/-- The text is one JSON text that says `tree`. -/
def IsText (tree : Tree) (t : List Char) : Prop :=
  ∃ a v b, IsSpace a ∧ Derives (.value tree) v ∧ IsSpace b ∧ t = a ++ (v ++ b)

/-! ## What a text denotes -/

/-- Booleans, exact numbers, strings, arrays, and objects as maps. -/
inductive Denotation where
  | null
  | boolean (value : Bool)
  | number (value : ℚ)
  | string (value : List Char)
  | array (items : List Denotation)
  | object (members : List Char → Option Denotation)

mutual

def denote : Tree → Denotation
  | .null => .null
  | .boolean value => .boolean value
  | .number text => .number (Decimal.textValue text)
  | .string value => .string value
  | .array items => .array (denoteItems items)
  | .object members => .object (denoteMembers members)

def denoteItems : List Tree → List Denotation
  | [] => []
  | item :: items => denote item :: denoteItems items

def denoteMembers : List (List Char × Tree) → List Char → Option Denotation
  | [], _ => none
  | (key, tree) :: members, k => if k = key then some (denote tree) else denoteMembers members k

end

theorem denoteItems_eq (items : List Tree) : denoteItems items = items.map denote := by
  induction items with
  | nil => rfl
  | cons item items ih => rw [denoteItems, ih, List.map_cons]

/-- Where no key stands twice, an object maps a key to the value of its member. -/
theorem denoteMembers_eq_some_iff {members : List (List Char × Tree)}
    (hkeys : (members.map Prod.fst).Nodup) {key : List Char} {d : Denotation} :
    denoteMembers members key = some d ↔ ∃ tree, (key, tree) ∈ members ∧ denote tree = d := by
  induction members with
  | nil =>
    rw [denoteMembers]
    constructor
    · intro h
      cases h
    · rintro ⟨_, hmem, _⟩
      cases hmem
  | cons member members ih =>
    obtain ⟨key', tree'⟩ := member
    rw [List.map_cons, List.nodup_cons] at hkeys
    rw [denoteMembers]
    by_cases heq : key = key'
    · subst heq
      rw [if_pos rfl]
      constructor
      · intro h
        exact ⟨tree', List.mem_cons_self, Option.some.inj h⟩
      · rintro ⟨tree, hmem, rfl⟩
        rcases List.mem_cons.1 hmem with hhead | htail
        · rw [(Prod.mk.inj hhead).2]
        · exact absurd (List.mem_map.2 ⟨_, htail, rfl⟩) hkeys.1
    · rw [if_neg heq, ih hkeys.2]
      refine exists_congr fun tree => and_congr_left fun _ => ?_
      rw [List.mem_cons]
      refine ⟨.inr, fun hmem => hmem.resolve_left fun hhead => heq (Prod.mk.inj hhead).1⟩

/-! ## Texts without white space -/

theorem isSpace_nil : IsSpace [] := by
  intro c hc
  cases hc

theorem derives_items {items : List Tree} {texts : List (List Char)} (hne : items ≠ [])
    (h : List.Forall₂ (fun tree t => Derives (.value tree) t) items texts) :
    Derives (.items items) ([','].intercalate texts) := by
  induction h with
  | nil => exact absurd rfl hne
  | @cons tree t items texts hitem hitems ih =>
    cases hitems with
    | nil => simpa using Derives.lastItem isSpace_nil hitem isSpace_nil
    | cons hnext hrest =>
      rw [List.intercalate_cons_cons]
      simpa using Derives.item isSpace_nil hitem isSpace_nil (ih (List.cons_ne_nil _ _))

/-- The text of a member without white space. -/
def IsMember (member : List Char × Tree) (t : List Char) : Prop :=
  ∃ k v, IsString k member.1 ∧ Derives (.value member.2) v ∧ t = k ++ ':' :: v

theorem derives_members {members : List (List Char × Tree)} {texts : List (List Char)}
    (hne : members ≠ []) (h : List.Forall₂ IsMember members texts) :
    Derives (.members members) ([','].intercalate texts) := by
  induction h with
  | nil => exact absurd rfl hne
  | @cons member t members texts hmember hmembers ih =>
    obtain ⟨key, tree⟩ := member
    obtain ⟨k, v, hkey, hvalue, rfl⟩ := hmember
    cases hmembers with
    | nil =>
      simpa using
        Derives.lastMember isSpace_nil hkey isSpace_nil isSpace_nil hvalue isSpace_nil
    | cons hnext hrest =>
      rw [List.intercalate_cons_cons]
      simpa using Derives.member isSpace_nil hkey isSpace_nil isSpace_nil hvalue isSpace_nil
        (ih (List.cons_ne_nil _ _))

/-! ## Restrictions -/

/-- The tree at depth `depth` has no null, no object with two members of one key, nothing deeper
than `limit`, and only numbers that `fits` admits. -/
inductive Admitted (limit : Nat) (fits : List Char → Prop) : Nat → Tree → Prop
  | boolean {depth : Nat} {value : Bool} (hdepth : depth ≤ limit) :
      Admitted limit fits depth (.boolean value)
  | number {depth : Nat} {text : List Char} (hdepth : depth ≤ limit) (hfits : fits text) :
      Admitted limit fits depth (.number text)
  | string {depth : Nat} {value : List Char} (hdepth : depth ≤ limit) :
      Admitted limit fits depth (.string value)
  | array {depth : Nat} {items : List Tree} (hdepth : depth ≤ limit)
      (hitems : ∀ item ∈ items, Admitted limit fits (depth + 1) item) :
      Admitted limit fits depth (.array items)
  | object {depth : Nat} {members : List (List Char × Tree)} (hdepth : depth ≤ limit)
      (hkeys : (members.map Prod.fst).Nodup)
      (hmembers : ∀ member ∈ members, Admitted limit fits (depth + 1) member.2) :
      Admitted limit fits depth (.object members)

theorem Admitted.mono {limit : Nat} {fits fits' : List Char → Prop} (h : ∀ t, fits t → fits' t)
    {depth : Nat} {tree : Tree} (hadmitted : Admitted limit fits depth tree) :
    Admitted limit fits' depth tree := by
  induction hadmitted with
  | boolean hdepth => exact .boolean hdepth
  | number hdepth hfits => exact .number hdepth (h _ hfits)
  | string hdepth => exact .string hdepth
  | array hdepth _ ih => exact .array hdepth ih
  | object hdepth hkeys _ ih => exact .object hdepth hkeys ih

theorem Admitted.and {limit : Nat} {fits fits' : List Char → Prop} {depth : Nat} {tree : Tree}
    (h : Admitted limit fits depth tree) (h' : Admitted limit fits' depth tree) :
    Admitted limit (fun t => fits t ∧ fits' t) depth tree := by
  induction h with
  | boolean hdepth => exact .boolean hdepth
  | number hdepth hfits =>
    cases h' with
    | number _ hfits' => exact .number hdepth ⟨hfits, hfits'⟩
  | string hdepth => exact .string hdepth
  | array hdepth _ ih =>
    cases h' with
    | array _ hitems' => exact .array hdepth fun item hitem => ih item hitem (hitems' item hitem)
  | object hdepth hkeys _ ih =>
    cases h' with
    | object _ _ hmembers' =>
      exact .object hdepth hkeys fun member hmember => ih member hmember (hmembers' member hmember)

/-- The numbers of a derived phrase are numerals. -/
def NumeralsIn (limit : Nat) (fits : List Char → Prop) : Phrase → Prop
  | .value tree => ∀ depth, Admitted limit fits depth tree →
      Admitted limit Decimal.IsNumeral depth tree
  | .items items => ∀ depth, (∀ item ∈ items, Admitted limit fits depth item) →
      ∀ item ∈ items, Admitted limit Decimal.IsNumeral depth item
  | .members members => ∀ depth, (∀ member ∈ members, Admitted limit fits depth member.2) →
      ∀ member ∈ members, Admitted limit Decimal.IsNumeral depth member.2

theorem numeralsIn_of_derives {limit : Nat} {fits : List Char → Prop} {phrase : Phrase}
    {t : List Char} (h : Derives phrase t) : NumeralsIn limit fits phrase := by
  induction h with
  | null =>
    intro depth hadmitted
    cases hadmitted
  | true =>
    intro depth hadmitted
    cases hadmitted with
    | boolean hdepth => exact .boolean hdepth
  | false =>
    intro depth hadmitted
    cases hadmitted with
    | boolean hdepth => exact .boolean hdepth
  | number h =>
    intro depth hadmitted
    cases hadmitted with
    | number hdepth _ => exact .number hdepth h
  | string _ =>
    intro depth hadmitted
    cases hadmitted with
    | string hdepth => exact .string hdepth
  | emptyArray _ =>
    intro depth hadmitted
    cases hadmitted with
    | array hdepth _ => exact .array hdepth fun item hitem => by cases hitem
  | array _ ih =>
    intro depth hadmitted
    cases hadmitted with
    | array hdepth hitems => exact .array hdepth (ih (depth + 1) hitems)
  | emptyObject _ =>
    intro depth hadmitted
    cases hadmitted with
    | object hdepth _ _ => exact .object hdepth .nil fun member hmember => by cases hmember
  | object _ ih =>
    intro depth hadmitted
    cases hadmitted with
    | object hdepth hkeys hmembers => exact .object hdepth hkeys (ih (depth + 1) hmembers)
  | lastItem _ _ _ ih =>
    intro depth hitems item hitem
    cases List.mem_singleton.1 hitem
    exact ih depth (hitems _ List.mem_cons_self)
  | item _ _ _ _ ih ihrest =>
    intro depth hitems item hitem
    rcases List.mem_cons.1 hitem with rfl | hitem
    · exact ih depth (hitems _ List.mem_cons_self)
    · exact ihrest depth (fun x hx => hitems x (List.mem_cons_of_mem _ hx)) item hitem
  | lastMember _ _ _ _ _ _ ih =>
    intro depth hmembers member hmember
    cases List.mem_singleton.1 hmember
    exact ih depth (hmembers _ List.mem_cons_self)
  | member _ _ _ _ _ _ _ ih ihrest =>
    intro depth hmembers member hmember
    rcases List.mem_cons.1 hmember with rfl | hmember
    · exact ih depth (hmembers _ List.mem_cons_self)
    · exact ihrest depth (fun x hx => hmembers x (List.mem_cons_of_mem _ hx)) member hmember

theorem Admitted.numerals {limit : Nat} {fits : List Char → Prop} {tree : Tree} {t : List Char}
    (h : Admitted limit fits 0 tree) (htext : IsText tree t) :
    Admitted limit Decimal.IsNumeral 0 tree := by
  obtain ⟨_, _, _, _, hderives, _⟩ := htext
  have hnumerals : NumeralsIn limit fits (.value tree) := numeralsIn_of_derives hderives
  exact hnumerals 0 h

end Json
