import RadishMemory.Framework.Bytes
import Mathlib.Data.List.Forall2

/-!
# Codes that are read back in one way

A writer puts the parts of a value one after the other into a string.  `Tells P enc view` says
that, of values that `P` allows, the string determines the `view` of the value and where it ends,
whatever follows.  Strings with their length, counted lists and optional values tell what they
were written from, and what is written in parts tells the views of all the parts.
-/

universe u v w

variable {α : Type u} {β : Type v} {γ : Type w} {δ : Type*}

/-- What `enc` writes for a value, followed by anything, determines the view of the value. -/
def Tells (P : α → Prop) (enc : α → List UInt8) (view : α → γ) : Prop :=
  ∀ a b r s, P a → P b → enc a ++ r = enc b ++ s → view a = view b ∧ r = s

/-- A string after its length in eight bytes. -/
def framed (bytes : List UInt8) : List UInt8 :=
  bigEndian 8 bytes.length ++ bytes

/-- A list after the number of its entries in eight bytes. -/
def countedList (enc : α → List UInt8) (l : List α) : List UInt8 :=
  bigEndian 8 l.length ++ l.flatMap enc

/-- An optional value after a number that says whether there is one. -/
def optionalCode (enc : α → List UInt8) : Option α → List UInt8
  | none => bigEndian 8 0
  | some a => bigEndian 8 1 ++ enc a

namespace Tells

variable {P : α → Prop} {enc enc' : α → List UInt8} {view : α → γ} {view' : α → δ}

theorem view_eq (h : Tells P enc view) {a b : α} (ha : P a) (hb : P b) (heq : enc a = enc b) :
    view a = view b :=
  (h a b [] [] ha hb (by rw [heq])).1

/-- What determines a view determines whatever the view determines. -/
theorem weaken (h : Tells P enc view) (hview : ∀ a b, view a = view b → view' a = view' b) :
    Tells P enc view' := by
  intro a b r s ha hb heq
  obtain ⟨hsame, hrest⟩ := h a b r s ha hb heq
  exact ⟨hview a b hsame, hrest⟩

theorem restrict {Q : α → Prop} (h : Tells P enc view) (hQ : ∀ a, Q a → P a) :
    Tells Q enc view :=
  fun a b r s ha hb => h a b r s (hQ a ha) (hQ b hb)

/-- The code of a part of a value. -/
theorem comp {Q : β → Prop} (h : Tells P enc view) (f : β → α) (hf : ∀ b, Q b → P (f b)) :
    Tells Q (fun b => enc (f b)) fun b => view (f b) :=
  fun a b r s ha hb => h (f a) (f b) r s (hf a ha) (hf b hb)

theorem append (h : Tells P enc view) (h' : Tells P enc' view') :
    Tells P (fun a => enc a ++ enc' a) fun a => (view a, view' a) := by
  intro a b r s ha hb heq
  rw [List.append_assoc, List.append_assoc] at heq
  obtain ⟨hview, hlater⟩ := h a b _ _ ha hb heq
  obtain ⟨hview', hrest⟩ := h' a b r s ha hb hlater
  exact ⟨Prod.ext hview hview', hrest⟩

/-- The same string in front of every code. -/
theorem const_append (h : Tells P enc view) (bytes : List UInt8) :
    Tells P (fun a => bytes ++ enc a) view := by
  intro a b r s ha hb heq
  rw [List.append_assoc, List.append_assoc] at heq
  exact h a b r s ha hb (List.append_cancel_left heq)

end Tells

theorem tells_number {P : α → Prop} {n : α → Nat} (hfit : ∀ a, P a → n a < 2 ^ 64) :
    Tells P (fun a => bigEndian 8 (n a)) n := by
  intro a b r s ha hb heq
  obtain ⟨hnumber, hrest⟩ := List.append_inj heq (by simp)
  exact ⟨bigEndian_inj (hfit a ha) (hfit b hb) hnumber, hrest⟩

theorem tells_framed : Tells (fun bytes : List UInt8 => bytes.length < 2 ^ 64) framed id := by
  intro a b r s ha hb heq
  rw [framed, framed, List.append_assoc, List.append_assoc] at heq
  obtain ⟨hsize, hbody⟩ := List.append_inj heq (by simp)
  exact List.append_inj hbody (bigEndian_inj ha hb hsize)

/-- Lists of one length, each entry after the other. -/
theorem tells_flatMap {P : α → Prop} {enc : α → List UInt8} {view : α → γ}
    (h : Tells P enc view) {l l' : List α} {r s : List UInt8} (hl : ∀ a ∈ l, P a)
    (hl' : ∀ a ∈ l', P a) (hlength : l.length = l'.length)
    (heq : l.flatMap enc ++ r = l'.flatMap enc ++ s) : l.map view = l'.map view ∧ r = s := by
  induction l generalizing l' with
  | nil =>
    obtain rfl : l' = [] := List.length_eq_zero_iff.1 hlength.symm
    exact ⟨rfl, heq⟩
  | cons a l ih =>
    cases l' with
    | nil => simp at hlength
    | cons b l' =>
      rw [List.flatMap_cons, List.flatMap_cons, List.append_assoc, List.append_assoc] at heq
      obtain ⟨hview, hlater⟩ := h a b _ _ (hl a (by simp)) (hl' b (by simp)) heq
      obtain ⟨hviews, hrest⟩ := ih (fun c hc => hl c (List.mem_cons_of_mem _ hc))
        (fun c hc => hl' c (List.mem_cons_of_mem _ hc)) (by simpa using hlength) hlater
      rw [List.map_cons, List.map_cons, hview, hviews]
      exact ⟨rfl, hrest⟩

theorem Tells.counted {P : α → Prop} {enc : α → List UInt8} {view : α → γ}
    (h : Tells P enc view) :
    Tells (fun l : List α => l.length < 2 ^ 64 ∧ ∀ a ∈ l, P a) (countedList enc)
      fun l => l.map view := by
  intro l l' r s hl hl' heq
  rw [countedList, countedList, List.append_assoc, List.append_assoc] at heq
  obtain ⟨hsize, hbody⟩ := List.append_inj heq (by simp)
  exact tells_flatMap h hl.2 hl'.2 (bigEndian_inj hl.1 hl'.1 hsize) hbody

theorem Tells.optional {P : α → Prop} {enc : α → List UInt8} {view : α → γ}
    (h : Tells P enc view) :
    Tells (fun o : Option α => ∀ a ∈ o, P a) (optionalCode enc) fun o => o.map view := by
  intro o o' r s ho ho' heq
  have hdiffer : bigEndian 8 0 ≠ bigEndian 8 1 := by decide
  cases o with
  | none =>
    cases o' with
    | none => exact ⟨rfl, List.append_cancel_left heq⟩
    | some b =>
      rw [optionalCode, optionalCode, List.append_assoc] at heq
      exact absurd (List.append_inj heq (by simp)).1 hdiffer
  | some a =>
    cases o' with
    | none =>
      rw [optionalCode, optionalCode, List.append_assoc] at heq
      exact absurd (List.append_inj heq (by simp)).1.symm hdiffer
    | some b =>
      rw [optionalCode, optionalCode, List.append_assoc, List.append_assoc] at heq
      obtain ⟨hview, hrest⟩ := h a b r s (ho a rfl) (ho' b rfl) (List.append_cancel_left heq)
      exact ⟨congrArg some hview, hrest⟩

/-- A list whose entries have codes that are not empty is determined by their codes in turn. -/
theorem Tells.flatMap_inj {P : α → Prop} {enc : α → List UInt8} (h : Tells P enc id)
    (hne : ∀ a, enc a ≠ []) {l l' : List α} (hl : ∀ a ∈ l, P a) (hl' : ∀ a ∈ l', P a)
    (heq : l.flatMap enc = l'.flatMap enc) : l = l' := by
  induction l generalizing l' with
  | nil =>
    cases l' with
    | nil => rfl
    | cons b l' => simp [hne] at heq
  | cons a l ih =>
    cases l' with
    | nil => simp [hne] at heq
    | cons b l' =>
      obtain ⟨hsame, hrest⟩ := h a b _ _ (hl a (by simp)) (hl' b (by simp)) heq
      rw [show a = b from hsame, ih (fun c hc => hl c (List.mem_cons_of_mem _ hc))
        (fun c hc => hl' c (List.mem_cons_of_mem _ hc)) hrest]
