import RadishMemory.Framework.Checked
import Mathlib.Data.List.Chain
import Mathlib.Data.List.Nodup

/-!
# Ordering a linked chain

A set of linked entries, each naming its predecessor, is put in chain order: exactly one entry
has no predecessor, no two entries share one, and following the links from the root consumes
every entry.

`Linked` is the property itself, of entries that are already listed in the order in which they
were appended: the first has no predecessor and each later one names the one before it.
-/

universe u v

variable {α : Type u} {κ : Type v} [DecidableEq κ]

/-- Follow the links from `current`, removing each entry that is reached; the result is the
ordered chain and what is left over.  Every step removes an entry, so the number of entries
bounds the walk. -/
def walkLinks (idOf : α → κ) (previousOf : α → Option κ) :
    Nat → List α → α → List α × List α
  | 0, rest, current => ([current], rest)
  | bound + 1, rest, current =>
    match rest.find? fun entry => previousOf entry == some (idOf current) with
    | none => ([current], rest)
    | some next =>
      let (ordered, left) := walkLinks idOf previousOf bound
        (rest.filter fun entry => previousOf entry != some (idOf current)) next
      (current :: ordered, left)

/-- The entries in chain order, if they form one chain. -/
def orderLinks (idOf : α → κ) (previousOf : α → Option κ) (entries : List α) :
    Option (List α) :=
  match entries with
  | [] => some []
  | _ =>
    let linked := entries.filter fun entry => (previousOf entry).isSome
    match entries.filter fun entry => (previousOf entry).isNone with
    | [root] =>
      if (linked.map previousOf).Nodup then
        match walkLinks idOf previousOf linked.length linked root with
        | (ordered, []) => some ordered
        | _ => none
      else none
    | _ => none

theorem orderLinks_singleton {idOf : α → κ} {previousOf : α → Option κ} {root : α}
    (hroot : previousOf root = none) : orderLinks idOf previousOf [root] = some [root] := by
  simp [orderLinks, hroot, walkLinks]

theorem orderLinks_pair {idOf : α → κ} {previousOf : α → Option κ} {root next : α}
    (hroot : previousOf root = none) (hnext : previousOf next = some (idOf root)) :
    orderLinks idOf previousOf [root, next] = some [root, next] := by
  simp [orderLinks, hroot, hnext, walkLinks]

/-- An entry with a unique predecessor splits off the rest of the entries. -/
theorem perm_cons_filter_previous {previousOf : α → Option κ} {rest : List α} {next : α}
    (hnodup : (rest.map previousOf).Nodup) (hnext : next ∈ rest) :
    (next :: rest.filter fun entry => previousOf entry != previousOf next).Perm rest := by
  have hsame : (rest.filter fun entry => previousOf entry == previousOf next).Perm [next] := by
    refine (List.perm_ext_iff_of_nodup ((List.Nodup.of_map previousOf hnodup).filter _) (List.nodup_singleton _)).2
      fun entry => ?_
    simp only [List.mem_filter, beq_iff_eq, List.mem_singleton]
    constructor
    · rintro ⟨hmem, heq⟩
      exact List.inj_on_of_nodup_map hnodup hmem hnext heq
    · rintro rfl
      exact ⟨hnext, rfl⟩
  calc (next :: rest.filter fun entry => previousOf entry != previousOf next).Perm
        ((rest.filter fun entry => previousOf entry == previousOf next) ++
          rest.filter fun entry => previousOf entry != previousOf next) :=
        (hsame.symm.append_right _)
    List.Perm _ rest := List.filter_append_perm _ rest

/-- The walk loses no entry: what is ordered and what is left over are the entries given. -/
theorem walkLinks_perm {idOf : α → κ} {previousOf : α → Option κ} {bound : Nat}
    {rest : List α} {current : α} (hnodup : (rest.map previousOf).Nodup) :
    ((walkLinks idOf previousOf bound rest current).1 ++
      (walkLinks idOf previousOf bound rest current).2).Perm (current :: rest) := by
  induction bound generalizing rest current with
  | zero => exact List.Perm.refl _
  | succ bound ih =>
    rw [walkLinks]
    split
    · exact List.Perm.refl _
    · rename_i next hfind
      have hprev : previousOf next = some (idOf current) := by
        simpa using List.find?_some hfind
      have hsub : ((rest.filter fun entry =>
          previousOf entry != some (idOf current)).map previousOf).Nodup :=
        hnodup.sublist (List.filter_sublist.map previousOf)
      have hsplit := perm_cons_filter_previous hnodup (List.mem_of_find?_eq_some hfind)
      rw [hprev] at hsplit
      exact ((ih hsub).trans hsplit).cons current

/-- Chain order is a permutation of the entries. -/
theorem orderLinks_perm {idOf : α → κ} {previousOf : α → Option κ} {entries ordered : List α}
    (h : orderLinks idOf previousOf entries = some ordered) : ordered.Perm entries := by
  unfold orderLinks at h
  split at h
  · cases h
    exact List.Perm.refl _
  · rename_i hne
    dsimp only at h
    split at h
    · rename_i root hroot
      split at h
      · rename_i hnodup
        split at h
        · rename_i ordered' hwalk
          cases h
          have hperm : (ordered ++ []).Perm
              (root :: entries.filter fun entry => (previousOf entry).isSome) := by
            have hall := @walkLinks_perm _ _ _ idOf previousOf
              (entries.filter fun entry => (previousOf entry).isSome).length _ root hnodup
            rwa [hwalk] at hall
          rw [List.append_nil] at hperm
          have hparts := List.filter_append_perm (fun entry => (previousOf entry).isNone) entries
          rw [hroot] at hparts
          refine hperm.trans (List.Perm.trans ?_ hparts)
          simp
        · cases h
      · cases h
    · cases h

/-! ## Linked lists -/

/-- The first entry has no predecessor, each later one names the one before it, and only an
entry that `continues` is followed. -/
structure Linked (idOf : α → κ) (previousOf : α → Option κ) (continues : α → Prop)
    (entries : List α) : Prop where
  root : ∀ first ∈ entries.head?, previousOf first = none
  links : entries.IsChain fun a b => previousOf b = some (idOf a) ∧ continues a

namespace Linked

variable {idOf : α → κ} {previousOf : α → Option κ} {continues : α → Prop} {entries : List α}

omit [DecidableEq κ] in
theorem nil : Linked idOf previousOf continues [] :=
  ⟨by simp, .nil⟩

omit [DecidableEq κ] in
/-- A chain is extended at its end, and only when its last entry may be followed. -/
theorem concat {entry : α} (h : Linked idOf previousOf continues entries)
    (hprevious : previousOf entry = entries.getLast?.map idOf)
    (hcontinues : ∀ last ∈ entries.getLast?, continues last) :
    Linked idOf previousOf continues (entries ++ [entry]) := by
  constructor
  · cases entries with
    | nil => simpa using hprevious
    | cons first rest => simpa using h.root
  · refine List.isChain_append.2 ⟨h.links, .singleton _, fun last hlast next hnext => ?_⟩
    cases Option.mem_some_iff.1 hnext
    rw [Option.mem_def.1 hlast] at hprevious
    exact ⟨hprevious, hcontinues last hlast⟩

omit [DecidableEq κ] in
/-- The entry that nothing follows is the last one. -/
theorem getLast?_of_no_next {entry : α} (h : Linked idOf previousOf continues entries)
    (hmem : entry ∈ entries) (hnext : ∀ next ∈ entries, previousOf next ≠ some (idOf entry)) :
    entries.getLast? = some entry := by
  obtain ⟨before, after, rfl⟩ := List.append_of_mem hmem
  cases after with
  | nil => simp
  | cons next rest =>
    have hlink := (List.isChain_append.1 h.links).2.1
    exact absurd (List.isChain_cons_cons.1 hlink).1.1 (hnext next (by simp))

omit [DecidableEq κ] in
/-- The predecessor an entry names is in the list. -/
theorem previous_mem {entry : α} {id : κ} (h : Linked idOf previousOf continues entries)
    (hmem : entry ∈ entries) (hprevious : previousOf entry = some id) :
    ∃ previous ∈ entries, idOf previous = id := by
  obtain ⟨before, after, rfl⟩ := List.append_of_mem hmem
  rcases List.eq_nil_or_concat before with rfl | ⟨front, previous, rfl⟩
  · rw [List.nil_append] at h
    rw [h.root entry rfl] at hprevious
    cases hprevious
  · have hlink := (List.isChain_append.1 h.links).2.2 previous (by simp) entry rfl
    rw [hlink.1, Option.some.injEq] at hprevious
    exact ⟨previous, by simp, hprevious⟩

omit [DecidableEq κ] in
/-- Every entry but the last continues. -/
theorem continues_of_ne_last {entry last : α} (h : Linked idOf previousOf continues entries)
    (hlast : entries.getLast? = some last) (hmem : entry ∈ entries) :
    entry = last ∨ continues entry := by
  obtain ⟨before, after, rfl⟩ := List.append_of_mem hmem
  cases after with
  | nil => exact .inl (by simpa using hlast)
  | cons next rest =>
    have hlink := (List.isChain_append.1 h.links).2.1
    exact .inr (List.isChain_cons_cons.1 hlink).1.2

omit [DecidableEq κ] in
/-- Nothing comes after an entry that does not continue. -/
theorem eq_nil_of_not_continues {entry : α} {front back : List α}
    (h : Linked idOf previousOf continues (front ++ back)) (hmem : entry ∈ front)
    (hends : ¬ continues entry) : back = [] := by
  obtain ⟨before, after, rfl⟩ := List.append_of_mem hmem
  rw [List.append_assoc, List.cons_append] at h
  cases hrest : after ++ back with
  | nil => exact (List.append_eq_nil_iff.1 hrest).2
  | cons next rest =>
    have hlink := (List.isChain_append.1 h.links).2.1
    rw [hrest] at hlink
    exact absurd (List.isChain_cons_cons.1 hlink).1.2 hends

omit [DecidableEq κ] in
/-- A list whose entries map to a chain is a chain. -/
theorem of_map {β : Type*} {f : β → α} {entries : List β}
    (h : Linked idOf previousOf continues (entries.map f)) :
    Linked (fun b => idOf (f b)) (fun b => previousOf (f b)) (fun b => continues (f b)) entries := by
  constructor
  · intro first hfirst
    refine h.root (f first) ?_
    rw [List.head?_map]
    exact Option.mem_map_of_mem f hfirst
  · exact (List.isChain_map f).1 h.links

end Linked
