import RadishMemory.Framework.Chain
import RadishMemory.Framework.Loop
import Mathlib.Data.List.Perm.Subperm
import Mathlib.Data.Option.Basic

/-!
# Two loops over linked entries

A set of linked entries is followed in two ways.  `linkPass` scans all entries for those that
name the current one and keeps the keys it has visited; `takePass` takes the follower of the
current entry out of those that remain.  On any links at all, branched, missing or circular, both
loops end, and both accept exactly the entries that can be put in one chain.
-/

universe u v

variable {α : Type u} {κ : Type v}

/-! ## Entries in one chain -/

/-- The entries are in chain order, no key occurs twice, and every step of the chain is one that
`admits` allows. -/
structure ChainOrder (idOf : α → κ) (previousOf : α → Option κ) (admits : α → α → Prop)
    (ordered : List α) : Prop where
  linked : Linked idOf previousOf (fun _ => True) ordered
  admitted : ordered.IsChain admits
  nodup : (ordered.map idOf).Nodup

/-- The predecessors that the entries after the first name are the entries before the last. -/
theorem map_previous_tail {idOf : α → κ} {previousOf : α → Option κ} {l : List α}
    (h : l.IsChain fun a b => previousOf b = some (idOf a)) :
    l.tail.map previousOf = l.dropLast.map fun entry => some (idOf entry) := by
  induction h with
  | nil => rfl
  | singleton => rfl
  | cons_cons hlink _ ih => simpa [hlink] using ih

theorem exists_predecessor {idOf : α → κ} {previousOf : α → Option κ} {l : List α} {entry : α}
    (h : l.IsChain fun a b => previousOf b = some (idOf a)) (hmem : entry ∈ l.tail) :
    ∃ before ∈ l.dropLast, previousOf entry = some (idOf before) := by
  have hprevious : previousOf entry ∈ l.dropLast.map fun before => some (idOf before) := by
    rw [← map_previous_tail h]
    exact List.mem_map_of_mem hmem
  obtain ⟨before, hbefore, heq⟩ := List.mem_map.1 hprevious
  exact ⟨before, hbefore, heq.symm⟩

namespace ChainOrder

variable {idOf : α → κ} {previousOf : α → Option κ} {admits : α → α → Prop}
  {entries ordered : List α}

theorem links (h : ChainOrder idOf previousOf admits ordered) :
    ordered.IsChain fun a b => previousOf b = some (idOf a) :=
  h.linked.links.imp fun _ _ hlink => hlink.1

/-- The first entry of a chain is the only one without a predecessor. -/
theorem eq_head {root : α} {rest : List α}
    (h : ChainOrder idOf previousOf admits (root :: rest)) (entry : α)
    (hmem : entry ∈ root :: rest) :
    previousOf entry = none ↔ entry = root := by
  constructor
  · intro hnone
    rcases List.mem_cons.1 hmem with rfl | hrest
    · rfl
    · have htail : entry ∈ (root :: rest).tail := hrest
      obtain ⟨_, -, hprevious⟩ := exists_predecessor h.links htail
      simp [hnone] at hprevious
  · rintro rfl
    exact h.linked.root _ (by simp)

/-- Only the next entry of a chain names the current one. -/
theorem eq_next {front rest : List α} {current : α}
    (h : ChainOrder idOf previousOf admits (front ++ current :: rest)) (entry : α)
    (hmem : entry ∈ front ++ current :: rest) :
    previousOf entry = some (idOf current) ↔ rest.head? = some entry := by
  have hlinks := h.links
  constructor
  · intro hprevious
    rw [List.append_cons] at hmem hlinks
    rcases List.mem_append.1 hmem with hfront | hrest
    · -- an entry up to the current one names an earlier one, whose key is another
      exfalso
      have hnot : idOf current ∉ front.map idOf := by
        have hnodup := h.nodup
        rw [List.map_append, List.nodup_append'] at hnodup
        exact fun hkey => hnodup.2.2 hkey (by simp)
      cases front with
      | nil =>
        obtain rfl : entry = current := by simpa using hfront
        simp [h.linked.root entry (by simp)] at hprevious
      | cons first front =>
        have hne : entry ≠ first := by
          rintro rfl
          simp [h.linked.root entry (by simp)] at hprevious
        have htail : entry ∈ (first :: front ++ [current]).tail := by simpa [hne] using hfront
        obtain ⟨before, hbefore, hkey⟩ :=
          exists_predecessor (List.isChain_append.1 hlinks).1 htail
        rw [List.dropLast_concat] at hbefore
        refine hnot (List.mem_map.2 ⟨before, hbefore, ?_⟩)
        rw [hkey] at hprevious
        simpa using hprevious
    · cases rest with
      | nil => simp at hrest
      | cons next rest =>
        rcases List.mem_cons.1 hrest with rfl | hlater
        · rfl
        · exfalso
          obtain ⟨before, hbefore, hkey⟩ :=
            exists_predecessor (List.isChain_append.1 hlinks).2.1 hlater
          have hnodup := h.nodup
          rw [List.map_append, List.nodup_append'] at hnodup
          have hcurrent := (List.nodup_cons.1 hnodup.2.1).1
          refine hcurrent (List.mem_map.2 ⟨before, List.dropLast_subset _ hbefore, ?_⟩)
          rw [hkey] at hprevious
          simpa using hprevious
  · intro hnext
    cases rest with
    | nil => simp at hnext
    | cons next rest =>
      obtain rfl : next = entry := by simpa using hnext
      exact (List.isChain_cons_cons.1 (List.isChain_append.1 hlinks).2.1).1

/-- Among the same entries in any order, the followers of the current one are the next one. -/
theorem followers_eq [DecidableEq κ] {front rest : List α} {current : α}
    (h : ChainOrder idOf previousOf admits (front ++ current :: rest))
    (hperm : (front ++ current :: rest).Perm entries) :
    entries.filter (fun entry => previousOf entry == some (idOf current)) =
      rest.head?.toList := by
  have hfollowers : ((front ++ current :: rest).filter
      fun entry => previousOf entry == some (idOf current)).Perm rest.head?.toList := by
    refine (List.perm_ext_iff_of_nodup ((h.nodup.of_map idOf).filter _) (by cases rest <;> simp)).2
      fun entry => ?_
    simp only [List.mem_filter, Option.mem_toList, beq_iff_eq]
    constructor
    · rintro ⟨hmem, hprevious⟩
      exact (h.eq_next entry hmem).1 hprevious
    · intro hnext
      have hmem : entry ∈ front ++ current :: rest := by
        have : entry ∈ rest := List.mem_of_mem_head? hnext
        simp [this]
      exact ⟨hmem, (h.eq_next entry hmem).2 hnext⟩
  have hsame := (hperm.filter _).symm.trans hfollowers
  cases rest with
  | nil => exact List.perm_nil.1 hsame
  | cons next rest => exact List.perm_singleton.1 hsame

/-- Among the same entries in any order, the only root is the first entry of the chain. -/
theorem roots_eq [DecidableEq κ] {root : α} {rest : List α}
    (h : ChainOrder idOf previousOf admits (root :: rest)) (hperm : (root :: rest).Perm entries) :
    entries.filter (fun entry => previousOf entry == none) = [root] := by
  have hroots : ((root :: rest).filter fun entry => previousOf entry == none).Perm [root] := by
    refine (List.perm_ext_iff_of_nodup ((h.nodup.of_map idOf).filter _)
      (List.nodup_singleton _)).2 fun entry => ?_
    rw [List.mem_filter, List.mem_singleton, beq_iff_eq]
    constructor
    · rintro ⟨hmem, hnone⟩
      exact (h.eq_head entry hmem).1 hnone
    · rintro rfl
      exact ⟨by simp, (h.eq_head entry (by simp)).2 rfl⟩
  exact List.perm_singleton.1 ((hperm.filter _).symm.trans hroots)

end ChainOrder

section Scan

variable [DecidableEq κ] (idOf : α → κ) (previousOf : α → Option κ) (admits : α → α → Prop)
  [DecidableRel admits]

/-- One pass of the loop that scans: refused at an entry already visited, at one with two
followers, or at a step that is not admitted; left at an entry that nothing follows. -/
def linkPass (entries : List α) : α × List κ → (α × List κ) ⊕ Option (α × List κ)
  | (current, visited) =>
    if idOf current ∈ visited then .inr none
    else
      match entries.filter fun entry => previousOf entry == some (idOf current) with
      | [] => .inr (some (current, idOf current :: visited))
      | [next] =>
        if admits current next then .inl (next, idOf current :: visited) else .inr none
      | _ => .inr none

/-- The last entry, if the entries form one chain: the only root is followed to its end, and
every entry is visited on the way. -/
def chainEnd (entries : List α) : Option α :=
  match entries.filter fun entry => previousOf entry == none with
  | [root] =>
    match Loop.run (linkPass idOf previousOf admits entries) (entries.length + 1) (root, []) with
    | some (some (last, visited)) => if visited.length = entries.length then some last else none
    | _ => none
  | _ => none

end Scan

/-- The scan with at most one pass more, as the checks of one pass and the scan of the rest. -/
theorem run_linkPass_succ {α κ : Type} [DecidableEq κ] {idOf : α → κ} {previousOf : α → Option κ}
    {admits : α → α → Prop} [DecidableRel admits] {entries : List α} {ε : Type*} {e : ε}
    {bound : Nat} {current : α} {visited : List κ} :
    (Loop.run (linkPass idOf previousOf admits entries) (bound + 1) (current, visited)).join.orError
        e = (do
      require (idOf current ∉ visited) e
      match entries.filter fun entry => previousOf entry == some (idOf current) with
      | [] => .ok (current, idOf current :: visited)
      | [next] => do
        require (admits current next) e
        (Loop.run (linkPass idOf previousOf admits entries) bound
          (next, idOf current :: visited)).join.orError e
      | _ => .error e) := by
  rw [Loop.run, linkPass]
  by_cases hnew : idOf current ∈ visited
  · rw [if_pos hnew, require_of_not (not_not_intro hnew)]
    rfl
  rw [if_neg hnew, require_of hnew, Except.ok_bind]
  generalize (entries.filter fun entry => previousOf entry == some (idOf current)) = followers
  cases followers with
  | nil => rfl
  | cons next others =>
    cases others with
    | nil =>
      by_cases hadmits : admits current next
      · simp only [if_pos hadmits, require_of hadmits, Except.ok_bind]
      · simp only [if_neg hadmits, require_of_not hadmits]
        rfl
    | cons _ _ => rfl

section Scan

variable {idOf : α → κ} {previousOf : α → Option κ} {admits : α → α → Prop}
  {entries : List α}

/-! ## What one pass of the scan keeps -/

/-- The entries passed before `current`, oldest first; with it they are the beginning of a
chain through `entries`. -/
structure PathTo (idOf : α → κ) (previousOf : α → Option κ) (admits : α → α → Prop)
    (entries passed : List α) (current : α) (visited : List κ) : Prop where
  visited_eq : visited = (passed.map idOf).reverse
  nodup : (passed.map idOf).Nodup
  subset : passed ++ [current] ⊆ entries
  linked : Linked idOf previousOf (fun _ => True) (passed ++ [current])
  admitted : (passed ++ [current]).IsChain admits

theorem PathTo.of_root {root : α} (hmem : root ∈ entries) (hroot : previousOf root = none) :
    PathTo idOf previousOf admits entries [] root [] :=
  { visited_eq := rfl
    nodup := by simp
    subset := by simpa using hmem
    linked := ⟨by simp [hroot], .singleton _⟩
    admitted := .singleton _ }

/-- A path to an entry that was not visited visits no key twice. -/
theorem PathTo.chainOrder {passed : List α} {current : α} {visited : List κ}
    (h : PathTo idOf previousOf admits entries passed current visited)
    (hnew : idOf current ∉ visited) :
    ChainOrder idOf previousOf admits (passed ++ [current]) := by
  refine ⟨h.linked, h.admitted, ?_⟩
  rw [h.visited_eq, List.mem_reverse] at hnew
  rw [List.map_append, List.nodup_append']
  refine ⟨h.nodup, by simp, ?_⟩
  rw [List.disjoint_right]
  intro key hkey
  obtain rfl : key = idOf current := by simpa using hkey
  exact hnew

theorem PathTo.length_le {passed : List α} {current : α} {visited : List κ}
    (h : PathTo idOf previousOf admits entries passed current visited)
    (hnew : idOf current ∉ visited) : visited.length + 1 ≤ entries.length := by
  have hnodup : (passed ++ [current]).Nodup := (h.chainOrder hnew).nodup.of_map idOf
  have hlength := (List.subperm_of_subset hnodup h.subset).length_le
  have hvisited : visited.length = passed.length := by simp [h.visited_eq]
  simpa [hvisited] using hlength

variable [DecidableEq κ] [DecidableRel admits]

/-- A pass that goes on passes the current entry. -/
theorem PathTo.again {passed : List α} {current next : α} {visited visited' : List κ}
    (h : PathTo idOf previousOf admits entries passed current visited)
    (hpass : linkPass idOf previousOf admits entries (current, visited) =
      .inl (next, visited')) :
    PathTo idOf previousOf admits entries (passed ++ [current]) next visited' ∧
      visited'.length = visited.length + 1 ∧ visited'.length ≤ entries.length := by
  rw [linkPass] at hpass
  by_cases hnew : idOf current ∈ visited
  · simp [hnew] at hpass
  rw [if_neg hnew] at hpass
  split at hpass
  · cases hpass
  · rename_i follower hfollower
    by_cases hadmits : admits current follower
    · rw [if_pos hadmits, Sum.inl.injEq, Prod.mk.injEq] at hpass
      obtain ⟨rfl, rfl⟩ := hpass
      have hmem : follower ∈ entries.filter fun entry =>
          previousOf entry == some (idOf current) := by simp [hfollower]
      obtain ⟨hmem, hprevious⟩ := List.mem_filter.1 hmem
      rw [beq_iff_eq] at hprevious
      refine ⟨?_, rfl, h.length_le hnew⟩
      refine { visited_eq := ?_, nodup := (h.chainOrder hnew).nodup, subset := ?_,
               linked := ?_, admitted := ?_ }
      · simp [h.visited_eq]
      · exact List.append_subset.2 ⟨h.subset, by simpa using hmem⟩
      · exact h.linked.concat (by simpa using hprevious) (by simp)
      · refine List.isChain_append.2 ⟨h.admitted, .singleton _, ?_⟩
        simpa using hadmits
    · simp [hadmits] at hpass
  · cases hpass

/-- On any links, branched, missing or circular, the scan is left within one pass more than there
are entries. -/
theorem exists_run_linkPass (idOf : α → κ) (previousOf : α → Option κ) (admits : α → α → Prop)
    [DecidableRel admits] {root : α} (hmem : root ∈ entries) (hroot : previousOf root = none) :
    ∃ result, Loop.run (linkPass idOf previousOf admits entries) (entries.length + 1) (root, []) =
      some result := by
  refine Loop.exists_run (I := fun (current, visited) => ∃ passed,
      PathTo idOf previousOf admits entries passed current visited)
    (m := fun (_, visited) => entries.length - visited.length)
    ⟨[], PathTo.of_root hmem hroot⟩ ?_ (by simp)
  rintro ⟨current, visited⟩ ⟨next, visited'⟩ ⟨passed, hpath⟩ hpass
  obtain ⟨hpath', hlength, hle⟩ := hpath.again hpass
  refine ⟨⟨_, hpath'⟩, ?_⟩
  dsimp only
  omega

/-- The scan is left at an entry with a path that ends there. -/
theorem Loop.Ends.path {root last : α} {visited : List κ} (hmem : root ∈ entries)
    (hroot : previousOf root = none)
    (h : Loop.Ends (linkPass idOf previousOf admits entries) (root, []) (some (last, visited))) :
    ∃ ordered, ordered ⊆ entries ∧ ChainOrder idOf previousOf admits ordered ∧
      ordered.getLast? = some last ∧ visited.length = ordered.length := by
  have hall := h.invariant (I := fun (current, visited) => ∃ passed,
      PathTo idOf previousOf admits entries passed current visited)
    (Q := fun result => ∀ last visited, result = some (last, visited) →
      ∃ ordered, ordered ⊆ entries ∧ ChainOrder idOf previousOf admits ordered ∧
        ordered.getLast? = some last ∧ visited.length = ordered.length)
    ⟨[], PathTo.of_root hmem hroot⟩ ?_ ?_
  · exact hall last visited rfl
  · rintro ⟨current, seen⟩ ⟨next, seen'⟩ ⟨passed, hpath⟩ hpass
    exact ⟨_, (hpath.again hpass).1⟩
  · rintro ⟨current, seen⟩ r ⟨passed, hpath⟩ hpass last visited rfl
    rw [linkPass] at hpass
    by_cases hnew : idOf current ∈ seen
    · simp [hnew] at hpass
    rw [if_neg hnew] at hpass
    split at hpass
    · obtain ⟨rfl, rfl⟩ : current = last ∧ idOf current :: seen = visited := by simpa using hpass
      refine ⟨passed ++ [current], hpath.subset, hpath.chainOrder hnew, by simp, ?_⟩
      simp [hpath.visited_eq]
    · split at hpass <;> simp at hpass
    · simp at hpass

/-- On entries that form a chain, the scan visits them all and is left at the last. -/
theorem ChainOrder.scan_ends {ordered : List α}
    (h : ChainOrder idOf previousOf admits ordered) (hperm : ordered.Perm entries)
    {rest front : List α} {current : α} (hsplit : ordered = front ++ current :: rest) :
    ∃ last visited, ordered.getLast? = some last ∧ visited.length = ordered.length ∧
      Loop.Ends (linkPass idOf previousOf admits entries)
        (current, (front.map idOf).reverse) (some (last, visited)) := by
  have hcurrent : idOf current ∉ (front.map idOf).reverse := by
    have hnodup := h.nodup
    rw [hsplit, List.map_append, List.nodup_append'] at hnodup
    exact fun hkey => hnodup.2.2 (List.mem_reverse.1 hkey) (by simp)
  have hfollowers := ChainOrder.followers_eq (hsplit ▸ h) (hsplit ▸ hperm)
  induction rest generalizing front current with
  | nil =>
    refine ⟨current, idOf current :: (front.map idOf).reverse, by simp [hsplit],
      by simp [hsplit], .leave ?_⟩
    simp [linkPass, hcurrent, hfollowers]
  | cons next rest ih =>
    have hsplit' : ordered = (front ++ [current]) ++ next :: rest := by simp [hsplit]
    have hnext : idOf next ∉ ((front ++ [current]).map idOf).reverse := by
      have hnodup := h.nodup
      rw [hsplit', List.map_append, List.nodup_append'] at hnodup
      exact fun hkey => hnodup.2.2 (List.mem_reverse.1 hkey) (by simp)
    obtain ⟨last, visited, hlast, hlength, hends⟩ := ih hsplit' hnext
      (ChainOrder.followers_eq (hsplit' ▸ h) (hsplit' ▸ hperm))
    have hadmits : admits current next := by
      have hadmitted := h.admitted
      rw [hsplit] at hadmitted
      exact (List.isChain_cons_cons.1 (List.isChain_append.1 hadmitted).2.1).1
    have hpass : linkPass idOf previousOf admits entries (current, (front.map idOf).reverse) =
        .inl (next, idOf current :: (front.map idOf).reverse) := by
      simp [linkPass, hcurrent, hfollowers, hadmits]
    exact ⟨last, visited, hlast, hlength, .again hpass (by simpa using hends)⟩

/-- The scan finds the last entry exactly when the entries, in some order, are one chain. -/
theorem chainEnd_eq_some_iff {last : α} :
    chainEnd idOf previousOf admits entries = some last ↔
      ∃ ordered, ordered.Perm entries ∧ ChainOrder idOf previousOf admits ordered ∧
        ordered.getLast? = some last := by
  constructor
  · intro h
    unfold chainEnd at h
    split at h
    · rename_i root hroots
      have hroot : root ∈ entries ∧ previousOf root = none := by
        have hsingle : root ∈ entries.filter fun entry => previousOf entry == none := by
          rw [hroots]
          exact List.mem_singleton_self root
        obtain ⟨hmem, hnone⟩ := List.mem_filter.1 hsingle
        exact ⟨hmem, beq_iff_eq.1 hnone⟩
      split at h
      · rename_i end' visited hrun
        split at h
        · rename_i hlength
          obtain rfl : end' = last := by simpa using h
          obtain ⟨ordered, hsubset, horder, hlast, hvisited⟩ :=
            (Loop.ends_of_run hrun).path hroot.1 hroot.2
          have hsub := List.subperm_of_subset (horder.nodup.of_map idOf) hsubset
          exact ⟨ordered, hsub.perm_of_length_le (by omega), horder, hlast⟩
        · cases h
      · cases h
    · cases h
  · rintro ⟨ordered, hperm, horder, hlast⟩
    cases ordered with
    | nil => simp at hlast
    | cons root rest =>
      have hmem : root ∈ entries := hperm.subset (by simp)
      have hroot : previousOf root = none := horder.linked.root root (by simp)
      obtain ⟨last', visited, hlast', hlength, hends⟩ :=
        horder.scan_ends hperm (List.nil_append (root :: rest)).symm
      obtain ⟨result, hrun⟩ := exists_run_linkPass idOf previousOf admits hmem hroot
      obtain rfl := (Loop.ends_of_run hrun).unique hends
      have hcount : visited.length = entries.length := hlength.trans hperm.length_eq
      obtain rfl : last' = last := by simpa [hlast] using hlast'.symm
      simp only [chainEnd, horder.roots_eq hperm, hrun, hcount, if_pos]

/-- The order in which the entries are listed does not matter. -/
theorem chainEnd_perm {entries' : List α} (hperm : entries.Perm entries') :
    chainEnd idOf previousOf admits entries = chainEnd idOf previousOf admits entries' := by
  ext last
  rw [chainEnd_eq_some_iff, chainEnd_eq_some_iff]
  constructor
  · rintro ⟨ordered, hordered, h⟩
    exact ⟨ordered, hordered.trans hperm, h⟩
  · rintro ⟨ordered, hordered, h⟩
    exact ⟨ordered, hordered.trans hperm.symm, h⟩

end Scan

/-! ## Taking the followers out -/

section Take

variable [DecidableEq κ] {idOf : α → κ} {previousOf : α → Option κ} {entries ordered : List α}

/-- One pass of the loop that takes: the current entry is put last in the order, and its follower
is taken out of what remains; left when it has none. -/
def takePass (idOf : α → κ) (previousOf : α → Option κ) :
    List α × α × List α → (List α × α × List α) ⊕ (List α × List α)
  | (ordered, current, rest) =>
    match rest.find? fun entry => previousOf entry == some (idOf current) with
    | none => .inr (ordered ++ [current], rest)
    | some next =>
      .inl (ordered ++ [current], next,
        rest.filter fun entry => previousOf entry != some (idOf current))

/-- On any links the loop that takes is left, with what `walkLinks` computes. -/
theorem takePass_ends {front rest : List α} {current : α} {bound : Nat}
    (hbound : rest.length ≤ bound) :
    Loop.Ends (takePass idOf previousOf) (front, current, rest)
      (front ++ (walkLinks idOf previousOf bound rest current).1,
        (walkLinks idOf previousOf bound rest current).2) := by
  induction bound generalizing front rest current with
  | zero =>
    obtain rfl : rest = [] := by simpa using hbound
    exact .leave (by simp [takePass, walkLinks])
  | succ bound ih =>
    rw [walkLinks]
    cases hfind : rest.find? fun entry => previousOf entry == some (idOf current) with
    | none => exact .leave (by simp [takePass, hfind])
    | some next =>
      have hshorter : (rest.filter fun entry =>
          previousOf entry != some (idOf current)).length < rest.length := by
        refine List.length_filter_lt_length_iff_exists.2 ⟨next, List.mem_of_find?_eq_some hfind, ?_⟩
        simpa using List.find?_some hfind
      have hrest := @ih (front ++ [current])
        (rest.filter fun entry => previousOf entry != some (idOf current)) next (by omega)
      have hpass : takePass idOf previousOf (front, current, rest) = .inl (front ++ [current], next,
          rest.filter fun entry => previousOf entry != some (idOf current)) := by
        simp [takePass, hfind]
      refine .again hpass ?_
      simpa using hrest

/-- What the walk puts in order begins at the current entry and is linked. -/
theorem walkLinks_chain (idOf : α → κ) (previousOf : α → Option κ) (bound : Nat) (rest : List α)
    (current : α) :
    (walkLinks idOf previousOf bound rest current).1.head? = some current ∧
      (walkLinks idOf previousOf bound rest current).1.IsChain
        fun a b => previousOf b = some (idOf a) ∧ True := by
  induction bound generalizing rest current with
  | zero => exact ⟨rfl, .singleton _⟩
  | succ bound ih =>
    rw [walkLinks]
    cases hfind : rest.find? fun entry => previousOf entry == some (idOf current) with
    | none => exact ⟨rfl, .singleton _⟩
    | some next =>
      obtain ⟨hhead, hchain⟩ :=
        ih (rest.filter fun entry => previousOf entry != some (idOf current)) next
      refine ⟨rfl, List.isChain_cons.2 ⟨fun entry hentry => ?_, hchain⟩⟩
      obtain rfl : next = entry := by simpa [hhead] using hentry
      exact ⟨by simpa using List.find?_some hfind, trivial⟩

/-- What is put in chain order is the entries, and linked. -/
theorem orderLinks_linked (h : orderLinks idOf previousOf entries = some ordered) :
    ordered.Perm entries ∧ Linked idOf previousOf (fun _ => True) ordered := by
  refine ⟨orderLinks_perm h, ?_⟩
  unfold orderLinks at h
  split at h
  · cases h
    exact .nil
  · dsimp only at h
    split at h
    · rename_i root hroots
      split at h
      · split at h
        · rename_i ordered' hwalk
          cases h
          have hroot : previousOf root = none := by
            have hsingle : root ∈ entries.filter fun entry => (previousOf entry).isNone := by
              simp [hroots]
            simpa using (List.mem_filter.1 hsingle).2
          obtain ⟨hhead, hchain⟩ := walkLinks_chain idOf previousOf
            (entries.filter fun entry => (previousOf entry).isSome).length
            (entries.filter fun entry => (previousOf entry).isSome) root
          rw [hwalk] at hhead hchain
          refine ⟨fun first hfirst => ?_, hchain⟩
          obtain rfl : root = first := by simpa [hhead] using hfirst
          exact hroot
        · cases h
      · cases h
    · cases h

/-- The walk takes the entries of a chain in its order, and leaves none. -/
theorem walkLinks_eq {admits : α → α → Prop} {front later rest : List α} {current : α} {bound : Nat}
    (h : ChainOrder idOf previousOf admits (front ++ current :: later)) (hperm : later.Perm rest)
    (hbound : rest.length ≤ bound) :
    walkLinks idOf previousOf bound rest current = (current :: later, []) := by
  induction bound generalizing front later rest current with
  | zero =>
    obtain rfl : rest = [] := by simpa using hbound
    obtain rfl : later = [] := List.perm_nil.1 hperm
    rfl
  | succ bound ih =>
    have hfollows : ∀ entry ∈ rest,
        (previousOf entry = some (idOf current) ↔ later.head? = some entry) :=
      fun entry hmem => h.eq_next entry (by simp [hperm.symm.subset hmem])
    rw [walkLinks]
    cases later with
    | nil =>
      obtain rfl : rest = [] := List.nil_perm.1 hperm
      rfl
    | cons next later =>
      have hmem : next ∈ rest := hperm.subset (by simp)
      have hfind : rest.find? (fun entry => previousOf entry == some (idOf current)) =
          some next := by
        cases hfound : rest.find? fun entry => previousOf entry == some (idOf current) with
        | none =>
          have hnone := List.find?_eq_none.1 hfound next hmem
          simp [(hfollows next hmem).2 rfl] at hnone
        | some other =>
          have hother := (hfollows other (List.mem_of_find?_eq_some hfound)).1
            (by simpa using List.find?_some hfound)
          simpa using hother.symm
      have hrest : later.Perm (rest.filter fun entry =>
          previousOf entry != some (idOf current)) := by
        have hfilter := (hperm.filter fun entry => previousOf entry != some (idOf current)).symm
        refine (hfilter.trans ?_).symm
        have hself : previousOf next = some (idOf current) := (hfollows next hmem).2 rfl
        have hlater : ∀ entry ∈ later, previousOf entry ≠ some (idOf current) := by
          intro entry hentry hprevious
          have hsame := (hfollows entry (hperm.subset (by simp [hentry]))).1 hprevious
          obtain rfl : next = entry := by simpa using hsame
          have hnodup := h.nodup.of_map idOf
          simp [List.nodup_append, hentry] at hnodup
        rw [List.filter_cons_of_neg (by simp [hself]),
          List.filter_eq_self.2 (by simpa using hlater)]
      have hbound' : (rest.filter fun entry =>
          previousOf entry != some (idOf current)).length ≤ bound := by
        have hlength := hperm.length_eq
        have hshort := hrest.length_eq
        simp only [List.length_cons] at hlength
        omega
      rw [hfind]
      have horder : ChainOrder idOf previousOf admits ((front ++ [current]) ++ next :: later) := by
        simpa using h
      have hwalk := ih horder hrest hbound'
      simp only [hwalk]

/-- Entries that form a chain are put in its order. -/
theorem ChainOrder.orderLinks_eq {admits : α → α → Prop}
    (h : ChainOrder idOf previousOf admits ordered) (hperm : ordered.Perm entries) :
    orderLinks idOf previousOf entries = some ordered := by
  cases ordered with
  | nil =>
    obtain rfl : entries = [] := List.nil_perm.1 hperm
    rfl
  | cons root rest =>
    cases hentries : entries with
    | nil => simp [hentries] at hperm
    | cons first others =>
      rw [← hentries]
      have hroots : entries.filter (fun entry => (previousOf entry).isNone) = [root] := by
        rw [← h.roots_eq hperm]
        exact List.filter_congr fun entry _ => by cases previousOf entry <;> rfl
      have hlinked : rest.Perm (entries.filter fun entry => (previousOf entry).isSome) := by
        have hfilter := hperm.filter fun entry => (previousOf entry).isSome
        have hself : previousOf root = none := h.linked.root root (by simp)
        have hrest : ∀ entry ∈ rest, (previousOf entry).isSome = true := by
          intro entry hmem
          have htail : entry ∈ (root :: rest).tail := hmem
          obtain ⟨_, -, hprevious⟩ := exists_predecessor h.links htail
          simp [hprevious]
        rwa [List.filter_cons_of_neg (by simp [hself]), List.filter_eq_self.2 hrest] at hfilter
      have hnodup :
          ((entries.filter fun entry => (previousOf entry).isSome).map previousOf).Nodup := by
        refine (hlinked.map previousOf).nodup_iff.1 ?_
        have hmap : rest.map previousOf = (root :: rest).dropLast.map fun entry =>
            some (idOf entry) := map_previous_tail h.links
        rw [hmap]
        have hkeys : ((root :: rest).dropLast.map idOf).Nodup :=
          h.nodup.sublist ((List.dropLast_sublist _).map idOf)
        have hsome := hkeys.map (Option.some_injective _)
        rwa [List.map_map] at hsome
      have horder : ChainOrder idOf previousOf admits ([] ++ root :: rest) := h
      have hwalk := walkLinks_eq horder hlinked le_rfl
      unfold orderLinks
      subst hentries
      simp only [hroots, hnodup, hwalk, if_true]

end Take
