import RadishMemory.Framework.Checked
import Mathlib.Data.List.Sort
import Mathlib.Data.List.Nodup

/-!
# Tables under declared constraints

A table is the list of its rows.  Inserting a row runs the declared constraints in the order a
relational engine runs them (row checks, uniqueness, references) and appends the row; updating
and deleting return how many rows were touched.

`Child` is the shape of every ordered child list kept in a table of its own: an owner, a
position and a value.  Reading a list back sorts the owner's rows by position and insists that
the positions are `0, 1, 2, …`; a list written for an owner without rows is read back as it
was written (`loadChildren_append_enumerate`), and rows of other owners never matter.
-/

universe u v w

variable {α : Type u} {κ : Type v} {ε : Type w}

/-- Why a statement was refused. -/
inductive ConstraintViolation where
  | check
  | unique
  | foreignKey
deriving DecidableEq, Repr

/-- Insert a row under a row check, a uniqueness conflict and the references it makes. -/
def insertRow (rows : List α) (row : α) (checks : Bool) (clashes : α → Bool)
    (references : Bool) : Except ConstraintViolation (List α) :=
  if checks = false then .error .check
  else if rows.any clashes = true then .error .unique
  else if references = false then .error .foreignKey
  else .ok (rows ++ [row])

theorem insertRow_eq_ok_iff {rows rows' : List α} {row : α} {checks references : Bool}
    {clashes : α → Bool} :
    insertRow rows row checks clashes references = .ok rows' ↔
      checks = true ∧ (∀ r ∈ rows, clashes r = false) ∧ references = true ∧
        rows' = rows ++ [row] := by
  have hany : rows.any clashes = true ↔ ¬ ∀ r ∈ rows, clashes r = false := by
    simp
  unfold insertRow
  split
  · simp_all
  · split
    · simp_all
    · split
      · simp_all
      · rename_i hcheck hunique hrefs
        rw [hany, not_not] at hunique
        simp only [Bool.not_eq_false] at hcheck hrefs
        simp only [hcheck, hrefs, Except.ok.injEq, true_and]
        constructor
        · intro h
          exact ⟨hunique, h.symm⟩
        · intro h
          exact h.2.symm

/-! ## Uniqueness of a key -/

/-- No two rows share the key. -/
def UniqueBy (key : α → κ) (rows : List α) : Prop :=
  (rows.map key).Nodup

namespace UniqueBy

variable {key : α → κ} {rows : List α}

theorem nil : UniqueBy key ([] : List α) := by
  simp [UniqueBy]

theorem append_singleton {row : α} (h : UniqueBy key rows)
    (hfresh : ∀ r ∈ rows, key r ≠ key row) : UniqueBy key (rows ++ [row]) := by
  unfold UniqueBy at *
  rw [List.map_append, List.nodup_append]
  refine ⟨h, by simp, ?_⟩
  intro a ha b hb
  obtain ⟨r, hr, rfl⟩ := List.mem_map.1 ha
  simp only [List.map_cons, List.map_nil, List.mem_singleton] at hb
  rw [hb]
  exact hfresh r hr

theorem append {new : List α} (h : UniqueBy key rows) (hnew : UniqueBy key new)
    (hfresh : ∀ a ∈ new, ∀ r ∈ rows, key r ≠ key a) : UniqueBy key (rows ++ new) := by
  unfold UniqueBy at *
  rw [List.map_append, List.nodup_append]
  refine ⟨h, hnew, ?_⟩
  intro a ha b hb
  obtain ⟨r, hr, rfl⟩ := List.mem_map.1 ha
  obtain ⟨c, hc, rfl⟩ := List.mem_map.1 hb
  exact hfresh c hc r hr

theorem filter {p : α → Bool} (h : UniqueBy key rows) : UniqueBy key (rows.filter p) :=
  List.Nodup.sublist (List.filter_sublist.map key) h

theorem map {f : α → α} (h : UniqueBy key rows) (hf : ∀ r ∈ rows, key (f r) = key r) :
    UniqueBy key (rows.map f) := by
  unfold UniqueBy at *
  have hmap : rows.map (key ∘ f) = rows.map key := List.map_congr_left hf
  rwa [List.map_map, hmap]

theorem eq_of_mem (h : UniqueBy key rows) {r s : α} (hr : r ∈ rows) (hs : s ∈ rows)
    (hkey : key r = key s) : r = s :=
  List.inj_on_of_nodup_map h hr hs hkey

/-- The rows of one key are at most one row. -/
theorem filter_eq_singleton [DecidableEq κ] (h : UniqueBy key rows) {r : α} (hr : r ∈ rows) :
    (rows.filter fun row => key row == key r) = [r] := by
  induction rows with
  | nil => cases hr
  | cons first rest ih =>
    obtain ⟨hfirst, hrest⟩ := List.nodup_cons.1 h
    rcases List.mem_cons.1 hr with rfl | hmem
    · rw [List.filter_cons_of_pos (by simp), List.filter_eq_nil_iff.2 ?_]
      intro row hrow heq
      exact hfirst (List.mem_map.2 ⟨row, hrow, beq_iff_eq.1 heq⟩)
    · rw [List.filter_cons_of_neg ?_]
      · exact ih hrest hmem
      · intro heq
        exact hfirst (List.mem_map.2 ⟨r, hmem, (beq_iff_eq.1 heq).symm⟩)

end UniqueBy

/-! ## Lookup by key -/

/-- The first row with the given key. -/
def lookup [DecidableEq κ] (key : α → κ) (rows : List α) (k : κ) : Option α :=
  rows.find? fun r => decide (key r = k)

section Lookup

variable [DecidableEq κ] {key : α → κ} {rows : List α} {k : κ} {row : α}

theorem lookup_mem (h : lookup key rows k = some row) : row ∈ rows :=
  List.mem_of_find?_eq_some h

theorem lookup_key (h : lookup key rows k = some row) : key row = k := by
  simpa using List.find?_some h

theorem lookup_eq_none_iff : lookup key rows k = none ↔ ∀ r ∈ rows, key r ≠ k := by
  simp [lookup, List.find?_eq_none]

theorem lookup_of_mem (hu : UniqueBy key rows) (h : row ∈ rows) :
    lookup key rows (key row) = some row := by
  cases hl : lookup key rows (key row) with
  | none => exact absurd rfl (lookup_eq_none_iff.1 hl row h)
  | some r => rw [hu.eq_of_mem (lookup_mem hl) h (lookup_key hl)]

theorem lookup_eq_some_iff (hu : UniqueBy key rows) :
    lookup key rows k = some row ↔ row ∈ rows ∧ key row = k := by
  constructor
  · intro h
    exact ⟨lookup_mem h, lookup_key h⟩
  · rintro ⟨h, rfl⟩
    exact lookup_of_mem hu h

theorem lookup_append_of_some {rows' : List α} (h : lookup key rows k = some row) :
    lookup key (rows ++ rows') k = some row := by
  unfold lookup at *
  rw [List.find?_append, h, Option.some_or]

theorem lookup_append_of_ne {rows' : List α} (h : ∀ r ∈ rows', key r ≠ k) :
    lookup key (rows ++ rows') k = lookup key rows k := by
  have hnone : lookup key rows' k = none := lookup_eq_none_iff.2 h
  unfold lookup at *
  rw [List.find?_append, hnone, Option.or_none]

theorem lookup_append_singleton (h : ∀ r ∈ rows, key r ≠ key row) :
    lookup key (rows ++ [row]) (key row) = some row := by
  have hnone : lookup key rows (key row) = none := lookup_eq_none_iff.2 h
  rw [lookup] at hnone ⊢
  rw [List.find?_append, hnone, Option.none_or]
  simp

/-- Removing rows with other keys does not change what is found. -/
theorem lookup_filter {p : α → Bool} (h : ∀ r ∈ rows, key r = k → p r = true) :
    lookup key (rows.filter p) k = lookup key rows k := by
  induction rows with
  | nil => rfl
  | cons r rest ih =>
    have hrest := ih fun s hs => h s (List.mem_cons_of_mem _ hs)
    by_cases hkey : key r = k
    · rw [List.filter_cons_of_pos (h r List.mem_cons_self hkey)]
      simp [lookup, hkey]
    · by_cases hp : p r = true
      · rw [List.filter_cons_of_pos hp]
        simpa [lookup, hkey] using hrest
      · rw [List.filter_cons_of_neg hp, hrest]
        simp [lookup, hkey]

end Lookup

/-! ## Updates and deletions -/

/-- Change the selected rows; the count is what the engine reports as changed. -/
def updateWhere (p : α → Bool) (f : α → α) (rows : List α) : List α :=
  rows.map fun r => if p r then f r else r

/-- Remove the selected rows. -/
def deleteWhere (p : α → Bool) (rows : List α) : List α :=
  rows.filter fun r => !p r

theorem mem_deleteWhere {p : α → Bool} {rows : List α} {r : α} :
    r ∈ deleteWhere p rows ↔ r ∈ rows ∧ p r = false := by
  simp [deleteWhere]

theorem mem_updateWhere {p : α → Bool} {f : α → α} {rows : List α} {r : α} :
    r ∈ updateWhere p f rows ↔ ∃ s ∈ rows, (if p s then f s else s) = r := by
  simp [updateWhere]

theorem UniqueBy.deleteWhere {key : α → κ} {rows : List α} {p : α → Bool}
    (h : UniqueBy key rows) : UniqueBy key (deleteWhere p rows) :=
  h.filter

theorem UniqueBy.updateWhere {key : α → κ} {rows : List α} {p : α → Bool} {f : α → α}
    (h : UniqueBy key rows) (hf : ∀ r, key (f r) = key r) :
    UniqueBy key (updateWhere p f rows) := by
  refine h.map fun r _ => ?_
  split
  · exact hf r
  · rfl

theorem deleteWhere_deleteWhere (p q : α → Bool) (rows : List α) :
    deleteWhere p (deleteWhere q rows) = deleteWhere (fun r => q r || p r) rows := by
  simp only [deleteWhere, List.filter_filter]
  refine List.filter_congr fun r _ => ?_
  cases q r <;> simp

/-- Updates that put a row out of their own reach accumulate. -/
theorem updateWhere_updateWhere {p q : α → Bool} {f : α → α} (hf : ∀ r, p (f r) = false)
    (rows : List α) :
    updateWhere p f (updateWhere q f rows) = updateWhere (fun r => q r || p r) f rows := by
  simp only [updateWhere, List.map_map]
  refine List.map_congr_left fun r _ => ?_
  by_cases hq : q r = true
  · simp [hq, hf]
  · simp [hq]

/-- A change that keeps the keys shows in a lookup as a change of the row that is found. -/
theorem lookup_updateWhere {κ : Type v} [DecidableEq κ] {key : α → κ} {k : κ} {p : α → Bool}
    {f : α → α} (h : ∀ r, key (f r) = key r) (rows : List α) :
    lookup key (updateWhere p f rows) k =
      (lookup key rows k).map fun r => if p r then f r else r := by
  induction rows with
  | nil => rfl
  | cons r rest ih =>
    have hsame : key (if p r then f r else r) = key r := by
      split
      · exact h r
      · rfl
    by_cases hr : key r = k
    · simp [lookup, updateWhere, hsame, hr]
    · rw [lookup, updateWhere] at ih
      simp only [lookup, updateWhere, List.map_cons, List.find?_cons, hsame, hr, decide_false]
      exact ih

/-- A column that the update does not touch is the same afterwards. -/
theorem map_updateWhere {β : Type*} {p : α → Bool} {f : α → α} (column : α → β)
    (hf : ∀ r, column (f r) = column r) (rows : List α) :
    (updateWhere p f rows).map column = rows.map column := by
  rw [updateWhere, List.map_map]
  refine List.map_congr_left fun r _ => ?_
  show column (if p r then f r else r) = column r
  split
  · exact hf r
  · rfl

@[simp] theorem updateWhere_false (f : α → α) (rows : List α) :
    updateWhere (fun _ => false) f rows = rows := by
  simp [updateWhere]

@[simp] theorem deleteWhere_false (rows : List α) : deleteWhere (fun _ => false) rows = rows := by
  simp [deleteWhere]

/-! ## References -/

section References

variable {β : Type u} {child new : List α} {parent : List β} {fk : α → κ} {key : β → κ}

/-- Every row of the child table names a row of the parent table. -/
def References (fk : α → κ) (child : List α) (key : β → κ) (parent : List β) : Prop :=
  ∀ a ∈ child, ∃ b ∈ parent, key b = fk a

namespace References

theorem nil : References fk ([] : List α) key parent := by
  simp [References]

theorem append (h : References fk child key parent) (hnew : References fk new key parent) :
    References fk (child ++ new) key parent := by
  intro a ha
  rcases List.mem_append.1 ha with ha | ha
  · exact h a ha
  · exact hnew a ha

theorem append_parent {more : List β} (h : References fk child key parent) :
    References fk child key (parent ++ more) := by
  intro a ha
  obtain ⟨b, hb, heq⟩ := h a ha
  exact ⟨b, List.mem_append_left _ hb, heq⟩

theorem delete_child {p : α → Bool} (h : References fk child key parent) :
    References fk (deleteWhere p child) key parent :=
  fun a ha => h a (mem_deleteWhere.1 ha).1

theorem update_child {p : α → Bool} {f : α → α} (h : References fk child key parent)
    (hf : ∀ a, fk (f a) = fk a) : References fk (updateWhere p f child) key parent := by
  intro a ha
  obtain ⟨c, hc, rfl⟩ := mem_updateWhere.1 ha
  obtain ⟨b, hb, heq⟩ := h c hc
  refine ⟨b, hb, ?_⟩
  split
  · rw [heq, hf]
  · exact heq

theorem update_parent {p : β → Bool} {f : β → β} (h : References fk child key parent)
    (hf : ∀ b, key (f b) = key b) : References fk child key (updateWhere p f parent) := by
  intro a ha
  obtain ⟨b, hb, heq⟩ := h a ha
  refine ⟨_, mem_updateWhere.2 ⟨b, hb, rfl⟩, ?_⟩
  split
  · rw [hf, heq]
  · exact heq

end References

end References

/-! ## Tables compared as sets of rows -/

/-- The two tables hold the same rows, in whatever order. -/
def sameEntries [DecidableEq α] (left right : List α) : Bool :=
  left.all (· ∈ right) && right.all (· ∈ left)

@[simp] theorem sameEntries_iff [DecidableEq α] {left right : List α} :
    sameEntries left right = true ↔ ∀ a, a ∈ left ↔ a ∈ right := by
  simp only [sameEntries, Bool.and_eq_true, List.all_eq_true, decide_eq_true_eq]
  exact ⟨fun h a => ⟨h.1 a, h.2 a⟩, fun h => ⟨fun a => (h a).1, fun a => (h a).2⟩⟩

/-! ## Ordered child lists -/

/-- One element of an ordered list that belongs to `owner`. -/
structure Child (κ : Type v) (β : Type u) where
  owner : κ
  ordinal : Nat
  value : β
deriving DecidableEq

section Child

variable {β : Type u}

/-- The rows a list is written as. -/
def enumerate (owner : κ) (first : Nat) : List β → List (Child κ β)
  | [] => []
  | value :: rest => { owner, ordinal := first, value } :: enumerate owner (first + 1) rest

theorem mem_enumerate {owner : κ} {first : Nat} {values : List β} {c : Child κ β}
    (h : c ∈ enumerate owner first values) :
    c.owner = owner ∧ first ≤ c.ordinal ∧ c.value ∈ values := by
  induction values generalizing first with
  | nil => simp [enumerate] at h
  | cons value rest ih =>
    rw [enumerate, List.mem_cons] at h
    rcases h with rfl | h
    · exact ⟨rfl, le_rfl, by simp⟩
    · obtain ⟨ho, hf, hv⟩ := ih h
      exact ⟨ho, by omega, List.mem_cons_of_mem _ hv⟩

theorem exists_mem_enumerate (owner : κ) (first : Nat) {values : List β} {value : β}
    (h : value ∈ values) : ∃ c ∈ enumerate owner first values, c.value = value := by
  induction values generalizing first with
  | nil => simp at h
  | cons head rest ih =>
    rcases List.mem_cons.1 h with rfl | h
    · exact ⟨_, List.mem_cons_self, rfl⟩
    · obtain ⟨c, hc, hv⟩ := ih (first + 1) h
      exact ⟨c, List.mem_cons_of_mem _ hc, hv⟩

theorem enumerate_pairwise (owner : κ) (first : Nat) (values : List β) :
    (enumerate owner first values).Pairwise fun a b => a.ordinal ≤ b.ordinal := by
  induction values generalizing first with
  | nil => exact .nil
  | cons value rest ih =>
    refine .cons (fun c hc => ?_) (ih (first + 1))
    have := (mem_enumerate hc).2.1
    dsimp only
    omega

/-- Check that positions count up from `first` and strip them. -/
def decodeChildren (e : ε) : Nat → List (Child κ β) → Except ε (List β)
  | _, [] => .ok []
  | first, c :: rest =>
    if c.ordinal = first then
      match decodeChildren e (first + 1) rest with
      | .ok values => .ok (c.value :: values)
      | .error e' => .error e'
    else .error e

theorem decodeChildren_enumerate (e : ε) (owner : κ) (first : Nat) (values : List β) :
    decodeChildren e first (enumerate owner first values) = .ok values := by
  induction values generalizing first with
  | nil => rfl
  | cons value rest ih => simp [enumerate, decodeChildren, ih]

theorem decodeChildren_mem {e : ε} {first : Nat} {rows : List (Child κ β)} {values : List β}
    (h : decodeChildren e first rows = .ok values) : values = rows.map Child.value := by
  induction rows generalizing first values with
  | nil =>
    cases h
    rfl
  | cons c rest ih =>
    rw [decodeChildren] at h
    split at h
    · split at h
      · rename_i hrest
        cases h
        rw [List.map_cons, ← ih hrest]
      · cases h
    · cases h

/-- Insert a whole list for one owner, a row at a time. -/
def insertChildren (checks : Child κ β → Bool) (clashes : Child κ β → Child κ β → Bool)
    (references : Child κ β → Bool) (rows : List (Child κ β)) :
    List (Child κ β) → Except ConstraintViolation (List (Child κ β))
  | [] => .ok rows
  | c :: rest => do
    let rows ← insertRow rows c (checks c) (clashes c) (references c)
    insertChildren checks clashes references rows rest

theorem insertChildren_eq_ok {checks : Child κ β → Bool}
    {clashes : Child κ β → Child κ β → Bool} {references : Child κ β → Bool}
    {rows rows' new : List (Child κ β)}
    (h : insertChildren checks clashes references rows new = .ok rows') :
    rows' = rows ++ new ∧ ∀ c ∈ new, references c = true := by
  induction new generalizing rows with
  | nil =>
    cases h
    simp
  | cons c rest ih =>
    rw [insertChildren, Except.bind_eq_ok_iff] at h
    obtain ⟨rows₁, h₁, h₂⟩ := h
    obtain ⟨-, -, href, rfl⟩ := insertRow_eq_ok_iff.1 h₁
    obtain ⟨rfl, hrest⟩ := ih h₂
    simp only [List.append_assoc, List.singleton_append, List.mem_cons, forall_eq_or_imp, true_and]
    exact ⟨href, hrest⟩

variable [DecidableEq κ]

/-- The rows of one owner in list order. -/
def childrenOf (rows : List (Child κ β)) (owner : κ) : List (Child κ β) :=
  (rows.filter fun c => decide (c.owner = owner)).insertionSort fun a b => a.ordinal ≤ b.ordinal

def loadChildren (e : ε) (rows : List (Child κ β)) (owner : κ) : Except ε (List β) :=
  decodeChildren e 0 (childrenOf rows owner)

theorem mem_childrenOf {rows : List (Child κ β)} {owner : κ} {c : Child κ β} :
    c ∈ childrenOf rows owner ↔ c ∈ rows ∧ c.owner = owner := by
  simp [childrenOf]

/-- What is read for an owner is exactly the set of values its rows carry. -/
theorem mem_of_loadChildren {e : ε} {rows : List (Child κ β)} {owner : κ} {values : List β}
    (h : loadChildren e rows owner = .ok values) {value : β} :
    value ∈ values ↔ ∃ c ∈ rows, c.owner = owner ∧ c.value = value := by
  rw [decodeChildren_mem h]
  simp only [List.mem_map, mem_childrenOf, and_assoc]

theorem childrenOf_append_of_ne {rows rows' : List (Child κ β)} {owner : κ}
    (h : ∀ c ∈ rows', c.owner ≠ owner) : childrenOf (rows ++ rows') owner = childrenOf rows owner := by
  have hnil : rows'.filter (fun c => decide (c.owner = owner)) = [] := by
    simpa [List.filter_eq_nil_iff] using h
  rw [childrenOf, List.filter_append, hnil, List.append_nil, childrenOf]

theorem loadChildren_append_of_ne {e : ε} {rows rows' : List (Child κ β)} {owner : κ}
    (h : ∀ c ∈ rows', c.owner ≠ owner) :
    loadChildren e (rows ++ rows') owner = loadChildren e rows owner := by
  rw [loadChildren, childrenOf_append_of_ne h, loadChildren]

/-- An owner whose rows are those of a list reads the list back. -/
theorem loadChildren_of_filter {e : ε} {rows : List (Child κ β)} {owner : κ} {values : List β}
    (h : rows.filter (fun c => decide (c.owner = owner)) = enumerate owner 0 values) :
    loadChildren e rows owner = .ok values := by
  rw [loadChildren, childrenOf, h, (enumerate_pairwise owner 0 values).insertionSort_eq,
    decodeChildren_enumerate]

theorem filter_enumerate_self (owner : κ) (first : Nat) (values : List β) :
    (enumerate owner first values).filter (fun c => decide (c.owner = owner)) =
      enumerate owner first values := by
  rw [List.filter_eq_self]
  intro c hc
  simp [(mem_enumerate hc).1]

theorem filter_enumerate_of_ne {owner other : κ} (h : owner ≠ other) (first : Nat)
    (values : List β) :
    (enumerate owner first values).filter (fun c => decide (c.owner = other)) = [] := by
  rw [List.filter_eq_nil_iff]
  intro c hc
  simp [(mem_enumerate hc).1, h]

/-- Of several lists with distinct owners, the rows of one owner are those of its own list. -/
theorem filter_flatMap_enumerate {ι : Type u} (owner : ι → κ) (values : ι → List β) {l : List ι}
    {i : ι} (hunique : (l.map owner).Nodup) (hi : i ∈ l) :
    (l.flatMap fun j => enumerate (owner j) 0 (values j)).filter
      (fun c => decide (c.owner = owner i)) = enumerate (owner i) 0 (values i) := by
  induction l with
  | nil => cases hi
  | cons j rest ih =>
    rw [List.map_cons, List.nodup_cons] at hunique
    rw [List.flatMap_cons, List.filter_append]
    rcases List.mem_cons.1 hi with rfl | hi
    · have hrest : (rest.flatMap fun j => enumerate (owner j) 0 (values j)).filter
          (fun c => decide (c.owner = owner i)) = [] := by
        rw [List.filter_eq_nil_iff]
        intro c hc
        obtain ⟨k, hk, hc⟩ := List.mem_flatMap.1 hc
        rw [(mem_enumerate hc).1, decide_eq_true_eq]
        exact fun heq => hunique.1 (heq ▸ List.mem_map_of_mem hk)
      rw [filter_enumerate_self, hrest, List.append_nil]
    · have hne : owner j ≠ owner i := fun heq => hunique.1 (heq ▸ List.mem_map_of_mem hi)
      rw [filter_enumerate_of_ne hne, List.nil_append, ih hunique.2 hi]

/-- A list written for an owner that had no rows is read back. -/
theorem loadChildren_append_enumerate {e : ε} {rows : List (Child κ β)} {owner : κ}
    {values : List β} (h : ∀ c ∈ rows, c.owner ≠ owner) :
    loadChildren e (rows ++ enumerate owner 0 values) owner = .ok values := by
  have hnil : rows.filter (fun c => decide (c.owner = owner)) = [] := by
    simpa [List.filter_eq_nil_iff] using h
  refine loadChildren_of_filter ?_
  rw [List.filter_append, hnil, filter_enumerate_self, List.nil_append]

/-- Removing rows of other owners does not change what is read. -/
theorem loadChildren_filter {e : ε} {rows : List (Child κ β)} {owner : κ} {p : Child κ β → Bool}
    (h : ∀ c ∈ rows, c.owner = owner → p c = true) :
    loadChildren e (rows.filter p) owner = loadChildren e rows owner := by
  have hsame : (rows.filter p).filter (fun c => decide (c.owner = owner)) =
      rows.filter fun c => decide (c.owner = owner) := by
    rw [List.filter_filter]
    refine List.filter_congr fun c hc => ?_
    by_cases ho : c.owner = owner
    · simp [ho, h c hc ho]
    · simp [ho]
  rw [loadChildren, childrenOf, hsame, loadChildren, childrenOf]

end Child
