import RadishMemory.Framework.Table
import Mathlib.Data.List.Induction

/-!
# Directory trees with symbolic links

A tree gives entries to locations; a location is a list of names from the root.  A path is walked
step by step from a directory: a name is looked up in the directory reached so far, and the target
of a link takes the place of its name.  The walk follows a limited number of links and returns how
many it may still follow.

`RealPath` are the locations that a walk reaches without following a link.
-/

abbrev FileName :=
  List UInt8

/-- A location: the names on the way from the root. -/
abbrev FilePath :=
  List FileName

inductive FileEntry (ι : Type) where
  | directory
  | link (target : List UInt8)
  | file (inode : ι)
  | special
deriving DecidableEq

def FileEntry.isLink {ι : Type} : FileEntry ι → Bool
  | .link _ => true
  | _ => false

structure FileTree (ι : Type) where
  entries : List (FilePath × FileEntry ι)

inductive WalkError where
  | notFound
  | notADirectory
  | tooManyLinks
deriving DecidableEq, Repr

/-- One step of a path; an empty piece and `.` ask for a directory and stay in it. -/
inductive PathStep where
  | stay
  | up
  | name (name : FileName)
deriving DecidableEq

/-- The pieces between the separators. -/
def pathPieces : List UInt8 → List FileName
  | [] => [[]]
  | byte :: rest =>
    if byte = 47 then [] :: pathPieces rest
    else match pathPieces rest with
      | [] => [[byte]]
      | piece :: pieces => (byte :: piece) :: pieces

def PathStep.ofPiece (piece : FileName) : PathStep :=
  if piece = [] ∨ piece = [46] then .stay
  else if piece = [46, 46] then .up
  else .name piece

def pathSteps (path : List UInt8) : List PathStep :=
  (pathPieces path).map PathStep.ofPiece

def isAbsolutePath (path : List UInt8) : Bool :=
  path.head? == some 47

def nameSteps (names : FilePath) : List PathStep :=
  names.map PathStep.name

namespace FileTree

variable {ι : Type}

/-- The root is a directory. -/
def lookup (tree : FileTree ι) (path : FilePath) : Option (FileEntry ι) :=
  if path = [] then some .directory
  else (tree.entries.find? fun entry => entry.1 == path).map Prod.snd

def isDirectory (tree : FileTree ι) (path : FilePath) : Bool :=
  match tree.lookup path with
  | some .directory => true
  | _ => false

/-! ## Walking -/

/-- What a walk reaches, and the number of links that it may still follow. -/
abbrev Reached :=
  FilePath × Nat

/-- A walk that hands over to `follow` at a link. -/
def walkWith (tree : FileTree ι) (limit : Nat)
    (follow : FilePath → List PathStep → Except WalkError Reached) :
    FilePath → List PathStep → Except WalkError Reached
  | current, [] => .ok (current, limit)
  | current, step :: rest =>
    if tree.isDirectory current then
      match step with
      | .stay => walkWith tree limit follow current rest
      | .up => walkWith tree limit follow current.dropLast rest
      | .name name =>
        match tree.lookup (current ++ [name]) with
        | none => .error .notFound
        | some (.link target) =>
          follow (if isAbsolutePath target then [] else current) (pathSteps target ++ rest)
        | some _ => walkWith tree limit follow (current ++ [name]) rest
    else .error .notADirectory

def walk (tree : FileTree ι) : Nat → FilePath → List PathStep → Except WalkError Reached
  | 0 => walkWith tree 0 fun _ _ => .error .tooManyLinks
  | limit + 1 => walkWith tree (limit + 1) (walk tree limit)

/-- The entry at a path, with its location; a link at the end is not followed. -/
def entryAt (tree : FileTree ι) (limit : Nat) (path : FilePath) :
    Except WalkError (FilePath × FileEntry ι) :=
  match path.getLast? with
  | none => .ok ([], .directory)
  | some name => do
    let (parent, _) ← tree.walk limit [] (nameSteps path.dropLast)
    require (tree.isDirectory parent = true) WalkError.notADirectory
    let entry ← (tree.lookup (parent ++ [name])).orError WalkError.notFound
    return (parent ++ [name], entry)

/-- A path that a walk reaches where it is written, without following a link. -/
def RealPath (tree : FileTree ι) (path : FilePath) : Prop :=
  tree.walk 0 [] (nameSteps path) = .ok (path, 0)

/-! ## Walks in parts -/

section Walk

variable {tree : FileTree ι} {limit limit' : Nat} {current result : FilePath}

theorem walkWith_cons {follow : FilePath → List PathStep → Except WalkError Reached}
    (step : PathStep) (rest : List PathStep) :
    tree.walkWith limit follow current (step :: rest) =
      if tree.isDirectory current then
        match step with
        | .stay => tree.walkWith limit follow current rest
        | .up => tree.walkWith limit follow current.dropLast rest
        | .name name =>
          match tree.lookup (current ++ [name]) with
          | none => .error .notFound
          | some (.link target) =>
            follow (if isAbsolutePath target then [] else current) (pathSteps target ++ rest)
          | some _ => tree.walkWith limit follow (current ++ [name]) rest
      else .error .notADirectory := rfl

theorem walkWith_append {follow : FilePath → List PathStep → Except WalkError Reached}
    {rest : List PathStep} {continue' : Reached → Except WalkError Reached}
    (hdone : ∀ current, continue' (current, limit) = tree.walkWith limit follow current rest)
    (hfollow : ∀ current steps,
      follow current (steps ++ rest) = follow current steps >>= continue')
    (current : FilePath) (steps : List PathStep) :
    tree.walkWith limit follow current (steps ++ rest) =
      tree.walkWith limit follow current steps >>= continue' := by
  induction steps generalizing current with
  | nil => exact (hdone current).symm
  | cons step steps ih =>
    rw [List.cons_append, walkWith_cons, walkWith_cons]
    by_cases hdirectory : tree.isDirectory current = true
    · rw [if_pos hdirectory, if_pos hdirectory]
      cases step with
      | stay => exact ih current
      | up => exact ih current.dropLast
      | name name =>
        dsimp only
        cases tree.lookup (current ++ [name]) with
        | none => rfl
        | some entry =>
          cases entry with
          | directory => exact ih _
          | file inode => exact ih _
          | special => exact ih _
          | link target =>
            dsimp only
            rw [← List.append_assoc]
            exact hfollow _ _
    · rw [if_neg hdirectory, if_neg hdirectory]
      rfl

/-- A walk goes on where its first part has ended. -/
theorem walk_append (steps rest : List PathStep) :
    tree.walk limit current (steps ++ rest) =
      tree.walk limit current steps >>= fun reached => tree.walk reached.2 reached.1 rest := by
  induction limit generalizing current steps with
  | zero => exact walkWith_append (fun _ => rfl) (fun _ _ => rfl) current steps
  | succ limit ih =>
    exact walkWith_append (fun _ => rfl) (fun current steps => ih steps) current steps

theorem walk_nil : tree.walk limit current [] = .ok (current, limit) := by
  cases limit with
  | zero => rfl
  | succ limit => rfl

theorem walk_cons (step : PathStep) (rest : List PathStep) :
    tree.walk limit current (step :: rest) =
      tree.walk limit current [step] >>= fun reached => tree.walk reached.2 reached.1 rest :=
  walk_append [step] rest

theorem walk_stay (h : tree.isDirectory current = true) :
    tree.walk limit current [.stay] = .ok (current, limit) := by
  cases limit with
  | zero => exact if_pos h
  | succ limit => exact if_pos h

theorem walk_up (h : tree.isDirectory current = true) :
    tree.walk limit current [.up] = .ok (current.dropLast, limit) := by
  cases limit with
  | zero => exact if_pos h
  | succ limit => exact if_pos h

/-- A name that is not of a link leads to its entry. -/
theorem walk_name {name : FileName} {entry : FileEntry ι}
    (hdirectory : tree.isDirectory current = true)
    (hentry : tree.lookup (current ++ [name]) = some entry) (hlink : entry.isLink = false) :
    tree.walk limit current [.name name] = .ok (current ++ [name], limit) := by
  cases limit <;> cases entry <;>
    simp_all [walk, walkWith, FileEntry.isLink]

/-- Only a walk from a directory makes a step. -/
theorem isDirectory_of_walk {step : PathStep} {rest : List PathStep} {reached : Reached}
    (h : tree.walk limit current (step :: rest) = .ok reached) :
    tree.isDirectory current = true := by
  by_contra hdirectory
  cases limit with
  | zero => exact absurd (h.symm.trans (if_neg hdirectory)) (by simp)
  | succ limit => exact absurd (h.symm.trans (if_neg hdirectory)) (by simp)

theorem walkWith_le {follow : FilePath → List PathStep → Except WalkError Reached}
    (hfollow : ∀ current steps reached, follow current steps = .ok reached → reached.2 ≤ limit)
    {steps : List PathStep} {reached : Reached}
    (h : tree.walkWith limit follow current steps = .ok reached) : reached.2 ≤ limit := by
  induction steps generalizing current with
  | nil =>
    cases h
    exact le_rfl
  | cons step rest ih =>
    rw [walkWith_cons] at h
    split at h
    · cases step with
      | stay => exact ih h
      | up => exact ih h
      | name name =>
        dsimp only at h
        split at h
        · simp at h
        · exact hfollow _ _ _ h
        · exact ih h
    · simp at h

theorem walk_le {steps : List PathStep} {reached : Reached}
    (h : tree.walk limit current steps = .ok reached) : reached.2 ≤ limit := by
  induction limit generalizing current steps reached with
  | zero => exact walkWith_le (fun _ _ _ h => by simp at h) h
  | succ limit ih => exact walkWith_le (fun _ _ _ h => (ih h).trans (Nat.le_succ limit)) h

theorem walk_zero_names {names : FilePath} {reached : Reached}
    (h : tree.walk 0 current (nameSteps names) = .ok reached) :
    reached = (current ++ names, 0) := by
  induction names generalizing current with
  | nil =>
    rw [List.append_nil]
    exact (Except.ok.inj (walk_nil.symm.trans h)).symm
  | cons name names ih =>
    change tree.walkWith 0 _ current (.name name :: nameSteps names) = _ at h
    rw [walkWith_cons] at h
    split at h
    · dsimp only at h
      split at h
      · simp at h
      · simp at h
      · rw [ih h, List.append_assoc, List.singleton_append]
    · simp at h

/-! ## Real paths -/

theorem realPath_nil : tree.RealPath [] :=
  walk_nil

theorem nameSteps_append (front rest : FilePath) :
    nameSteps (front ++ rest) = nameSteps front ++ nameSteps rest :=
  List.map_append

/-- The ancestors of a real path are real. -/
theorem RealPath.front {front rest : FilePath} (h : tree.RealPath (front ++ rest)) :
    tree.RealPath front := by
  rw [RealPath, nameSteps_append, walk_append, Except.bind_eq_ok_iff] at h
  obtain ⟨reached, hfront, -⟩ := h
  rw [RealPath, hfront, walk_zero_names hfront]
  rfl

/-- A real path is extended by an entry of its directory that is not a link. -/
theorem realPath_append_singleton {front : FilePath} {name : FileName} :
    tree.RealPath (front ++ [name]) ↔ tree.RealPath front ∧ tree.isDirectory front = true ∧
      ∃ entry, tree.lookup (front ++ [name]) = some entry ∧ entry.isLink = false := by
  constructor
  · intro h
    have hfront := h.front
    rw [RealPath, nameSteps_append, walk_append, hfront, Except.ok_bind] at h
    change tree.walkWith 0 _ front [.name name] = _ at h
    rw [walkWith_cons] at h
    split at h
    · rename_i hdirectory
      refine ⟨hfront, hdirectory, ?_⟩
      dsimp only at h
      split at h
      · simp at h
      · simp at h
      · rename_i entry hlink hentry
        refine ⟨entry, hentry, ?_⟩
        cases entry with
        | link target => exact absurd rfl (hlink target)
        | _ => rfl
    · simp at h
  · rintro ⟨hfront, hdirectory, entry, hentry, hlink⟩
    rw [RealPath, nameSteps_append, walk_append, hfront, Except.ok_bind]
    exact walk_name hdirectory hentry hlink

/-- A real path is reached where it is written, whatever the limit. -/
theorem RealPath.walk {path : FilePath} (h : tree.RealPath path) (limit : Nat) :
    tree.walk limit [] (nameSteps path) = .ok (path, limit) := by
  induction path using List.reverseRecOn with
  | nil => exact walk_nil
  | append_singleton front name ih =>
    obtain ⟨hfront, hdirectory, entry, hentry, hlink⟩ := realPath_append_singleton.1 h
    rw [nameSteps_append, walk_append, ih hfront, Except.ok_bind]
    exact walk_name hdirectory hentry hlink

theorem RealPath.dropLast {path : FilePath} (h : tree.RealPath path) :
    tree.RealPath path.dropLast := by
  induction path using List.reverseRecOn with
  | nil => exact h
  | append_singleton front name _ =>
    rw [List.dropLast_concat]
    exact h.front

theorem walkWith_real {follow : FilePath → List PathStep → Except WalkError Reached}
    (hfollow : ∀ current steps reached, tree.RealPath current →
      follow current steps = .ok reached → tree.RealPath reached.1)
    {steps : List PathStep} {reached : Reached} (hcurrent : tree.RealPath current)
    (h : tree.walkWith limit follow current steps = .ok reached) : tree.RealPath reached.1 := by
  induction steps generalizing current with
  | nil =>
    cases h
    exact hcurrent
  | cons step rest ih =>
    rw [walkWith_cons] at h
    split at h
    · rename_i hdirectory
      cases step with
      | stay => exact ih hcurrent h
      | up => exact ih hcurrent.dropLast h
      | name name =>
        dsimp only at h
        split at h
        · simp at h
        · refine hfollow _ _ _ ?_ h
          split
          · exact realPath_nil
          · exact hcurrent
        · rename_i entry hlink hentry
          refine ih (realPath_append_singleton.2 ⟨hcurrent, hdirectory, entry, hentry, ?_⟩) h
          cases entry with
          | link target => exact absurd rfl (hlink target)
          | _ => rfl
    · simp at h

/-- What a walk from a real path reaches is real. -/
theorem walk_real {steps : List PathStep} {reached : Reached} (hcurrent : tree.RealPath current)
    (h : tree.walk limit current steps = .ok reached) : tree.RealPath reached.1 := by
  induction limit generalizing current steps reached with
  | zero => exact walkWith_real (fun _ _ _ _ h => by simp at h) hcurrent h
  | succ limit ih => exact walkWith_real (fun _ _ _ hcurrent h => ih hcurrent h) hcurrent h

/-! ## Entries -/

theorem entryAt_append_singleton {front location : FilePath} {name : FileName}
    {entry : FileEntry ι} :
    tree.entryAt limit (front ++ [name]) = .ok (location, entry) ↔
      ∃ parent left, tree.walk limit [] (nameSteps front) = .ok (parent, left) ∧
        tree.isDirectory parent = true ∧ tree.lookup (parent ++ [name]) = some entry ∧
        location = parent ++ [name] := by
  simp only [entryAt, List.getLast?_concat, List.dropLast_concat, Except.bind_eq_ok_iff,
    Except.exists_unit_iff, Except.pure_eq_ok_iff, require_eq_ok_iff, Option.orError_eq_ok_iff,
    Prod.exists, Prod.mk.injEq]
  constructor
  · rintro ⟨parent, left, hwalk, hdirectory, _, hentry, rfl, rfl⟩
    exact ⟨parent, left, hwalk, hdirectory, hentry, rfl⟩
  · rintro ⟨parent, left, hwalk, hdirectory, hentry, rfl⟩
    exact ⟨parent, left, hwalk, hdirectory, entry, hentry, rfl, rfl⟩

/-- The entry of a real directory. -/
theorem RealPath.entryAt {parent : FilePath} (h : tree.RealPath parent)
    (hdirectory : tree.isDirectory parent = true) (limit : Nat) (name : FileName) :
    tree.entryAt limit (parent ++ [name]) =
      (tree.lookup (parent ++ [name])).elim (.error .notFound)
        fun entry => .ok (parent ++ [name], entry) := by
  simp only [FileTree.entryAt, List.getLast?_concat, List.dropLast_concat, h.walk limit,
    Except.ok_bind, require_of hdirectory]
  cases tree.lookup (parent ++ [name]) with
  | none => rfl
  | some entry => rfl

/-- Where two trees have the same entries on the way, both have the real path. -/
theorem RealPath.congr {tree' : FileTree ι} {path : FilePath} (h : tree.RealPath path)
    (hsame : ∀ front, front <+: path → tree'.lookup front = tree.lookup front) :
    tree'.RealPath path := by
  induction path using List.reverseRecOn with
  | nil => exact realPath_nil
  | append_singleton front name ih =>
    obtain ⟨hfront, hdirectory, entry, hentry, hlink⟩ := realPath_append_singleton.1 h
    have hbegins : front <+: front ++ [name] := List.prefix_append front [name]
    have hreal := ih hfront fun part hpart => hsame part (hpart.trans hbegins)
    refine realPath_append_singleton.2 ⟨hreal, ?_, entry, ?_, hlink⟩
    · rw [FileTree.isDirectory, hsame front hbegins]
      exact hdirectory
    · rw [hsame _ (List.prefix_refl _)]
      exact hentry

/-- Below a path at whose entries no link was found, a walk reaches what is written. -/
theorem walk_below {root base : FilePath} {left : Nat}
    (hroot : tree.walk limit [] (nameSteps root) = .ok (base, left)) {below : FilePath}
    (hbelow : ∀ front, front ≠ [] → front <+: below → ∃ location entry,
      tree.entryAt limit (root ++ front) = .ok (location, entry) ∧ entry.isLink = false) :
    tree.walk limit [] (nameSteps (root ++ below)) = .ok (base ++ below, left) := by
  induction below using List.reverseRecOn with
  | nil => rwa [List.append_nil, List.append_nil]
  | append_singleton front name ih =>
    have hfront := ih fun part hne hpart =>
      hbelow part hne (hpart.trans (List.prefix_append front [name]))
    obtain ⟨location, entry, hentry, hlink⟩ := hbelow (front ++ [name]) (by simp)
      (List.prefix_refl _)
    rw [← List.append_assoc, entryAt_append_singleton] at hentry
    obtain ⟨parent, left', hwalk, hdirectory, hlookup, -⟩ := hentry
    rw [hfront, Except.ok.injEq, Prod.mk.injEq] at hwalk
    obtain ⟨rfl, rfl⟩ := hwalk
    rw [← List.append_assoc, nameSteps_append, walk_append, hfront, Except.ok_bind,
      ← List.append_assoc]
    exact walk_name hdirectory hlookup hlink

/-! ## Spellings -/

/-- The names of a path, without the pieces that stay. -/
def stepNames (steps : List PathStep) : FilePath :=
  steps.filterMap fun step => match step with
    | .name name => some name
    | _ => none

theorem isDirectory_start {steps : List PathStep} {reached : Reached}
    (h : tree.walk limit current steps = .ok reached)
    (hdirectory : tree.isDirectory reached.1 = true) : tree.isDirectory current = true := by
  cases steps with
  | nil =>
    rw [walk_nil, Except.ok.injEq] at h
    rwa [← h] at hdirectory
  | cons step rest => exact isDirectory_of_walk h

/-- Empty pieces and `.` do not change where a path to a directory leads. -/
theorem walk_of_stepNames {steps : List PathStep} {reached : Reached}
    (hup : PathStep.up ∉ steps)
    (h : tree.walk limit current (nameSteps (stepNames steps)) = .ok reached)
    (hdirectory : tree.isDirectory reached.1 = true) :
    tree.walk limit current steps = .ok reached := by
  induction steps generalizing limit current with
  | nil => exact h
  | cons step rest ih =>
    have hrest : PathStep.up ∉ rest := fun hmem => hup (List.mem_cons_of_mem _ hmem)
    cases step with
    | up => exact absurd List.mem_cons_self hup
    | stay =>
      rw [walk_cons, walk_stay (isDirectory_start h hdirectory), Except.ok_bind]
      exact ih hrest h
    | name name =>
      change tree.walk limit current (.name name :: nameSteps (stepNames rest)) = _ at h
      rw [walk_cons, Except.bind_eq_ok_iff] at h
      obtain ⟨middle, hname, hlater⟩ := h
      rw [walk_cons, hname, Except.ok_bind]
      exact ih hrest hlater

end Walk

end FileTree
