import RadishMemory.Framework.DurableFiles
import Mathlib.Data.Set.Insert

/-!
# Publishing a file under a second name

A file is written under a staging name and gets its final name by a link when it is complete and
on the disk; the staging name is unlinked when the link is on the disk.  A program that does this
may stop anywhere, and the power may be lost afterwards.

`Unfinished` is what is then known of the two names: each leads to one file or nowhere, and the
final name never leads to a file that is not complete.  `Resumable` adds what a publication keeps
and a removal does not: names that are missing now stay missing, and as long as the link is not on
the disk the staging name has not been unlinked.  `Published` and `Gone` are the two ends.  What
other programs do and a loss of power keeps each of the four.

A store that makes many publications is `Tracked` when each of them is at the stage where it
should be, and no other name can ever lead to a file.
-/

namespace DurableFiles

variable {D ν : Type} [DecidableEq ν]

/-- The file has reached the disk, and its contents are good. -/
def Holds (fs : DurableFiles D ν) (good : List UInt8 → Prop) (number : Nat) : Prop :=
  ∃ file, fs.files[number]? = some file ∧ file.settled = true ∧ good file.bytes

structure Unfinished (fs : DurableFiles D ν) (good : List UInt8 → Prop)
    (staging final : FilePlace D ν) (number : Nat) : Prop where
  atStaging : ∀ entry ∈ fs.outcomes staging, entry = none ∨ entry = some number
  atFinal : ∀ entry ∈ fs.outcomes final, entry = none ∨ entry = some number
  holds : some number ∈ fs.outcomes final → fs.Holds good number

structure Resumable (fs : DurableFiles D ν) (good : List UInt8 → Prop)
    (staging final : FilePlace D ν) (number : Nat) : Prop extends
    fs.Unfinished good staging final number where
  unlinked : fs.lookup final = none → ∀ entry ∈ fs.outcomes final, entry = none
  unstaged : fs.lookup staging = none → (∀ entry ∈ fs.outcomes staging, entry = none) ∨
    ∀ entry ∈ fs.outcomes final, entry = some number

structure Published (fs : DurableFiles D ν) (good : List UInt8 → Prop)
    (staging final : FilePlace D ν) (number : Nat) : Prop where
  atStaging : ∀ entry ∈ fs.outcomes staging, entry = none ∨ entry = some number
  atFinal : ∀ entry ∈ fs.outcomes final, entry = some number
  holds : fs.Holds good number

structure Gone (fs : DurableFiles D ν) (staging final : FilePlace D ν) : Prop where
  atStaging : ∀ entry ∈ fs.outcomes staging, entry = none
  atFinal : ∀ entry ∈ fs.outcomes final, entry = none

variable {fs fs' : DurableFiles D ν} {good : List UInt8 → Prop} {staging final : FilePlace D ν}
  {number : Nat} {places : Set (FilePlace D ν)}

theorem Holds.endures (h : fs.Holds good number) (hfs : fs.Endures places fs') :
    fs'.Holds good number := by
  obtain ⟨file, hfile, hsettled, hgood⟩ := h
  exact ⟨file, hfs.settled number file hfile hsettled, hsettled, hgood⟩

/-! ## What follows -/

theorem Published.lookup (h : fs.Published good staging final number) :
    fs.lookup final = some number :=
  h.atFinal _ (fs.lookup_mem_outcomes final)

theorem Published.resumable (h : fs.Published good staging final number) :
    fs.Resumable good staging final number where
  atStaging := h.atStaging
  atFinal entry hentry := .inr (h.atFinal entry hentry)
  holds _ := h.holds
  unlinked hnone := by
    rw [h.lookup] at hnone
    cases hnone
  unstaged _ := .inr h.atFinal

theorem Gone.lookup (h : fs.Gone staging final) :
    fs.lookup staging = none ∧ fs.lookup final = none :=
  ⟨h.atStaging _ (fs.lookup_mem_outcomes staging), h.atFinal _ (fs.lookup_mem_outcomes final)⟩

theorem Gone.resumable (h : fs.Gone staging final) (number : Nat) :
    fs.Resumable good staging final number where
  atStaging entry hentry := .inl (h.atStaging entry hentry)
  atFinal entry hentry := .inl (h.atFinal entry hentry)
  holds hmem := by cases h.atFinal _ hmem
  unlinked _ := h.atFinal
  unstaged _ := .inl h.atStaging

theorem Gone.unfinished (h : fs.Gone staging final) (number : Nat) :
    fs.Unfinished good staging final number :=
  (h.resumable number).toUnfinished

/-- A publication of which nothing is left has left nothing for a loss of power either. -/
theorem Resumable.gone (h : fs.Resumable good staging final number)
    (hstaging : fs.lookup staging = none) (hfinal : fs.lookup final = none) :
    fs.Gone staging final where
  atFinal := h.unlinked hfinal
  atStaging := by
    rcases h.unstaged hstaging with hgone | hlinked
    · exact hgone
    · have := hlinked _ (fs.lookup_mem_outcomes final)
      rw [hfinal] at this
      cases this

theorem Unfinished.lookup_final (h : fs.Unfinished good staging final number) {other : Nat}
    (hlookup : fs.lookup final = some other) : other = number ∧ fs.Holds good number := by
  have hmem := fs.lookup_mem_outcomes final
  rw [hlookup] at hmem
  rcases h.atFinal _ hmem with hnone | hsome
  · cases hnone
  · obtain rfl := Option.some.inj hsome
    exact ⟨rfl, h.holds hmem⟩

theorem Unfinished.lookup_staging (h : fs.Unfinished good staging final number) {other : Nat}
    (hlookup : fs.lookup staging = some other) : other = number := by
  have hmem := fs.lookup_mem_outcomes staging
  rw [hlookup] at hmem
  rcases h.atStaging _ hmem with hnone | hsome
  · cases hnone
  · exact Option.some.inj hsome

/-! ## What others do -/

section Others

variable (hfs : fs.Endures places fs') (hstaging : staging ∉ places) (hfinal : final ∉ places)

include hfs hstaging hfinal

theorem Unfinished.endures (h : fs.Unfinished good staging final number) :
    fs'.Unfinished good staging final number where
  atStaging entry hentry := h.atStaging entry (hfs.outcomes staging hstaging entry hentry)
  atFinal entry hentry := h.atFinal entry (hfs.outcomes final hfinal entry hentry)
  holds hmem := (h.holds (hfs.outcomes final hfinal _ hmem)).endures hfs

theorem Published.endures (h : fs.Published good staging final number) :
    fs'.Published good staging final number where
  atStaging entry hentry := h.atStaging entry (hfs.outcomes staging hstaging entry hentry)
  atFinal entry hentry := h.atFinal entry (hfs.outcomes final hfinal entry hentry)
  holds := h.holds.endures hfs

theorem Gone.endures (h : fs.Gone staging final) : fs'.Gone staging final where
  atStaging entry hentry := h.atStaging entry (hfs.outcomes staging hstaging entry hentry)
  atFinal entry hentry := h.atFinal entry (hfs.outcomes final hfinal entry hentry)

theorem Resumable.endures (h : fs.Resumable good staging final number) :
    fs'.Resumable good staging final number where
  toUnfinished := h.toUnfinished.endures hfs hstaging hfinal
  unlinked hnone entry hentry := by
    rcases hfs.lookup final hfinal with hsame | honly
    · rw [hsame] at hnone
      exact h.unlinked hnone entry (hfs.outcomes final hfinal entry hentry)
    · rw [honly entry hentry, hnone]
  unstaged hnone := by
    rcases hfs.lookup staging hstaging with hsame | honly
    · rw [hsame] at hnone
      rcases h.unstaged hnone with hgone | hlinked
      · exact .inl fun entry hentry => hgone entry (hfs.outcomes staging hstaging entry hentry)
      · exact .inr fun entry hentry => hlinked entry (hfs.outcomes final hfinal entry hentry)
    · exact .inl fun entry hentry => by rw [honly entry hentry, hnone]

end Others

/-! ## The steps of a publication -/

section Steps

/-- The file that is written is not linked yet. -/
theorem Resumable.append (h : fs.Resumable good staging final number) (other : Nat)
    (bytes : List UInt8) (hfinal : ∀ entry ∈ fs.outcomes final, entry = none) :
    (fs.append other bytes).Resumable good staging final number where
  atStaging := h.atStaging
  atFinal := h.atFinal
  holds hmem := by cases hfinal _ hmem
  unlinked := h.unlinked
  unstaged := h.unstaged

theorem Resumable.syncFile (h : fs.Resumable good staging final number) (other : Nat) :
    (fs.syncFile other).Resumable good staging final number :=
  h.endures endures_syncFile (Set.notMem_empty _) (Set.notMem_empty _)

theorem Published.syncFile (h : fs.Published good staging final number) (other : Nat) :
    (fs.syncFile other).Published good staging final number :=
  h.endures endures_syncFile (Set.notMem_empty _) (Set.notMem_empty _)

variable [DecidableEq D]

theorem Resumable.syncDirectory (h : fs.Resumable good staging final number) (d : D) :
    (fs.syncDirectory d).Resumable good staging final number :=
  h.endures endures_syncDirectory (Set.notMem_empty _) (Set.notMem_empty _)

theorem Published.syncDirectory (h : fs.Published good staging final number) (d : D) :
    (fs.syncDirectory d).Published good staging final number :=
  h.endures endures_syncDirectory (Set.notMem_empty _) (Set.notMem_empty _)

theorem Unfinished.syncDirectory (h : fs.Unfinished good staging final number) (d : D) :
    (fs.syncDirectory d).Unfinished good staging final number :=
  h.endures endures_syncDirectory (Set.notMem_empty _) (Set.notMem_empty _)

/-- A new file under the staging name. -/
theorem Gone.createNew (h : fs.Gone staging final) (hplaces : staging ≠ final) :
    (fs.createNew staging).2.Resumable good staging final (fs.createNew staging).1 := by
  have hfinal : ∀ entry ∈ (fs.createNew staging).2.outcomes final, entry = none := by
    intro entry hentry
    unfold DurableFiles.createNew at hentry
    rw [outcomes_record_of_ne hplaces] at hentry
    exact h.atFinal entry hentry
  refine ⟨⟨?_, fun entry hentry => .inl (hfinal entry hentry), ?_⟩, fun _ => hfinal, ?_⟩
  · intro entry hentry
    unfold DurableFiles.createNew at hentry
    rw [outcomes_record_self, List.mem_cons] at hentry
    rcases hentry with rfl | hold
    · exact .inr rfl
    · exact .inl (h.atStaging entry hold)
  · intro hmem
    cases hfinal _ hmem
  · intro hnone
    unfold DurableFiles.createNew at hnone
    rw [lookup_record_self] at hnone
    cases hnone

/-- The complete file gets its final name. -/
theorem Resumable.link (h : fs.Resumable good staging final number) (hplaces : final ≠ staging)
    (hholds : fs.Holds good number) (hstaged : fs.lookup staging = some number)
    (hvalid : ∀ other, some number = some other → other < fs.files.length) :
    (fs.record final (some number) hvalid).Resumable good staging final number where
  atStaging := by
    rw [outcomes_record_of_ne hplaces]
    exact h.atStaging
  atFinal := by
    intro entry hentry
    rw [outcomes_record_self, List.mem_cons] at hentry
    rcases hentry with rfl | hold
    · exact .inr rfl
    · exact h.atFinal entry hold
  holds _ := hholds
  unlinked hnone := by
    rw [lookup_record_self] at hnone
    cases hnone
  unstaged hnone := by
    rw [lookup_record_of_ne hplaces, hstaged] at hnone
    cases hnone

/-- The link reaches the disk. -/
theorem Unfinished.published (h : fs.Unfinished good staging final number)
    (hlinked : fs.lookup final = some number) :
    (fs.syncDirectory final.1).Published good staging final number where
  atStaging := (h.syncDirectory final.1).atStaging
  atFinal entry hentry := by
    rw [outcomes_syncDirectory_self, List.mem_singleton] at hentry
    rw [hentry, hlinked]
  holds := (h.lookup_final hlinked).2.endures endures_syncDirectory

theorem Published.unlink (h : fs.Published good staging final number)
    (hplaces : staging ≠ final) : (fs.unlink staging).Published good staging final number where
  atStaging entry hentry := by
    unfold DurableFiles.unlink at hentry
    rw [outcomes_record_self, List.mem_cons] at hentry
    rcases hentry with rfl | hold
    · exact .inl rfl
    · exact h.atStaging entry hold
  atFinal entry hentry := by
    unfold DurableFiles.unlink at hentry
    rw [outcomes_record_of_ne hplaces] at hentry
    exact h.atFinal entry hentry
  holds := h.holds.endures endures_unlink

/-! ## The steps of a removal -/

theorem Unfinished.unlink (h : fs.Unfinished good staging final number)
    (place : FilePlace D ν) : (fs.unlink place).Unfinished good staging final number := by
  have houtcomes : ∀ other, ∀ entry ∈ (fs.unlink place).outcomes other,
      entry = none ∨ entry ∈ fs.outcomes other := by
    intro other entry hentry
    unfold DurableFiles.unlink at hentry
    by_cases hsame : place = other
    · subst hsame
      rw [outcomes_record_self, List.mem_cons] at hentry
      exact hentry
    · rw [outcomes_record_of_ne hsame] at hentry
      exact .inr hentry
  refine ⟨?_, ?_, ?_⟩
  · intro entry hentry
    rcases houtcomes _ _ hentry with hnone | hold
    · exact .inl hnone
    · exact h.atStaging entry hold
  · intro entry hentry
    rcases houtcomes _ _ hentry with hnone | hold
    · exact .inl hnone
    · exact h.atFinal entry hold
  · intro hmem
    rcases houtcomes _ _ hmem with hnone | hold
    · cases hnone
    · exact (h.holds hold).endures endures_unlink

/-- A name that leads nowhere may be unlinked. -/
theorem Gone.unlink (h : fs.Gone staging final) (place : FilePlace D ν) :
    (fs.unlink place).Gone staging final := by
  have houtcomes : ∀ other, (∀ entry ∈ fs.outcomes other, entry = none) →
      ∀ entry ∈ (fs.unlink place).outcomes other, entry = none := by
    intro other hnone entry hentry
    unfold DurableFiles.unlink at hentry
    by_cases hsame : place = other
    · subst hsame
      rw [outcomes_record_self, List.mem_cons] at hentry
      exact hentry.elim id (hnone entry)
    · rw [outcomes_record_of_ne hsame] at hentry
      exact hnone entry hentry
  exact ⟨houtcomes staging h.atStaging, houtcomes final h.atFinal⟩

theorem Gone.syncDirectory (h : fs.Gone staging final) (d : D) :
    (fs.syncDirectory d).Gone staging final :=
  h.endures endures_syncDirectory (Set.notMem_empty _) (Set.notMem_empty _)

/-- Two names that are missing, with their directories synced. -/
theorem gone_of_lookup (hstaging : fs.lookup staging = none) (hfinal : fs.lookup final = none) :
    ((fs.syncDirectory staging.1).syncDirectory final.1).Gone staging final where
  atFinal entry hentry := by
    rw [outcomes_syncDirectory_self, lookup_syncDirectory, List.mem_singleton] at hentry
    rw [hentry, hfinal]
  atStaging entry hentry := by
    have hsynced := endures_syncDirectory.outcomes staging (Set.notMem_empty _) entry hentry
    rw [outcomes_syncDirectory_self, List.mem_singleton] at hsynced
    rw [hsynced, hstaging]

end Steps

end DurableFiles

/-! ## Many publications -/

inductive PublicationStage where
  | resumable
  | published
  | unfinished
  | gone
deriving DecidableEq, Repr

/-- The two names of one file, what its contents should be, and how far it should be. -/
structure Publication (D ν : Type) where
  staging : FilePlace D ν
  final : FilePlace D ν
  good : List UInt8 → Prop
  stage : PublicationStage

namespace Publication

variable {D ν : Type} [DecidableEq ν] {fs fs' : DurableFiles D ν} {x : Publication D ν}
  {changed : Set (FilePlace D ν)}

omit [DecidableEq ν] in
def places (x : Publication D ν) : Set (FilePlace D ν) :=
  {x.staging, x.final}

/-- The publication is at its stage. -/
def At (x : Publication D ν) (fs : DurableFiles D ν) : Prop :=
  match x.stage with
  | .resumable => ∃ number, fs.Resumable x.good x.staging x.final number
  | .published => ∃ number, fs.Published x.good x.staging x.final number
  | .unfinished => ∃ number, fs.Unfinished x.good x.staging x.final number
  | .gone => fs.Gone x.staging x.final

omit [DecidableEq ν] in
theorem staging_mem_places : x.staging ∈ x.places :=
  Set.mem_insert _ _

omit [DecidableEq ν] in
theorem final_mem_places : x.final ∈ x.places :=
  Set.mem_insert_of_mem _ rfl

theorem At.endures (h : x.At fs) (hfs : fs.Endures changed fs') (hstaging : x.staging ∉ changed)
    (hfinal : x.final ∉ changed) : x.At fs' := by
  unfold At at h ⊢
  split at h
  · exact h.imp fun _ h => h.endures hfs hstaging hfinal
  · exact h.imp fun _ h => h.endures hfs hstaging hfinal
  · exact h.imp fun _ h => h.endures hfs hstaging hfinal
  · exact h.endures hfs hstaging hfinal

/-- Every stage is an unfinished one. -/
theorem At.unfinished (h : x.At fs) :
    ∃ number, fs.Unfinished x.good x.staging x.final number := by
  unfold At at h
  split at h
  · exact h.imp fun _ h => h.toUnfinished
  · exact h.imp fun _ h => h.resumable.toUnfinished
  · exact h
  · exact ⟨0, h.unfinished 0⟩

end Publication

namespace DurableFiles

variable {D ν : Type} [DecidableEq ν] {fs fs' : DurableFiles D ν}
  {publications publications' : Set (Publication D ν)} {places : Set (FilePlace D ν)}

/-- Each publication is at its stage, and no other name leads to a file or can come to do so. -/
structure Tracked (fs : DurableFiles D ν) (publications : Set (Publication D ν)) : Prop where
  at_stage : ∀ x ∈ publications, x.At fs
  strangers : ∀ place, (∀ x ∈ publications, place ∉ x.places) →
    ∀ entry ∈ fs.outcomes place, entry = none

/-- What is changed belongs to publications that are at their stages afterwards. -/
theorem Tracked.endures (h : fs.Tracked publications) (hfs : fs.Endures places fs')
    (hplaces : ∀ place ∈ places, ∃ x ∈ publications, place ∈ x.places)
    (hat : ∀ x ∈ publications, x.At fs' ∨ x.staging ∉ places ∧ x.final ∉ places) :
    fs'.Tracked publications where
  at_stage x hx := by
    rcases hat x hx with hdone | ⟨hstaging, hfinal⟩
    · exact hdone
    · exact (h.at_stage x hx).endures hfs hstaging hfinal
  strangers place hplace entry hentry := by
    refine h.strangers place hplace entry (hfs.outcomes place ?_ entry hentry)
    intro hmem
    obtain ⟨x, hx, hin⟩ := hplaces place hmem
    exact hplace x hx hin

/-- A loss of power. -/
theorem Tracked.powerLoss (h : fs.Tracked publications) (hfs : fs.PowerLoss fs') :
    fs'.Tracked publications :=
  h.endures hfs.endures (fun _ hmem => absurd hmem (Set.notMem_empty _))
    fun _ _ => .inr ⟨Set.notMem_empty _, Set.notMem_empty _⟩

/-- Other publications: a name that is given up leads nowhere. -/
theorem Tracked.replace (h : fs.Tracked publications) (hat : ∀ x ∈ publications', x.At fs)
    (hplaces : ∀ x ∈ publications, ∀ place ∈ x.places,
      (∃ x' ∈ publications', place ∈ x'.places) ∨ ∀ entry ∈ fs.outcomes place, entry = none) :
    fs.Tracked publications' where
  at_stage := hat
  strangers place hplace entry hentry := by
    by_cases hold : ∃ x ∈ publications, place ∈ x.places
    · obtain ⟨x, hx, hin⟩ := hold
      rcases hplaces x hx place hin with ⟨x', hx', hin'⟩ | hnone
      · exact absurd hin' (hplace x' hx')
      · exact hnone entry hentry
    · exact h.strangers place (fun x hx hin => hold ⟨x, hx, hin⟩) entry hentry

end DurableFiles
