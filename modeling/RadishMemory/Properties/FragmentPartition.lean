import RadishMemory.Properties.SourceWrites
import Mathlib.Algebra.Order.Ring.Nat
import Mathlib.Data.List.Range

/-!
# A complete fragment set is a partition

`validate_complete_source_fragment_set` checks each fragment alone, its slice against the source
and its place against the fragment before it.  Together the checks say that the fragments, in
list order, cut the text of the source into consecutive pieces (`IsPartition`): their ranges abut
from its first byte to its last, and their contents in turn are its content.
-/

namespace RadishMemory

section Text

/-! ## Cutting a text -/

/-- The length of the UTF-8 encoding of some characters. -/
def byteLength (chars : List Char) : Nat :=
  (chars.map Char.utf8Size).sum

@[simp] theorem byteLength_nil : byteLength [] = 0 := rfl

@[simp] theorem byteLength_cons (c : Char) (chars : List Char) :
    byteLength (c :: chars) = c.utf8Size + byteLength chars := rfl

@[simp] theorem byteLength_append (front back : List Char) :
    byteLength (front ++ back) = byteLength front + byteLength back := by
  simp [byteLength]

theorem byteLength_eq_zero_iff {chars : List Char} : byteLength chars = 0 ↔ chars = [] := by
  cases chars with
  | nil => simp
  | cons c chars =>
    have hpos := c.utf8Size_pos
    simp only [byteLength_cons, reduceCtorEq, iff_false]
    omega

theorem byteLength_toList (text : String) : byteLength text.toList = text.utf8ByteSize := by
  have hencode : text.toList.utf8Encode.size = byteLength text.toList := by
    unfold List.utf8Encode byteLength
    simp [List.length_flatMap]
  rw [← hencode, String.utf8Encode_toList, String.size_toByteArray]

theorem splitBytes_eq_some_iff {n : Nat} {chars taken rest : List Char} :
    splitBytes n chars = some (taken, rest) ↔ chars = taken ++ rest ∧ byteLength taken = n := by
  induction chars generalizing n taken rest with
  | nil =>
    cases n with
    | zero =>
      simp only [splitBytes, Option.some.injEq, Prod.mk.injEq, List.nil_eq, List.append_eq_nil_iff]
      constructor
      · rintro ⟨rfl, rfl⟩
        simp
      · rintro ⟨⟨rfl, rfl⟩, -⟩
        simp
    | succ n =>
      simp only [splitBytes, reduceCtorEq, List.nil_eq, List.append_eq_nil_iff, false_iff]
      rintro ⟨⟨rfl, -⟩, hlength⟩
      simp at hlength
  | cons c chars ih =>
    have hpos := c.utf8Size_pos
    cases n with
    | zero =>
      simp only [splitBytes, Option.some.injEq, Prod.mk.injEq, byteLength_eq_zero_iff]
      constructor
      · rintro ⟨rfl, rfl⟩
        simp
      · rintro ⟨hchars, rfl⟩
        simpa using hchars
    | succ n =>
      rw [splitBytes]
      by_cases hfits : c.utf8Size ≤ n + 1
      · rw [if_pos hfits]
        simp only [Option.map_eq_some_iff, Prod.exists, Prod.mk.injEq, ih]
        constructor
        · rintro ⟨taken', rest', ⟨rfl, hlength⟩, rfl, rfl⟩
          refine ⟨by simp, ?_⟩
          rw [byteLength_cons]
          omega
        · rintro ⟨hchars, hlength⟩
          cases taken with
          | nil => simp at hlength
          | cons d taken =>
            obtain ⟨rfl, rfl⟩ : c = d ∧ chars = taken ++ rest := by simpa using hchars
            rw [byteLength_cons] at hlength
            exact ⟨taken, rest, ⟨rfl, by omega⟩, rfl, rfl⟩
      · rw [if_neg hfits]
        simp only [reduceCtorEq, false_iff]
        rintro ⟨hchars, hlength⟩
        cases taken with
        | nil => simp at hlength
        | cons d taken =>
          obtain ⟨rfl, -⟩ : c = d ∧ chars = taken ++ rest := by simpa using hchars
          rw [byteLength_cons] at hlength
          omega

/-- A slice is what is left of a text between two pieces of the lengths that the offsets say. -/
theorem sliceBytes_eq_some_iff {text slice : String} {start «end» : Nat} :
    sliceBytes text start «end» = some slice ↔
      start ≤ «end» ∧ ∃ front back, text.toList = front ++ (slice.toList ++ back) ∧
        byteLength front = start ∧ byteLength slice.toList = «end» - start := by
  unfold sliceBytes
  by_cases hle : start ≤ «end»
  · simp only [if_pos hle, Option.bind_eq_some_iff, Prod.exists, Option.map_eq_some_iff,
      splitBytes_eq_some_iff]
    constructor
    · rintro ⟨front, later, ⟨htext, hfront⟩, taken, back, ⟨rfl, htaken⟩, rfl⟩
      exact ⟨hle, front, back, by simpa using htext, hfront, by simpa using htaken⟩
    · rintro ⟨-, front, back, htext, hfront, hslice⟩
      exact ⟨front, _, ⟨htext, hfront⟩, slice.toList, back, ⟨rfl, hslice⟩, by simp⟩
  · simp [hle]

/-- An offset between two characters of a text. -/
def IsBoundary (text : String) (offset : Nat) : Prop :=
  ∃ front back, text.toList = front ++ back ∧ byteLength front = offset

end Text

section Partition

variable [Platform]

/-! ## Ranges -/

/-- The ranges of the fragments follow one another from `start` to `«end»`. -/
def Abut (start : Nat) : List SourceFragment → Nat → Prop
  | [], «end» => start = «end»
  | fragment :: rest, «end» =>
    fragment.params.byteStart = start ∧ Abut fragment.params.byteEnd rest «end»

/-- The contents of the fragments, in turn. -/
def concatenation (fragments : List SourceFragment) : List Char :=
  fragments.flatMap fun fragment => fragment.params.content.asStr.toList

/-- The fragment is one of the source, and is governed as it is. -/
structure FragmentOf (source : SourceArtifact) (fragment : SourceFragment) : Prop where
  source_id : fragment.params.sourceId = source.params.sourceId
  namespace_id : fragment.params.namespaceId = source.params.namespaceId
  governed : (fragment.params.governance == source.params.governance) = true

/-- The fragments, in list order, are consecutive pieces of the source, and all of it. -/
structure IsPartition (source : SourceArtifact) (fragments : List SourceFragment) : Prop where
  nonempty : fragments ≠ []
  ordinals : fragments.map (fun f => f.params.ordinal) = List.range fragments.length
  nodup : (fragments.map fun f => f.params.fragmentId).Nodup
  fragmentOf : ∀ f ∈ fragments, FragmentOf source f
  active : source.params.governance.deletionState = .active
  abut : Abut 0 fragments source.params.contentLength
  concat : concatenation fragments = source.params.content.asStr.toList

/-- What the constructor says of a fragment's range. -/
theorem SourceFragment.range (fragment : SourceFragment) :
    fragment.params.byteStart < fragment.params.byteEnd ∧
      byteLength fragment.params.content.asStr.toList =
        fragment.params.byteEnd - fragment.params.byteStart := by
  have hcheck := fragment.valid
  simp only [SourceFragmentParams.check, Except.bind_eq_ok_iff, Except.exists_unit_iff,
    require_eq_ok_iff] at hcheck
  refine ⟨hcheck.1, ?_⟩
  rw [byteLength_toList, hcheck.2.1]
  rfl

theorem SourceArtifact.contentLength_eq (source : SourceArtifact) :
    source.params.contentLength = byteLength source.params.content.asStr.toList := by
  have hcheck := source.valid
  simp only [SourceArtifactParams.check, Except.bind_eq_ok_iff, Except.exists_unit_iff,
    require_eq_ok_iff] at hcheck
  rw [byteLength_toList, hcheck.2.1]
  rfl

omit [Platform] in
/-- A rule with the same mode, instant and policy keeps as long. -/
theorem retentionIsNoLater_of_beq {derived source : Governance}
    (h : (derived.retention == source.retention) = true) :
    retentionIsNoLater derived source = true := by
  have hparts : (derived.retention.mode == source.retention.mode &&
      derived.retention.expiresAt == source.retention.expiresAt &&
      derived.retention.policyId == source.retention.policyId) = true := h
  simp only [Bool.and_eq_true, beq_iff_eq] at hparts
  obtain ⟨⟨hmode, hexpires⟩, hpolicy⟩ := hparts
  unfold retentionIsNoLater
  rw [hmode]
  cases source.retention.mode with
  | untilDeleted => rfl
  | untilTime =>
    cases hleft : derived.retention.expiresAt with
    | none => rfl
    | some left =>
      cases hright : source.retention.expiresAt with
      | none => simp [hleft, hright] at hexpires
      | some right =>
        have hcmp : (left.cmp right == .eq) = true := by
          rw [hleft, hright] at hexpires
          exact hexpires
        have hle : left ≤ right := by
          show left.cmp right ≠ .gt
          rw [beq_iff_eq.1 hcmp]
          decide
        simpa using hle
  | policy => simpa using hpolicy

omit [Platform] in
/-- The governance of the source, at the same instants, is one that may be derived from it. -/
theorem validateGovernanceDerivation_of_beq {derived source : Governance}
    (h : (derived == source) = true) : validateGovernanceDerivation derived [source] = .ok () := by
  have hparts : (derived.sensitivity == source.sensitivity &&
      derived.egressPolicy == source.egressPolicy && derived.retention == source.retention &&
      derived.deletionState == source.deletionState &&
      derived.policyBasis == source.policyBasis) = true := h
  simp only [Bool.and_eq_true, beq_iff_eq] at hparts
  obtain ⟨⟨⟨⟨hsensitivity, -⟩, hretention⟩, hstate⟩, -⟩ := hparts
  have hkept := retentionIsNoLater_of_beq hretention
  simp only [validateGovernanceDerivation, Except.bind_eq_ok_iff, Except.exists_unit_iff,
    require_eq_ok_iff, checkAll_eq_ok_iff, List.mem_singleton, forall_eq]
  exact ⟨by simp, by simp [hsensitivity], hkept, by simp [hstate]⟩

/-! ## The loop -/

/-- What the loop checks: each fragment resolves, is governed as the source is and in its place,
and its id was not seen. -/
theorem validateFragmentsFrom_eq_ok_iff {source : SourceArtifact} {ordinal start «end» : Nat}
    {seen : List Identifier} {fragments : List SourceFragment} :
    validateFragmentsFrom source ordinal start seen fragments = .ok «end» ↔
      (∀ f ∈ fragments, validateSourceFragmentResolution f source = .ok () ∧
        (f.params.governance == source.params.governance) = true ∧
        f.params.fragmentId ∉ seen) ∧
      fragments.map (fun f => f.params.ordinal) = List.range' ordinal fragments.length ∧
      (fragments.map fun f => f.params.fragmentId).Nodup ∧ Abut start fragments «end» := by
  induction fragments generalizing ordinal start seen with
  | nil => simp [validateFragmentsFrom, Abut]
  | cons fragment rest ih =>
    simp only [validateFragmentsFrom, Except.bind_eq_ok_iff, Except.exists_unit_iff,
      require_eq_ok_iff, ih, List.mem_cons, forall_eq_or_imp, List.map_cons, List.length_cons,
      List.range'_succ, List.cons.injEq, List.nodup_cons, List.mem_map, Abut]
    constructor
    · rintro ⟨hresolution, ⟨hgoverned, hseen, hordinal, hstart⟩, hrest, hordinals, hnodup, habut⟩
      refine ⟨⟨⟨hresolution, hgoverned, hseen⟩, fun f hf => ?_⟩, ⟨hordinal, hordinals⟩,
        ⟨?_, hnodup⟩, hstart, habut⟩
      · obtain ⟨hresolution', hgoverned', hseen'⟩ := hrest f hf
        exact ⟨hresolution', hgoverned', fun hmem => hseen' (.inr hmem)⟩
      · rintro ⟨f, hf, heq⟩
        exact (hrest f hf).2.2 (.inl heq)
    · rintro ⟨⟨⟨hresolution, hgoverned, hseen⟩, hrest⟩, ⟨hordinal, hordinals⟩, ⟨hnew, hnodup⟩,
        hstart, habut⟩
      refine ⟨hresolution, ⟨hgoverned, hseen, hordinal, hstart⟩, fun f hf => ?_, hordinals, hnodup,
        habut⟩
      obtain ⟨hresolution', hgoverned', hseen'⟩ := hrest f hf
      refine ⟨hresolution', hgoverned', ?_⟩
      rintro (heq | hmem)
      · exact hnew ⟨f, hf, heq⟩
      · exact hseen' hmem

/-! ## Slices and contents -/

theorem byteLength_concatenation {fragments : List SourceFragment} {start «end» : Nat}
    (h : Abut start fragments «end») :
    start + byteLength (concatenation fragments) = «end» := by
  induction fragments generalizing start with
  | nil => simpa [concatenation, Abut] using h
  | cons fragment rest ih =>
    obtain ⟨rfl, hrest⟩ := h
    obtain ⟨hlt, hlength⟩ := fragment.range
    have hlater := ih hrest
    simp only [concatenation, List.flatMap_cons, byteLength_append] at hlater ⊢
    omega

/-- Fragments that are slices in their places are, in turn, one slice. -/
theorem concatenation_of_slices {source : SourceArtifact} {fragments : List SourceFragment}
    {front later : List Char} {«end» : Nat}
    (hsource : source.params.content.asStr.toList = front ++ later)
    (habut : Abut (byteLength front) fragments «end»)
    (hslices : ∀ f ∈ fragments, sliceBytes source.params.content.asStr f.params.byteStart
      f.params.byteEnd = some f.params.content.asStr) :
    ∃ back, later = concatenation fragments ++ back := by
  induction fragments generalizing front later with
  | nil => exact ⟨later, rfl⟩
  | cons fragment rest ih =>
    obtain ⟨hstart, hrest⟩ := habut
    obtain ⟨hlt, hlength⟩ := fragment.range
    obtain ⟨-, front', back', htext, hfront, -⟩ :=
      sliceBytes_eq_some_iff.1 (hslices fragment (by simp))
    -- the text is split at one offset in two ways, so the pieces are the same
    have hsplit := splitBytes_eq_some_iff.2 ⟨hsource, rfl⟩
    have hsplit' := splitBytes_eq_some_iff.2 ⟨htext, hfront⟩
    rw [hstart, hsplit] at hsplit'
    obtain ⟨rfl, rfl⟩ : front = front' ∧ later = fragment.params.content.asStr.toList ++ back' := by
      simpa using hsplit'
    have hnext : byteLength (front ++ fragment.params.content.asStr.toList) =
        fragment.params.byteEnd := by
      rw [byteLength_append]
      omega
    have hsource' : source.params.content.asStr.toList =
        (front ++ fragment.params.content.asStr.toList) ++ back' := by simpa using hsource
    obtain ⟨back, rfl⟩ := ih hsource' (hnext ▸ hrest) fun f hf =>
      hslices f (List.mem_cons_of_mem _ hf)
    exact ⟨back, by simp [concatenation]⟩

/-- Fragments whose contents follow one another in the text are slices of it. -/
theorem slices_of_concatenation {source : SourceArtifact} {fragments : List SourceFragment}
    {front back : List Char} {«end» : Nat}
    (hsource : source.params.content.asStr.toList = front ++ (concatenation fragments ++ back))
    (habut : Abut (byteLength front) fragments «end») :
    ∀ f ∈ fragments, sliceBytes source.params.content.asStr f.params.byteStart
      f.params.byteEnd = some f.params.content.asStr := by
  induction fragments generalizing front with
  | nil => simp
  | cons fragment rest ih =>
    obtain ⟨hstart, hrest⟩ := habut
    obtain ⟨hlt, hlength⟩ := fragment.range
    have hsource' : source.params.content.asStr.toList =
        front ++ (fragment.params.content.asStr.toList ++ (concatenation rest ++ back)) := by
      simpa [concatenation] using hsource
    have hnext : byteLength (front ++ fragment.params.content.asStr.toList) =
        fragment.params.byteEnd := by
      rw [byteLength_append]
      omega
    intro f hf
    rcases List.mem_cons.1 hf with rfl | hf
    · exact sliceBytes_eq_some_iff.2 ⟨hlt.le, front, _, hsource', hstart.symm, hlength⟩
    · have hlater : source.params.content.asStr.toList =
          (front ++ fragment.params.content.asStr.toList) ++ (concatenation rest ++ back) := by
        simpa using hsource'
      exact ih hlater (hnext ▸ hrest) f hf

/-- The check of a complete set accepts exactly the partitions of the source. -/
theorem validateCompleteSourceFragmentSet_eq_ok_iff {source : SourceArtifact}
    {fragments : List SourceFragment} :
    validateCompleteSourceFragmentSet source fragments = .ok () ↔
      IsPartition source fragments := by
  simp only [validateCompleteSourceFragmentSet, Except.bind_eq_ok_iff, Except.exists_unit_iff,
    require_eq_ok_iff, exists_eq_right, validateFragmentsFrom_eq_ok_iff, ← List.range_eq_range']
  constructor
  · rintro ⟨hne, hall, hordinals, hnodup, habut⟩
    have hresolved : ∀ f ∈ fragments, _ := fun f hf =>
      validateSourceFragmentResolution_eq_ok_iff.1 (hall f hf).1
    have hactive : source.params.governance.deletionState = .active := by
      obtain ⟨f, hf⟩ := List.exists_mem_of_ne_nil fragments hne
      exact (hresolved f hf).2.2.1
    refine { nonempty := hne, ordinals := hordinals, nodup := hnodup, fragmentOf := ?_,
             active := hactive, abut := habut, concat := ?_ }
    · intro f hf
      obtain ⟨hid, hnamespace, -⟩ := hresolved f hf
      exact ⟨hid, hnamespace, (hall f hf).2.1⟩
    · obtain ⟨back, hback⟩ := concatenation_of_slices (List.nil_append _).symm habut
        fun f hf => (hresolved f hf).2.2.2.2
      have hlength := byteLength_concatenation habut
      rw [source.contentLength_eq, hback, byteLength_append] at hlength
      have hnil : back = [] := byteLength_eq_zero_iff.1 (by omega)
      rw [hback, hnil, List.append_nil]
  · intro h
    have hsource : source.params.content.asStr.toList = [] ++ (concatenation fragments ++ []) := by
      simp [h.concat]
    have hslices := slices_of_concatenation hsource h.abut
    refine ⟨h.nonempty, fun f hf => ⟨?_, (h.fragmentOf f hf).governed, by simp⟩, h.ordinals,
      h.nodup, h.abut⟩
    obtain ⟨hid, hnamespace, hgoverned⟩ := h.fragmentOf f hf
    exact validateSourceFragmentResolution_eq_ok_iff.2
      ⟨hid, hnamespace, h.active, validateGovernanceDerivation_of_beq hgoverned, hslices f hf⟩

/-! ## Ranges of an accepted set -/

theorem Abut.byteStart_ge {fragments : List SourceFragment} {start «end» : Nat}
    (h : Abut start fragments «end») : ∀ f ∈ fragments, start ≤ f.params.byteStart := by
  induction fragments generalizing start with
  | nil => simp
  | cons fragment rest ih =>
    obtain ⟨rfl, hrest⟩ := h
    intro f hf
    rcases List.mem_cons.1 hf with rfl | hf
    · exact le_rfl
    · have hlater := ih hrest f hf
      have hrange := fragment.range.1
      omega

theorem Abut.pairwise {fragments : List SourceFragment} {start «end» : Nat}
    (h : Abut start fragments «end») :
    fragments.Pairwise fun f g => f.params.byteEnd ≤ g.params.byteStart := by
  induction fragments generalizing start with
  | nil => exact .nil
  | cons fragment rest ih => exact .cons h.2.byteStart_ge (ih h.2)

/-- Two different fragments do not overlap. -/
theorem Abut.apart {fragments : List SourceFragment} {start «end» : Nat}
    (h : Abut start fragments «end») {f g : SourceFragment} (hf : f ∈ fragments)
    (hg : g ∈ fragments) (hne : f ≠ g) :
    f.params.byteEnd ≤ g.params.byteStart ∨ g.params.byteEnd ≤ f.params.byteStart := by
  have hpairwise : fragments.Pairwise fun x y => x.params.byteEnd ≤ y.params.byteStart ∨
      y.params.byteEnd ≤ x.params.byteStart := h.pairwise.imp .inl
  have hsymm : Std.Symm fun x y : SourceFragment => x.params.byteEnd ≤ y.params.byteStart ∨
      y.params.byteEnd ≤ x.params.byteStart := ⟨fun _ _ => Or.symm⟩
  exact hpairwise.forall hf hg hne

theorem Abut.covers {fragments : List SourceFragment} {start «end» offset : Nat}
    (h : Abut start fragments «end») (hstart : start ≤ offset) (hend : offset < «end») :
    ∃ f ∈ fragments, f.params.byteStart ≤ offset ∧ offset < f.params.byteEnd := by
  induction fragments generalizing start with
  | nil =>
    obtain rfl : start = «end» := h
    omega
  | cons fragment rest ih =>
    obtain ⟨rfl, hrest⟩ := h
    by_cases hlast : offset < fragment.params.byteEnd
    · exact ⟨fragment, by simp, hstart, hlast⟩
    · obtain ⟨f, hf, hcovers⟩ := ih hrest (by omega)
      exact ⟨f, List.mem_cons_of_mem _ hf, hcovers⟩

/-- No range is empty, none overlaps a later one, none is missing, and none begins or ends inside
a character. -/
structure CoversExactly (source : SourceArtifact) (fragments : List SourceFragment) : Prop where
  nonempty : ∀ f ∈ fragments, f.params.byteStart < f.params.byteEnd
  disjoint : fragments.Pairwise fun f g => f.params.byteEnd ≤ g.params.byteStart
  covers : ∀ offset < source.params.contentLength,
    ∃ f ∈ fragments, f.params.byteStart ≤ offset ∧ offset < f.params.byteEnd
  boundaries : ∀ f ∈ fragments, IsBoundary source.params.content.asStr f.params.byteStart ∧
    IsBoundary source.params.content.asStr f.params.byteEnd

theorem IsPartition.coversExactly {source : SourceArtifact} {fragments : List SourceFragment}
    (h : IsPartition source fragments) : CoversExactly source fragments := by
  refine { nonempty := fun f _ => f.range.1, disjoint := h.abut.pairwise,
           covers := fun offset => h.abut.covers (Nat.zero_le offset), boundaries := ?_ }
  intro f hf
  have hsource : source.params.content.asStr.toList = [] ++ (concatenation fragments ++ []) := by
    simp [h.concat]
  obtain ⟨hle, front, back, htext, hfront, hslice⟩ :=
    sliceBytes_eq_some_iff.1 (slices_of_concatenation hsource h.abut f hf)
  refine ⟨⟨front, _, htext, hfront⟩, front ++ f.params.content.asStr.toList, back, ?_, ?_⟩
  · simpa using htext
  · rw [byteLength_append]
    omega

/-- A set of fragments is accepted as complete exactly when it cuts the whole source into
consecutive pieces. -/
structure CompleteSetsArePartitions (source : SourceArtifact) (fragments : List SourceFragment) :
    Prop where
  accepted_iff : validateCompleteSourceFragmentSet source fragments = .ok () ↔
    IsPartition source fragments
  covers : validateCompleteSourceFragmentSet source fragments = .ok () →
    CoversExactly source fragments

theorem complete_sets_are_partitions (source : SourceArtifact) (fragments : List SourceFragment) :
    CompleteSetsArePartitions source fragments :=
  { accepted_iff := validateCompleteSourceFragmentSet_eq_ok_iff
    covers := fun h => (validateCompleteSourceFragmentSet_eq_ok_iff.1 h).coversExactly }

end Partition

end RadishMemory
