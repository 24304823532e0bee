import RadishMemory.Construction.Desktop.HostProfile
import RadishMemory.Properties.SelectedPaths

/-!
# All calls agree on the host profile

A process writes only to a file that it has created under a name of its own, and publishes it when
its bytes are complete: as the first entry of the profile's name.  No call changes a published file,
so every call that returns a profile read it from the same bytes, or wrote them.

A call publishes only after it has seen that there is no database.  A database that appears later
was created after a profile was published, and then the link fails.
-/

namespace RadishMemory
namespace Desktop

/-! ## Names -/

theorem temporaryPath_injective {a b : Identifier} (h : temporaryPath a = temporaryPath b) :
    a = b := by
  apply Identifier.ext_asStr
  have hchars := congrArg String.toList h
  simp only [temporaryPath, String.toList_append, List.append_assoc] at hchars
  exact String.toList_inj.1 (List.append_cancel_right (List.append_cancel_left hchars))

theorem temporaryPath_ne {name : String} (hname : name.toList.head? ≠ some '.')
    (namespaceId : Identifier) : temporaryPath namespaceId ≠ name := by
  rintro rfl
  apply hname
  simp [temporaryPath]

theorem temporaryPath_ne_profilePath (namespaceId : Identifier) :
    temporaryPath namespaceId ≠ profilePath :=
  temporaryPath_ne (by decide) namespaceId

theorem temporaryPath_ne_databasePath (namespaceId : Identifier) :
    temporaryPath namespaceId ≠ databasePath :=
  temporaryPath_ne (by decide) namespaceId

theorem profilePath_ne_databasePath : profilePath ≠ databasePath := by
  decide

/-! ## The profile text -/

theorem newline_not_mem {value : List Char} {start : String}
    (h : validProfileIdentifierValue value start = true) (hstart : '\n' ∉ start.toList) :
    '\n' ∉ value := by
  unfold validProfileIdentifierValue at h
  rw [Option.any_eq_true] at h
  obtain ⟨suffix, hsuffix, hdigits⟩ := h
  obtain ⟨front, rfl, hfront⟩ := List.dropPrefix?_eq_some_iff.1 hsuffix
  obtain rfl := eq_of_beq hfront
  rw [Bool.and_eq_true, List.all_eq_true] at hdigits
  rw [List.mem_append, not_or]
  refine ⟨hstart, fun hmem => ?_⟩
  have hdigit := hdigits.2 '\n' hmem
  revert hdigit
  decide

theorem dropPrefix_append (front rest : List Char) :
    (front ++ rest).dropPrefix? front = some rest :=
  List.dropPrefix?_eq_some_iff.2 ⟨front, rfl, beq_self_eq_true front⟩

theorem identifier_new_ofList (identifier : Identifier) :
    (Identifier.new (String.ofList identifier.asStr.toList)).toOption = some identifier := by
  rw [String.ofList_toList, Identifier.new, dif_pos identifier.nonempty]
  rfl

/-- The text, line by line. -/
def profileLines (profile : HostProfile) : List (List Char) :=
  ["contract_id=".toList ++ hostProfileContractId.toList,
    "namespace_id=".toList ++ profile.namespaceId.asStr.toList,
    "device_id=".toList ++ profile.deviceId.asStr.toList, []]

theorem newline_not_mem_profileLines {profile : HostProfile}
    (hnamespace : validProfileIdentifier profile.namespaceId "namespace-" = true)
    (hdevice : validProfileIdentifier profile.deviceId "device-" = true) :
    ∀ line ∈ profileLines profile, '\n' ∉ line := by
  intro line hline
  simp only [profileLines, List.mem_cons, List.not_mem_nil, or_false] at hline
  rcases hline with rfl | rfl | rfl | rfl
  · decide
  · rw [List.mem_append, not_or]
    exact ⟨by decide, newline_not_mem hnamespace (by decide)⟩
  · rw [List.mem_append, not_or]
    exact ⟨by decide, newline_not_mem hdevice (by decide)⟩
  · exact List.not_mem_nil

/-- What is published reads back as the profile. -/
theorem parseProfile_encodeProfile {profile : HostProfile}
    (hnamespace : validProfileIdentifier profile.namespaceId "namespace-" = true)
    (hdevice : validProfileIdentifier profile.deviceId "device-" = true) :
    parseProfile (encodeProfile profile) = some profile := by
  have hdecode := FileEntry.decodeUtf8_eq_some_iff.2 (rfl : _ = encodeProfile profile)
  have hlines : ("contract_id=" ++ hostProfileContractId ++ "\nnamespace_id=" ++
      profile.namespaceId.asStr ++ "\ndevice_id=" ++ profile.deviceId.asStr ++ "\n").toList =
      ['\n'].intercalate (profileLines profile) := by
    simp [profileLines, List.intercalate, List.intersperse]
  have hsplit := List.splitOn_intercalate '\n'
    (newline_not_mem_profileLines hnamespace hdevice) (List.cons_ne_nil _ _)
  have hvalid : ¬ (hostProfileContractId.toList ≠ hostProfileContractId.toList ∨
      validProfileIdentifierValue profile.namespaceId.asStr.toList "namespace-" = false ∨
      validProfileIdentifierValue profile.deviceId.asStr.toList "device-" = false) := by
    rw [validProfileIdentifier] at hnamespace hdevice
    simp [hnamespace, hdevice]
  unfold parseProfile
  rw [hdecode, Option.bind_eq_bind, Option.bind_some, hlines, hsplit]
  simp only [profileLines, dropPrefix_append, Option.bind_eq_bind, Option.bind_some,
    if_neg hvalid, identifier_new_ofList]
  rfl

/-! ## What the actors may do -/

variable {ι : Type} {runtime : ι → HostRuntime} {i : ι} {actor : Actor ι} {s s' : HostDirectory}
  {namespaceId : Identifier} {inode : Nat} {bytes : List UInt8}

/-- The profile is published with the bytes. -/
structure Published (inode : Nat) (bytes : List UInt8) (s : HostDirectory) : Prop where
  entry : s.entry profilePath = some (.file inode)
  content : s.content inode = bytes

/-- The temporary file of a call holds the bytes and has no other name. -/
structure Held (namespaceId : Identifier) (inode : Nat) (bytes : List UInt8)
    (s : HostDirectory) : Prop where
  entry : s.entry (temporaryPath namespaceId) = some (.file inode)
  alone : ∀ name, s.entry name = some (.file inode) → name = temporaryPath namespaceId
  content : s.content inode = bytes

/-- The bytes are those of a profile. -/
def Parses (bytes : List UInt8) : Prop :=
  ∃ profile, parseProfile bytes = some profile

/-- What is published is a profile. -/
def PublishedParses (s : HostDirectory) : Prop :=
  ∀ inode bytes, Published inode bytes s → Parses bytes

/-- A library without a profile has no database. -/
def Guarded (s : HostDirectory) : Prop :=
  s.entry databasePath ≠ none → s.entry profilePath ≠ none

/-- What an actor may do to the directory. -/
inductive HostChange (runtime : ι → HostRuntime) :
    Actor ι → HostDirectory → HostDirectory → Prop
  | same (actor : Actor ι) (s s' : HostDirectory) (hentry : s'.entry = s.entry)
      (hcontents : s'.contents = s.contents) : HostChange runtime actor s s'
  | createTemporary (i : ι) (namespaceId : Identifier) (s s' : HostDirectory)
      (hown : (runtime i).namespaceId = some namespaceId)
      (hfree : s.entry (temporaryPath namespaceId) = none)
      (hentry : s'.entry = Function.update s.entry (temporaryPath namespaceId)
        (some (.file s.contents.length)))
      (hcontents : s'.contents = s.contents ++ [[]]) : HostChange runtime (.process i) s s'
  | append (i : ι) (namespaceId : Identifier) (s s' : HostDirectory) (inode : Nat)
      (bytes more : List UInt8) (hown : (runtime i).namespaceId = some namespaceId)
      (hheld : Held namespaceId inode bytes s) (hentry : s'.entry = s.entry)
      (hcontents : s'.contents = s.contents.modify inode (· ++ more)) :
      HostChange runtime (.process i) s s'
  | publish (i : ι) (namespaceId : Identifier) (s s' : HostDirectory) (inode : Nat)
      (bytes : List UInt8) (hown : (runtime i).namespaceId = some namespaceId)
      (hheld : Held namespaceId inode bytes s) (hparses : Parses bytes)
      (hprofile : s.entry profilePath = none) (hdatabase : s.entry databasePath = none)
      (hentry : s'.entry = Function.update s.entry profilePath (some (.file inode)))
      (hcontents : s'.contents = s.contents) : HostChange runtime (.process i) s s'
  | removeTemporary (i : ι) (namespaceId : Identifier) (s s' : HostDirectory)
      (hown : (runtime i).namespaceId = some namespaceId)
      (hentry : s'.entry = Function.update s.entry (temporaryPath namespaceId) none)
      (hcontents : s'.contents = s.contents) : HostChange runtime (.process i) s s'
  | createDatabase (s s' : HostDirectory) (bytes : List UInt8)
      (hprofile : s.entry profilePath ≠ none)
      (hentry : s'.entry = Function.update s.entry databasePath
        (some (.file s.contents.length)))
      (hcontents : s'.contents = s.contents ++ [bytes]) : HostChange runtime .environment s s'

/-! ### Files that are left alone -/

theorem content_of_contents (h : s'.contents = s.contents) (inode : Nat) :
    s'.content inode = s.content inode := by
  unfold HostDirectory.content
  rw [h]

theorem content_of_append (h : s'.contents = s.contents ++ [bytes])
    (hinode : inode < s.contents.length) : s'.content inode = s.content inode := by
  unfold HostDirectory.content
  rw [h, List.getD_eq_getElem?_getD, List.getD_eq_getElem?_getD, List.getElem?_append_left hinode]

theorem content_of_modify {other : Nat} (h : s'.contents = s.contents.modify other (· ++ bytes))
    (hne : inode ≠ other) : s'.content inode = s.content inode := by
  unfold HostDirectory.content
  rw [h, List.getD_eq_getElem?_getD, List.getD_eq_getElem?_getD,
    List.getElem?_modify_ne _ _ (Ne.symm hne)]

theorem Held.ne_of_entry (h : Held namespaceId inode bytes s) {name : String} {other : Nat}
    (hentry : s.entry name = some (.file other)) (hname : name ≠ temporaryPath namespaceId) :
    other ≠ inode := by
  rintro rfl
  exact hname (h.alone name hentry)

/-- A profile is published, or the name of the profile keeps what it has. -/
theorem HostChange.profile (h : HostChange runtime actor s s') :
    (s'.entry profilePath = s.entry profilePath ∧
      ∀ inode, s.entry profilePath = some (.file inode) → s'.content inode = s.content inode) ∨
    (s.entry profilePath = none ∧ s.entry databasePath = none ∧ s'.entry databasePath = none ∧
      ∃ inode bytes, Parses bytes ∧ Published inode bytes s') := by
  cases h with
  | same actor s s' hentry hcontents =>
    exact .inl ⟨by rw [hentry], fun inode _ => content_of_contents hcontents inode⟩
  | createTemporary i namespaceId s s' hown hfree hentry hcontents =>
    refine .inl ⟨?_, fun inode hfile => content_of_append hcontents (s.named _ _ hfile)⟩
    rw [hentry, Function.update_of_ne (temporaryPath_ne_profilePath namespaceId).symm]
  | append i namespaceId s s' inode bytes more hown hheld hentry hcontents =>
    refine .inl ⟨by rw [hentry], fun other hfile => content_of_modify hcontents ?_⟩
    exact hheld.ne_of_entry hfile (temporaryPath_ne_profilePath namespaceId).symm
  | publish i namespaceId s s' inode bytes hown hheld hparses hprofile hdatabase hentry hcontents =>
    refine .inr ⟨hprofile, hdatabase, ?_, inode, bytes, hparses, ?_, ?_⟩
    · rw [hentry, Function.update_of_ne profilePath_ne_databasePath.symm, hdatabase]
    · rw [hentry, Function.update_self]
    · rw [content_of_contents hcontents, hheld.content]
  | removeTemporary i namespaceId s s' hown hentry hcontents =>
    refine .inl ⟨?_, fun inode _ => content_of_contents hcontents inode⟩
    rw [hentry, Function.update_of_ne (temporaryPath_ne_profilePath namespaceId).symm]
  | createDatabase s s' bytes hprofile hentry hcontents =>
    refine .inl ⟨?_, fun inode hfile => content_of_append hcontents (s.named _ _ hfile)⟩
    rw [hentry, Function.update_of_ne profilePath_ne_databasePath]

/-- A published file keeps its name and its bytes. -/
theorem HostChange.published (h : HostChange runtime actor s s')
    (hpublished : Published inode bytes s) : Published inode bytes s' := by
  rcases h.profile with ⟨hentry, hcontent⟩ | ⟨hnone, _⟩
  · exact ⟨hentry.trans hpublished.entry,
      (hcontent inode hpublished.entry).trans hpublished.content⟩
  · rw [hpublished.entry] at hnone
    cases hnone

theorem Published.unique {inode' : Nat} {bytes' : List UInt8} (h : Published inode bytes s)
    (h' : Published inode' bytes' s) : bytes = bytes' := by
  have hentry := h.entry.symm.trans h'.entry
  cases hentry
  exact h.content.symm.trans h'.content

theorem HostChange.publishedParses (h : HostChange runtime actor s s')
    (hparses : PublishedParses s) : PublishedParses s' := by
  intro inode bytes hpublished
  rcases h.profile with ⟨hentry, hcontent⟩ | ⟨_, _, _, inode', bytes', hnew, hpublished'⟩
  · have hbefore := hentry.symm.trans hpublished.entry
    exact hparses inode bytes ⟨hbefore, (hcontent inode hbefore).symm.trans hpublished.content⟩
  · rw [hpublished.unique hpublished']
    exact hnew

/-- A database appears only in a library with a profile. -/
theorem HostChange.guarded (h : HostChange runtime actor s s') (hguarded : Guarded s) :
    Guarded s' := by
  intro hdatabase
  rcases h.profile with ⟨hentry, _⟩ | ⟨_, _, hnone, _⟩
  · rw [hentry]
    cases h with
    | same actor s s' hentry hcontents =>
      rw [hentry] at hdatabase
      exact hguarded hdatabase
    | createTemporary i namespaceId s s' hown hfree hentry hcontents =>
      rw [hentry, Function.update_of_ne (temporaryPath_ne_databasePath namespaceId).symm]
        at hdatabase
      exact hguarded hdatabase
    | append i namespaceId s s' inode bytes more hown hheld hentry hcontents =>
      rw [hentry] at hdatabase
      exact hguarded hdatabase
    | publish i namespaceId s s' inode bytes hown hheld hparses hprofile hnone hentry hcontents =>
      rw [hentry, Function.update_of_ne profilePath_ne_databasePath.symm] at hdatabase
      exact hguarded hdatabase
    | removeTemporary i namespaceId s s' hown hentry hcontents =>
      rw [hentry, Function.update_of_ne (temporaryPath_ne_databasePath namespaceId).symm]
        at hdatabase
      exact hguarded hdatabase
    | createDatabase s s' bytes hprofile hentry hcontents => exact hprofile
  · exact absurd hnone hdatabase

/-- Names that no two calls share. -/
def DistinctNamespaces (runtime : ι → HostRuntime) : Prop :=
  ∀ i j namespaceId, (runtime i).namespaceId = some namespaceId →
    (runtime j).namespaceId = some namespaceId → i = j

/-- Nobody else touches the temporary file of a call. -/
theorem HostChange.held (h : HostChange runtime actor s s')
    (hdistinct : DistinctNamespaces runtime) (hown : (runtime i).namespaceId = some namespaceId)
    (hother : actor ≠ .process i) (hheld : Held namespaceId inode bytes s) :
    Held namespaceId inode bytes s' := by
  have hname : ∀ {j : ι} {other : Identifier}, Actor.process j ≠ .process i →
      (runtime j).namespaceId = some other →
      temporaryPath namespaceId ≠ temporaryPath other := by
    intro j other hj hother heq
    obtain rfl := temporaryPath_injective heq
    exact hj (congrArg _ (hdistinct j i namespaceId hother hown))
  cases h with
  | same actor s s' hentry hcontents =>
    exact ⟨by rw [hentry, hheld.entry], by rw [hentry]; exact hheld.alone,
      (content_of_contents hcontents inode).trans hheld.content⟩
  | createTemporary j other s s' hjown hfree hentry hcontents =>
    have hlt := s.named _ _ hheld.entry
    refine ⟨?_, fun name hfile => ?_, (content_of_append hcontents hlt).trans hheld.content⟩
    · rw [hentry, Function.update_of_ne (hname hother hjown), hheld.entry]
    · rw [hentry, Function.update_apply] at hfile
      split at hfile
      · cases hfile
        exact absurd hlt (lt_irrefl _)
      · exact hheld.alone name hfile
  | append j other s s' inode' bytes' more hjown hjheld hentry hcontents =>
    refine ⟨by rw [hentry, hheld.entry], by rw [hentry]; exact hheld.alone, ?_⟩
    rw [content_of_modify hcontents (hjheld.ne_of_entry hheld.entry (hname hother hjown)),
      hheld.content]
  | publish j other s s' inode' bytes' hjown hjheld hparses hprofile hdatabase hentry hcontents =>
    refine ⟨?_, fun name hfile => ?_, (content_of_contents hcontents inode).trans hheld.content⟩
    · rw [hentry, Function.update_of_ne (temporaryPath_ne_profilePath namespaceId), hheld.entry]
    · rw [hentry, Function.update_apply] at hfile
      split at hfile
      · cases hfile
        exact absurd rfl (hjheld.ne_of_entry hheld.entry (hname hother hjown))
      · exact hheld.alone name hfile
  | removeTemporary j other s s' hjown hentry hcontents =>
    refine ⟨?_, fun name hfile => ?_, (content_of_contents hcontents inode).trans hheld.content⟩
    · rw [hentry, Function.update_of_ne (hname hother hjown), hheld.entry]
    · rw [hentry, Function.update_apply] at hfile
      split at hfile
      · cases hfile
      · exact hheld.alone name hfile
  | createDatabase s s' bytes' hprofile hentry hcontents =>
    have hlt := s.named _ _ hheld.entry
    refine ⟨?_, fun name hfile => ?_, (content_of_append hcontents hlt).trans hheld.content⟩
    · rw [hentry, Function.update_of_ne (temporaryPath_ne_databasePath namespaceId), hheld.entry]
    · rw [hentry, Function.update_apply] at hfile
      split at hfile
      · cases hfile
        exact absurd hlt (lt_irrefl _)
      · exact hheld.alone name hfile

/-! ## Single operations -/

variable {ε α β : Type} {P : HostDirectory → Prop}

/-- The program does what its process may do, and `R` holds of what it returns. -/
abbrev Yields (runtime : ι → HostRuntime) (R : α → HostDirectory → Prop)
    (p : Program (Actor ι) HostDirectory ε α) (s : HostDirectory) : Prop :=
  p.Respects PublishedParses (HostChange runtime) (· ≠ ·) (fun r s => ∀ a, r = .ok a → R a s) s

/-- The fact survives whatever the others do while the call waits. -/
abbrev Endures (runtime : ι → HostRuntime) (i : ι) (P : HostDirectory → Prop) : Prop :=
  Program.StableAt PublishedParses (HostChange runtime) (· ≠ ·) P (.process i)

theorem endures_true : Endures runtime i fun _ => True :=
  fun _ _ _ _ => trivial

theorem endures_published : Endures runtime i (Published inode bytes) := by
  rintro s s' hpublished ⟨actor, _, hchange, _⟩
  exact hchange.published hpublished

theorem endures_guarded : Endures runtime i Guarded := by
  rintro s s' hguarded ⟨actor, _, hchange, _⟩
  exact hchange.guarded hguarded

/-- The call has written the bytes, and there is no database without a profile. -/
structure Prepared (namespaceId : Identifier) (inode : Nat) (bytes : List UInt8)
    (s : HostDirectory) : Prop where
  held : Held namespaceId inode bytes s
  guarded : Guarded s

theorem endures_prepared (hdistinct : DistinctNamespaces runtime)
    (hown : (runtime i).namespaceId = some namespaceId) :
    Endures runtime i (Prepared namespaceId inode bytes) := by
  rintro s s' ⟨hheld, hguarded⟩ ⟨actor, hother, hchange, _⟩
  exact ⟨hchange.held hdistinct hown (Ne.symm hother) hheld, hchange.guarded hguarded⟩

theorem yields_pure {R : α → HostDirectory → Prop} {a : α} (h : R a s) :
    Yields runtime R (pure a : Program (Actor ι) HostDirectory ε α) s := by
  rintro _ ⟨⟩
  exact h

theorem yields_error {R : α → HostDirectory → Prop} {e : ε} :
    Yields runtime R (.ofExcept (.error e) : Program (Actor ι) HostDirectory ε α) s :=
  fun _ h => by cases h

theorem yields_bind {p : Program (Actor ι) HostDirectory ε α}
    {f : α → Program (Actor ι) HostDirectory ε β} {P : α → HostDirectory → Prop}
    {R : β → HostDirectory → Prop} (hp : Yields runtime P p s)
    (hf : ∀ a s, P a s → Yields runtime R (f a) s) : Yields runtime R (p >>= f) s :=
  Program.respects_bind_ok hp hf fun _ _ _ h => by cases h

theorem yields_mapError {ε' : Type} {f : ε → ε'} {R : α → HostDirectory → Prop}
    {p : Program (Actor ι) HostDirectory ε α} (h : Yields runtime R p s) :
    Yields runtime R (p.mapError f) s :=
  Program.respects_mapError (h.mono fun _ _ hr a ha => hr a (Except.mapError_eq_ok_iff.1 ha))

/-- A caller that looks at the result. -/
theorem yields_caught {ε' : Type} {R : Except ε α → HostDirectory → Prop}
    {p : Program (Actor ι) HostDirectory ε α}
    (h : p.Respects PublishedParses (HostChange runtime) (· ≠ ·) R s) :
    Yields runtime R (p.caught : Program (Actor ι) HostDirectory ε' (Except ε α)) s := by
  refine Program.respects_caught (h.mono fun r s hr => ?_)
  rintro _ ⟨⟩
  exact hr

theorem answer_eq_ok {result : Except IoErrorKind α} {a : α} (h : s.answer result = .ok a) :
    result = .ok a := by
  unfold HostDirectory.answer at h
  split at h
  · exact h
  · cases h
  · cases h

theorem answer_notFound {result : Except IoErrorKind α}
    (h : s.answer result = .error .notFound) : result = .error .notFound := by
  unfold HostDirectory.answer at h
  split at h
  · exact h
  · cases h
  · cases h

theorem transfer_eq_ok {result : Except IoErrorKind α} {a : α} (h : s.transfer result = .ok a) :
    result = .ok a := by
  unfold HostDirectory.transfer at h
  split at h
  · cases h
  · exact h

theorem respects_hostRead {query : HostDirectory → Except ε α}
    {Q : Except ε α → HostDirectory → Prop} (hP : P s) (hP' : Endures runtime i P)
    (h : ∀ s, P s → Q (query s) s) :
    (Program.read (.process i) query).Respects PublishedParses (HostChange runtime) (· ≠ ·) Q s :=
  Program.respects_access hP hP' fun s hP hInv => ⟨.same _ s s rfl rfl, hInv, h s hP⟩

theorem yields_hostQuery {query : HostDirectory → Except IoErrorKind α}
    {R : α → HostDirectory → Prop} (hP : P s) (hP' : Endures runtime i P)
    (h : ∀ s a, P s → query s = .ok a → R a s) : Yields runtime R (hostQuery i query) s :=
  respects_hostRead hP hP' fun s hP a ha => h s a hP (answer_eq_ok ha)

theorem yields_hostSync (hP : P s) (hP' : Endures runtime i P) :
    Yields runtime (fun _ => P) (hostSync i) s :=
  yields_hostQuery hP hP' fun _ _ hP _ => hP

/-- A change that is allowed when it succeeds. -/
theorem respects_transact {body : HostDirectory → Except ε (α × HostDirectory)}
    {Q : Except ε α → HostDirectory → Prop} (hP : P s) (hP' : Endures runtime i P)
    (hok : ∀ s a s', P s → body s = .ok (a, s') →
      HostChange runtime (.process i) s s' ∧ Q (.ok a) s')
    (herror : ∀ s e, P s → Q (.error e) s) :
    (Program.transact (.process i) body).Respects PublishedParses (HostChange runtime) (· ≠ ·)
      Q s := by
  refine Program.respects_access hP hP' fun s hP hInv => ?_
  unfold Program.commit
  cases hbody : body s with
  | error e => exact ⟨.same _ s s rfl rfl, hInv, herror s e hP⟩
  | ok result =>
    obtain ⟨a, s'⟩ := result
    obtain ⟨hchange, hQ⟩ := hok s a s' hP hbody
    exact ⟨hchange, hchange.publishedParses hInv, hQ⟩

theorem yields_transact {body : HostDirectory → Except IoErrorKind (α × HostDirectory)}
    {R : α → HostDirectory → Prop} (hP : P s) (hP' : Endures runtime i P)
    (h : ∀ s a s', P s → body s = .ok (a, s') → HostChange runtime (.process i) s s' ∧ R a s') :
    Yields runtime R (.transact (.process i) body) s := by
  refine respects_transact hP hP' (fun s a s' hP hbody => ?_) fun _ _ _ _ h => by cases h
  obtain ⟨hchange, hR⟩ := h s a s' hP hbody
  refine ⟨hchange, ?_⟩
  rintro _ ⟨⟩
  exact hR

theorem yields_hostChange {change : HostDirectory → Except IoErrorKind (α × HostDirectory)}
    {R : α → HostDirectory → Prop} (hP : P s) (hP' : Endures runtime i P)
    (h : ∀ s a s', P s → change s = .ok (a, s') → HostChange runtime (.process i) s s' ∧ R a s') :
    Yields runtime R (hostChange i change) s :=
  yields_transact hP hP' fun s a s' hP hchange => h s a s' hP (answer_eq_ok hchange)

/-! ### What a change has done -/

theorem createNew_eq_ok {name : String} (h : s.createNew name = .ok (inode, s')) :
    inode = s.contents.length ∧ s.entry name = none ∧
      s'.entry = Function.update s.entry name (some (.file s.contents.length)) ∧
      s'.contents = s.contents ++ [[]] := by
  unfold HostDirectory.createNew at h
  split at h
  · split at h
    · rename_i hfree
      cases h
      exact ⟨rfl, hfree, rfl, rfl⟩
    · cases h
  · cases h

theorem hardLink_eq_ok {original target : String} {u : Unit}
    (h : s.hardLink original target = .ok (u, s')) :
    s.entry target = none ∧
      s'.entry = Function.update s.entry target (s.entry original) ∧ s'.contents = s.contents := by
  unfold HostDirectory.hardLink at h
  split at h
  · cases h
  · cases h
  · rename_i horiginal
    split at h
    · cases h
    · rename_i hfree
      cases h
      refine ⟨hfree, ?_, rfl⟩
      simp only [horiginal]
      rfl

theorem removeFile_eq_ok {name : String} {u : Unit} (h : s.removeFile name = .ok (u, s')) :
    s'.entry = Function.update s.entry name none ∧ s'.contents = s.contents := by
  unfold HostDirectory.removeFile at h
  split at h
  · cases h
  · cases h
  · cases h
    exact ⟨rfl, rfl⟩

theorem createDirAll_eq_ok {u : Unit} (h : s.createDirAll = .ok (u, s')) :
    s'.entry = s.entry ∧ s'.contents = s.contents := by
  unfold HostDirectory.createDirAll at h
  split at h
  · cases h
    exact ⟨rfl, rfl⟩
  · cases h
    exact ⟨rfl, rfl⟩
  · cases h

theorem yields_syncParent (hP : P s) (hP' : Endures runtime i P) :
    Yields runtime (fun _ => P) (syncParent i) s :=
  yields_bind (yields_hostSync hP hP') fun _ _ hP => yields_hostSync hP hP'

/-! ## Reading and writing files -/

/-- A read that ends before the limit has read the whole file. -/
theorem yields_readToEnd (hP : P s) (hP' : Endures runtime i P)
    (hcontent : ∀ s, P s → s.content inode = bytes) {limit fuel : Nat} {front : List UInt8}
    (hfuel : limit ≤ front.length + fuel) (hfront : front <+: bytes) :
    Yields runtime (fun all s => P s ∧ (all.length < limit → all = bytes))
      (readToEnd i (.file inode) limit fuel front) s := by
  induction fuel generalizing front s with
  | zero => exact yields_pure ⟨hP, fun hlt => by omega⟩
  | succ fuel ih =>
    unfold readToEnd
    by_cases hlimit : limit ≤ front.length
    · rw [if_pos hlimit]
      exact yields_pure ⟨hP, fun hlt => by omega⟩
    · rw [if_neg hlimit]
      obtain ⟨rest, rfl⟩ := hfront
      refine yields_bind (P := fun chunk s => P s ∧ ∃ size, 0 < size ∧ chunk = rest.take size)
        (respects_hostRead hP hP' fun s hP chunk hchunk => ?_) fun chunk s h => ?_
      · have hread := Except.ok.inj (transfer_eq_ok hchunk)
        rw [hcontent s hP, List.drop_left] at hread
        exact ⟨hP, min (limit - front.length) (s.chunk + 1), by omega, hread.symm⟩
      · obtain ⟨hP, size, hsize, rfl⟩ := h
        by_cases hend : rest.take size = []
        · rw [if_pos hend]
          have hrest : rest = [] := (List.take_eq_nil_iff.1 hend).resolve_left (by omega)
          exact yields_pure ⟨hP, fun _ => by rw [hrest, List.append_nil]⟩
        · rw [if_neg hend]
          have hpos := List.length_pos_iff.2 hend
          refine ih hP (by rw [List.length_append]; omega) ⟨rest.drop size, ?_⟩
          rw [List.append_assoc, List.take_append_drop]

theorem yields_readToEnd_directory {limit fuel : Nat} (hlimit : 0 < limit) :
    Yields runtime (fun _ _ => False) (readToEnd i .directory limit (fuel + 1) []) s := by
  unfold readToEnd
  rw [if_neg (by rw [List.length_nil]; omega)]
  refine yields_bind (P := fun _ _ => False)
    (respects_hostRead trivial endures_true fun s _ chunk hchunk => ?_) fun _ _ h => h.elim
  cases transfer_eq_ok hchunk

/-- A bounded read gives all bytes of the file that the name leads to. -/
theorem yields_readBoundedFile {name : String} {R : Nat → List UInt8 → HostDirectory → Prop}
    (hP : P s) (hP' : Endures runtime i P)
    (hopen : ∀ s inode, P s → s.entry name = some (.file inode) → R inode (s.content inode) s)
    (hR' : ∀ inode bytes, Endures runtime i (R inode bytes))
    (hcontent : ∀ inode bytes s, R inode bytes s → s.content inode = bytes) :
    Yields runtime (fun bytes s => ∃ inode, R inode bytes s) (readBoundedFile i name) s := by
  unfold readBoundedFile
  refine yields_bind (yields_hostQuery hP hP' fun _ _ hP _ => hP) fun metadata s hP => ?_
  cases metadata with
  | directory => exact yields_error
  | other => exact yields_error
  | file len => ?_
  by_cases hlen : profileMaxBytes < len
  · dsimp only
    rw [if_pos hlen]
    exact yields_error
  dsimp only
  rw [if_neg hlen]
  refine yields_bind (P := fun handle s => handle = .directory ∨
      ∃ inode bytes, handle = .file inode ∧ R inode bytes s)
    (yields_hostQuery hP hP' fun s handle hP hhandle => ?_) fun handle s hhandle => ?_
  · simp only [HostDirectory.openFile, Except.bind_eq_ok_iff, Except.exists_unit_iff,
      Except.pure_eq_ok_iff, require_eq_ok_iff, Option.orError_eq_ok_iff] at hhandle
    obtain ⟨entry, hentry, hother, rfl⟩ := hhandle
    cases entry with
    | file inode => exact .inr ⟨inode, _, rfl, hopen s inode hP hentry⟩
    | directory => exact .inl rfl
    | other => exact absurd rfl hother
  rcases hhandle with rfl | ⟨inode, bytes, rfl, hR⟩
  · exact yields_bind (yields_readToEnd_directory (Nat.succ_pos _)) fun _ _ h => h.elim
  · refine yields_bind (yields_readToEnd hR (hR' inode bytes) (hcontent inode bytes)
      (by simp) List.nil_prefix) fun all s h => ?_
    by_cases hlong : profileMaxBytes < all.length
    · rw [if_pos hlong]
      exact yields_error
    · rw [if_neg hlong]
      refine yields_pure ⟨inode, ?_⟩
      rw [h.2 (by omega)]
      exact h.1

/-- What is left of the bytes is what a write has not taken. -/
theorem take_append_drop_min (rest : List UInt8) (size : Nat) :
    rest.take size ++ rest.drop (min rest.length size) = rest := by
  by_cases hlong : size ≤ rest.length
  · rw [min_eq_right hlong, List.take_append_drop]
  · have hle : rest.length ≤ size := by omega
    rw [min_eq_left hle, List.take_of_length_le hle, List.drop_length, List.append_nil]

theorem Prepared.append (h : Prepared namespaceId inode bytes s) (more : List UInt8) :
    Prepared namespaceId inode (bytes ++ more) (s.append inode more) := by
  refine ⟨⟨h.held.entry, h.held.alone, ?_⟩, h.guarded⟩
  have hlt := s.named _ _ h.held.entry
  rw [← h.held.content]
  simp [HostDirectory.content, HostDirectory.append, List.getElem?_eq_getElem hlt]

theorem yields_writeAllTo (hdistinct : DistinctNamespaces runtime)
    (hown : (runtime i).namespaceId = some namespaceId) {rest : List UInt8} {fuel : Nat}
    (hfuel : rest.length ≤ fuel) (h : Prepared namespaceId inode bytes s) :
    Yields runtime (fun _ => Prepared namespaceId inode (bytes ++ rest))
      (writeAllTo i inode fuel rest) s := by
  induction fuel generalizing bytes rest s with
  | zero =>
    obtain rfl : rest = [] := List.length_eq_zero_iff.1 (by omega)
    rw [List.append_nil]
    exact yields_pure h
  | succ fuel ih =>
    unfold writeAllTo
    by_cases hrest : rest = []
    · subst hrest
      rw [if_pos rfl, List.append_nil]
      exact yields_pure h
    · rw [if_neg hrest]
      refine yields_bind (P := fun written s => ∃ size, 0 < size ∧
          written = min rest.length size ∧ Prepared namespaceId inode (bytes ++ rest.take size) s)
        (yields_transact h (endures_prepared hdistinct hown) fun s written s' h hwrite => ?_)
        fun written s h => ?_
      · cases Except.ok.inj (transfer_eq_ok hwrite)
        exact ⟨.append i namespaceId _ _ inode bytes _ hown h.held rfl rfl, s.chunk + 1,
          Nat.succ_pos _, rfl, h.append _⟩
      · obtain ⟨size, hsize, rfl, h⟩ := h
        have hpos := List.length_pos_iff.2 hrest
        have hleft : (rest.drop (min rest.length size)).length ≤ fuel := by
          rw [List.length_drop]
          omega
        have hdone := ih hleft h
        rwa [List.append_assoc, take_append_drop_min] at hdone

/-! ## The calls -/

/-- The profile is the one that is published. -/
def Settled (profile : HostProfile) (s : HostDirectory) : Prop :=
  ∃ inode bytes, Published inode bytes s ∧ parseProfile bytes = some profile

theorem yields_readProfile :
    Yields runtime (fun bytes s => ∃ inode, Published inode bytes s)
      (readBoundedFile i profilePath) s :=
  yields_readBoundedFile trivial endures_true (fun _ _ _ hentry => ⟨hentry, rfl⟩)
    (fun _ _ => endures_published) fun _ _ _ h => h.content

theorem yields_loadProfile : Yields runtime Settled (loadProfile i) s := by
  refine yields_bind (yields_mapError yields_readProfile) fun bytes s h => ?_
  obtain ⟨inode, hpublished⟩ := h
  intro profile hprofile
  exact ⟨inode, bytes, hpublished, Option.orError_eq_ok_iff.1 hprofile⟩

theorem yields_createTemporary
    (hown : (runtime i).namespaceId = some namespaceId) (h : Guarded s) :
    Yields runtime (fun inode => Prepared namespaceId inode [])
      (hostChange i (·.createNew (temporaryPath namespaceId))) s := by
  refine yields_hostChange h endures_guarded fun s inode s' h hcreate => ?_
  obtain ⟨rfl, hfree, hentry, hcontents⟩ := createNew_eq_ok hcreate
  have hchange : HostChange runtime (.process i) s s' :=
    .createTemporary i namespaceId s s' hown hfree hentry hcontents
  refine ⟨hchange, ⟨by rw [hentry, Function.update_self], fun name hfile => ?_, ?_⟩,
    hchange.guarded h⟩
  · rw [hentry, Function.update_apply] at hfile
    split at hfile
    · assumption
    · exact absurd (s.named _ _ hfile) (lt_irrefl _)
  · unfold HostDirectory.content
    rw [hcontents]
    simp

theorem yields_writeTemporaryFile (hdistinct : DistinctNamespaces runtime)
    (hown : (runtime i).namespaceId = some namespaceId) (h : Guarded s) :
    Yields runtime (fun _ s => ∃ inode, Prepared namespaceId inode bytes s)
      (writeTemporaryFile i (temporaryPath namespaceId) bytes) s := by
  have hprepared : ∀ inode bytes, Endures runtime i (Prepared namespaceId inode bytes) :=
    fun _ _ => endures_prepared hdistinct hown
  refine yields_bind (yields_createTemporary hown h) fun inode s h => ?_
  refine yields_bind (yields_hostSync h (hprepared inode [])) fun _ s h => ?_
  refine yields_bind (yields_writeAllTo hdistinct hown le_rfl h) fun _ s h => ?_
  exact (yields_hostSync h (hprepared inode _)).mono fun _ _ hr u hu => ⟨inode, hr u hu⟩

/-- Reading the temporary file back. -/
theorem yields_readTemporary (hdistinct : DistinctNamespaces runtime)
    (hown : (runtime i).namespaceId = some namespaceId)
    (h : Prepared namespaceId inode bytes s) :
    Yields runtime (fun found s => ∃ number, Prepared namespaceId number found s)
      (readBoundedFile i (temporaryPath namespaceId)) s := by
  refine yields_readBoundedFile h (endures_prepared hdistinct hown) (fun s number h hentry => ?_)
    (fun _ _ => endures_prepared hdistinct hown) fun _ _ _ h => h.held.content
  cases h.held.entry.symm.trans hentry
  exact ⟨⟨hentry, h.held.alone, rfl⟩, h.guarded⟩

/-- The link publishes the bytes: the profile is new, and there is no database. -/
theorem yields_link (hdistinct : DistinctNamespaces runtime)
    (hown : (runtime i).namespaceId = some namespaceId) (hparses : Parses bytes)
    (h : Prepared namespaceId inode bytes s) :
    Yields runtime (fun _ => Published inode bytes)
      (hostChange i (·.hardLink (temporaryPath namespaceId) profilePath)) s := by
  refine yields_hostChange h (endures_prepared hdistinct hown) fun s u s' h hlink => ?_
  obtain ⟨hfree, hentry, hcontents⟩ := hardLink_eq_ok hlink
  rw [h.held.entry] at hentry
  have hdatabase : s.entry databasePath = none := by
    by_contra hpresent
    exact h.guarded hpresent hfree
  refine ⟨.publish i namespaceId s s' inode bytes hown h.held hparses hfree hdatabase hentry
    hcontents, by rw [hentry, Function.update_self], ?_⟩
  rw [content_of_contents hcontents, h.held.content]

theorem yields_publishProfile (hdistinct : DistinctNamespaces runtime)
    (hown : (runtime i).namespaceId = some namespaceId) (hparses : Parses bytes)
    (h : Guarded s) :
    Yields runtime (fun _ s => ∃ inode, Published inode bytes s)
      (publishProfile i (temporaryPath namespaceId) bytes) s := by
  unfold publishProfile
  refine yields_bind (yields_mapError (yields_writeTemporaryFile hdistinct hown h))
    fun _ s h => ?_
  obtain ⟨inode, h⟩ := h
  refine yields_bind (yields_mapError (yields_readTemporary hdistinct hown h))
    fun written s h => ?_
  obtain ⟨number, h⟩ := h
  by_cases hwritten : written = bytes
  · rw [if_neg (not_not.2 hwritten)]
    rw [hwritten] at h
    refine yields_bind (yields_mapError (yields_link hdistinct hown hparses h)) fun _ s h => ?_
    refine yields_bind (yields_mapError (yields_syncParent h endures_published)) fun _ s h => ?_
    refine yields_bind (yields_mapError yields_readProfile) fun published s h => ?_
    obtain ⟨inode, h⟩ := h
    by_cases hpublished : published = bytes
    · rw [if_neg (not_not.2 hpublished)]
      rw [hpublished] at h
      exact yields_pure ⟨inode, h⟩
    · rw [if_pos hpublished]
      exact yields_error
  · rw [if_pos hwritten]
    exact yields_error

/-- The temporary file goes, whether or not it is still there. -/
theorem respects_removeTemporary (hown : (runtime i).namespaceId = some namespaceId) (hP : P s)
    (hP' : Endures runtime i P)
    (hkept : ∀ s s', P s → HostChange runtime (.process i) s s' → P s') :
    (hostChange i (·.removeFile (temporaryPath namespaceId))).Respects PublishedParses
      (HostChange runtime) (· ≠ ·) (fun _ => P) s := by
  refine respects_transact hP hP' (fun s u s' hP hremove => ?_) fun _ _ hP => hP
  obtain ⟨hentry, hcontents⟩ := removeFile_eq_ok (answer_eq_ok hremove)
  have hchange : HostChange runtime (.process i) s s' :=
    .removeTemporary i namespaceId s s' hown hentry hcontents
  exact ⟨hchange, hkept s s' hP hchange⟩

theorem generateProfile_eq_ok {profile : HostProfile}
    (h : generateProfile (runtime i) = .ok profile) :
    (runtime i).namespaceId = some profile.namespaceId ∧
      parseProfile (encodeProfile profile) = some profile := by
  simp only [generateProfile, Except.bind_eq_ok_iff, Except.exists_unit_iff,
    Except.pure_eq_ok_iff, require_eq_ok_iff, Option.orError_eq_ok_iff] at h
  obtain ⟨namespaceId, hnamespace, deviceId, hdevice, ⟨hvalid, hvalid'⟩, rfl⟩ := h
  exact ⟨hnamespace, parseProfile_encodeProfile hvalid hvalid'⟩

/-- What the publication leaves behind, given its result. -/
def Outcome (bytes : List UInt8) (result : Except PublishError Unit) (s : HostDirectory) : Prop :=
  result = .ok () → ∃ inode, Published inode bytes s

theorem endures_outcome {result : Except PublishError Unit} :
    Endures runtime i (Outcome bytes result) := by
  rintro s s' h ⟨actor, _, hchange, _⟩ hresult
  obtain ⟨inode, hpublished⟩ := h hresult
  exact ⟨inode, hchange.published hpublished⟩

theorem yields_reportPublished {profile : HostProfile} {result : Except PublishError Unit}
    (hparses : parseProfile bytes = some profile) (h : Outcome bytes result s) :
    Yields runtime Settled (reportPublished i profile result) s := by
  cases result with
  | ok u =>
    obtain ⟨inode, hpublished⟩ := h rfl
    exact yields_pure ⟨inode, bytes, hpublished, hparses⟩
  | error e =>
    cases e with
    | alreadyExists => exact yields_loadProfile
    | io source => exact yields_error
    | verification => exact yields_error

theorem yields_createProfile (hdistinct : DistinctNamespaces runtime) (h : Guarded s) :
    Yields runtime Settled (createProfile i (runtime i)) s := by
  refine Program.respects_ofExcept_bind (fun profile hgenerate => ?_) fun _ _ h => by cases h
  obtain ⟨hown, hparses⟩ := generateProfile_eq_ok hgenerate
  refine yields_bind (P := fun result s => Outcome (encodeProfile profile) result s)
    (yields_caught ((yields_publishProfile hdistinct hown ⟨profile, hparses⟩ h).mono
      fun result s hr hresult => hr () hresult)) fun result s houtcome => ?_
  refine yields_bind (P := fun _ s => Outcome (encodeProfile profile) result s)
    (yields_caught (respects_removeTemporary hown houtcome endures_outcome
      fun s s' h hchange hresult => ?_)) fun removal s houtcome => ?_
  · obtain ⟨inode, hpublished⟩ := h hresult
    exact ⟨inode, hchange.published hpublished⟩
  · cases removal with
    | ok u => exact yields_reportPublished hparses houtcome
    | error source =>
      dsimp only
      split
      · exact yields_error
      · exact yields_reportPublished hparses houtcome

/-! ### The checks before -/

theorem yields_databaseExists :
    Yields runtime (fun present s => present = false → Guarded s) (databaseExists i) s := by
  refine yields_bind (P := fun found s => found = .error .notFound → Guarded s)
    (yields_caught (respects_hostRead trivial endures_true fun s _ hfound => ?_))
    fun found s h => ?_
  · intro hpresent
    have hmissing : s.symlinkMetadata databasePath = .error .notFound := answer_notFound hfound
    unfold HostDirectory.symlinkMetadata at hmissing
    cases hentry : s.entry databasePath with
    | none => exact absurd hentry hpresent
    | some entry =>
      rw [hentry] at hmissing
      cases hmissing
  · split
    · exact yields_pure fun hfalse => by cases hfalse
    · exact yields_error
    · exact yields_pure fun _ => h rfl
    · exact yields_error

theorem yields_ensureDirectory : Yields runtime (fun _ _ => True) (ensureDirectory i) s := by
  refine yields_bind (P := fun _ _ => True)
    (yields_caught (respects_hostRead trivial endures_true fun _ _ => trivial)) fun found s _ => ?_
  split
  · exact yields_pure trivial
  · exact yields_error
  · refine yields_mapError (yields_hostChange trivial endures_true fun s u s' _ hcreate => ?_)
    obtain ⟨hentry, hcontents⟩ := createDirAll_eq_ok hcreate
    exact ⟨.same _ s s' hentry hcontents, trivial⟩
  · exact yields_error

theorem yields_checkDirectory : Yields runtime (fun _ _ => True) (checkDirectory i) s := by
  refine yields_bind (yields_mapError (yields_hostQuery trivial endures_true
    fun _ _ _ _ => trivial)) fun found s _ => ?_
  split
  · exact yields_pure trivial
  · exact yields_error

theorem yields_prepare : Yields runtime (fun _ _ => True) (prepare i) s := by
  refine yields_bind yields_ensureDirectory fun _ s _ => ?_
  refine yields_bind yields_checkDirectory fun _ s _ => ?_
  refine yields_bind (yields_mapError (yields_hostSync trivial endures_true)) fun _ s _ => ?_
  exact yields_bind yields_databaseExists fun _ _ _ => yields_pure trivial

theorem yields_loadOrCreateHostProfile (hdistinct : DistinctNamespaces runtime) :
    Yields runtime Settled (loadOrCreateHostProfile i (runtime i)) s := by
  refine yields_bind yields_prepare fun _ s _ => ?_
  refine yields_bind yields_databaseExists fun present s h => ?_
  have hendures : Endures runtime i fun s => present = false → Guarded s :=
    fun s s' h hstep hfalse => endures_guarded _ _ (h hfalse) hstep
  refine yields_bind (P := fun _ s => present = false → Guarded s)
    (yields_caught (respects_hostRead h hendures fun _ h => h)) fun found s h => ?_
  split
  · exact yields_loadProfile
  · exact yields_error
  · cases present with
    | true => exact yields_error
    | false => exact yields_createProfile hdistinct (h rfl)
  · exact yields_error

/-! ## Every operation is the process's own -/

section Own

open Processes (Own)

theorem hostQuery_own (query : HostDirectory → Except IoErrorKind α) :
    (hostQuery i query).Each (Own i) :=
  Program.each_read rfl

theorem hostChange_own (change : HostDirectory → Except IoErrorKind (α × HostDirectory)) :
    (hostChange i change).Each (Own i) :=
  Program.each_transact rfl

theorem readToEnd_own (handle : HostEntry) (limit fuel : Nat) (front : List UInt8) :
    (readToEnd i handle limit fuel front).Each (Own i) := by
  induction fuel generalizing front with
  | zero => exact Program.each_pure front
  | succ fuel ih =>
    unfold readToEnd
    split
    · exact Program.each_pure front
    · refine Program.Each.bind (Program.each_read rfl) fun chunk => ?_
      split
      · exact Program.each_pure front
      · exact ih _

theorem readBoundedFile_own (name : String) : (readBoundedFile i name).Each (Own i) := by
  refine Program.Each.bind (hostQuery_own _) fun metadata => ?_
  split
  · split
    · exact Program.each_ofExcept _
    · refine Program.Each.bind (hostQuery_own _) fun handle => ?_
      refine Program.Each.bind (readToEnd_own handle _ _ []) fun all => ?_
      split
      · exact Program.each_ofExcept _
      · exact Program.each_pure all
  · exact Program.each_ofExcept _

theorem writeAllTo_own (inode fuel : Nat) (rest : List UInt8) :
    (writeAllTo i inode fuel rest).Each (Own i) := by
  induction fuel generalizing rest with
  | zero => exact Program.each_pure ()
  | succ fuel ih =>
    unfold writeAllTo
    split
    · exact Program.each_pure ()
    · exact Program.Each.bind (Program.each_transact rfl) fun _ => ih _

theorem databaseExists_own : (databaseExists i).Each (Own i) := by
  refine Program.Each.bind (hostQuery_own _).caught fun found => ?_
  split
  · exact Program.each_pure true
  · exact Program.each_ofExcept _
  · exact Program.each_pure false
  · exact Program.each_ofExcept _

theorem ensureDirectory_own : (ensureDirectory i).Each (Own i) := by
  refine Program.Each.bind (hostQuery_own _).caught fun found => ?_
  split
  · exact Program.each_pure ()
  · exact Program.each_ofExcept _
  · exact (hostChange_own _).mapError
  · exact Program.each_ofExcept _

theorem checkDirectory_own : (checkDirectory i).Each (Own i) := by
  refine Program.Each.bind (hostQuery_own _).mapError fun found => ?_
  split
  · exact Program.each_pure ()
  · exact Program.each_ofExcept _

theorem prepare_own : (prepare i).Each (Own i) := by
  refine Program.Each.bind ensureDirectory_own fun _ => ?_
  refine Program.Each.bind checkDirectory_own fun _ => ?_
  refine Program.Each.bind (hostQuery_own _).mapError fun _ => ?_
  exact Program.Each.bind databaseExists_own fun _ => Program.each_pure ()

theorem loadProfile_own : (loadProfile i).Each (Own i) :=
  Program.Each.bind (readBoundedFile_own _).mapError fun _ => Program.each_ofExcept _

theorem writeTemporaryFile_own (temporary : String) (bytes : List UInt8) :
    (writeTemporaryFile i temporary bytes).Each (Own i) := by
  refine Program.Each.bind (hostChange_own _) fun inode => ?_
  refine Program.Each.bind (hostQuery_own _) fun _ => ?_
  exact Program.Each.bind (writeAllTo_own inode _ bytes) fun _ => hostQuery_own _

theorem publishProfile_own (temporary : String) (bytes : List UInt8) :
    (publishProfile i temporary bytes).Each (Own i) := by
  refine Program.Each.bind (writeTemporaryFile_own temporary bytes).mapError fun _ => ?_
  refine Program.Each.bind (readBoundedFile_own _).mapError fun written => ?_
  split
  · exact Program.each_ofExcept _
  · refine Program.Each.bind (hostChange_own _).mapError fun _ => ?_
    refine Program.Each.bind (Program.Each.bind (hostQuery_own _) fun _ =>
      hostQuery_own _).mapError fun _ => ?_
    refine Program.Each.bind (readBoundedFile_own _).mapError fun published => ?_
    split
    · exact Program.each_ofExcept _
    · exact Program.each_pure ()

theorem reportPublished_own (profile : HostProfile) (result : Except PublishError Unit) :
    (reportPublished i profile result).Each (Own i) := by
  unfold reportPublished
  split
  · exact Program.each_pure profile
  · exact loadProfile_own
  · exact Program.each_ofExcept _
  · exact Program.each_ofExcept _

theorem createProfile_own (generated : HostRuntime) : (createProfile i generated).Each (Own i) := by
  refine Program.Each.bind (Program.each_ofExcept _) fun profile => ?_
  refine Program.Each.bind (publishProfile_own _ _).caught fun result => ?_
  refine Program.Each.bind (hostChange_own _).caught fun removal => ?_
  split
  · exact reportPublished_own profile result
  · split
    · exact Program.each_ofExcept _
    · exact reportPublished_own profile result

theorem loadOrCreateHostProfile_own (generated : HostRuntime) :
    (loadOrCreateHostProfile i generated).Each (Own i) := by
  refine Program.Each.bind prepare_own fun _ => ?_
  refine Program.Each.bind databaseExists_own fun present => ?_
  refine Program.Each.bind (hostQuery_own _).caught fun found => ?_
  split
  · exact loadProfile_own
  · exact Program.each_ofExcept _
  · split
    · exact Program.each_ofExcept _
    · exact createProfile_own generated
  · exact Program.each_ofExcept _

end Own

/-! ## Runs -/

/-- A change of the surroundings, where the database is created after the profile. -/
inductive Surroundings : HostDirectory → HostDirectory → Prop
  | weather (s s' : HostDirectory) (h : HostWeather s s') : Surroundings s s'
  | database (s : HostDirectory) (bytes : List UInt8) (hroot : s.root = some .directory)
      (hprofile : s.entry profilePath ≠ none) :
      Surroundings s (s.withFile databasePath bytes hroot)

def ReturnsPublished (_ : ι) (result : Except HostFailure HostProfile) (s : HostDirectory) : Prop :=
  ∀ profile, result = .ok profile → Settled profile s

theorem HostChange.settled (h : HostChange runtime actor s s') {profile : HostProfile}
    (hsettled : Settled profile s) : Settled profile s' := by
  obtain ⟨inode, bytes, hpublished, hparses⟩ := hsettled
  exact ⟨inode, bytes, h.published hpublished, hparses⟩

theorem Settled.unique {profile other : HostProfile} (h : Settled profile s)
    (h' : Settled other s) : profile = other := by
  obtain ⟨inode, bytes, hpublished, hparses⟩ := h
  obtain ⟨inode', bytes', hpublished', hparses'⟩ := h'
  rw [hpublished.unique hpublished', hparses'] at hparses
  exact (Option.some.inj hparses).symm

theorem host_discipline (runtime : ι → HostRuntime) :
    Processes.Discipline PublishedParses (HostChange runtime) ReturnsPublished
      (fun _ store => store) .crashed Surroundings where
  environment s s' hInv h := by
    have hchange : HostChange runtime .environment s s' := by
      cases h with
      | weather s' hweather =>
        cases hweather with
        | change fault chunk => exact .same _ s _ rfl rfl
      | database bytes hroot hprofile => exact .createDatabase s _ bytes hprofile rfl rfl
    exact ⟨hchange.publishedParses hInv, hchange⟩
  recover i s hInv := ⟨hInv, .same _ s s rfl rfl⟩
  stopped _ _ _ h := by cases h
  returned _ _ _ _ _ _ hchange hresult profile hprofile :=
    hchange.settled (hresult profile hprofile)

theorem profileBytes_eq_some_iff :
    s.profileBytes = some bytes ↔ ∃ inode, Published inode bytes s := by
  unfold HostDirectory.profileBytes
  split
  · rename_i inode hentry
    rw [Option.some.injEq]
    constructor
    · intro hcontent
      exact ⟨inode, hentry, hcontent⟩
    · rintro ⟨inode', hentry', hcontent⟩
      cases hentry.symm.trans hentry'
      exact hcontent
  · rename_i hother
    constructor
    · intro h
      cases h
    · rintro ⟨inode, hentry, _⟩
      exact absurd hentry (hother inode)

variable [DecidableEq ι] {p p' : HostProcesses ι}

abbrev HostSound (runtime : ι → HostRuntime) (p : HostProcesses ι) : Prop :=
  p.Sound PublishedParses (HostChange runtime) ReturnsPublished

/-- The process that creates the database has returned a profile, so one is published. -/
theorem HostStep.surrounded (h : HostStep p p') (hsound : HostSound runtime p) :
    Processes.Step (fun _ store => store) .crashed Surroundings p p' := by
  cases h with
  | step p' h =>
    cases h with
    | access i label effect next hnext => exact .access p i label effect next hnext
    | stop i label effect next hnext => exact .stop p i label effect next hnext
    | environment store hchange => exact .environment p store (.weather _ _ hchange)
  | createDatabase i profile bytes hreturned habsent hroot =>
    obtain ⟨inode, found, hpublished, _⟩ := hsound.returned hreturned profile rfl
    refine .environment p _ (.database p.store bytes hroot ?_)
    rw [hpublished.entry]
    simp

theorem HostStep.sound (h : HostStep p p') (hsound : HostSound runtime p) :
    HostSound runtime p' ∧ ∃ actor, HostChange runtime actor p.store p'.store :=
  hsound.step (host_discipline runtime) (h.surrounded hsound)

theorem run_sound (hsound : HostSound runtime p) (hrun : Relation.ReflTransGen HostStep p p') :
    HostSound runtime p' := by
  induction hrun with
  | refl => exact hsound
  | tail _ hlast ih => exact (hlast.sound ih).1

theorem run_published (hsound : HostSound runtime p) (hrun : Relation.ReflTransGen HostStep p p')
    (hpublished : Published inode bytes p.store) : Published inode bytes p'.store := by
  induction hrun with
  | refl => exact hpublished
  | tail hfirst hlast ih =>
    obtain ⟨actor, hchange⟩ := (hlast.sound (run_sound hsound hfirst)).2
    exact hchange.published ih

/-- What holds of a state that a run reaches. -/
structure ProfileAgreement (p : HostProcesses ι) : Prop where
  agree : ∀ i j profile other, p.process i = .done (.ok profile) →
    p.process j = .done (.ok other) → profile = other
  published : ∀ bytes, p.store.profileBytes = some bytes →
    Parses bytes ∧ ∀ p', Relation.ReflTransGen HostStep p p' → p'.store.profileBytes = some bytes
  guarded : ∀ p', HostStep p p' → p.store.profileBytes = none → p'.store.profileBytes ≠ none →
    p.store.entry databasePath = none ∧ p'.store.entry databasePath = none

/-- In every interleaving of calls with distinct namespaces, all calls that return a profile return
the same one, a published file keeps its bytes, which are those of a profile, and no profile is
published where a database exists. -/
theorem host_profiles_agree (runtime : ι → HostRuntime) (hdistinct : DistinctNamespaces runtime)
    (store : HostDirectory) (hstore : ∀ bytes, store.profileBytes = some bytes → Parses bytes)
    (hrun : Relation.ReflTransGen HostStep (hostProcesses runtime store) p) :
    ProfileAgreement p := by
  have hstart : HostSound runtime (hostProcesses runtime store) :=
    ⟨fun inode bytes hpublished => hstore bytes (profileBytes_eq_some_iff.2 ⟨inode, hpublished⟩),
      fun i => loadOrCreateHostProfile_own (runtime i),
      fun i => yields_loadOrCreateHostProfile hdistinct⟩
  have hsound := run_sound hstart hrun
  refine ⟨fun i j profile other hi hj => ?_, fun bytes hbytes => ?_, fun p' hstep hnone hsome => ?_⟩
  · exact (hsound.returned hi profile rfl).unique (hsound.returned hj other rfl)
  · obtain ⟨inode, hpublished⟩ := profileBytes_eq_some_iff.1 hbytes
    exact ⟨hsound.invariant inode bytes hpublished, fun p' hrun' =>
      profileBytes_eq_some_iff.2 ⟨inode, run_published hsound hrun' hpublished⟩⟩
  · obtain ⟨actor, hchange⟩ := (hstep.sound hsound).2
    rcases hchange.profile with ⟨hentry, hcontent⟩ | ⟨_, hdatabase, hdatabase', _⟩
    · obtain ⟨bytes, hbytes⟩ := Option.ne_none_iff_exists'.1 hsome
      obtain ⟨inode, hpublished⟩ := profileBytes_eq_some_iff.1 hbytes
      have hbefore := hentry.symm.trans hpublished.entry
      rw [profileBytes_eq_some_iff.2 ⟨inode, hbefore, rfl⟩] at hnone
      cases hnone
    · exact ⟨hdatabase, hdatabase'⟩

/-- The next operations of one call are a run. -/
theorem operations_reach (i : ι) (n : Nat) (p : HostProcesses ι) :
    Relation.ReflTransGen HostStep p (Processes.advanceFor i n p) :=
  Relation.ReflTransGen.mono (fun p p' h => HostStep.step p p' h) _ _
    (Processes.advanceFor_reaches i n p)

/-! ## Two calls -/

namespace HostSample

def hostNamespace (second : Bool) : Identifier :=
  ⟨if second then "namespace-b123456789abcdef0123456789abcdef"
    else "namespace-a123456789abcdef0123456789abcdef", by cases second <;> decide⟩

def hostDevice : Identifier :=
  ⟨"device-c123456789abcdef0123456789abcdef", by decide⟩

def hostRuntimes (second : Bool) : HostRuntime where
  namespaceId := some (hostNamespace second)
  deviceId := some hostDevice

/-- There is no data directory yet. -/
def noDirectory : HostDirectory where
  root := none
  entry _ := none
  contents := []
  fault := none
  chunk := 99
  rooted _ h := absurd rfl h
  named _ _ h := by cases h

/-- The first call waits before its link while the second call publishes its profile. -/
def raced : HostProcesses Bool :=
  Processes.advanceFor false 40 (Processes.advanceFor true 40 (Processes.advanceFor false 17
    (hostProcesses hostRuntimes noDirectory)))

end HostSample

open HostSample

/-- The first call returns the profile of the second. -/
theorem raced_calls_agree :
    raced.store.profileBytes = some (encodeProfile ⟨hostNamespace true, hostDevice⟩) ∧
      ProfileAgreement raced := by
  refine ⟨by decide +kernel, host_profiles_agree hostRuntimes (fun i j namespaceId hi hj => ?_)
    noDirectory (fun bytes hbytes => by cases hbytes) ?_⟩
  · have heq : hostNamespace i = hostNamespace j := Option.some.inj (hi.trans hj.symm)
    revert heq
    cases i <;> cases j <;> decide
  · exact ((operations_reach false 17 _).trans (operations_reach true 40 _)).trans
      (operations_reach false 40 _)

end Desktop
end RadishMemory
