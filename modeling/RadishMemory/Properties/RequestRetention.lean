import RadishMemory.Construction.Desktop.DesktopSamples
import RadishMemory.Construction.Desktop.Retention

/-!
# Retention of original requests

Every command moves the engine along the retention machine: the events it adds are a trace of the
machine from the request that the engine retained to the one it retains then.  What is proved about
the machine's traces then holds of every sequence of commands, whatever the host answers.
-/

namespace RadishMemory
namespace Desktop

open Method

section

variable [Platform] {ω : Type}

/-! ## The machine -/

section Machine

variable {names : CaptureAbandonmentTarget → SourceCapture → Prop} {deeds : List Deed}
  {retained retained' : Option Original} {original : Original}

theorem Original.slots_injective : Function.Injective Original.slots := by
  rintro (_ | _ | _) (_ | _ | _) h
  all_goals cases h
  all_goals rfl

/-- The request is finished by these deeds, or its own abandonment is among them. -/
def Original.ReleasedBy (names : CaptureAbandonmentTarget → SourceCapture → Prop)
    (deeds : List Deed) (original : Original) : Prop :=
  .finished original ∈ deeds ∨
    ∃ target request, original = .capture request ∧ names target request ∧
      .abandoned target ∈ deeds

theorem Original.ReleasedBy.cons (h : original.ReleasedBy names deeds) (deed : Deed) :
    original.ReleasedBy names (deed :: deeds) := by
  rcases h with h | ⟨target, request, horiginal, hnames, h⟩
  · exact .inl (List.mem_cons_of_mem _ h)
  · exact .inr ⟨target, request, horiginal, hnames, List.mem_cons_of_mem _ h⟩

/-- A retained request is kept or released; it is never replaced. -/
theorem RetentionStep.keeps {deed : Deed}
    (h : RetentionStep names (some original) deed retained') :
    retained' = some original ∨ original.ReleasedBy names [deed] := by
  cases h with
  | attempt => exact .inl rfl
  | finish => exact .inr (.inl List.mem_cons_self)
  | abandon target request hnames =>
    exact .inr (.inr ⟨target, request, rfl, hnames, List.mem_cons_self⟩)
  | abandonOther => exact .inl rfl
  | other => exact .inl rfl

/-- Over a trace, too, a retained request is kept or released. -/
theorem retained_keeps (h : Trace (RetentionStep names) (some original) deeds retained') :
    retained' = some original ∨ original.ReleasedBy names deeds := by
  generalize hstart : some original = retained at h
  induction h with
  | nil => exact .inl rfl
  | @cons _ next _ deed deeds hstep hrest ih =>
    subst hstart
    rcases hstep.keeps with rfl | hreleased
    · exact (ih rfl).imp_right fun h => h.cons deed
    · refine .inr ?_
      rcases hreleased with hmem | ⟨target, request, horiginal, hnames, hmem⟩
      · exact .inl (List.mem_cons.2 (.inl (List.mem_singleton.1 hmem)))
      · exact .inr ⟨target, request, horiginal, hnames,
          List.mem_cons.2 (.inl (List.mem_singleton.1 hmem))⟩

/-- What is prepared is retained from there on, or released. -/
theorem prepared_keeps (h : Trace (RetentionStep names) retained deeds retained')
    (hprepared : .prepared original ∈ deeds) :
    retained' = some original ∨ original.ReleasedBy names deeds := by
  induction h with
  | nil => cases hprepared
  | @cons _ next _ deed deeds hstep hrest ih =>
    rcases List.mem_cons.1 hprepared with rfl | hmem
    · cases hstep
      exact (retained_keeps hrest).imp_right fun h => h.cons _
    · exact (ih hmem).imp_right fun h => h.cons deed

/-- Without a preparation or an attempt nothing comes to be retained. -/
theorem nothing_retained (h : Trace (RetentionStep names) none deeds retained')
    (hdeeds : ∀ deed ∈ deeds, ∀ original, deed ≠ .prepared original ∧ deed ≠ .attempted original) :
    retained' = none := by
  refine h.invariant (P := fun retained => retained = none) (fun s deed s' hmem hstep hs => ?_) rfl
  cases hstep with
  | prepare original => exact absurd rfl (hdeeds _ hmem original).1
  | attempt original => cases hs
  | resume request => exact absurd rfl (hdeeds _ hmem (.deletion request)).2
  | finish original => rfl
  | finishResumed request => rfl
  | abandon => rfl
  | abandonOther => exact hs
  | reopen => rfl
  | other => exact hs

end Machine

/-! ## Events -/

section Events

theorem deed_of_neutral {call : LibraryCall} (h : call.kind = .neutral)
    (result : Except ApplicationFailureSummary call.Answer) :
    (⟨call, result⟩ : Event).deed = .other := by
  cases call <;> first | rfl | cases h

theorem deed_of_opening {call : LibraryCall} (h : call.kind = .opening)
    (result : Except ApplicationFailureSummary call.Answer) :
    (⟨call, result⟩ : Event).deed = .reopened := by
  cases call <;> first | rfl | cases h

theorem released_of_finished {event : Event} {original : Original} {events : List Event}
    (hmem : event ∈ events) (h : event.deed = .finished original) : original.Released events := by
  obtain ⟨call, result⟩ := event
  cases call with
  | captureSource request =>
    cases result with
    | error e => cases h
    | ok receipt =>
      cases h
      exact .inl ⟨receipt, hmem⟩
  | executeSourceLineageDeletion request =>
    cases result with
    | error e => cases h
    | ok evidence =>
      by_cases hcompleted : evidence.params.overallStatus = .completed
      · rw [Event.deed, if_pos hcompleted] at h
        cases h
        exact ⟨evidence, hcompleted, hmem⟩
      · rw [Event.deed, if_neg hcompleted] at h
        cases h
  | _ => cases result <;> cases h

theorem abandoned_of_deed {event : Event} {target : CaptureAbandonmentTarget}
    (h : event.deed = .abandoned target) : event = ⟨.abandonCapture target, .ok ()⟩ := by
  obtain ⟨call, result⟩ := event
  cases call with
  | abandonCapture target' =>
    cases result with
    | error e => cases h
    | ok u =>
      cases h
      rfl
  | executeSourceLineageDeletion request =>
    cases result with
    | error e => cases h
    | ok evidence =>
      by_cases hcompleted : evidence.params.overallStatus = .completed
      · rw [Event.deed, if_pos hcompleted] at h
        cases h
      · rw [Event.deed, if_neg hcompleted] at h
        cases h
  | _ => cases result <;> cases h

/-- A request that the deeds of some events release is released by the events. -/
theorem released_of_releasedBy {events : List Event} {original : Original}
    (h : original.ReleasedBy CaptureAbandonmentTarget.Names (events.map Event.deed)) :
    original.Released events := by
  rcases h with hmem | ⟨target, request, rfl, hnames, hmem⟩
  · obtain ⟨event, hevent, hdeed⟩ := List.mem_map.1 hmem
    exact released_of_finished hevent hdeed
  · obtain ⟨event, hevent, hdeed⟩ := List.mem_map.1 hmem
    cases abandoned_of_deed hdeed
    exact .inr ⟨target, hnames, hevent⟩

theorem prepared_mem {events : List Event} {original : Original} (h : original.Prepared events) :
    .prepared original ∈ events.map Event.deed := by
  cases original with
  | capture request =>
    rcases h with ⟨file, hmem⟩ | ⟨lineage, file, hmem⟩
    · exact List.mem_map.2 ⟨_, hmem, rfl⟩
    · exact List.mem_map.2 ⟨_, hmem, rfl⟩
  | deletion request =>
    obtain ⟨lineage, hmem⟩ := h
    exact List.mem_map.2 ⟨_, hmem, rfl⟩

end Events

/-! ## Following the machine -/

section Follows

variable {σ τ ε α β : Type} [Retaining σ] [Retaining τ]
  {names : CaptureAbandonmentTarget → SourceCapture → Prop} {kinds : List CallKind}

/-- The events between two states are of these kinds, and they are a trace of the machine. -/
def Follows (names : CaptureAbandonmentTarget → SourceCapture → Prop) (kinds : List CallKind)
    (s s' : Situated ω σ) : Prop :=
  ∃ events, s'.outside.events = s.outside.events ++ events ∧
    (∀ event ∈ events, event.call.kind ∈ kinds) ∧
      ∀ retained, Retaining.slots s.self = Original.slots retained → ∃ retained',
        Trace (RetentionStep names) retained (events.map Event.deed) retained' ∧
          Retaining.slots s'.self = Original.slots retained'

instance Follows.preorder : IsPreorder (Situated ω σ) (Follows names kinds) where
  refl s := ⟨[], (List.append_nil _).symm, fun _ hmem => (List.not_mem_nil hmem).elim,
    fun retained hslots => ⟨retained, .nil retained, hslots⟩⟩
  trans s s' s'' := by
    rintro ⟨events, hevents, hkinds, htrace⟩ ⟨events', hevents', hkinds', htrace'⟩
    refine ⟨events ++ events', ?_, fun event hmem => ?_, fun retained hslots => ?_⟩
    · rw [hevents', hevents, List.append_assoc]
    · rcases List.mem_append.1 hmem with hmem | hmem
      · exact hkinds event hmem
      · exact hkinds' event hmem
    · obtain ⟨retained', hrun, hslots'⟩ := htrace retained hslots
      obtain ⟨retained'', hrun', hslots''⟩ := htrace' retained' hslots'
      refine ⟨retained'', ?_, hslots''⟩
      rw [List.map_append]
      exact hrun.append hrun'

theorem Follows.mono {kinds' : List CallKind} {s s' : Situated ω σ} (h : Follows names kinds s s')
    (hkinds : kinds ⊆ kinds') : Follows names kinds' s s' := by
  obtain ⟨events, hevents, hmem, htrace⟩ := h
  exact ⟨events, hevents, fun event he => hkinds (hmem event he), htrace⟩

/-- Where no call begins or settles a request, nothing comes to be retained. -/
theorem Follows.slots_none {s s' : Situated ω σ} (h : Follows names kinds s s')
    (hkinds : kinds ⊆ [.neutral, .opening]) (hslots : Retaining.slots s.self = (none, none)) :
    Retaining.slots s'.self = (none, none) := by
  obtain ⟨events, -, hmem, htrace⟩ := h
  obtain ⟨retained', hrun, hslots'⟩ := htrace none hslots
  have hnone : retained' = none := by
    refine nothing_retained hrun fun deed hdeed original => ?_
    obtain ⟨event, hevent, rfl⟩ := List.mem_map.1 hdeed
    have hkind := hkinds (hmem event hevent)
    rw [List.mem_cons, List.mem_singleton] at hkind
    rcases hkind with hkind | hkind
    · rw [deed_of_neutral hkind]
      constructor <;> intro h <;> cases h
    · rw [deed_of_opening hkind]
      constructor <;> intro h <;> cases h
  rw [hslots', hnone]
  rfl

variable (host : Host ω) {s : Situated ω σ}

omit [Retaining σ] in
/-- What follows a call goes on with its answer. -/
theorem outcome_ask_bind {call : LibraryCall}
    (f : call.Answer → Method (Situated ω σ) ApplicationFailureSummary α) (s : Situated ω σ) :
    (ask host call >>= f).outcome s =
      match host.answer call s.outside.world with
      | (.ok answer, world) =>
        (f answer).outcome ⟨s.self, ⟨world, s.outside.events ++ [⟨call, .ok answer⟩]⟩⟩
      | (.error e, world) =>
        (.error e, ⟨s.self, ⟨world, s.outside.events ++ [⟨call, .error e⟩]⟩⟩) := by
  have hask : (ask host call : Method (Situated ω σ) _ _).outcome s =
      ((host.answer call s.outside.world).1,
        ⟨s.self, ⟨(host.answer call s.outside.world).2,
          s.outside.events ++ [⟨call, (host.answer call s.outside.world).1⟩]⟩⟩) := rfl
  rw [outcome_bind, hask]
  cases host.answer call s.outside.world with
  | mk result world =>
    cases result with
    | ok answer => rfl
    | error e => rfl

omit [Retaining σ] in
theorem outcome_mapError_ask_bind {call : LibraryCall}
    (f : call.Answer → Method (Situated ω σ) DesktopError α) (s : Situated ω σ) :
    ((ask host call).mapError appError >>= f).outcome s =
      match host.answer call s.outside.world with
      | (.ok answer, world) =>
        (f answer).outcome ⟨s.self, ⟨world, s.outside.events ++ [⟨call, .ok answer⟩]⟩⟩
      | (.error e, world) =>
        (.error (appError e), ⟨s.self, ⟨world, s.outside.events ++ [⟨call, .error e⟩]⟩⟩) := by
  have hask : ((ask host call : Method (Situated ω σ) _ _).mapError appError).outcome s =
      ((host.answer call s.outside.world).1.mapError appError,
        ⟨s.self, ⟨(host.answer call s.outside.world).2,
          s.outside.events ++ [⟨call, (host.answer call s.outside.world).1⟩]⟩⟩) := rfl
  rw [outcome_bind, hask]
  cases host.answer call s.outside.world with
  | mk result world =>
    cases result with
    | ok answer => rfl
    | error e => rfl

omit [Retaining σ] in
theorem outcome_update_bind (f : σ → σ) (g : Unit → Method (Situated ω σ) ε α)
    (s : Situated ω σ) :
    (update f >>= g).outcome s = (g ()).outcome { s with self := f s.self } := rfl

/-- One call, if the machine can stay where it is. -/
theorem follows_ask {call : LibraryCall} (hkind : call.kind ∈ kinds)
    (hstay : ∀ retained, Retaining.slots s.self = Original.slots retained → ∀ result,
      RetentionStep names retained (⟨call, result⟩ : Event).deed retained) :
    (ask host call : Method (Situated ω σ) _ _).Moves (Follows names kinds) s := by
  refine ⟨[_], rfl, fun event hmem => ?_, fun retained hslots => ?_⟩
  · rw [List.mem_singleton.1 hmem]
    exact hkind
  · exact ⟨retained, .single (hstay retained hslots _), hslots⟩

theorem follows_ask_neutral {call : LibraryCall} (hkind : call.kind = .neutral)
    (hmem : .neutral ∈ kinds) :
    (ask host call : Method (Situated ω σ) _ _).Moves (Follows names kinds) s := by
  refine follows_ask host (hkind ▸ hmem) fun retained _ result => ?_
  rw [deed_of_neutral hkind]
  exact .other retained

theorem follows_ask_opening {call : LibraryCall} (hkind : call.kind = .opening)
    (hmem : .opening ∈ kinds) (hslots : Retaining.slots s.self = (none, none)) :
    (ask host call : Method (Situated ω σ) _ _).Moves (Follows names kinds) s := by
  refine follows_ask host (hkind ▸ hmem) fun retained hretained result => ?_
  rw [deed_of_opening hkind]
  rcases retained with _ | request | request
  · exact .reopen
  · cases hslots.symm.trans hretained
  · cases hslots.symm.trans hretained

theorem follows_access (f : ω → α × ω) :
    (access f : Method (Situated ω σ) ε α).Moves (Follows names kinds) s :=
  ⟨[], (List.append_nil _).symm, fun _ hmem => (List.not_mem_nil hmem).elim,
    fun retained hslots => ⟨retained, .nil retained, hslots⟩⟩

theorem follows_update {f : σ → σ} (hslots : Retaining.slots (f s.self) = Retaining.slots s.self) :
    (update f : Method (Situated ω σ) ε Unit).Moves (Follows names kinds) s :=
  ⟨[], (List.append_nil _).symm, fun _ hmem => (List.not_mem_nil hmem).elim,
    fun retained h => ⟨retained, .nil retained, hslots.trans h⟩⟩

theorem follows_self_bind {f : σ → Method (Situated ω σ) ε α}
    (h : (f s.self).Moves (Follows names kinds) s) :
    (self >>= f : Method (Situated ω σ) ε α).Moves (Follows names kinds) s := h

omit [Retaining σ] [Retaining τ] in
theorem build_eq_ok {initial : τ} {x : Method (Situated ω τ) ε Unit} {t : τ}
    {s' : Situated ω σ} (h : (build initial x).outcome s = (.ok t, s')) :
    t = (x.outcome ⟨initial, s.outside⟩).2.self := by
  have hresult : (x.outcome ⟨initial, s.outside⟩).1.map
      (fun _ => (x.outcome ⟨initial, s.outside⟩).2.self) = .ok t := congrArg Prod.fst h
  cases hx : (x.outcome ⟨initial, s.outside⟩).1 with
  | error e =>
    rw [hx] at hresult
    cases hresult
  | ok u =>
    rw [hx] at hresult
    exact (Except.ok.inj hresult).symm

theorem follows_within {part : σ → τ} {put : σ → τ → σ} {x : Method (Situated ω τ) ε α}
    (hpart : Retaining.slots (part s.self) = Retaining.slots s.self)
    (hput : ∀ t, Retaining.slots (put s.self t) = Retaining.slots t)
    (h : x.Moves (Follows names kinds) ⟨part s.self, s.outside⟩) :
    (within part put x).Moves (Follows names kinds) s := by
  refine moves_zoom h fun t ht => ?_
  obtain ⟨events, hevents, hkinds, htrace⟩ := ht
  refine ⟨events, hevents, hkinds, fun retained hslots => ?_⟩
  obtain ⟨retained', hrun, hslots'⟩ := htrace retained (hpart.trans hslots)
  exact ⟨retained', hrun, (hput _).trans hslots'⟩

end Follows

/-! ## The library -/

namespace Library

variable {names : CaptureAbandonmentTarget → SourceCapture → Prop} {kinds : List CallKind}
  (host : Host ω) {s : Situated ω Library}

theorem slots_of_not_holdsOriginal {library : Library} (h : library.holdsOriginal = false) :
    library.slots = (none, none) := by
  rcases library with _ | ⟨_ | request, _ | request'⟩
  · rfl
  · rfl
  · cases h
  · cases h
  · cases h

/-- One more event, after which the request is finished or still retained. -/
def Settles (original : Original) (s s' : Situated ω Library) : Prop :=
  ∃ event : Event, event.call.kind = .settling ∧
    s'.outside.events = s.outside.events ++ [event] ∧
      (event.deed = .finished original ∧ s'.self.slots = (none, none) ∨
        event.deed = .attempted original ∧ s'.self.slots = Original.slots (some original))

theorem captureKeeping_settles (prepared : SourceCapture) (outside : Outside ω) :
    (captureKeeping host prepared).Moves (Settles (.capture prepared))
      ⟨.encrypted none none, outside⟩ := by
  rw [Moves, captureKeeping, outcome_update_bind, outcome_ask_bind]
  dsimp only
  cases host.answer (.captureSource prepared) outside.world with
  | mk result world =>
    cases result with
    | error e => exact ⟨_, rfl, rfl, .inr ⟨rfl, rfl⟩⟩
    | ok receipt => exact ⟨_, rfl, rfl, .inl ⟨rfl, rfl⟩⟩

theorem executeKeeping_settles (request : DeleteRequest) (outside : Outside ω) :
    (executeKeeping host request).Moves (Settles (.deletion request))
      ⟨.encrypted none (some request), outside⟩ := by
  rw [Moves, executeKeeping, outcome_ask_bind]
  dsimp only
  cases host.answer (.executeSourceLineageDeletion request) outside.world with
  | mk result world =>
    cases result with
    | error e => exact ⟨_, rfl, rfl, .inr ⟨rfl, rfl⟩⟩
    | ok evidence =>
      refine ⟨⟨.executeSourceLineageDeletion request, .ok evidence⟩, rfl, rfl, ?_⟩
      dsimp only
      rw [Event.deed, outcome_update_bind]
      by_cases hcompleted : evidence.params.overallStatus = .completed
      · rw [if_pos hcompleted, if_pos hcompleted]
        exact .inl ⟨rfl, rfl⟩
      · rw [if_neg hcompleted, if_neg hcompleted]
        exact .inr ⟨rfl, rfl⟩

/-- A retained request that is tried again. -/
theorem Settles.follows {original : Original} {s s' : Situated ω Library}
    (h : Settles original s s') (hslots : s.self.slots = Original.slots (some original)) :
    Follows names [.neutral, .settling] s s' := by
  obtain ⟨event, hkind, hevents, hdeed⟩ := h
  refine ⟨[event], hevents, fun event' hmem => ?_, fun retained hretained => ?_⟩
  · rw [List.mem_singleton.1 hmem, hkind]
    exact List.mem_cons_of_mem _ List.mem_cons_self
  · cases Original.slots_injective (hretained.symm.trans hslots)
    rw [List.map_cons, List.map_nil]
    rcases hdeed with ⟨hdeed, hslots'⟩ | ⟨hdeed, hslots'⟩
    · exact ⟨none, .single (hdeed ▸ .finish original), hslots'⟩
    · exact ⟨some original, .single (hdeed ▸ .attempt original), hslots'⟩

/-- A deletion that was unfinished before this worker started. -/
theorem Settles.follows_resumed {request : DeleteRequest} {s s' : Situated ω Library}
    (h : Settles (.deletion request) ⟨.encrypted none (some request), s.outside⟩ s')
    (hslots : s.self.slots = (none, none)) : Follows names [.neutral, .settling] s s' := by
  obtain ⟨event, hkind, hevents, hdeed⟩ := h
  refine ⟨[event], hevents, fun event' hmem => ?_, fun retained hretained => ?_⟩
  · rw [List.mem_singleton.1 hmem, hkind]
    exact List.mem_cons_of_mem _ List.mem_cons_self
  · have hnone : retained = none := Original.slots_injective (hretained.symm.trans hslots)
    subst hnone
    rw [List.map_cons, List.map_nil]
    rcases hdeed with ⟨hdeed, hslots'⟩ | ⟨hdeed, hslots'⟩
    · exact ⟨none, .single (hdeed ▸ .finishResumed request), hslots'⟩
    · exact ⟨some (.deletion request), .single (hdeed ▸ .resume request), hslots'⟩

/-- A prepared request is retained until it is settled. -/
theorem follows_prepared {call : LibraryCall} {α : Type} {original : call.Answer → Original}
    {rest : call.Answer → Method (Situated ω Library) ApplicationFailureSummary α}
    (hkind : call.kind = .beginning) (herror : ∀ e, (⟨call, .error e⟩ : Event).deed = .other)
    (hok : ∀ prepared, (⟨call, .ok prepared⟩ : Event).deed = .prepared (original prepared))
    (hrest : ∀ prepared outside, (rest prepared).Moves (Settles (original prepared))
      ⟨.encrypted none none, outside⟩) (outside : Outside ω) :
    (ask host call >>= rest).Moves (Follows names [.neutral, .beginning, .settling])
      ⟨.encrypted none none, outside⟩ := by
  rw [Moves, outcome_ask_bind]
  dsimp only
  cases host.answer call outside.world with
  | mk result world =>
    cases result with
    | error e =>
      refine ⟨[_], rfl, fun event hmem => ?_, fun retained hslots => ⟨retained, .single ?_, hslots⟩⟩
      · rw [List.mem_singleton.1 hmem, hkind]
        decide
      · rw [herror]
        exact .other retained
    | ok prepared =>
      obtain ⟨event, hsettling, hevents, hdeed⟩ := hrest prepared
        ⟨world, outside.events ++ [⟨call, .ok prepared⟩]⟩
      refine ⟨[⟨call, .ok prepared⟩, event], ?_, fun event' hmem => ?_, fun retained hslots => ?_⟩
      · rw [hevents, List.append_assoc]
        rfl
      · rcases List.mem_pair.1 hmem with rfl | rfl
        · rw [hkind]
          decide
        · rw [hsettling]
          decide
      · have hnone : retained = none := Original.slots_injective (hslots.symm.trans rfl)
        subst hnone
        rw [List.map_cons, List.map_cons, List.map_nil, hok]
        rcases hdeed with ⟨hdeed, hslots'⟩ | ⟨hdeed, hslots'⟩
        · exact ⟨none, .cons (.prepare _) (.single (hdeed ▸ .finish _)), hslots'⟩
        · exact ⟨_, .cons (.prepare _) (.single (hdeed ▸ .attempt _)), hslots'⟩

theorem follows_importNewSource (request : FileReadRequest) (hslots : s.self.slots = (none, none)) :
    (importNewSource host request).Moves (Follows names [.neutral, .beginning, .settling]) s := by
  obtain ⟨library, outside⟩ := s
  rcases library with _ | ⟨capture, deletion⟩
  · exact follows_ask host (List.mem_cons_of_mem _ List.mem_cons_self)
      fun retained _ _ => .other retained
  · cases hslots
    exact follows_prepared host rfl (fun _ => rfl) (fun _ => rfl)
      (captureKeeping_settles host) outside

theorem follows_updateSource (lineage : Identifier) (request : FileReadRequest)
    (hslots : s.self.slots = (none, none)) :
    (updateSource host lineage request).Moves
      (Follows names [.neutral, .beginning, .settling]) s := by
  obtain ⟨library, outside⟩ := s
  rcases library with _ | ⟨capture, deletion⟩
  · exact follows_ask host (List.mem_cons_of_mem _ List.mem_cons_self)
      fun retained _ _ => .other retained
  · cases hslots
    exact follows_prepared host rfl (fun _ => rfl) (fun _ => rfl)
      (captureKeeping_settles host) outside

theorem follows_deleteSourceLineage (lineage : Identifier)
    (hslots : s.self.slots = (none, none)) :
    (deleteSourceLineage host lineage).Moves
      (Follows names [.neutral, .beginning, .settling]) s := by
  obtain ⟨library, outside⟩ := s
  rcases library with _ | ⟨capture, deletion⟩
  · exact follows_ask host (List.mem_cons_of_mem _ List.mem_cons_self)
      fun retained _ _ => .other retained
  · cases hslots
    exact follows_prepared host rfl (fun _ => rfl) (fun _ => rfl)
      (executeKeeping_settles host) outside

theorem follows_recovery (hkinds : .neutral ∈ kinds) :
    (recovery host).Moves (Follows names kinds) s := by
  refine follows_self_bind ?_
  cases s.self with
  | plain => exact moves_pure _
  | encrypted capture deletion =>
    refine moves_bind (moves_mapError (follows_ask_neutral host rfl hkinds)) fun target s' _ _ => ?_
    exact moves_bind (moves_mapError (follows_ask_neutral host rfl hkinds))
      fun deletions s'' _ _ => moves_pure _

theorem follows_retried_capture (request : SourceCapture) (deletion : Option DeleteRequest)
    (outside : Outside ω) :
    (retry host).Moves (Follows names [.neutral, .settling])
      ⟨.encrypted (some request) deletion, outside⟩ := by
  refine follows_self_bind ?_
  dsimp only
  rw [Moves, outcome_mapError_ask_bind]
  dsimp only
  have hsettling : CallKind.settling ∈ [CallKind.neutral, .settling] :=
    List.mem_cons_of_mem _ List.mem_cons_self
  cases host.answer (.captureSource request) outside.world with
  | mk result world =>
    cases result with
    | error e =>
      refine ⟨[_], rfl, fun event hmem => ?_, fun retained hslots => ?_⟩
      · rw [List.mem_singleton.1 hmem]
        exact hsettling
      · rcases retained with _ | _ | _
        all_goals cases hslots
        exact ⟨_, .single (.attempt _), rfl⟩
    | ok receipt =>
      refine ⟨[_], rfl, fun event hmem => ?_, fun retained hslots => ?_⟩
      · rw [List.mem_singleton.1 hmem]
        exact hsettling
      · rcases retained with _ | _ | _
        all_goals cases hslots
        exact ⟨_, .single (.finish _), rfl⟩

theorem follows_retry : (retry host).Moves (Follows names [.neutral, .settling]) s := by
  obtain ⟨library, outside⟩ := s
  rcases library with _ | ⟨_ | request, _ | request'⟩
  · exact moves_throw _
  · exact moves_throw _
  · have hexecute : (executeKeeping host request').Moves (Follows names [.neutral, .settling])
        ⟨.encrypted none (some request'), outside⟩ :=
      (executeKeeping_settles host request' outside).follows rfl
    exact moves_map (moves_mapError hexecute)
  · exact follows_retried_capture host request none outside
  · exact follows_retried_capture host request (some request') outside

theorem follows_resumeDelete (request : DeleteRequest) (hslots : s.self.slots = (none, none)) :
    (resumeDelete host request).Moves (Follows names [.neutral, .settling]) s := by
  obtain ⟨library, outside⟩ := s
  rcases library with _ | ⟨capture, deletion⟩
  · exact moves_throw _
  · cases hslots
    have hexecute : (executeKeeping host request).Moves
        (fun _ s' => Follows names [.neutral, .settling] ⟨.encrypted none none, outside⟩ s')
        ⟨.encrypted none (some request), outside⟩ :=
      (executeKeeping_settles host request outside).follows_resumed
        (s := ⟨.encrypted none none, outside⟩) rfl
    exact moves_map (moves_mapError hexecute)

/-- The abandonment of the retained capture releases it; of a deletion, nothing changes. -/
theorem follows_abandon (target : CaptureAbandonmentTarget)
    (hnames : ∀ request, s.self.slots.1 = some request → names target request) :
    (abandon host target).Moves (Follows names [.neutral, .settling]) s := by
  obtain ⟨library, outside⟩ := s
  rcases library with _ | ⟨capture, deletion⟩
  · exact moves_throw _
  · refine follows_self_bind ?_
    dsimp only
    rw [Moves, outcome_mapError_ask_bind]
    dsimp only
    have hsettling : CallKind.settling ∈ [CallKind.neutral, .settling] :=
      List.mem_cons_of_mem _ List.mem_cons_self
    cases host.answer (.abandonCapture target) outside.world with
    | mk result world =>
      cases result with
      | error e =>
        refine ⟨[_], rfl, fun event hmem => ?_, fun retained hslots => ⟨retained, ?_, hslots⟩⟩
        · rw [List.mem_singleton.1 hmem]
          exact hsettling
        · exact .single (.other retained)
      | ok report =>
        refine ⟨[_], rfl, fun event hmem => ?_, fun retained hslots => ?_⟩
        · rw [List.mem_singleton.1 hmem]
          exact hsettling
        · rcases retained with _ | request | request
          · cases hslots
            exact ⟨none, .single (.abandonOther target none fun _ h => by cases h), rfl⟩
          · cases hslots
            exact ⟨none, .single (.abandon target request (hnames request rfl)), rfl⟩
          · cases hslots
            exact ⟨_, .single (.abandonOther target _ fun _ h => by cases h), rfl⟩

end Library

/-! ## The controller -/

namespace LibraryController

variable {names : CaptureAbandonmentTarget → SourceCapture → Prop} {kinds : List CallKind}
  {ε α : Type} (host : Host ω) {s : Situated ω LibraryController}

theorem follows_backend {x : Method (Situated ω Library) ε α}
    (h : x.Moves (Follows names kinds) ⟨s.self.library, s.outside⟩) :
    (backend x).Moves (Follows names kinds) s :=
  follows_within rfl (fun _ => rfl) h

theorem follows_onView (f : LibraryView → LibraryView) :
    (onView f : Method (Situated ω LibraryController) ε Unit).Moves (Follows names kinds) s :=
  follows_update rfl

theorem follows_read {call : LibraryCall} (hkind : call.kind = .neutral)
    (hmem : .neutral ∈ kinds) : (read host call).Moves (Follows names kinds) s :=
  moves_mapError (follows_backend (follows_ask_neutral host hkind hmem))

theorem follows_selectLineage (hmem : .neutral ∈ kinds) (lineageId : Identifier) :
    (selectLineage host lineageId).Moves (Follows names kinds) s := by
  refine follows_self_bind ?_
  refine moves_bind (moves_ofExcept _) fun source s₁ _ _ => ?_
  refine moves_bind (follows_read host rfl hmem) fun versions s₂ _ _ => ?_
  exact follows_onView _

theorem follows_selectSourceVersion (sourceId : Identifier) :
    (selectSourceVersion sourceId).Moves (Follows names kinds) s := by
  refine follows_self_bind ?_
  exact moves_bind (moves_refuseIf _ _) fun _ s₁ _ _ => follows_onView _

theorem follows_refreshSources (hmem : .neutral ∈ kinds) :
    (refreshSources host).Moves (Follows names kinds) s := by
  refine follows_self_bind ?_
  refine moves_bind (follows_onView _) fun _ s₁ _ _ => ?_
  refine moves_bind (follows_read host rfl hmem) fun sources s₂ _ _ => ?_
  refine moves_bind (follows_onView _) fun _ s₃ _ _ => ?_
  cases selectedAfterRefresh s.self.view.selectedLineageId sources with
  | none => exact follows_onView _
  | some lineageId => exact follows_selectLineage host hmem lineageId

theorem follows_refreshEncryptedSnapshot (hmem : .neutral ∈ kinds) :
    (refreshEncryptedSnapshot host).Moves (Follows names kinds) s := by
  refine follows_self_bind ?_
  refine moves_bind (follows_update rfl) fun _ s₁ _ _ => ?_
  cases s.self.library with
  | plain => exact moves_throw _
  | encrypted capture deletion =>
    refine moves_bind (follows_read host rfl hmem) fun snapshot s₂ _ _ => ?_
    exact moves_bind (follows_onView _) fun _ s₃ _ _ => moves_pure _

theorem follows_refreshAfterCommit (hmem : .neutral ∈ kinds) (selected : Option Identifier) :
    (refreshAfterCommit host selected).Moves (Follows names kinds) s := by
  have hselect : (refreshSelecting host selected).Moves (Follows names kinds) s := by
    refine moves_bind (follows_refreshSources host hmem) fun _ s₁ _ _ => ?_
    cases selected with
    | none => exact moves_pure _
    | some lineage => exact follows_selectLineage host hmem lineage
  exact moves_bind (moves_attempt hselect) fun refreshed s₁ _ _ => follows_update rfl

theorem follows_search (hmem : .neutral ∈ kinds) (query : String) :
    (search host query).Moves (Follows names kinds) s := by
  refine moves_bind (follows_onView _) fun _ s₁ _ _ => ?_
  by_cases hblank : query.toList.all isWhiteSpace
  · rw [if_pos hblank]
    exact moves_pure _
  · rw [if_neg hblank]
    refine moves_bind (moves_ofExcept _) fun query s₂ _ _ => ?_
    refine moves_bind (follows_read host rfl hmem) fun results s₃ _ _ => ?_
    exact follows_onView _

/-- Past the guard, no request is retained. -/
theorem slots_of_requireNoOriginal {s' : Situated ω LibraryController} {u : Unit}
    (h : requireNoOriginal.outcome s = (.ok u, s')) :
    s' = s ∧ s.self.library.slots = (none, none) := by
  cases hheld : s.self.library.holdsOriginal with
  | true =>
    have houtcome : requireNoOriginal.outcome s = (.error recoveryRequired, s) := by
      change (refuseIf s.self.library.holdsOriginal recoveryRequired).outcome s = _
      rw [hheld]
      rfl
    cases houtcome.symm.trans h
  | false =>
    have houtcome : requireNoOriginal.outcome s = (.ok ⟨⟩, s) := by
      change (refuseIf s.self.library.holdsOriginal recoveryRequired).outcome s = _
      rw [hheld]
      rfl
    cases houtcome.symm.trans h
    exact ⟨rfl, Library.slots_of_not_holdsOriginal hheld⟩

theorem follows_requireNoOriginal_bind {rest : Unit → Method (Situated ω LibraryController) _ α}
    (h : s.self.library.slots = (none, none) → (rest ⟨⟩).Moves (Follows names kinds) s) :
    (requireNoOriginal >>= rest).Moves (Follows names kinds) s := by
  refine moves_bind (follows_self_bind (moves_refuseIf _ _)) fun u s' houtcome _ => ?_
  obtain ⟨rfl, hslots⟩ := slots_of_requireNoOriginal houtcome
  exact h hslots

theorem follows_importSource (request : FileReadRequest) :
    (importSource host request).Moves (Follows names [.neutral, .beginning, .settling]) s := by
  refine follows_requireNoOriginal_bind fun hslots => ?_
  refine moves_bind (moves_mapError
    (follows_backend (Library.follows_importNewSource host request hslots))) fun receipt s₁ _ _ => ?_
  exact moves_bind (follows_refreshAfterCommit host List.mem_cons_self _)
    fun _ s₂ _ _ => moves_pure _

theorem follows_updateSelected (request : FileReadRequest) :
    (updateSelected host request).Moves (Follows names [.neutral, .beginning, .settling]) s := by
  refine follows_self_bind ?_
  refine moves_bind (moves_ofExcept _) fun lineageId s₁ _ _ => ?_
  refine follows_requireNoOriginal_bind fun hslots => ?_
  refine moves_bind (moves_mapError (follows_backend
    (Library.follows_updateSource host lineageId request hslots))) fun receipt s₂ _ _ => ?_
  exact moves_bind (follows_refreshAfterCommit host List.mem_cons_self _)
    fun _ s₃ _ _ => moves_pure _

theorem follows_deleteSelectedLineage :
    (deleteSelectedLineage host).Moves (Follows names [.neutral, .beginning, .settling]) s := by
  refine follows_self_bind ?_
  refine moves_bind (moves_ofExcept _) fun lineageId s₁ _ _ => ?_
  refine follows_requireNoOriginal_bind fun hslots => ?_
  refine moves_bind (moves_mapError (follows_backend
    (Library.follows_deleteSourceLineage host lineageId hslots))) fun evidence s₂ _ _ => ?_
  refine moves_bind (follows_onView _) fun _ s₃ _ _ => ?_
  exact moves_bind (follows_refreshAfterCommit host List.mem_cons_self _)
    fun _ s₄ _ _ => moves_pure _

theorem follows_rebuild (hmem : .neutral ∈ kinds) :
    (rebuild host).Moves (Follows names kinds) s :=
  moves_bind (follows_read host rfl hmem) fun _ _ _ _ => follows_refreshAfterCommit host hmem _

theorem follows_exportSelected (hmem : .neutral ∈ kinds) (request : FileExportRequest) :
    (exportSelected host request).Moves (Follows names kinds) s := by
  refine follows_self_bind ?_
  exact moves_bind (moves_ofExcept _) fun sourceId s₁ _ _ => follows_read host rfl hmem

end LibraryController

/-! ## The engine -/

namespace Turn

variable {names : CaptureAbandonmentTarget → SourceCapture → Prop} {kinds : List CallKind}
  {ε α : Type} (host : Host ω) {s : Situated ω Turn}

/-- The part of a command that follows the machine and leaves the flags of `execute` alone. -/
structure Turns (names : CaptureAbandonmentTarget → SourceCapture → Prop) (kinds : List CallKind)
    (s s' : Situated ω Turn) : Prop where
  follows : Follows names kinds s s'
  viewValid : s'.self.engine.viewValid = s.self.engine.viewValid
  observation : s'.self.engine.observation = s.self.engine.observation

instance Turns.preorder : IsPreorder (Situated ω Turn) (Turns names kinds) where
  refl s := ⟨refl_of _ s, rfl, rfl⟩
  trans _ _ _ h h' := ⟨trans_of _ h.follows h'.follows, h'.viewValid.trans h.viewValid,
    h'.observation.trans h.observation⟩

/-- Where no call is allowed, none is made. -/
theorem Turns.silent {s s' : Situated ω Turn} (h : Turns names [] s s') :
    s'.outside.events = s.outside.events := by
  obtain ⟨events, hevents, hkinds, -⟩ := h.follows
  cases events with
  | nil => rw [hevents, List.append_nil]
  | cons event rest => exact (List.not_mem_nil (hkinds event List.mem_cons_self)).elim

theorem Turns.slots_none {s s' : Situated ω Turn} (h : Turns names [.neutral, .opening] s s')
    (hslots : s.self.engine.slots = (none, none)) : s'.self.engine.slots = (none, none) :=
  h.follows.slots_none (List.Subset.refl _) hslots

theorem turns_onEngine {f : Engine → Engine} (hslots : (f s.self.engine).slots = s.self.engine.slots)
    (hview : (f s.self.engine).viewValid = s.self.engine.viewValid)
    (hobservation : (f s.self.engine).observation = s.self.engine.observation) :
    (onEngine f : Method (Situated ω Turn) ε Unit).Moves (Turns names kinds) s :=
  ⟨follows_update hslots, hview, hobservation⟩

theorem turns_onSnapshot (f : Snapshot → Snapshot) :
    (onSnapshot f : Method (Situated ω Turn) ε Unit).Moves (Turns names kinds) s :=
  ⟨follows_update rfl, rfl, rfl⟩

theorem turns_say (message : String) :
    (say message : Method (Situated ω Turn) ε Unit).Moves (Turns names kinds) s :=
  turns_onSnapshot _

theorem moves_engine_bind {R : Situated ω Turn → Situated ω Turn → Prop}
    {f : Engine → Method (Situated ω Turn) ε α} (h : (f s.self.engine).Moves R s) :
    (currentEngine >>= f : Method (Situated ω Turn) ε α).Moves R s := h

theorem turns_access (f : ω → α × ω) :
    (access f : Method (Situated ω Turn) ε α).Moves (Turns names kinds) s :=
  ⟨follows_access f, rfl, rfl⟩

theorem turns_withController {x : Method (Situated ω LibraryController) DesktopError α}
    (h : ∀ controller, s.self.engine.controller = some controller →
      x.Moves (Follows names kinds) ⟨controller, s.outside⟩) :
    (withController x).Moves (Turns names kinds) s := by
  refine moves_engine_bind ?_
  cases hcontroller : s.self.engine.controller with
  | none => exact moves_throw _
  | some controller =>
    have hpart : s.self.engine.controller.getD controller = controller := by
      rw [hcontroller]
      rfl
    have hslots : controller.library.slots = s.self.engine.slots := by
      rw [Engine.slots, hcontroller]
    refine ⟨follows_within ?_ (fun _ => rfl) ?_, rfl, rfl⟩
    · rw [hpart]
      exact hslots
    · rw [hpart]
      exact h controller hcontroller

theorem turns_askApp {call : LibraryCall} (hkind : call.kind = .neutral)
    (hmem : .neutral ∈ kinds) : (askApp host call).Moves (Turns names kinds) s :=
  ⟨follows_ask_neutral host hkind hmem, rfl, rfl⟩

theorem turns_askApp_opening {call : LibraryCall} (hkind : call.kind = .opening)
    (hslots : s.self.engine.slots = (none, none)) :
    (askApp host call).Moves (Turns names [.neutral, .opening]) s :=
  ⟨follows_ask_opening host hkind (List.mem_cons_of_mem _ List.mem_cons_self) hslots, rfl, rfl⟩

theorem turns_profile : (profile host).Moves (Turns names kinds) s := by
  refine moves_engine_bind ?_
  cases s.self.engine.acceptance with
  | none => exact moves_bind (turns_access _) fun _ s₁ _ _ => moves_ofExcept _
  | some location => exact moves_bind (turns_access _) fun _ s₁ _ _ => moves_ofExcept _

theorem turns_location (hmem : .neutral ∈ kinds) :
    (location host).Moves (Turns names kinds) s := by
  refine moves_bind (turns_profile host) fun profile s₁ _ _ => ?_
  refine moves_bind (turns_askApp host rfl hmem) fun _ s₂ _ _ => ?_
  exact turns_askApp host rfl hmem

theorem turns_inspect (hmem : .neutral ∈ kinds) : (inspect host).Moves (Turns names kinds) s := by
  refine moves_bind (turns_onEngine rfl rfl rfl) fun _ s₁ _ _ => ?_
  refine moves_engine_bind ?_
  cases s₁.self.engine.controller with
  | some controller =>
    refine moves_bind (turns_withController fun controller _ => LibraryController.follows_backend
      (Library.follows_recovery host hmem)) fun found s₂ _ _ => ?_
    exact turns_onEngine rfl rfl rfl
  | none =>
    refine moves_engine_bind ?_
    cases s₁.self.engine.encrypted with
    | false => exact turns_onEngine rfl rfl rfl
    | true =>
      refine moves_bind (turns_location host hmem) fun _ s₂ _ _ => ?_
      refine moves_bind (turns_askApp host rfl hmem) fun target s₃ _ _ => ?_
      exact moves_bind (turns_onEngine rfl rfl rfl) fun _ s₄ _ _ => moves_throw _

theorem turns_refreshAfterWrite (hmem : .neutral ∈ kinds) :
    (refreshAfterWrite host).Moves (Turns names kinds) s := by
  refine moves_bind (moves_attempt (turns_withController fun _ _ =>
    LibraryController.follows_refreshSources host hmem)) fun refreshed s₁ _ _ => ?_
  refine moves_bind (moves_attempt (turns_inspect host hmem)) fun inspected s₂ _ _ => ?_
  exact turns_onSnapshot _

/-! ### The commands -/

/-- The new controller of a plaintext library retains nothing. -/
theorem slots_fromLibrary {controller : LibraryController} {s' : Situated ω Turn}
    (h : (LibraryController.fromLibrary host .plain).outcome s = (.ok controller, s')) :
    controller.library.slots = (none, none) := by
  have hrefresh : Follows (fun _ _ => True) [.neutral]
      (⟨⟨.plain, none, {}⟩, s.outside⟩ : Situated ω LibraryController) _ :=
    LibraryController.follows_refreshSources host List.mem_cons_self
  rw [build_eq_ok h]
  exact hrefresh.slots_none (List.cons_subset_cons _ (List.nil_subset _)) rfl

theorem turns_fromLibrary (hslots : s.self.engine.slots = (none, none)) :
    (LibraryController.fromLibrary host .plain).Moves (Turns names [.neutral, .opening]) s := by
  have hrefresh : Follows names [.neutral, .opening]
      (⟨⟨.plain, none, {}⟩, s.outside⟩ : Situated ω LibraryController) _ :=
    LibraryController.follows_refreshSources host List.mem_cons_self
  have hnone := hrefresh.slots_none (List.Subset.refl _) rfl
  obtain ⟨events, hevents, hkinds, htrace⟩ := hrefresh
  obtain ⟨retained', hrun, hslots'⟩ := htrace none rfl
  obtain rfl : retained' = none := Original.slots_injective (hslots'.symm.trans hnone)
  refine ⟨⟨events, hevents, hkinds, fun retained hretained => ⟨none, ?_, hslots⟩⟩, rfl, rfl⟩
  obtain rfl : retained = none := Original.slots_injective (hretained.symm.trans hslots)
  exact hrun

theorem turns_openPlain (hslots : s.self.engine.slots = (none, none)) :
    (openPlain host).Moves (Turns names [.neutral, .opening]) s := by
  have hmem : CallKind.neutral ∈ [CallKind.neutral, .opening] := List.mem_cons_self
  refine moves_bind (turns_onEngine hslots.symm rfl rfl) fun _ s₁ _ h₁ => ?_
  refine moves_bind (turns_profile host) fun profile s₂ _ h₂ => ?_
  refine moves_bind (turns_askApp host rfl hmem) fun _ s₃ _ h₃ => ?_
  have hslots₃ := h₃.slots_none (h₂.slots_none (h₁.slots_none hslots))
  refine moves_bind (turns_askApp_opening host rfl hslots₃) fun _ s₄ _ h₄ => ?_
  have hslots₄ := h₄.slots_none hslots₃
  have hbuild : (LibraryController.fromLibrary host .plain).Moves
      (Turns names [.neutral, .opening]) s₄ := turns_fromLibrary host hslots₄
  refine moves_bind hbuild fun controller s₅ houtcome h₅ => ?_
  refine moves_bind (turns_onEngine ?_ rfl rfl) fun _ s₆ _ _ => ?_
  · exact (slots_fromLibrary host houtcome).trans (h₅.slots_none hslots₄).symm
  · exact moves_bind (turns_inspect host hmem) fun _ s₇ _ _ => turns_say _

theorem turns_openTraced (hslots : s.self.engine.slots = (none, none)) :
    (openTraced host).Moves (Turns names [.neutral, .opening]) s := by
  refine moves_engine_bind ?_
  refine moves_bind (moves_refuseIf _ _) fun _ s₁ _ h₁ => ?_
  refine moves_bind (turns_onEngine rfl rfl rfl) fun _ s₂ _ h₂ => ?_
  refine moves_bind (turns_access _) fun begun s₃ _ h₃ => ?_
  refine moves_bind (moves_refuseIf _ _) fun _ s₄ _ h₄ => ?_
  have hslots₄ := h₄.slots_none (h₃.slots_none (h₂.slots_none (h₁.slots_none hslots)))
  refine moves_bind (moves_attempt (turns_askApp_opening host rfl hslots₄)) fun opened s₅ _ _ => ?_
  refine moves_bind (turns_access _) fun complete s₆ _ _ => ?_
  refine moves_bind (moves_ofExcept _) fun snapshot s₇ _ _ => ?_
  exact moves_bind (moves_refuseIf _ _) fun _ s₈ _ _ => moves_pure _

theorem turns_openEncrypted (hslots : s.self.engine.slots = (none, none)) :
    (openEncrypted host).Moves (Turns names [.neutral, .opening]) s := by
  refine moves_bind (turns_onEngine hslots.symm rfl rfl) fun _ s₁ _ h₁ => ?_
  refine moves_bind (turns_location host List.mem_cons_self) fun _ s₂ _ h₂ => ?_
  have hslots₂ := h₂.slots_none (h₁.slots_none hslots)
  refine moves_engine_bind ?_
  cases s₂.self.engine.observation with
  | true =>
    refine moves_bind (turns_openTraced host hslots₂) fun snapshot s₃ _ h₃ => ?_
    refine moves_bind (turns_onEngine (h₃.slots_none hslots₂).symm rfl rfl) fun _ s₄ _ _ => ?_
    exact moves_bind (turns_onEngine rfl rfl rfl) fun _ s₅ _ _ => turns_say _
  | false =>
    refine moves_bind (turns_askApp_opening host rfl hslots₂) fun snapshot s₃ _ h₃ => ?_
    refine moves_bind (turns_onEngine (h₃.slots_none hslots₂).symm rfl rfl) fun _ s₄ _ _ => ?_
    exact moves_bind (turns_onEngine rfl rfl rfl) fun _ s₅ _ _ => turns_say _

theorem turns_maintain {call : LibraryCall} (hkind : call.kind = .opening) (message : String)
    (hslots : s.self.engine.slots = (none, none)) :
    (maintain host call message).Moves (Turns names [.neutral, .opening]) s := by
  refine moves_bind (turns_onEngine hslots.symm rfl rfl) fun _ s₁ _ h₁ => ?_
  refine moves_bind (turns_location host List.mem_cons_self) fun _ s₂ _ h₂ => ?_
  have hslots₂ := h₂.slots_none (h₁.slots_none hslots)
  exact moves_bind (turns_askApp_opening host hkind hslots₂) fun _ s₃ _ _ => turns_say _

theorem turns_verifyLibrary (hmem : .neutral ∈ kinds) :
    (verifyLibrary host).Moves (Turns names kinds) s := by
  refine moves_engine_bind ?_
  cases s.self.engine.encrypted with
  | true =>
    refine moves_bind (turns_location host hmem) fun _ s₁ _ _ => ?_
    exact moves_bind (turns_askApp host rfl hmem) fun _ s₂ _ _ => turns_say _
  | false =>
    exact moves_bind (turns_withController fun _ _ => LibraryController.follows_read host rfl hmem)
      fun _ s₁ _ _ => turns_say _

theorem turns_rebuildRecall (hmem : .neutral ∈ kinds) :
    (rebuildRecall host).Moves (Turns names kinds) s := by
  refine moves_engine_bind ?_
  cases s.self.engine.encrypted with
  | true =>
    refine moves_bind (turns_location host hmem) fun _ s₁ _ _ => ?_
    exact moves_bind (turns_askApp host rfl hmem) fun _ s₂ _ _ => turns_say _
  | false =>
    exact moves_bind (turns_withController fun _ _ => LibraryController.follows_rebuild host hmem)
      fun _ s₁ _ _ => turns_say _

theorem turns_refresh (hmem : .neutral ∈ kinds) : (refresh host).Moves (Turns names kinds) s := by
  refine moves_engine_bind ?_
  cases s.self.engine.encrypted with
  | true =>
    refine moves_bind (turns_withController fun _ _ =>
      LibraryController.follows_refreshEncryptedSnapshot host hmem) fun snapshot s₁ _ _ => ?_
    exact turns_onEngine rfl rfl rfl
  | false =>
    exact moves_bind (turns_withController fun _ _ =>
      LibraryController.follows_refreshSources host hmem) fun _ s₁ _ _ => turns_inspect host hmem

theorem turns_capture {x : Method (Situated ω LibraryController) DesktopError FileCaptureReceipt}
    (h : ∀ s, x.Moves (Follows names kinds) s) : (capture x).Moves (Turns names kinds) s :=
  moves_bind (turns_withController fun _ _ => h _) fun _ _ _ _ => turns_say _

theorem turns_delete : (delete host).Moves (Turns names [.neutral, .beginning, .settling]) s :=
  moves_bind (turns_withController fun _ _ =>
    LibraryController.follows_deleteSelectedLineage host) fun _ _ _ _ => turns_onSnapshot _

theorem turns_retryOriginal :
    (retryOriginal host).Moves (Turns names [.neutral, .settling]) s := by
  refine moves_bind (turns_withController fun _ _ =>
    LibraryController.follows_backend (Library.follows_retry host)) fun evidence s₁ _ _ => ?_
  refine moves_bind (turns_onSnapshot _) fun _ s₂ _ _ => ?_
  exact moves_bind (turns_say _) fun _ s₃ _ _ => turns_refreshAfterWrite host List.mem_cons_self

theorem slots_of_not_held {engine : Engine} (h : engine.held = false) :
    engine.slots = (none, none) := by
  unfold Engine.held at h
  unfold Engine.slots
  cases hcontroller : engine.controller with
  | none => rfl
  | some controller =>
    rw [hcontroller] at h
    exact Library.slots_of_not_holdsOriginal h

omit [Platform] in
/-- Past a refusal, its condition is false and the state is the same. -/
theorem refuseIf_eq_ok {σ : Type} {refused : Bool} {e : DesktopError} {s s' : σ} {u : PUnit}
    (h : (refuseIf refused e : Method σ DesktopError PUnit).outcome s = (.ok u, s')) :
    refused = false ∧ s' = s := by
  cases refused with
  | true => cases h
  | false =>
    cases h
    exact ⟨rfl, rfl⟩

theorem turns_resumeDelete (id : Identifier) :
    (resumeDelete host id).Moves (Turns names [.neutral, .settling]) s := by
  refine moves_engine_bind ?_
  refine moves_bind (moves_refuseIf _ _) fun _ s₁ hrefuse _ => ?_
  obtain ⟨hheld, rfl⟩ := refuseIf_eq_ok hrefuse
  have hslots := slots_of_not_held hheld
  refine moves_engine_bind ?_
  refine moves_bind (moves_ofExcept _) fun request s₂ hfound _ => ?_
  obtain rfl : s₂ = s₁ := (congrArg Prod.snd hfound).symm
  refine moves_bind (turns_withController fun controller hcontroller =>
    LibraryController.follows_backend (Library.follows_resumeDelete host request ?_))
    fun evidence s₃ _ _ => ?_
  · rw [Engine.slots, hcontroller] at hslots
    exact hslots
  · exact moves_bind (turns_onSnapshot _) fun _ s₄ _ _ =>
      turns_refreshAfterWrite host List.mem_cons_self

theorem turns_abandon (hnames : ∀ target request, s.self.engine.target = some target →
      s.self.engine.slots.1 = some request → names target request) :
    (abandon host).Moves (Turns names [.neutral, .settling]) s := by
  have hmem : CallKind.neutral ∈ [CallKind.neutral, .settling] := List.mem_cons_self
  refine moves_engine_bind ?_
  refine moves_bind (moves_ofExcept _) fun target s₁ hfound _ => ?_
  obtain ⟨htarget, rfl⟩ : s.self.engine.target.orError recoveryRequired = .ok target ∧ s = s₁ :=
    Prod.mk.inj hfound
  rw [Option.orError_eq_ok_iff] at htarget
  refine moves_engine_bind ?_
  have hrest : ∀ s₂ : Situated ω Turn, (do
      say "Exact uncommitted capture abandoned; committed sources retained."
      refreshAfterWrite host : Method (Situated ω Turn) DesktopError Unit).Moves
        (Turns names [.neutral, .settling]) s₂ := fun s₂ =>
    moves_bind (turns_say _) fun _ s₃ _ _ => turns_refreshAfterWrite host hmem
  cases hcontroller : s.self.engine.controller with
  | some controller =>
    refine moves_bind (turns_withController fun controller' hcontroller' =>
      LibraryController.follows_backend (Library.follows_abandon host target ?_))
      fun _ s₂ _ _ => hrest s₂
    intro request hrequest
    refine hnames target request htarget ?_
    rw [Engine.slots, hcontroller']
    exact hrequest
  | none =>
    have hslots : s.self.engine.slots = (none, none) := by
      rw [Engine.slots, hcontroller]
    refine moves_bind (turns_location host hmem) fun _ s₂ houtcome _ => ?_
    have hlocation : Turns names [.neutral, .opening] s ((location host).outcome s).2 :=
      turns_location host List.mem_cons_self
    rw [houtcome] at hlocation
    have hslots₂ := hlocation.slots_none hslots
    refine moves_bind ⟨follows_ask host (List.mem_cons_of_mem _ List.mem_cons_self)
      fun retained hretained result => ?_, rfl, rfl⟩ fun _ s₃ _ _ => hrest s₃
    obtain rfl : retained = none := Original.slots_injective (hretained.symm.trans hslots₂)
    cases result with
    | error e => exact .other none
    | ok report => exact .abandonOther target none fun _ h => by cases h

theorem turns_act (command : Command)
    (hchanges : command.changesLibrary = true → s.self.engine.slots = (none, none))
    (hnames : command = .abandon → ∀ target request, s.self.engine.target = some target →
      s.self.engine.slots.1 = some request → names target request) :
    (act host command).Moves (Turns names command.kinds) s := by
  cases command with
  | openPlain => exact turns_openPlain host (hchanges rfl)
  | openEncrypted => exact turns_openEncrypted host (hchanges rfl)
  | initializeKey => exact turns_maintain host rfl _ (hchanges rfl)
  | migrate => exact turns_maintain host rfl _ (hchanges rfl)
  | verify => exact turns_verifyLibrary host List.mem_cons_self
  | rebuild => exact turns_rebuildRecall host List.mem_cons_self
  | refresh => exact turns_refresh host List.mem_cons_self
  | importSource request =>
    exact turns_capture fun s => LibraryController.follows_importSource host request
  | update request =>
    exact turns_capture fun s => LibraryController.follows_updateSelected host request
  | «export» request =>
    exact moves_bind (turns_withController fun _ _ =>
      LibraryController.follows_exportSelected host List.mem_cons_self request)
      fun _ _ _ _ => turns_say _
  | search query =>
    exact turns_withController fun _ _ =>
      LibraryController.follows_search host List.mem_cons_self query
  | selectLineage lineage =>
    exact turns_withController fun _ _ =>
      LibraryController.follows_selectLineage host List.mem_cons_self lineage
  | selectVersion source =>
    exact turns_withController fun _ _ => LibraryController.follows_selectSourceVersion source
  | selectResult lineage source =>
    exact moves_bind (turns_withController fun _ _ =>
      LibraryController.follows_selectLineage host List.mem_cons_self lineage) fun _ _ _ _ =>
        turns_withController fun _ _ => LibraryController.follows_selectSourceVersion source
  | delete => exact turns_delete host
  | retryOriginal => exact turns_retryOriginal host
  | resumeDelete id => exact turns_resumeDelete host id
  | inspectRecovery => exact turns_inspect host List.mem_cons_self
  | abandon => exact turns_abandon host (hnames rfl)
  | shutdown => exact moves_throw _

/-! ### Before a command acts -/

/-- The engine has not changed. -/
def Untouched (s s' : Situated ω Turn) : Prop :=
  s'.self = s.self

instance Untouched.preorder : IsPreorder (Situated ω Turn) Untouched where
  refl _ := rfl
  trans _ _ _ h h' := h'.trans h

/-- The method fails and asks nothing. -/
def Refuses (x : Method (Situated ω Turn) DesktopError α) (s : Situated ω Turn) : Prop :=
  (∃ e, (x.outcome s).1 = .error e) ∧ (x.outcome s).2.outside.events = s.outside.events

theorem refuses_bind {β : Type} {x : Method (Situated ω Turn) DesktopError α}
    {f : α → Method (Situated ω Turn) DesktopError β}
    (hx : (x.outcome s).2.outside.events = s.outside.events)
    (hf : ∀ a s', x.outcome s = (.ok a, s') → Refuses (f a) s') : Refuses (x >>= f) s := by
  unfold Refuses
  rw [outcome_bind]
  cases houtcome : x.outcome s with
  | mk result s' =>
    rw [houtcome] at hx
    cases result with
    | error e => exact ⟨⟨e, rfl⟩, hx⟩
    | ok a => exact ⟨(hf a s' houtcome).1, (hf a s' houtcome).2.trans hx⟩

theorem untouched_recheckAcceptance : (recheckAcceptance host).Moves Untouched s := by
  unfold recheckAcceptance
  refine moves_engine_bind ?_
  cases s.self.engine.acceptance with
  | none => exact moves_pure _
  | some location =>
    have haccess : (access host.loadProfile : Method (Situated ω Turn) DesktopError _).Moves
        Untouched s := rfl
    refine moves_bind haccess fun loaded s₁ _ _ => ?_
    exact moves_bind (moves_ofExcept _) fun _ s₂ _ _ => moves_pure _

/-- The condition under which a command is refused without a question to the host. -/
def Barred (command : Command) (engine : Engine) : Bool :=
  command.changesLibrary && engine.held || command.changesSources && engine.blocked

theorem gate_refuses {command : Command} (h : Barred command s.self.engine = true) :
    Refuses (gate command) s := by
  change Refuses (refuseIf (command.changesLibrary && s.self.engine.held) recoveryRequired >>=
    fun _ => onEngine _ >>= fun _ =>
      refuseIf (command.changesSources && s.self.engine.blocked) recoveryRequired) s
  cases hheld : command.changesLibrary && s.self.engine.held with
  | true => exact ⟨⟨_, rfl⟩, rfl⟩
  | false =>
    rw [Barred, hheld, Bool.false_or] at h
    rw [h]
    exact ⟨⟨_, rfl⟩, rfl⟩

/-- What the gate lets pass. -/
theorem gate_eq_ok {command : Command} {s' : Situated ω Turn} {u : Unit}
    (h : (gate command).outcome s = (.ok u, s')) :
    Barred command s.self.engine = false ∧ s'.self.engine.slots = s.self.engine.slots ∧
      (command.changesLibrary = false → s'.self.engine = s.self.engine) := by
  cases hbarred : Barred command s.self.engine with
  | true =>
    obtain ⟨⟨e, herror⟩, -⟩ := gate_refuses hbarred
    rw [h] at herror
    cases herror
  | false =>
    obtain ⟨hlibrary, hsources⟩ := Bool.or_eq_false_iff.1 hbarred
    change (refuseIf (command.changesLibrary && s.self.engine.held) recoveryRequired >>=
      fun _ => onEngine (fun engine => if command.changesLibrary then engine.forget else engine)
        >>= fun _ => refuseIf (command.changesSources && s.self.engine.blocked)
          recoveryRequired).outcome s = _ at h
    rw [hlibrary, hsources] at h
    have hstate : s'.self.engine =
        if command.changesLibrary then s.self.engine.forget else s.self.engine :=
      congrArg (fun r => r.2.self.engine) h.symm
    refine ⟨rfl, ?_, fun hchanges => ?_⟩
    · rw [hstate]
      cases command.changesLibrary with
      | true => rfl
      | false => rfl
    · rw [hstate, hchanges]
      rfl

/-- Whether recovery is forgotten first, the controller and, but for an opening or a refresh, the
engine are the same. -/
theorem invalidate_eq_ok {command : Command} {s' : Situated ω Turn} {u : Unit}
    (h : (invalidate command : Method (Situated ω Turn) DesktopError Unit).outcome s =
      (.ok u, s')) :
    s'.self.engine.held = s.self.engine.held ∧ s'.outside = s.outside ∧
      (command.changesSources = true ∨ command = .abandon → s'.self = s.self) := by
  obtain rfl : _ = s' := congrArg Prod.snd h
  cases command with
  | openEncrypted => exact ⟨rfl, rfl, fun hcommand => by rcases hcommand with h | h <;> cases h⟩
  | refresh =>
    refine ⟨?_, rfl, fun hcommand => by rcases hcommand with h | h <;> cases h⟩
    change (if s.self.engine.encrypted then s.self.engine.forget else s.self.engine).held = _
    cases s.self.engine.encrypted with
    | true => rfl
    | false => rfl
  | _ => exact ⟨rfl, rfl, fun _ => rfl⟩

/-! ### Performing a command -/

theorem turns_observe (command : Command) : (observe command).Moves (Turns names kinds) s := by
  refine moves_engine_bind ?_
  cases s.self.engine.observation with
  | false => exact moves_pure _
  | true =>
    cases command with
    | openPlain =>
      dsimp only
      cases hconsumed : !s.self.engine.plainConsumed && !s.self.engine.encryptedConsumed with
      | true =>
        refine moves_bind (turns_onEngine rfl rfl rfl) fun _ s₁ _ _ => ?_
        exact moves_bind (turns_say _) fun _ s₂ _ _ => moves_pure _
      | false => exact moves_throw _
    | openEncrypted =>
      dsimp only
      cases hconsumed : !s.self.engine.encryptedConsumed with
      | true => exact moves_bind (turns_onEngine rfl rfl rfl) fun _ s₁ _ _ => moves_pure _
      | false => exact moves_throw _
    | _ => exact moves_throw _

theorem turns_recheckAcceptance : (recheckAcceptance host).Moves (Turns names kinds) s := by
  refine moves_engine_bind ?_
  cases s.self.engine.acceptance with
  | none => exact moves_pure _
  | some location =>
    refine moves_bind (turns_access _) fun loaded s₁ _ _ => ?_
    exact moves_bind (moves_ofExcept _) fun _ s₂ _ _ => moves_pure _

theorem turns_invalidate (command : Command) :
    (invalidate command : Method (Situated ω Turn) DesktopError Unit).Moves
      (Turns names kinds) s := by
  cases command with
  | openEncrypted => exact turns_onEngine rfl rfl rfl
  | refresh =>
    unfold invalidate
    cases hencrypted : s.self.engine.encrypted with
    | true =>
      refine turns_onEngine ?_ ?_ ?_
      all_goals
        dsimp only
        rw [hencrypted]
        rfl
    | false =>
      refine turns_onEngine ?_ ?_ ?_
      all_goals
        dsimp only
        rw [hencrypted]
        rfl
  | _ => exact turns_onEngine rfl rfl rfl

theorem turns_gate (command : Command) : (gate command).Moves (Turns names kinds) s := by
  refine moves_engine_bind ?_
  refine moves_bind (moves_refuseIf _ _) fun _ s₁ _ _ => ?_
  refine moves_bind (turns_onEngine ?_ ?_ ?_) fun _ s₂ _ _ => moves_refuseIf _ _
  all_goals cases command.changesLibrary
  all_goals rfl

theorem turns_performAdmitted (command : Command)
    (hnames : command = .abandon → ∀ target request, s.self.engine.target = some target →
      s.self.engine.slots.1 = some request → names target request) :
    (performAdmitted host command).Moves (Turns names command.kinds) s := by
  refine moves_bind (turns_invalidate command) fun _ s₁ hinvalidate _ => ?_
  refine moves_bind (turns_recheckAcceptance host) fun _ s₂ hrecheck _ => ?_
  refine moves_bind (turns_gate command) fun _ s₃ hgate _ => ?_
  have hself : s₂.self = s₁.self := by
    have huntouched : Untouched s₁ ((recheckAcceptance host).outcome s₁).2 :=
      untouched_recheckAcceptance host
    rw [hrecheck] at huntouched
    exact huntouched
  obtain ⟨hbarred, hslots, hengine⟩ := gate_eq_ok hgate
  refine turns_act host command (fun hchanges => ?_) fun habandon => ?_
  · rw [Barred, hchanges, Bool.true_and, Bool.or_eq_false_iff] at hbarred
    exact hslots.trans (slots_of_not_held hbarred.1)
  · have hsame : s₃.self.engine = s.self.engine := by
      rw [hengine (by rw [habandon]; rfl), hself,
        (invalidate_eq_ok hinvalidate).2.2 (.inr habandon)]
    rw [hsame]
    exact hnames habandon

/-- Without an observation every command goes on; an observed one only to open the library. -/
theorem observe_eq_ok {command : Command} {s' : Situated ω Turn} {goesOn : Bool}
    (h : (observe command : Method (Situated ω Turn) DesktopError Bool).outcome s =
      (.ok goesOn, s')) :
    s.self.engine.observation = false ∧ s' = s ∧ goesOn = true ∨
      s.self.engine.observation = true ∧
        (command = .openPlain ∧ goesOn = false ∨ command = .openEncrypted ∧ goesOn = true) := by
  unfold observe at h
  cases hobservation : s.self.engine.observation with
  | false =>
    refine .inl ?_
    change (if s.self.engine.observation then _ else pure true :
      Method (Situated ω Turn) DesktopError Bool).outcome s = _ at h
    rw [hobservation] at h
    cases h
    exact ⟨rfl, rfl, rfl⟩
  | true =>
    refine .inr ⟨rfl, ?_⟩
    change (if s.self.engine.observation then _ else pure true :
      Method (Situated ω Turn) DesktopError Bool).outcome s = _ at h
    rw [hobservation, if_pos rfl] at h
    cases command with
    | openPlain =>
      dsimp only at h
      cases hconsumed : !s.self.engine.plainConsumed && !s.self.engine.encryptedConsumed with
      | true =>
        rw [hconsumed] at h
        cases h
        exact .inl ⟨rfl, rfl⟩
      | false =>
        rw [hconsumed] at h
        cases h
    | openEncrypted =>
      dsimp only at h
      cases hconsumed : !s.self.engine.encryptedConsumed with
      | true =>
        rw [hconsumed] at h
        cases h
        exact .inr ⟨rfl, rfl⟩
      | false =>
        rw [hconsumed] at h
        cases h
    | _ => cases h

theorem turns_perform (command : Command)
    (hnames : command = .abandon → ∀ target request, s.self.engine.target = some target →
      s.self.engine.slots.1 = some request → names target request) :
    (perform host command).Moves (Turns names command.kinds) s := by
  refine moves_bind (turns_observe command) fun goesOn s₁ hobserve _ => ?_
  rcases observe_eq_ok hobserve with ⟨-, rfl, rfl⟩ | ⟨-, ⟨rfl, rfl⟩ | ⟨rfl, rfl⟩⟩
  · exact turns_performAdmitted host command hnames
  · exact moves_pure _
  · exact turns_performAdmitted host .openEncrypted fun h => by cases h

/-- An observed engine only opens its library. -/
theorem turns_perform_observed (command : Command) (hobservation : s.self.engine.observation = true) :
    (perform host command).Moves (Turns names [.neutral, .opening]) s := by
  refine moves_bind (turns_observe command) fun goesOn s₁ hobserve _ => ?_
  rcases observe_eq_ok hobserve with ⟨hfalse, -, -⟩ | ⟨-, ⟨rfl, rfl⟩ | ⟨rfl, rfl⟩⟩
  · cases hfalse.symm.trans hobservation
  · exact moves_pure _
  · exact turns_performAdmitted host .openEncrypted fun h => by cases h

theorem performAdmitted_refuses {command : Command} (h : Barred command s.self.engine = true) :
    Refuses (performAdmitted host command) s := by
  refine refuses_bind rfl fun _ s₁ hinvalidate => ?_
  obtain ⟨hheld, -, hself⟩ := invalidate_eq_ok hinvalidate
  have huntouched : Untouched s₁ ((recheckAcceptance host).outcome s₁).2 :=
    untouched_recheckAcceptance host
  have hsilent : Turns (fun _ _ => True) [] s₁ ((recheckAcceptance host).outcome s₁).2 :=
    turns_recheckAcceptance host
  refine refuses_bind hsilent.silent fun _ s₂ hrecheck => ?_
  rw [hrecheck] at huntouched
  have hbarred : Barred command s₂.self.engine = true := by
    rw [show s₂.self = s₁.self from huntouched]
    cases hsources : command.changesSources with
    | true =>
      rw [hself (.inl hsources)]
      exact h
    | false =>
      rw [Barred, hsources, Bool.false_and, Bool.or_false] at h ⊢
      rw [hheld]
      exact h
  obtain ⟨herror, hevents⟩ := gate_refuses hbarred
  refine refuses_bind hevents fun u s₃ hgate => ?_
  obtain ⟨e, herror⟩ := herror
  rw [hgate] at herror
  cases herror

/-- A barred command is refused. -/
theorem perform_refuses {command : Command} (h : Barred command s.self.engine = true)
    (hobservation : s.self.engine.observation = true → command.changesSources = true) :
    Refuses (perform host command) s := by
  have hsilent : Turns (fun _ _ => True) [] s ((observe command).outcome s).2 :=
    turns_observe command
  refine refuses_bind hsilent.silent fun goesOn s₁ hobserve => ?_
  rcases observe_eq_ok hobserve with ⟨-, rfl, rfl⟩ | ⟨htrue, ⟨rfl, -⟩ | ⟨rfl, -⟩⟩
  · exact performAdmitted_refuses host h
  · cases hobservation htrue
  · cases hobservation htrue

end Turn

/-! ## Executing a command -/

namespace Engine

theorem slots_conclude (engine : Engine) (failed refreshes : Bool) :
    (engine.conclude failed refreshes).slots = engine.slots ∨
      engine.observation = true ∧ (engine.conclude failed refreshes).slots = (none, none) := by
  unfold conclude
  cases failed with
  | false => cases refreshes <;> exact .inl rfl
  | true =>
    cases hobservation : engine.observation with
    | false => exact .inl rfl
    | true => exact .inr ⟨rfl, rfl⟩

theorem observation_conclude (engine : Engine) (failed refreshes : Bool) :
    (engine.conclude failed refreshes).observation = engine.observation := by
  unfold conclude
  cases failed with
  | false => cases refreshes <;> rfl
  | true =>
    rw [if_pos rfl]
    by_cases hobservation : engine.observation = true
    · rw [if_pos hobservation]
      rfl
    · rw [if_neg hobservation]

/-- The view is valid after a success that refreshes, or that finds it valid. -/
theorem viewValid_conclude {engine : Engine} {failed refreshes : Bool}
    (h : (engine.conclude failed refreshes).viewValid = true) :
    failed = false ∧ (engine.viewValid = true ∨ refreshes = true) := by
  unfold conclude at h
  cases failed with
  | true => cases hobservation : engine.observation <;> rw [hobservation] at h <;> cases h
  | false =>
    cases refreshes with
    | true => exact ⟨rfl, .inr rfl⟩
    | false => exact ⟨rfl, .inl h⟩

/-- The answer after the controller has reported and the view has been withdrawn or not. -/
def answer (engine : Engine) (snapshot : Snapshot) : Engine × Snapshot :=
  complete (withdraw (engine.report snapshot))

theorem report_fst (engine : Engine) (snapshot : Snapshot) :
    (engine.report snapshot).1.slots = engine.slots ∧
      (engine.report snapshot).1.observation = engine.observation ∧
        (engine.report snapshot).1.viewValid = engine.viewValid ∧
          (engine.report snapshot).2.error = snapshot.error := by
  unfold report slots
  cases hcontroller : engine.controller with
  | none => exact ⟨by rw [hcontroller], rfl, rfl, rfl⟩
  | some controller =>
    dsimp only
    cases snapshot.refreshError.isNone with
    | true => exact ⟨rfl, rfl, rfl, rfl⟩
    | false => exact ⟨by rw [if_neg (by decide), hcontroller], rfl, rfl, rfl⟩

theorem answer_fst (engine : Engine) (snapshot : Snapshot) :
    (engine.answer snapshot).1.slots = engine.slots ∧
      (engine.answer snapshot).1.observation = engine.observation ∧
        (engine.answer snapshot).2.error = snapshot.error := by
  obtain ⟨hslots, hobservation, -, herror⟩ := engine.report_fst snapshot
  unfold answer complete withdraw
  cases (engine.report snapshot).2.refreshError.isSome with
  | true => exact ⟨hslots, hobservation, herror⟩
  | false => exact ⟨hslots, hobservation, herror⟩

theorem viewValid_answer {engine : Engine} {snapshot : Snapshot}
    (h : (engine.answer snapshot).1.viewValid = true) :
    engine.viewValid = true ∧ (engine.answer snapshot).2.refreshError = none := by
  obtain ⟨-, -, hview, -⟩ := engine.report_fst snapshot
  unfold answer complete withdraw at h ⊢
  cases hrefresh : (engine.report snapshot).2.refreshError with
  | some e =>
    rw [hrefresh] at h
    cases h
  | none =>
    rw [hrefresh] at h
    exact ⟨hview.symm.trans h, by rw [if_neg (by decide)]; exact hrefresh⟩

theorem held_of_slots {engine : Engine} (h : engine.slots = (none, none)) :
    engine.held = false := by
  unfold held
  unfold slots at h
  cases hcontroller : engine.controller with
  | none => rfl
  | some controller =>
    rw [hcontroller] at h
    change controller.library.slots = (none, none) at h
    change controller.library.holdsOriginal = false
    cases hlibrary : controller.library with
    | plain => rfl
    | encrypted capture deletion =>
      rw [hlibrary] at h
      cases h
      rfl

theorem Retains.held {engine : Engine} {original : Original} (h : engine.Retains original) :
    engine.held = true := by
  cases hheld : engine.held with
  | true => rfl
  | false =>
    have hnone := Turn.slots_of_not_held hheld
    cases original with
    | capture request =>
      rw [Retains, hnone] at h
      cases h
    | deletion request =>
      rw [Retains, hnone] at h
      cases h

theorem retains_iff {engine : Engine} {retained : Option Original} {original : Original}
    (h : engine.slots = Original.slots retained) :
    engine.Retains original ↔ retained = some original := by
  cases original with
  | capture request =>
    rw [Retains, h]
    rcases retained with _ | _ | _ <;> simp [Original.slots]
  | deletion request =>
    rw [Retains, h]
    rcases retained with _ | _ | _ <;> simp [Original.slots]

theorem Unready.blocked {engine : Engine} (h : engine.Unready) : engine.blocked = true := by
  unfold Engine.blocked
  rcases h with ⟨original, h⟩ | h | h | h | h
  · simp [h.held]
  · simp [h]
  · simp [h]
  · simp [Option.isSome_iff_ne_none.2 h]
  · simp [h]

/-- At most one request is retained, and none by an engine that is observed. -/
structure Sound (engine : Engine) : Prop where
  single : ∃ retained, engine.slots = Original.slots retained
  observed : engine.observation = true → engine.slots = (none, none)

theorem sound_start (acceptance : Option AcceptanceLocation) : (start acceptance).Sound :=
  ⟨⟨none, rfl⟩, fun _ => rfl⟩

end Engine

section Execute

variable {names : CaptureAbandonmentTarget → SourceCapture → Prop} (host : Host ω)
  {engine : Engine} (world : ω) (command : Command)

/-- What `perform` works on. -/
def started (engine : Engine) (world : ω) : Situated ω Turn :=
  ⟨{ engine, snapshot := {} }, { world, events := [] }⟩

/-- What `perform` leaves. -/
def performed (engine : Engine) (world : ω) (command : Command) :
    Except DesktopError Unit × Situated ω Turn :=
  (Turn.perform host command).outcome (started engine world)

theorem execute_fst (engine : Engine) :
    (execute host engine world command).1.before = engine ∧
      (execute host engine world command).1.command = command ∧
        (execute host engine world command).1.events =
          (performed host engine world command).2.outside.events := ⟨rfl, rfl, rfl⟩

/-- The engine after a command, with the flags of its answer. -/
theorem execute_after (engine : Engine) :
    (execute host engine world command).1.after.observation =
        (performed host engine world command).2.self.engine.observation ∧
      ((execute host engine world command).1.after.slots =
          (performed host engine world command).2.self.engine.slots ∨
        (performed host engine world command).2.self.engine.observation = true ∧
          (execute host engine world command).1.after.slots = (none, none)) := by
  have hafter := Engine.answer_fst
    ((performed host engine world command).2.self.engine.conclude
      (performed host engine world command).1.error?.isSome command.refreshes)
    { (performed host engine world command).2.self.snapshot with
      error := (performed host engine world command).1.error? }
  obtain ⟨hslots, hobservation, -⟩ := hafter
  refine ⟨hobservation.trans (Engine.observation_conclude _ _ _), ?_⟩
  rcases Engine.slots_conclude (performed host engine world command).2.self.engine
    (performed host engine world command).1.error?.isSome command.refreshes with hsame | hnone
  · exact .inl (hslots.trans hsame)
  · exact .inr ⟨hnone.1, hslots.trans hnone.2⟩

theorem execute_error (engine : Engine) :
    (execute host engine world command).1.snapshot.error =
      (performed host engine world command).1.error? :=
  (Engine.answer_fst _ _).2.2

/-- The view is valid only after a success, and only if it was or the command refreshes it. -/
theorem execute_viewValid
    (h : (execute host engine world command).1.after.viewValid = true) :
    ¬ (execute host engine world command).1.Failed ∧
      ((performed host engine world command).2.self.engine.viewValid = true ∨
        command.refreshes = true) := by
  obtain ⟨hconcluded, hrefresh⟩ := Engine.viewValid_answer h
  obtain ⟨hfailed, hview⟩ := Engine.viewValid_conclude hconcluded
  refine ⟨?_, hview⟩
  rintro (herror | herror)
  · rw [execute_error] at herror
    rw [Option.isSome_eq_false_iff, Option.isNone_iff_eq_none] at hfailed
    exact herror hfailed
  · exact herror hrefresh

/-- A command follows the machine. -/
theorem execute_trace (hsound : engine.Sound)
    (hnames : command = .abandon → ∀ target request, engine.target = some target →
      engine.slots.1 = some request → names target request) :
    (∀ event ∈ (execute host engine world command).1.events, event.call.kind ∈ command.kinds) ∧
      (execute host engine world command).1.after.Sound ∧
        ∀ retained, engine.slots = Original.slots retained → ∃ retained',
          Trace (RetentionStep names) retained
            ((execute host engine world command).1.events.map Event.deed) retained' ∧
              (execute host engine world command).1.after.slots = Original.slots retained' := by
  have hturns : Turn.Turns names command.kinds (started engine world)
      (performed host engine world command).2 := Turn.turns_perform host command hnames
  obtain ⟨events, hevents, hkinds, htrace⟩ := hturns.follows
  obtain rfl : (execute host engine world command).1.events = events := hevents
  have hobserved : engine.observation = true →
      (performed host engine world command).2.self.engine.slots = (none, none) := fun h =>
    have hopens : Turn.Turns names [.neutral, .opening] (started engine world)
      (performed host engine world command).2 := Turn.turns_perform_observed host command h
    hopens.slots_none (hsound.observed h)
  obtain ⟨hobservation, hslots⟩ := execute_after host world command engine
  rw [hturns.observation] at hobservation hslots
  have hafter : (execute host engine world command).1.after.slots =
      (performed host engine world command).2.self.engine.slots := by
    rcases hslots with hslots | ⟨h, hslots⟩
    · exact hslots
    · exact hslots.trans (hobserved h).symm
  refine ⟨hkinds, ⟨?_, fun h => hafter.trans (hobserved (hobservation.symm.trans h))⟩,
    fun retained hretained => ?_⟩
  · obtain ⟨retained, hretained⟩ := hsound.single
    obtain ⟨retained', -, hslots'⟩ := htrace retained hretained
    exact ⟨retained', hafter.trans hslots'⟩
  · obtain ⟨retained', hrun, hslots'⟩ := htrace retained hretained
    exact ⟨retained', hrun, hafter.trans hslots'⟩

theorem sound_execute (hsound : engine.Sound) :
    (execute host engine world command).1.after.Sound := by
  have htrace : ∀ _ : command = .abandon, ∀ (target : CaptureAbandonmentTarget)
      (request : SourceCapture), engine.target = some target →
        engine.slots.1 = some request → (fun _ _ => True : _ → _ → Prop) target request :=
    fun _ _ _ _ _ => trivial
  exact (execute_trace host world command hsound htrace).2.1

/-- A barred command is refused. -/
theorem execute_refused (hsound : engine.Sound) (h : Turn.Barred command engine = true) :
    (execute host engine world command).1.Refused := by
  have hrefuses : Turn.Refuses (Turn.perform host command) (started engine world) := by
    refine Turn.perform_refuses host h fun hobservation => ?_
    have hheld : engine.held = false := Engine.held_of_slots (hsound.observed hobservation)
    rw [Turn.Barred, hheld, Bool.and_false, Bool.false_or, Bool.and_eq_true] at h
    exact h.1
  obtain ⟨⟨e, herror⟩, hevents⟩ := hrefuses
  refine ⟨hevents, ?_⟩
  rw [execute_error, performed, herror]
  intro hnone
  cases hnone

/-- A view that is not valid is not made so by a command that does not refresh it or fails. -/
theorem execute_viewInvalid (hview : engine.viewValid = false)
    (hfailed : command.refreshes = true → (execute host engine world command).1.Failed) :
    (execute host engine world command).1.after.viewValid = false := by
  have hturns : Turn.Turns (fun _ _ => True) command.kinds (started engine world)
      (performed host engine world command).2 :=
    Turn.turns_perform host command fun _ _ _ _ _ => trivial
  refine Bool.eq_false_iff.2 fun hvalid => ?_
  obtain ⟨hsuccess, hbefore | hrefreshes⟩ := execute_viewValid host world command hvalid
  · cases (hturns.viewValid.trans hview).symm.trans hbefore
  · exact hsuccess (hfailed hrefreshes)

theorem event_kind {x : Execution} {event : Event} (hsound : x.before.Sound) {world : ω}
    (hx : x = (execute host x.before world x.command).1) (hevent : event ∈ x.events) :
    event.call.kind ∈ x.command.kinds := by
  have htrace : ∀ _ : x.command = .abandon, ∀ (target : CaptureAbandonmentTarget)
      (request : SourceCapture), x.before.target = some target →
        x.before.slots.1 = some request → (fun _ _ => True : _ → _ → Prop) target request :=
    fun _ _ _ _ _ => trivial
  have hkinds := (execute_trace host world x.command hsound htrace).1
  rw [← hx] at hkinds
  exact hkinds event hevent

omit [Platform] in
theorem changesLibrary_of_opening {command : Command} (h : .opening ∈ command.kinds) :
    command.changesLibrary = true := by
  cases command <;> first | rfl | simp [Command.kinds] at h

omit [Platform] in
theorem changesSources_of_beginning {command : Command} (h : .beginning ∈ command.kinds) :
    command.changesSources = true := by
  cases command <;> first | rfl | simp [Command.kinds] at h

end Execute

/-! ## Sequences of commands -/

section Runs

variable {host : Host ω}

theorem executions_cons (engine : Engine) (world : ω) (command : Command)
    (commands : List Command) :
    executions host engine world (command :: commands) =
      (execute host engine world command).1 ::
        executions host (execute host engine world command).1.after
          (execute host engine world command).2 commands := rfl

/-- Every engine that a sequence of commands reaches is sound, and the rest of the sequence is what
it does from there. -/
theorem executions_append {before rest : List Execution} {engine : Engine} {world : ω}
    {commands : List Command} (hsound : engine.Sound)
    (h : executions host engine world commands = before ++ rest) :
    ∃ engine' world' commands', engine'.Sound ∧ rest = executions host engine' world' commands' := by
  induction before generalizing engine world commands with
  | nil => exact ⟨engine, world, commands, hsound, h.symm⟩
  | cons x before ih =>
    cases commands with
    | nil => cases h
    | cons command commands =>
      rw [executions_cons, List.cons_append] at h
      obtain ⟨-, hrest⟩ := List.cons.inj h
      exact ih (sound_execute host world command hsound) hrest

theorem mem_executions {x : Execution} {engine : Engine} {world : ω} {commands : List Command}
    (hsound : engine.Sound) (hmem : x ∈ executions host engine world commands) :
    ∃ world', x.before.Sound ∧ x = (execute host x.before world' x.command).1 := by
  obtain ⟨before, after, hsplit⟩ := List.append_of_mem hmem
  obtain ⟨engine', world', commands', hsound', hrest⟩ := executions_append hsound hsplit
  cases commands' with
  | nil => cases hrest
  | cons command commands' =>
    rw [executions_cons] at hrest
    obtain ⟨rfl, -⟩ := List.cons.inj hrest
    exact ⟨world', hsound', rfl⟩

/-- A view that is not valid stays so until a command refreshes it. -/
theorem viewValid_of_between {between after : List Execution} {y : Execution} {engine : Engine}
    {world : ω} {commands : List Command} (hsound : engine.Sound)
    (hrun : executions host engine world commands = between ++ y :: after)
    (hbetween : ∀ z ∈ between, z.command.refreshes = true → z.Failed)
    (hview : engine.viewValid = false) : y.before.viewValid = false := by
  induction between generalizing engine world commands with
  | nil =>
    cases commands with
    | nil => cases hrun
    | cons command commands =>
      rw [executions_cons, List.nil_append] at hrun
      obtain ⟨rfl, -⟩ := List.cons.inj hrun
      exact hview
  | cons z between ih =>
    cases commands with
    | nil => cases hrun
    | cons command commands =>
      rw [executions_cons, List.cons_append] at hrun
      obtain ⟨rfl, hrest⟩ := List.cons.inj hrun
      refine ih (sound_execute host world command hsound) hrest
        (fun z hmem => hbetween z (List.mem_cons_of_mem _ hmem)) ?_
      exact execute_viewInvalid host world command hview (hbetween _ List.mem_cons_self)

/-- Whatever the host answers, original requests are retained if every abandonment is that of the
retained capture. -/
theorem requests_are_retained (host : Host ω) (acceptance : Option AcceptanceLocation) (world : ω)
    (commands : List Command)
    (h : ∀ x ∈ executions host (.start acceptance) world commands, x.NamesRetained) :
    RetainsRequests (executions host (.start acceptance) world commands) where
  single x hmem := by
    obtain ⟨world', hsound, hx⟩ := mem_executions (Engine.sound_start acceptance) hmem
    have hafter := sound_execute host world' x.command hsound
    rw [← hx] at hafter
    obtain ⟨retained, hretained⟩ := hafter.single
    rw [hretained]
    rcases retained with _ | _ | _
    · exact .inl rfl
    · exact .inr rfl
    · exact .inl rfl
  released x hmem original horiginal := by
    obtain ⟨world', hsound, hx⟩ := mem_executions (Engine.sound_start acceptance) hmem
    obtain ⟨retained, hretained⟩ := hsound.single
    have htrace := execute_trace host world' x.command hsound fun habandon target request htarget
      hrequest => h x hmem habandon target request htarget hrequest
    rw [← hx] at htrace
    obtain ⟨retained', hrun, hretained'⟩ := htrace.2.2 retained hretained
    rw [Engine.retains_iff hretained']
    rcases horiginal with hbefore | hprepared
    · rw [Engine.retains_iff hretained] at hbefore
      subst hbefore
      exact (retained_keeps hrun).imp_right released_of_releasedBy
    · exact (prepared_keeps hrun (prepared_mem hprepared)).imp_right released_of_releasedBy
  undisturbed x hmem hretains event hevent hkind := by
    obtain ⟨world', hsound, hx⟩ := mem_executions (Engine.sound_start acceptance) hmem
    obtain ⟨original, hretains⟩ := hretains
    have hkinds := event_kind host hsound hx hevent
    rw [hkind] at hkinds
    have hbarred : Turn.Barred x.command x.before = true := by
      rw [Turn.Barred, changesLibrary_of_opening hkinds, hretains.held]
      rfl
    have hrefused := execute_refused host world' x.command hsound hbarred
    rw [← hx] at hrefused
    rw [hrefused.1] at hevent
    exact List.not_mem_nil hevent
  guarded x hmem hunready := by
    obtain ⟨world', hsound, hx⟩ := mem_executions (Engine.sound_start acceptance) hmem
    have hrefused : x.command.changesSources = true → x.Refused := fun hchanges => by
      have hbarred : Turn.Barred x.command x.before = true := by
        rw [Turn.Barred, hchanges, hunready.blocked, Bool.true_and, Bool.or_true]
      have hrefused := execute_refused host world' x.command hsound hbarred
      rw [← hx] at hrefused
      exact hrefused
    refine ⟨fun event hevent hkind => ?_, hrefused⟩
    have hkinds := event_kind host hsound hx hevent
    rw [hkind] at hkinds
    rw [(hrefused (changesSources_of_beginning hkinds)).1] at hevent
    exact List.not_mem_nil hevent
  sticky before x between y after hrun hfailed hbetween hchanges := by
    have hmem : y ∈ executions host (.start acceptance) world commands := by
      rw [hrun]
      exact List.mem_append_right _ (List.mem_cons_of_mem _
        (List.mem_append_right _ List.mem_cons_self))
    obtain ⟨world', hsound, hy⟩ := mem_executions (Engine.sound_start acceptance) hmem
    have hview : y.before.viewValid = false := by
      obtain ⟨engine', world', commands', hsound', hrest⟩ :=
        executions_append (Engine.sound_start acceptance) hrun
      cases commands' with
      | nil => cases hrest
      | cons command commands' =>
        rw [executions_cons] at hrest
        obtain ⟨rfl, htail⟩ := List.cons.inj hrest
        refine viewValid_of_between (sound_execute host world' command hsound') htail.symm
          hbetween ?_
        exact Bool.eq_false_iff.2 fun hvalid => (execute_viewValid host world' command hvalid).1 hfailed
    have hbarred : Turn.Barred y.command y.before = true := by
      rw [Turn.Barred, hchanges, Engine.Unready.blocked (.inr (.inr (.inl hview))),
        Bool.true_and, Bool.or_true]
    have hrefused := execute_refused host world' y.command hsound hbarred
    rw [← hy] at hrefused
    exact hrefused

end Runs

end

/-! ## The sample host -/

section Samples

open Sample DesktopSample

/-- The abandonment of a capture of another process drops the retained one, which has neither
succeeded nor been abandoned. -/
theorem foreign_abandonment_drops_the_request : ¬ RetainsRequests (run other) := by
  intro h
  obtain ⟨x, hmem, hbefore, hafter, hdeeds⟩ : ∃ x ∈ run other,
      x.before.slots = (some prepared, none) ∧ x.after.slots = (none, none) ∧
        x.events.map Event.deed = [.abandoned other, .other, .other, .other] :=
    ⟨_, List.getElem_mem (n := 3) (by decide), rfl, rfl, rfl⟩
  rcases h.released x hmem (.capture prepared) (.inl (congrArg Prod.fst hbefore)) with
    hretains | ⟨receipt, hevent⟩ | ⟨target, hnames, hevent⟩
  · rw [Engine.Retains, hafter] at hretains
    cases hretains
  · have hdeed := List.mem_map_of_mem (f := Event.deed) hevent
    rw [hdeeds] at hdeed
    simp [Event.deed] at hdeed
  · have hdeed := List.mem_map_of_mem (f := Event.deed) hevent
    rw [hdeeds] at hdeed
    obtain rfl : target = other := by simpa [Event.deed] using hdeed
    have hdistinct : "source-2" ≠ "prepared-source" := by decide
    exact hdistinct hnames

/-- The run in which the host lists the row of the retained capture. -/
theorem own_names_retained : ∀ x ∈ run own, x.NamesRetained := by
  intro x hmem habandon target request htarget hretains
  obtain ⟨n, hn, rfl⟩ := List.getElem_of_mem hmem
  have hlength : (run own).length = 4 := rfl
  rw [hlength] at hn
  match n, hn with
  | 0, _ => cases habandon
  | 1, _ => cases habandon
  | 2, _ => cases habandon
  | 3, _ =>
    obtain rfl : own = target := Option.some.inj htarget
    obtain rfl : prepared = request := Option.some.inj hretains
    rfl

theorem requests_are_retained_of_own :
    RetainsRequests (executions (host own) (.start none) false commands) :=
  requests_are_retained (host own) none false commands own_names_retained

end Samples

end Desktop
end RadishMemory
