import Dcp.Compat.Negotiation
import Dcp.Compat.Session
import Dcp.Library.Pool

/-!
What a step of a request can do to the lifecycle of the adapter while other requests are handled at
the same time. One initialize passes the once-only check; that one, and no other, writes the version
and negotiates the manifest, once. A notification is accepted after that, and a tool runs after such
a notification, with an id that is in the manifest.
-/

namespace Dcp
open Library

/-- An initialize passed its once-only check, and after that a notification was accepted. -/
def Ready {ι : Type} (trace : List (ι × AdapterEvent)) : Prop :=
  ∃ i j, List.Sublist [(i, .initializePassed), (j, .initializedAccepted)] trace

namespace CompleteMcpAdapter
variable {ι : Type}

/-- What thread `i` can do in a step: the state after it and the events. -/
inductive Moves (codec : JsonCodec) (adapter : CompleteMcpAdapter) (json : ι → String) (i : ι)
    (w : World ι AdapterState AdapterEvent) : AdapterState → List AdapterEvent → Prop
  | quiet {state : AdapterState} {events : List AdapterEvent} (h : Harmless w.state state events) :
      Moves codec adapter json i w state events
  | pass (hfirst : w.state.initializeSeen = false) :
      Moves codec adapter json i w { w.state with initializeSeen := true } [.initializePassed]
  | version (hpassed : (i, .initializePassed) ∈ w.trace) (version : ProtocolVersion) :
      Moves codec adapter json i w { w.state with protocolVersion := version } []
  | negotiate {request : JsonRpcRequest} {m : CapabilityManifest} (resourceIds : List UInt16)
      (hpassed : (i, .initializePassed) ∈ w.trace)
      (hfirst : ∀ ids, (i, .negotiated ids) ∉ w.trace)
      (hrequest : adapter.parseRequest codec (json i) = .ok request)
      (hmethod : request.method = "initialize")
      (hm : adapter.Agreed w.state.resources request.params m) :
      Moves codec adapter json i w { w.state with negotiatedManifest := m }
        [.negotiated resourceIds]
  | accept {request : JsonRpcRequest} (hrequest : adapter.parseRequest codec (json i) = .ok request)
      (hmethod : request.method = "notifications/initialized")
      (hseen : w.state.initializeSeen = true) :
      Moves codec adapter json i w { w.state with initializedSeen := true } [.initializedAccepted]
  | runTool (call : Call) (hinitialized : w.state.initializedSeen = true)
      (hhas : w.state.negotiatedManifest.hasTool call.toolId = true) :
      Moves codec adapter json i w { w.state with calls := w.state.calls ++ [call] } [.toolRun call]

/-- What holds at all times, whatever requests are handled. -/
structure LifecycleInvariant (resources : ResourceRegistry)
    (w : World ι AdapterState AdapterEvent) : Prop where
  resources : w.state.resources = resources
  seen : w.state.initializeSeen = true ↔ ∃ i, (i, .initializePassed) ∈ w.trace
  once : ∀ i j, (i, .initializePassed) ∈ w.trace → (j, .initializePassed) ∈ w.trace → i = j
  negotiator : ∀ i ids, (i, .negotiated ids) ∈ w.trace → (i, .initializePassed) ∈ w.trace
  fresh : (∀ i ids, (i, .negotiated ids) ∉ w.trace) → w.state.negotiatedManifest = .new 1
  ready : w.state.initializedSeen = true → Ready w.trace

/-- The world after a move. -/
def moved (w : World ι AdapterState AdapterEvent) (i : ι) (state : AdapterState)
    (events : List AdapterEvent) : World ι AdapterState AdapterEvent :=
  ⟨state, w.trace ++ events.map (i, ·)⟩

section
variable {codec : JsonCodec} {adapter : CompleteMcpAdapter} {json : ι → String} {i j : ι}
  {w : World ι AdapterState AdapterEvent} {state : AdapterState} {events : List AdapterEvent}
  {resources : ResourceRegistry} {event : AdapterEvent}

theorem mem_trace_moved :
    (j, event) ∈ (moved w i state events).trace ↔
      (j, event) ∈ w.trace ∨ j = i ∧ event ∈ events := by
  simp only [moved, List.mem_append, List.mem_map, Prod.mk.injEq]
  refine or_congr_right ⟨?_, ?_⟩
  · rintro ⟨event, hevent, rfl, rfl⟩
    exact ⟨rfl, hevent⟩
  · rintro ⟨rfl, hevent⟩
    exact ⟨event, hevent, rfl, rfl⟩

theorem mem_trace_moved_of_not_mem (h : event ∉ events) :
    (j, event) ∈ (moved w i state events).trace ↔ (j, event) ∈ w.trace :=
  mem_trace_moved.trans (or_iff_left fun hmem => h hmem.2)

theorem ready_moved (h : Ready w.trace) : Ready (moved w i state events).trace := by
  obtain ⟨k, l, h⟩ := h
  exact ⟨k, l, h.trans (List.sublist_append_left _ _)⟩

namespace LifecycleInvariant

/-- Only the initialize that passed negotiates, and once. -/
theorem not_negotiated (h : LifecycleInvariant resources w)
    (hpassed : (i, .initializePassed) ∈ w.trace)
    (hfirst : ∀ ids, (i, .negotiated ids) ∉ w.trace) (j : ι) (ids : List UInt16) :
    (j, .negotiated ids) ∉ w.trace := by
  intro hmem
  obtain rfl := h.once i j hpassed (h.negotiator j ids hmem)
  exact hfirst ids hmem

/-- A step in which no initialize passes and nothing is negotiated. -/
theorem moved_of_calm (h : LifecycleInvariant resources w)
    (hpass : .initializePassed ∉ events) (hnegotiate : ∀ ids, .negotiated ids ∉ events)
    (hresources : state.resources = w.state.resources)
    (hseen : state.initializeSeen = w.state.initializeSeen)
    (hmanifest : state.negotiatedManifest = w.state.negotiatedManifest)
    (hready : state.initializedSeen = true → Ready (moved w i state events).trace) :
    LifecycleInvariant resources (moved w i state events) := by
  constructor
  · exact hresources.trans h.resources
  · simp only [mem_trace_moved_of_not_mem hpass]
    exact (iff_of_eq (congrArg (· = true) hseen)).trans h.seen
  · simp only [mem_trace_moved_of_not_mem hpass]
    exact h.once
  · simp only [mem_trace_moved_of_not_mem hpass, mem_trace_moved_of_not_mem (hnegotiate _)]
    exact h.negotiator
  · simp only [mem_trace_moved_of_not_mem (hnegotiate _)]
    exact fun hfresh => hmanifest.trans (h.fresh hfresh)
  · exact hready

theorem moved (h : LifecycleInvariant resources w)
    (hmove : Moves codec adapter json i w state events) :
    LifecycleInvariant resources (moved w i state events) := by
  cases hmove with
  | quiet hquiet =>
      obtain ⟨hstate, hevents⟩ := hquiet
      apply h.moved_of_calm
      · exact fun hmem => Bool.false_ne_true (hevents _ hmem)
      · exact fun ids hmem => Bool.false_ne_true (hevents _ hmem)
      · exact congrArg Lifecycle.resources hstate
      · exact congrArg Lifecycle.initializeSeen hstate
      · exact congrArg Lifecycle.negotiatedManifest hstate
      · intro hinitialized
        have hsame := congrArg Lifecycle.initializedSeen hstate
        exact ready_moved (h.ready (hsame.symm.trans hinitialized))
  | pass hfirst =>
      have hnone : ∀ j, (j, .initializePassed) ∉ w.trace := by
        intro j hmem
        rw [h.seen.mpr ⟨j, hmem⟩] at hfirst
        cases hfirst
      constructor
      · exact h.resources
      · exact iff_of_true rfl ⟨i, mem_trace_moved.mpr (.inr ⟨rfl, List.mem_singleton_self _⟩)⟩
      · intro j k hj hk
        obtain hj | ⟨rfl, -⟩ := mem_trace_moved.mp hj
        · exact absurd hj (hnone j)
        · obtain hk | ⟨rfl, -⟩ := mem_trace_moved.mp hk
          · exact absurd hk (hnone k)
          · rfl
      · intro j ids hmem
        obtain hmem | ⟨-, hmem⟩ := mem_trace_moved.mp hmem
        · exact mem_trace_moved.mpr (.inl (h.negotiator j ids hmem))
        · cases List.mem_singleton.mp hmem
      · exact fun hfresh => h.fresh fun j ids hmem => hfresh j ids (mem_trace_moved.mpr (.inl hmem))
      · exact fun hinitialized => ready_moved (h.ready hinitialized)
  | version hpassed version =>
      refine h.moved_of_calm List.not_mem_nil (fun _ => List.not_mem_nil) rfl rfl rfl ?_
      exact fun hinitialized => ready_moved (h.ready hinitialized)
  | negotiate resourceIds hpassed hfirst hrequest hmethod hm =>
      have hpass : AdapterEvent.initializePassed ∉ [.negotiated resourceIds] := by simp
      constructor
      · exact h.resources
      · simp only [mem_trace_moved_of_not_mem hpass]
        exact h.seen
      · simp only [mem_trace_moved_of_not_mem hpass]
        exact h.once
      · intro j ids hmem
        rw [mem_trace_moved_of_not_mem hpass]
        obtain hmem | ⟨rfl, -⟩ := mem_trace_moved.mp hmem
        · exact h.negotiator j ids hmem
        · exact hpassed
      · intro hfresh
        exact absurd (mem_trace_moved.mpr (.inr ⟨rfl, List.mem_singleton_self _⟩))
          (hfresh i resourceIds)
      · exact fun hinitialized => ready_moved (h.ready hinitialized)
  | accept hrequest hmethod hseen =>
      refine h.moved_of_calm (by simp) (by simp) rfl rfl rfl fun _ => ?_
      obtain ⟨j, hpassed⟩ := h.seen.mp hseen
      exact ⟨j, i, (List.singleton_sublist.mpr hpassed).append (List.Sublist.refl _)⟩
  | runTool call hinitialized hhas =>
      refine h.moved_of_calm (by simp) (by simp) rfl rfl rfl ?_
      exact fun hinitialized => ready_moved (h.ready hinitialized)

end LifecycleInvariant
end

/-- What all requests to one adapter keep to. -/
def lifecycleProtocol (codec : JsonCodec) (adapter : CompleteMcpAdapter) (json : ι → String)
    (resources : ResourceRegistry) : Protocol ι AdapterState AdapterEvent where
  inv := LifecycleInvariant resources
  guar i w w' := ∃ state events, Moves codec adapter json i w state events ∧
    w' = moved w i state events

section
variable {codec : JsonCodec} {adapter : CompleteMcpAdapter} {json : ι → String} {i : ι}
  {w : World ι AdapterState AdapterEvent} {resources : ResourceRegistry} {α β : Type}

theorem stable_of_moves {known : World ι AdapterState AdapterEvent → Prop}
    (h : ∀ i w state events, LifecycleInvariant resources w →
      Moves codec adapter json i w state events → known w → known (moved w i state events)) :
    (lifecycleProtocol codec adapter json resources).Stable known := by
  rintro i w _ hinv - ⟨state, events, hmove, rfl⟩
  exact h i w state events hinv hmove

theorem stable_initializeSeen :
    (lifecycleProtocol codec adapter json resources).Stable fun w =>
      w.state.initializeSeen = true := by
  apply stable_of_moves
  intro i w state events _ hmove hseen
  cases hmove with
  | quiet h => exact (congrArg Lifecycle.initializeSeen h.1).trans hseen
  | pass => rfl
  | version | negotiate | accept | runTool => exact hseen

theorem stable_initializedSeen :
    (lifecycleProtocol codec adapter json resources).Stable fun w =>
      w.state.initializedSeen = true := by
  apply stable_of_moves
  intro i w state events _ hmove hseen
  cases hmove with
  | quiet h => exact (congrArg Lifecycle.initializedSeen h.1).trans hseen
  | accept => rfl
  | pass | version | negotiate | runTool => exact hseen

/-- A tool that is in the manifest stays there. -/
theorem stable_tools (m : CapabilityManifest) :
    (lifecycleProtocol codec adapter json resources).Stable fun w =>
      ∀ id, m.hasTool id = true → w.state.negotiatedManifest.hasTool id = true := by
  apply stable_of_moves
  intro i w state events hinv hmove htools
  cases hmove with
  | quiet h =>
      have hsame : state.negotiatedManifest = w.state.negotiatedManifest :=
        congrArg Lifecycle.negotiatedManifest h.1
      exact fun id hid => (congrArg (·.hasTool id) hsame).trans (htools id hid)
  | pass | version | accept | runTool => exact htools
  | negotiate resourceIds hpassed hfirst _ _ _ =>
      have hfresh := hinv.fresh (hinv.not_negotiated hpassed hfirst)
      intro id hid
      have hnone := htools id hid
      rw [hfresh] at hnone
      simp [CapabilityManifest.hasTool, CapabilityManifest.new] at hnone

/-- The other threads leave the events of thread `i` as they are. -/
theorem mem_trace_rely {w' : World ι AdapterState AdapterEvent} {event : AdapterEvent}
    (hrely : (lifecycleProtocol codec adapter json resources).Rely i w w') :
    (i, event) ∈ w'.trace ↔ (i, event) ∈ w.trace := by
  induction hrely with
  | refl => rfl
  | tail _ hstep ih =>
      obtain ⟨-, -, j, hj, state, events, -, rfl⟩ := hstep
      exact (mem_trace_moved.trans (or_iff_left fun hmem => hj hmem.1.symm)).trans ih

/-- Thread `i` passed the check of an initialize and has not negotiated yet. -/
structure Negotiates (i : ι) (w : World ι AdapterState AdapterEvent) : Prop where
  passed : (i, .initializePassed) ∈ w.trace
  first : ∀ ids, (i, .negotiated ids) ∉ w.trace

theorem Negotiates.rely (h : Negotiates i w) {w' : World ι AdapterState AdapterEvent}
    (hrely : (lifecycleProtocol codec adapter json resources).Rely i w w') : Negotiates i w' :=
  ⟨(mem_trace_rely hrely).mpr h.passed,
    fun ids hmem => h.first ids ((mem_trace_rely hrely).mp hmem)⟩

theorem Negotiates.moved (h : Negotiates i w) (state : AdapterState) :
    Negotiates i (moved w i state []) :=
  ⟨(mem_trace_moved_of_not_mem List.not_mem_nil).mpr h.passed,
    fun ids hmem => h.first ids ((mem_trace_moved_of_not_mem List.not_mem_nil).mp hmem)⟩

/-- The rest of thread `i` keeps to the protocol. -/
def Follows (codec : JsonCodec) (adapter : CompleteMcpAdapter) (json : ι → String)
    (resources : ResourceRegistry) (i : ι) (p : Handler α) (w : World ι AdapterState AdapterEvent) :
    Prop :=
  (lifecycleProtocol codec adapter json resources).Meets i (fun _ _ => True) p w

theorem follows_step {update : AdapterState → AdapterState}
    {emit : AdapterState → List AdapterEvent}
    {next : AdapterState → Handler α}
    (h : ∀ w', (lifecycleProtocol codec adapter json resources).Rely i w w' →
      LifecycleInvariant resources w' →
      Moves codec adapter json i w' (update w'.state) (emit w'.state) ∧
        Follows codec adapter json resources i (next w'.state)
          (moved w' i (update w'.state) (emit w'.state))) :
    Follows codec adapter json resources i (.step update emit next) w := by
  intro w' hrely hinv
  obtain ⟨hmove, hnext⟩ := h w' hrely hinv
  exact ⟨hinv.moved hmove, ⟨_, _, hmove, rfl⟩, hnext⟩

theorem follows_act {update : AdapterState → AdapterState} {emit : AdapterState → List AdapterEvent}
    {result : AdapterState → Except CompleteAdapterError α} {k : α → Handler β}
    (h : ∀ w', (lifecycleProtocol codec adapter json resources).Rely i w w' →
      LifecycleInvariant resources w' →
      Moves codec adapter json i w' (update w'.state) (emit w'.state) ∧
        Follows codec adapter json resources i (Prog.onOk k (result w'.state))
          (moved w' i (update w'.state) (emit w'.state))) :
    Follows codec adapter json resources i (.act update emit result >>= k) w :=
  follows_step h

theorem follows_of_harmless {p : Handler α} (h : p.Ensures Harmless fun _ => True) :
    Follows codec adapter json resources i p w := by
  refine Protocol.Meets.of_ensures h ?_ w
  intro w update emit hharmless hinv
  have hmove : Moves codec adapter json i w (update w.state) (emit w.state) := .quiet hharmless
  exact ⟨hinv.moved hmove, _, _, hmove, rfl⟩

/-- A harmless first part, and what is known all the time. -/
theorem follows_bind {p : Handler α} {k : α → Handler β} (hp : p.Ensures Harmless fun _ => True)
    {known : World ι AdapterState AdapterEvent → Prop}
    (hstable : (lifecycleProtocol codec adapter json resources).Stable known) (hw : known w)
    (hk : ∀ a w, known w → Follows codec adapter json resources i (k a) w) :
    Follows codec adapter json resources i (p >>= k) w := by
  refine Protocol.Meets.bind ((Protocol.Meets.keep hstable (follows_of_harmless hp) hw).mono ?_) hk
  intro result w hknown
  cases result with
  | ok a => exact hknown.2
  | error e => trivial

theorem follows_andThen {p : Handler α} {k : Except CompleteAdapterError α → Handler β}
    (hp : Follows codec adapter json resources i p w)
    (hk : ∀ result w, Follows codec adapter json resources i (k result) w) :
    Follows codec adapter json resources i (p.andThen k) w :=
  Protocol.Meets.andThen hp fun result w _ => hk result w

/-- A part that leaves the lifecycle alone. -/
theorem Silent.follows {p : Handler α} {k : α → Handler β} (hp : Silent p)
    (hk : ∀ a w, Follows codec adapter json resources i (k a) w) :
    Follows codec adapter json resources i (p >>= k) w :=
  follows_bind hp.harmless (fun _ _ _ _ _ _ _ => trivial) trivial fun a w _ => hk a w

theorem follows_read {f : AdapterState → α} {k : α → Handler β}
    (h : ∀ w', LifecycleInvariant resources w' →
      (lifecycleProtocol codec adapter json resources).Rely i w w' →
      Follows codec adapter json resources i (k (f w'.state)) (moved w' i w'.state [])) :
    Follows codec adapter json resources i (.read f >>= k) w :=
  follows_act fun w' hrely hinv => ⟨.quiet ⟨rfl, by simp⟩, h w' hinv hrely⟩

end
end CompleteMcpAdapter
end Dcp
