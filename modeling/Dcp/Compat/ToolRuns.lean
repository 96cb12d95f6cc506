import Dcp.Compat.LifecycleSafety
import Dcp.Compat.ReplayRejection
import Dcp.Compat.ReplayWindow
import Dcp.Library.Tracking

/-!
How often tools run when many requests to one adapter are handled at the same time. A request takes
its id into the window before its tool runs, both behind locks that other requests may take in
between; so the tool of a request runs once at most, and a second request with the same id text only
gets that far after the window has let in as many other ids as it has room for, all of them after
the first one.
-/

namespace Dcp
open Library

def AdapterEvent.isToolRun : AdapterEvent → Bool
  | toolRun _ => true
  | _ => false

namespace RequestReplayGuard

/-- Each key is none of the last `n` before it. -/
def Spaced (n : Nat) (keys : List String) : Prop :=
  ∀ front key, front ++ [key] <+: keys → key ∉ front.rtake n

theorem spaced_nil (n : Nat) : Spaced n [] := by
  intro front key hfront
  simp at hfront

theorem Spaced.concat {n : Nat} {keys : List String} {key : String} (h : Spaced n keys)
    (hkey : key ∉ keys.rtake n) : Spaced n (keys ++ [key]) := by
  intro front key' hfront
  obtain heq | hfront := List.prefix_concat_iff.mp hfront
  · obtain ⟨rfl, hsingle⟩ := List.append_inj' heq rfl
    obtain rfl := List.singleton_inj.mp hsingle
    exact hkey
  · exact h front key' hfront

/-- The last keys before any place are different. -/
theorem Spaced.nodup_rtake {n : Nat} {keys : List String} (h : Spaced n keys) {front : List String}
    (hfront : front <+: keys) : (front.rtake n).Nodup := by
  induction front using List.reverseRecOn with
  | nil => simp
  | append_singleton front key ih =>
      cases n with
      | zero => simp
      | succ n =>
          have hbefore := ih ((List.prefix_append front [key]).trans hfront)
          have hkey := h front key hfront
          have hshort : ∀ k ∈ front.rtake n, k ∈ front.rtake (n + 1) := by
            intro k hk
            rw [← Recent.rtake_rtake_of_le (Nat.le_succ n)] at hk
            exact List.mem_of_mem_drop hk
          rw [List.rtake_concat_succ, List.nodup_append]
          refine ⟨?_, List.nodup_singleton key, ?_⟩
          · rw [← Recent.rtake_rtake_of_le (Nat.le_succ n)]
            exact hbefore.sublist (List.drop_sublist _ _)
          · intro a ha b hb heq
            rw [List.mem_singleton.mp hb] at heq
            exact hkey (hshort key (heq ▸ ha))

/-- Between two equal keys there are as many others as the window has room for. -/
theorem Spaced.between {n : Nat} {front middle back : List String} {key : String}
    (h : Spaced n (front ++ key :: (middle ++ key :: back))) :
    n ≤ middle.length ∧ (middle.rtake n).Nodup ∧ key ∉ middle.rtake n := by
  have hkey := h (front ++ key :: middle) key ⟨back, by simp⟩
  have hlength : n ≤ middle.length := by
    by_contra hshort
    exact hkey (Recent.mem_rtake_append front key (Nat.lt_of_not_le hshort))
  have hmiddle : (front ++ key :: middle).rtake n = middle.rtake n := by
    rw [← List.concat_append, Recent.rtake_append_of_le hlength]
  rw [hmiddle] at hkey
  refine ⟨hlength, ?_, hkey⟩
  rw [← hmiddle]
  exact h.nodup_rtake ⟨key :: back, by simp⟩

end RequestReplayGuard

namespace CompleteMcpAdapter

/-- The text of the id that a call of a tool is recorded under. -/
def toolCallText (codec : JsonCodec) (adapter : CompleteMcpAdapter) (call : RequestCall) :
    Option String :=
  (AdapterSession.toolCallId codec adapter call).bind requestIdForAudit

/-- How far the call of a tool has come. -/
inductive ToolStage
  | waiting
  | admitted
  | ran
  deriving DecidableEq

/-- A step that leaves the window alone and runs no tool. -/
def Idle (s s' : AdapterState) (events : List AdapterEvent) : Prop :=
  s'.toolCallReplayGuard = s.toolCallReplayGuard ∧ ∀ event ∈ events, event.isToolRun = false

/-- What a step of a request with this id text can do: nothing, be let in by the window, or run the
tool after that. -/
inductive ToolMove (text : Option String) :
    ToolStage → AdapterState → AdapterState → List AdapterEvent → ToolStage → Prop
  | idle {stage : ToolStage} {s s' : AdapterState} {events : List AdapterEvent}
      (h : Idle s s' events) : ToolMove text stage s s' events stage
  | enter {requestId : String} {s s' : AdapterState} (htext : text = some requestId)
      (hfresh : replayKey "tools/call" requestId ∉ s.toolCallReplayGuard.seen)
      (hguard : s'.toolCallReplayGuard =
        (s.toolCallReplayGuard.checkAndRecord (replayKey "tools/call" requestId)).2) :
      ToolMove text .waiting s s' [] .admitted
  | run {s s' : AdapterState} (call : Call)
      (hguard : s'.toolCallReplayGuard = s.toolCallReplayGuard) :
      ToolMove text .admitted s s' [.toolRun call] .ran

section
variable {codec : JsonCodec} {adapter : CompleteMcpAdapter} {request : JsonRpcRequest}
  {text : Option String} {stage : ToolStage} {α : Type}

theorem Silent.idle {p : Handler α} (h : Silent p) : p.Ensures Idle fun _ => True := by
  refine h.mono ?_ fun _ h => h
  intro s s' events hstep
  refine ⟨hstep.2.1, ?_⟩
  rw [hstep.2.2]
  exact fun _ hmem => absurd hmem List.not_mem_nil

theorem idle_auditRequest (action : SecurityAuditAction) (reason : String) :
    (auditRequest action reason request).Ensures Idle fun _ => True := by
  refine Prog.ensures_act (fun s => ⟨rfl, ?_⟩) fun _ => trivial
  intro event hmem
  rw [List.mem_singleton.mp hmem]
  rfl

theorem idle_audited (action : SecurityAuditAction) (reason : String)
    (result : Except CompleteAdapterError α) :
    (do auditRequest action reason request; .lift result).Ensures Idle fun _ => True :=
  (idle_auditRequest action reason).seq (fun _ => trivial) fun _ => trivial

theorem idle_respond {p : Handler String} (h : p.Ensures Idle fun _ => True) :
    (respond p).Ensures Idle fun _ => True :=
  h.seq (fun _ => trivial) fun _ => trivial

theorem idle_handleInitialize (hmethod : request.method = "initialize")
    (hid : request.isNotification = false) :
    (adapter.handleInitialize codec request).Ensures Idle fun _ => True := by
  have hpass : passInitializeOnce.Ensures Idle fun _ => True := by
    refine Prog.ensures_act (fun s => ⟨rfl, fun event hmem => ?_⟩) fun _ => trivial
    split at hmem
    · cases hmem
    · rw [List.mem_singleton.mp hmem]
      rfl
  have hversion : ∀ version, (Prog.write fun s => { s with protocolVersion := version } :
      Handler Unit).Ensures Idle fun _ => True :=
    fun _ => Prog.ensures_act (fun _ => ⟨rfl, fun _ hmem => absurd hmem List.not_mem_nil⟩)
      fun _ => trivial
  have hnegotiate : ∀ clientManifest resourceIds,
      (adapter.negotiate clientManifest resourceIds).Ensures Idle fun _ => True := by
    intro clientManifest resourceIds
    refine Prog.ensures_act (fun s => ⟨rfl, fun event hmem => ?_⟩) fun _ => trivial
    rw [List.mem_singleton.mp hmem]
    rfl
  refine (silent_requireRequestMethod hmethod hid).idle.seq (fun _ => trivial) fun _ => ?_
  refine (silent_lift _).idle.seq (fun _ => trivial) fun _ => ?_
  refine hpass.seq (fun _ => trivial) fun _ => ?_
  refine (hversion _).seq (fun _ => trivial) fun _ => ?_
  refine (silent_read _).idle.seq (fun _ => trivial) fun _ => ?_
  refine (hnegotiate _ _).seq (fun _ => trivial) fun _ => ?_
  refine silent_readManifest.idle.seq (fun _ => trivial) fun negotiated => ?_
  refine (silent_supportsSubscribe negotiated).idle.seq (fun _ => trivial) fun _ => ?_
  exact trivial

theorem idle_handleInitialized (hmethod : request.method = "notifications/initialized")
    (hid : request.isNotification = true) :
    (handleInitialized request).Ensures Idle fun _ => True := by
  have haccept : acceptInitializedOnce.Ensures Idle fun _ => True := by
    refine Prog.ensures_act (fun s => ⟨rfl, fun event hmem => ?_⟩) fun _ => trivial
    split at hmem
    · cases hmem
    · rw [List.mem_singleton.mp hmem]
      rfl
  refine (silent_requireInitializedNotification hmethod hid).idle.seq (fun _ => trivial)
    fun _ => ?_
  refine (silent_ensure _ _).idle.seq (fun _ => trivial) fun _ => ?_
  refine (silent_read _).idle.seq (fun _ => trivial) fun _ => ?_
  refine (silent_ensure _ _).idle.seq (fun _ => trivial) fun _ => ?_
  exact haccept.seq (fun _ => trivial) fun _ => trivial

theorem idle_answerErrors (result : Except CompleteAdapterError (Option String)) :
    (answerErrors codec request result).Ensures Idle fun _ => True := by
  have hanswer : ∀ e, (adapterErrorResponse codec request e).Ensures Idle fun _ => True :=
    fun e => idle_audited _ _ _
  cases result with
  | ok answer =>
      simp only [answerErrors]
      split <;> trivial
  | error e =>
      simp only [answerErrors]
      split
      · exact (hanswer e).andThen fun _ _ => trivial
      · exact (hanswer e).seq (fun _ => trivial) fun _ => trivial

/-- The request stays where it is. -/
theorem tracks_of_idle {p : Handler α} (h : p.Ensures Idle fun _ => True) :
    p.Tracks (ToolMove text) (fun _ _ => True) stage :=
  (Prog.Tracks.of_ensures h fun _ _ _ hidle => .idle hidle).mono fun _ _ _ => trivial

theorem tracks_seq {β : Type} {p : Handler α} {k : α → Handler β}
    (hp : p.Ensures Idle fun _ => True)
    (hk : ∀ a, (k a).Tracks (ToolMove text) (fun _ _ => True) stage) :
    (p >>= k).Tracks (ToolMove text) (fun _ _ => True) stage :=
  Prog.Tracks.seq hp (fun _ _ _ hidle => .idle hidle) (fun _ => trivial) hk

/-- A tool runs once, for a request that was let in. -/
theorem tracks_runTool {k : ToolResult → Handler α} (router : BinaryTrieRouter)
    (m : CapabilityManifest) (toolId : UInt16) (args : SharedArgs)
    (hk : ∀ result, (k result).Ensures Idle fun _ => True) :
    (runTool router m toolId args >>= k).Tracks (ToolMove text) (fun _ _ => True) .admitted := by
  have hnext : ∀ (stage : ToolStage) (result : Except CompleteAdapterError ToolResult),
      (Prog.onOk k result).Tracks (ToolMove text) (fun _ _ => True) stage := by
    intro stage result
    cases result with
    | ok result => exact tracks_of_idle (hk result)
    | error e => exact trivial
  refine Prog.tracks_act fun s => ?_
  obtain ⟨e, -, hrun⟩ | ⟨handler, -, hrun⟩ :=
    router.executeAuthorized_cases m toolId args s.calls
  · refine ⟨.admitted, .idle ⟨rfl, ?_⟩, hnext _ _⟩
    simp [hrun]
  · refine ⟨.ran, ?_, hnext _ _⟩
    rw [hrun, List.drop_left]
    exact .run _ rfl

theorem tracks_handleToolsCall (router : BinaryTrieRouter)
    (hmethod : request.method = "tools/call") (hid : request.isNotification = false) :
    (adapter.handleToolsCall codec router request).Tracks
      (ToolMove (requestIdForAudit request.id)) (fun _ _ => True) .waiting := by
  refine tracks_seq (silent_requireRequestMethod hmethod hid).idle fun _ => ?_
  refine tracks_seq (silent_requireInitializedForMethod _).idle fun _ => ?_
  refine tracks_seq (silent_lift _).idle fun _ => ?_
  refine tracks_seq (silent_expect _ _).idle fun _ => ?_
  refine tracks_seq (silent_requireToolCapability _).idle fun _ => ?_
  refine tracks_seq (silent_expect _ _).idle fun _ => ?_
  refine tracks_seq (silent_lift _).idle fun encoded => ?_
  obtain ⟨requestId, hrequestId⟩ : ∃ requestId,
      requestIdForAudit request.id = some requestId := by
    cases hcase : request.id with
    | missing =>
        rw [JsonRpcRequest.isNotification, hcase] at hid
        cases hid
    | string s => exact ⟨_, rfl⟩
    | number n => exact ⟨_, rfl⟩
    | null => exact ⟨_, rfl⟩
  have hrecord : recordToolCallRequestId request = .act
      (fun s => { s with
        toolCallReplayGuard :=
          (s.toolCallReplayGuard.checkAndRecord (replayKey "tools/call" requestId)).2 })
      (fun _ => [])
      fun s => .ok (s.toolCallReplayGuard.checkAndRecord (replayKey "tools/call" requestId)).1 := by
    rw [recordToolCallRequestId, hrequestId]
  rw [hrecord, hrequestId]
  refine Prog.tracks_act fun s => ?_
  by_cases hseen : replayKey "tools/call" requestId ∈ s.toolCallReplayGuard.seen
  · refine ⟨.waiting, .idle ⟨?_, fun _ hmem => absurd hmem List.not_mem_nil⟩, ?_⟩
    · dsimp only
      rw [RequestReplayGuard.checkAndRecord, if_pos hseen]
    · rw [RequestReplayGuard.fst_checkAndRecord, decide_eq_false (not_not.mpr hseen)]
      exact tracks_of_idle (idle_audited _ _ _)
  · refine ⟨.admitted, .enter rfl hseen rfl, ?_⟩
    rw [RequestReplayGuard.fst_checkAndRecord, decide_eq_true hseen]
    refine tracks_seq silent_readManifest.idle fun capabilities => ?_
    exact tracks_runTool router _ _ _ fun result => (silent_lift _).idle

/-- The id text of a request for a tool. -/
def NamesCall (text : Option String) (request : JsonRpcRequest) : Prop :=
  request.method = "tools/call" → request.isNotification = false →
    text = requestIdForAudit request.id

theorem tracks_dispatchMethod (order : MapOrder) (router : BinaryTrieRouter)
    (htext : NamesCall text request)
    (hmethod : isNotificationOnlyMethod request.method = request.isNotification) :
    (adapter.dispatchMethod codec order router request).Tracks (ToolMove text)
      (fun _ _ => True) .waiting := by
  cases hid : request.isNotification with
  | false =>
      have hcases := dispatched hid codec adapter order router (hmethod.trans hid)
      generalize adapter.dispatchMethod codec order router request = p at hcases ⊢
      cases hcases with
      | begins h => exact tracks_of_idle (idle_respond (idle_handleInitialize h hid))
      | toolsCall h =>
          rw [htext h hid]
          refine (tracks_handleToolsCall router h hid).andThen fun result stage _ => ?_
          cases result <;> exact trivial
      | serves h => exact tracks_of_idle (idle_respond h.silent.idle)
      | refused reason => exact tracks_of_idle (idle_respond (idle_audited _ _ _))
  | true =>
      have hname : request.method = "notifications/initialized" ∨
          request.method = "notifications/cancelled" := by
        simpa [isNotificationOnlyMethod] using hmethod.trans hid
      obtain h | h := hname
      · rw [dispatchMethod_initialized codec adapter order router h]
        exact tracks_of_idle (idle_handleInitialized h hid)
      · rw [dispatchMethod_cancelled codec adapter order router h]
        exact tracks_of_idle (silent_handleCancelled h hid).idle

theorem tracks_handleParsed (order : MapOrder) (router : BinaryTrieRouter)
    (htext : NamesCall text request) :
    (adapter.handleParsed codec order router request).Tracks (ToolMove text)
      (fun _ _ => True) .waiting := by
  unfold handleParsed
  split
  · refine tracks_of_idle ((idle_auditRequest _ _).seq (fun _ => trivial) fun _ => ?_)
    split <;> trivial
  split
  · exact tracks_of_idle (idle_audited _ _ _)
  split
  · exact tracks_of_idle (idle_audited _ _ _)
  next hnotification hmethod =>
  have hsame : isNotificationOnlyMethod request.method = request.isNotification := by
    cases hid : request.isNotification <;> cases hm : isNotificationOnlyMethod request.method <;>
      simp_all
  have hdispatch : (adapter.dispatchMethod codec order router request).Tracks (ToolMove text)
      (fun _ _ => True) .waiting := tracks_dispatchMethod order router htext hsame
  refine Prog.Tracks.andThen (?_ : Prog.Tracks _ (fun _ _ => True) _ _)
    fun result stage _ => tracks_of_idle (idle_answerErrors result)
  dsimp only
  split
  · exact hdispatch
  · exact tracks_seq (silent_requireInitializedForMethod _).idle fun _ => hdispatch

theorem tracks_handleRequest (call : RequestCall) :
    (adapter.handleRequest codec call.order call.router call.json).Tracks
      (ToolMove (toolCallText codec adapter call)) (fun _ _ => True) .waiting := by
  unfold handleRequest
  cases hparse : adapter.parseRequest codec call.json with
  | error e =>
      refine tracks_of_idle (Prog.Ensures.seq ?_ (fun _ => trivial) fun _ => trivial)
      refine Prog.ensures_act (fun s => ⟨rfl, fun event hmem => ?_⟩) fun _ => trivial
      rw [List.mem_singleton.mp hmem]
      rfl
  | ok request =>
      refine tracks_handleParsed call.order call.router fun hmethod hid => ?_
      rw [toolCallText, AdapterSession.toolCallId_eq hparse hmethod hid]
      rfl

end

section
variable {ι : Type} {texts : ι → Option String} {n : Nat}
  {w : World ι AdapterState AdapterEvent} {stages : ι → ToolStage}
  {admitted : List (ι × String)} {i j : ι} {text : String}

/-- A step of a request lets it in when the key of its id comes into the window. -/
def letIn (texts : ι → Option String) (i : ι) (s s' : AdapterState) : List (ι × String) :=
  match texts i with
  | some text =>
      if replayKey "tools/call" text ∉ s.toolCallReplayGuard.seen ∧
          replayKey "tools/call" text ∈ s'.toolCallReplayGuard.seen then [(i, text)] else []
  | none => []

theorem letIn_of_eq {s s' : AdapterState} (h : s'.toolCallReplayGuard = s.toolCallReplayGuard) :
    letIn texts i s s' = [] := by
  unfold letIn
  split
  · rw [h, if_neg (fun hseen => hseen.1 hseen.2)]
  · rfl

theorem letIn_enter {s s' : AdapterState} (htext : texts i = some text)
    (hfresh : replayKey "tools/call" text ∉ s.toolCallReplayGuard.seen)
    (hseen : replayKey "tools/call" text ∈ s'.toolCallReplayGuard.seen) :
    letIn texts i s s' = [(i, text)] := by
  unfold letIn
  rw [htext]
  exact if_pos ⟨hfresh, hseen⟩

/-- After the first of two requests and before the second the window has let in these others, the
last of them right before the second. -/
def LetInBetween (admitted : List (ι × String)) (first second : ι × String)
    (others : List (ι × String)) : Prop :=
  ∃ front skipped back, admitted = front ++ first :: (skipped ++ (others ++ second :: back))

/-- The keys under which the window has let requests in. -/
def admittedKeys (admitted : List (ι × String)) : List String :=
  admitted.map fun entry => replayKey "tools/call" entry.2

/-- The requests that a thread has run tools for. -/
def toolRuns [DecidableEq ι] (w : World ι AdapterState AdapterEvent) (i : ι) : Nat :=
  (w.eventsOf i).countP AdapterEvent.isToolRun

variable [DecidableEq ι]

/-- The window has let these requests in, in this order; they alone may run a tool. -/
structure Admits (texts : ι → Option String) (n : Nat) (admitted : List (ι × String))
    (w : World ι AdapterState AdapterEvent) (stages : ι → ToolStage) : Prop where
  size : w.state.toolCallReplayGuard.maxEntries = n
  window : w.state.toolCallReplayGuard.Window (admittedKeys admitted)
  spaced : RequestReplayGuard.Spaced n (admittedKeys admitted)
  once : (admitted.map Prod.fst).Nodup
  named : ∀ entry ∈ admitted, texts entry.1 = some entry.2
  entered : ∀ i, (∃ text, (i, text) ∈ admitted) ↔ stages i ≠ .waiting
  runs : ∀ i, toolRuns w i = if stages i = .ran then 1 else 0

theorem toolRuns_after (w : World ι AdapterState AdapterEvent) (i j : ι)
    (update : AdapterState → AdapterState) (emit : AdapterState → List AdapterEvent) :
    toolRuns (w.after i update emit) j =
      toolRuns w j + if j = i then (emit w.state).countP AdapterEvent.isToolRun else 0 := by
  unfold toolRuns
  split
  · next heq =>
      subst heq
      rw [World.eventsOf_after, List.countP_append]
  · next hne => rw [World.eventsOf_after_of_ne _ (Ne.symm hne), Nat.add_zero]

/-- A request that is let in is the last that the window has let in. -/
theorem Admits.enter (h : Admits texts n admitted w stages) (hn : 0 < n) {s' : AdapterState}
    (htext : texts i = some text)
    (hfresh : replayKey "tools/call" text ∉ w.state.toolCallReplayGuard.seen)
    (hguard : s'.toolCallReplayGuard =
      (w.state.toolCallReplayGuard.checkAndRecord (replayKey "tools/call" text)).2) :
    s'.toolCallReplayGuard.maxEntries = n ∧
      s'.toolCallReplayGuard.Window (admittedKeys (admitted ++ [(i, text)])) ∧
      letIn texts i w.state s' = [(i, text)] := by
  have hsize : s'.toolCallReplayGuard.maxEntries = n := by
    rw [hguard, RequestReplayGuard.maxEntries_checkAndRecord, h.size]
  have hwindow : s'.toolCallReplayGuard.Window
      (admittedKeys admitted ++ [replayKey "tools/call" text]) := by
    rw [hguard]
    exact h.window.record hfresh
  refine ⟨hsize, ?_, letIn_enter htext hfresh ?_⟩
  · rw [admittedKeys, List.map_append]
    exact hwindow
  · obtain ⟨m, rfl⟩ := Nat.exists_eq_add_of_lt hn
    rw [hwindow.mem_seen_iff, hsize, Nat.zero_add, List.rtake_concat_succ]
    exact List.mem_append_right _ List.mem_cons_self

/-- A step that lets no request in. -/
theorem Admits.passed (h : Admits texts n admitted w stages) {stage : ToolStage}
    {update : AdapterState → AdapterState} {emit : AdapterState → List AdapterEvent}
    (hguard : (update w.state).toolCallReplayGuard = w.state.toolCallReplayGuard)
    (hentered : stage ≠ .waiting ↔ stages i ≠ .waiting)
    (hruns : (if stages i = .ran then 1 else 0) +
      (emit w.state).countP AdapterEvent.isToolRun = if stage = .ran then 1 else 0) :
    Admits texts n (admitted ++ letIn texts i w.state (update w.state)) (w.after i update emit)
      (Function.update stages i stage) := by
  have hstate : (w.after i update emit).state = update w.state := rfl
  rw [letIn_of_eq hguard, List.append_nil]
  refine ⟨?_, ?_, h.spaced, h.once, h.named, fun j => ?_, fun j => ?_⟩
  · rw [hstate, hguard, h.size]
  · rw [hstate, hguard]
    exact h.window
  · rw [h.entered]
    by_cases hj : j = i
    · subst hj
      rw [Function.update_self, hentered]
    · rw [Function.update_of_ne hj]
  · rw [toolRuns_after, h.runs]
    by_cases hj : j = i
    · subst hj
      rw [Function.update_self, if_pos rfl, hruns]
    · rw [Function.update_of_ne hj, if_neg hj, Nat.add_zero]

/-- A step that lets a request in. -/
theorem Admits.entering (h : Admits texts n admitted w stages) (hn : 0 < n)
    {update : AdapterState → AdapterState} {emit : AdapterState → List AdapterEvent}
    (hwaiting : stages i = .waiting) (htext : texts i = some text)
    (hfresh : replayKey "tools/call" text ∉ w.state.toolCallReplayGuard.seen)
    (hguard : (update w.state).toolCallReplayGuard =
      (w.state.toolCallReplayGuard.checkAndRecord (replayKey "tools/call" text)).2)
    (hevents : emit w.state = []) :
    Admits texts n (admitted ++ letIn texts i w.state (update w.state)) (w.after i update emit)
      (Function.update stages i .admitted) := by
  obtain ⟨hsize, hwindow, hlet⟩ := h.enter hn htext hfresh hguard
  have hnew : i ∉ admitted.map Prod.fst := by
    intro hmem
    obtain ⟨⟨_, text⟩, hentry, rfl⟩ := List.mem_map.mp hmem
    exact (h.entered _).mp ⟨text, hentry⟩ hwaiting
  rw [hlet]
  refine ⟨hsize, hwindow, ?_, ?_, ?_, fun j => ?_, fun j => ?_⟩
  · rw [admittedKeys, List.map_append]
    refine h.spaced.concat ?_
    rw [← h.size, ← h.window.mem_seen_iff]
    exact hfresh
  · rw [List.map_append, List.map_singleton, ← List.concat_eq_append]
    exact h.once.concat hnew
  · intro entry hentry
    obtain hentry | hentry := List.mem_append.mp hentry
    · exact h.named entry hentry
    · rw [List.mem_singleton.mp hentry]
      exact htext
  · by_cases hj : j = i
    · subst hj
      rw [Function.update_self]
      exact iff_of_true ⟨text, List.mem_append_right _ List.mem_cons_self⟩ nofun
    · rw [Function.update_of_ne hj, ← h.entered j]
      simp [hj]
  · rw [toolRuns_after, hevents, List.countP_nil, ite_self, Nat.add_zero, h.runs]
    by_cases hj : j = i
    · subst hj
      rw [Function.update_self, hwaiting]
      rfl
    · rw [Function.update_of_ne hj]

theorem Admits.moved (h : Admits texts n admitted w stages) (hn : 0 < n) {stage : ToolStage}
    {update : AdapterState → AdapterState} {emit : AdapterState → List AdapterEvent}
    (hmove : ToolMove (texts i) (stages i) w.state (update w.state) (emit w.state) stage) :
    Admits texts n (admitted ++ letIn texts i w.state (update w.state)) (w.after i update emit)
      (Function.update stages i stage) := by
  generalize hstage : stages i = before at hmove
  generalize hevents : emit w.state = events at hmove
  cases hmove with
  | idle hidle =>
      have hnone : events.countP AdapterEvent.isToolRun = 0 := by
        rw [List.countP_eq_zero]
        intro event hmem
        rw [hidle.2 event hmem]
        exact Bool.false_ne_true
      refine h.passed hidle.1 (by rw [hstage]) ?_
      rw [hstage, hevents, hnone, Nat.add_zero]
  | enter htext hfresh hrecord => exact h.entering hn hstage htext hfresh hrecord hevents
  | run call hrecord =>
      refine h.passed hrecord (by rw [hstage]; exact iff_of_true nofun nofun) ?_
      rw [hstage, hevents]
      rfl

/-- Between two requests with one id text the window has let in as many others as it has room
for. -/
theorem Admits.others {front middle back : List (ι × String)}
    (h : Admits texts n (front ++ (i, text) :: (middle ++ (j, text) :: back)) w stages) :
    ∃ others, LetInBetween (front ++ (i, text) :: (middle ++ (j, text) :: back)) (i, text)
        (j, text) others ∧
      others.length = n ∧ (others.map Prod.snd).Nodup ∧ ∀ entry ∈ others, entry.2 ≠ text := by
  have hspaced := h.spaced
  simp only [admittedKeys, List.map_append, List.map_cons] at hspaced
  obtain ⟨hlength, hnodup, hnot⟩ := hspaced.between
  have hkeys : (middle.map fun entry => replayKey "tools/call" entry.2).rtake n =
      (middle.rtake n).map fun entry => replayKey "tools/call" entry.2 := by
    rw [List.rtake, List.rtake, List.length_map, List.map_drop]
  rw [hkeys] at hnodup hnot
  have hmiddle : middle.take (middle.length - n) ++ middle.rtake n = middle :=
    List.take_append_drop _ _
  refine ⟨middle.rtake n, ⟨front, middle.take (middle.length - n), back, ?_⟩, ?_, ?_, ?_⟩
  · rw [← List.append_assoc, hmiddle]
  · rw [List.length_map] at hlength
    rw [Recent.length_rtake, Nat.min_eq_left hlength]
  · have hsplit : (middle.rtake n).map (fun entry => replayKey "tools/call" entry.2) =
        ((middle.rtake n).map Prod.snd).map (replayKey "tools/call") := by
      rw [List.map_map]
      rfl
    rw [hsplit] at hnodup
    exact hnodup.of_map _
  · intro entry hentry hsame
    refine hnot ?_
    rw [← hsame]
    exact List.mem_map_of_mem hentry

/-- One of two requests with one id text was let in first. -/
theorem Admits.apart (h : Admits texts n admitted w stages) (hne : i ≠ j)
    (hi : (i, text) ∈ admitted) (hj : (j, text) ∈ admitted) :
    ∃ others, (LetInBetween admitted (i, text) (j, text) others ∨
        LetInBetween admitted (j, text) (i, text) others) ∧
      others.length = n ∧ (others.map Prod.snd).Nodup ∧ ∀ entry ∈ others, entry.2 ≠ text := by
  obtain ⟨front, back, rfl⟩ := List.append_of_mem hi
  obtain hj | hj := List.mem_append.mp hj
  · obtain ⟨front', middle, rfl⟩ := List.append_of_mem hj
    rw [List.append_assoc, List.cons_append] at h ⊢
    obtain ⟨others, hbetween, hothers⟩ := h.others
    exact ⟨others, .inr hbetween, hothers⟩
  · obtain hsame | hj := List.mem_cons.mp hj
    · exact absurd (congrArg Prod.fst hsame).symm hne
    · obtain ⟨middle, back', rfl⟩ := List.append_of_mem hj
      obtain ⟨others, hbetween, hothers⟩ := h.others
      exact ⟨others, .inl hbetween, hothers⟩

theorem Admits.letIn_of_run (h : Admits texts n admitted w stages) (hrun : toolRuns w i = 1) :
    ∃ text, (i, text) ∈ admitted := by
  refine (h.entered i).mpr fun hwaiting => ?_
  rw [h.runs, hwaiting] at hrun
  cases hrun

theorem Admits.mem_of_run (h : Admits texts n admitted w stages) (hrun : toolRuns w i = 1)
    (htext : texts i = some text) : (i, text) ∈ admitted := by
  obtain ⟨text', hmem⟩ := h.letIn_of_run hrun
  have hnamed : texts i = some text' := h.named _ hmem
  rw [hnamed] at htext
  exact Option.some.inj htext ▸ hmem

end

/-- However requests to one adapter overlap, each runs one tool at most, and only as a call of a
tool with an id that the window let in. Two requests with the same id text both run one only if,
after the one and before the other, the window has let in as many requests with other ids, all
different, as it has room for. -/
theorem tool_runs_once {ι : Type} [DecidableEq ι] (codec : JsonCodec) (adapter : CompleteMcpAdapter)
    (calls : ι → RequestCall) (resources : ResourceRegistry) (roots : List Root)
    (resourceTemplates : List ResourceTemplate) (schedule : List ι) :
    let pool := requests codec adapter calls (.new resources roots resourceTemplates)
    let w := (pool.run schedule).world
    let admitted := pool.observed (letIn fun i => toolCallText codec adapter (calls i)) schedule
    (∀ i, toolRuns w i ≤ 1) ∧
      (admitted.map Prod.fst).Nodup ∧
      (∀ entry ∈ admitted, toolCallText codec adapter (calls entry.1) = some entry.2) ∧
      (∀ i, toolRuns w i = 1 → ∃ text, (i, text) ∈ admitted) ∧
      ∀ i j text, i ≠ j → toolRuns w i = 1 → toolRuns w j = 1 →
        toolCallText codec adapter (calls i) = some text →
        toolCallText codec adapter (calls j) = some text →
        ∃ others, (LetInBetween admitted (i, text) (j, text) others ∨
            LetInBetween admitted (j, text) (i, text) others) ∧
          others.length = defaultRequestReplayWindow ∧ (others.map Prod.snd).Nodup ∧
          ∀ entry ∈ others, entry.2 ≠ text := by
  intro pool w admitted
  let texts : ι → Option String := fun i => toolCallText codec adapter (calls i)
  have hstart : Admits texts defaultRequestReplayWindow [] pool.world fun _ => .waiting := by
    refine ⟨rfl, RequestReplayGuard.window_new _, RequestReplayGuard.spaced_nil _, List.nodup_nil,
      ?_, ?_, ?_⟩
    · exact fun _ hmem => absurd hmem List.not_mem_nil
    · exact fun i => iff_of_false (fun ⟨_, hmem⟩ => List.not_mem_nil hmem) (fun h => h rfl)
    · exact fun _ => rfl
  obtain ⟨stages, hadmits, -⟩ := Pool.tracked
    (fun i => tracks_handleRequest (calls i)) hstart (fun i s => letIn_of_eq rfl)
    (fun seen w stages i stage update emit h hmove => h.moved (by decide) hmove) schedule
  rw [List.nil_append] at hadmits
  refine ⟨?_, hadmits.once, hadmits.named, fun i hrun => hadmits.letIn_of_run hrun, ?_⟩
  · intro i
    rw [hadmits.runs]
    split <;> omega
  · intro i j text hne hi hj hitext hjtext
    exact hadmits.apart hne (hadmits.mem_of_run hi hitext) (hadmits.mem_of_run hj hjtext)

end CompleteMcpAdapter
end Dcp
