import Dcp.Compat.PromptRendering
import Dcp.Compat.Session
import Dcp.Library.Run

/-!
What the complete adapter reveals about tools and prompts that were not negotiated: nothing. Two
adapters that agree on what was negotiated are run side by side. A name is looked up, then the
capability is checked, and only then anything else is looked at, so a name that is registered
without being negotiated and a name that is not registered end in the same refusal. Only the order
in which a run goes through the arguments of a prompt shows, and it shows between equal adapters.
-/

namespace Dcp
open Library

/-- The adapters agree on everything that the manifest offers. -/
structure AgreeOnNegotiated (m : CapabilityManifest) (a b : CompleteMcpAdapter) : Prop where
  versions : a.versionNegotiator = b.versionNegotiator
  limit : a.maxRequestSize = b.maxRequestSize
  tools : ∀ name id, m.hasTool id = true →
    (a.toolCache.lookup name = some id ↔ b.toolCache.lookup name = some id)
  prompts : ∀ name id, m.hasPrompt id = true →
    (a.promptIds.lookup name = some id ↔ b.promptIds.lookup name = some id)
  templates : ∀ name id, m.hasPrompt id = true → a.promptIds.lookup name = some id →
    a.prompts.lookup name = b.prompts.lookup name

theorem AgreeOnNegotiated.refl (m : CapabilityManifest) (adapter : CompleteMcpAdapter) :
    AgreeOnNegotiated m adapter adapter :=
  ⟨rfl, rfl, fun _ _ _ => Iff.rfl, fun _ _ _ => Iff.rfl, fun _ _ _ _ => rfl⟩

/-- The same text and order of maps, and routers that agree on what the manifest offers. -/
structure SameCall (m : CapabilityManifest) (call call' : RequestCall) : Prop where
  json : call.json = call'.json
  order : call.order = call'.order
  handlers : ∀ id, m.hasTool id = true → call.router.dispatch id = call'.router.dispatch id

/-- An initialize was accepted, and the manifest is the one it negotiated. -/
structure Negotiated (m : CapabilityManifest) (s : AdapterState) : Prop where
  initializeSeen : s.initializeSeen = true
  manifest : s.negotiatedManifest = m

namespace CompleteMcpAdapter

/-- Lists of what is offered, the answers of two adapters to one request, that differ in their
order. -/
inductive Reordered (codec : JsonCodec) (request : JsonRpcRequest) : String → String → Prop
  | listed {key text text' : String} {entries entries' : List Value}
      (hkey : key = "tools" ∨ key = "prompts") (hmethod : request.method = key ++ "/list")
      (hperm : entries.Perm entries')
      (htext : formatSuccess codec request.id (.object [(key, .array entries)]) = .ok text)
      (htext' : formatSuccess codec request.id (.object [(key, .array entries')]) = .ok text') :
      Reordered codec request text text'

/-- The same result, or texts that are lists in another order. -/
def SameUpToOrder {α : Type} (codec : JsonCodec) (request : JsonRpcRequest) (wrap : String → α)
    (result result' : Except CompleteAdapterError α) : Prop :=
  result = result' ∨ ∃ text text', Reordered codec request text text' ∧
    result = .ok (wrap text) ∧ result' = .ok (wrap text')

/-- The same response to a text, up to the order of a list. -/
def SameResponse (codec : JsonCodec) (adapter : CompleteMcpAdapter) (json : String)
    (result result' : Except CompleteAdapterError (Option String)) : Prop :=
  result = result' ∨ ∃ request, adapter.parseRequest codec json = .ok request ∧
    SameUpToOrder codec request some result result'

section
variable {m : CapabilityManifest} {α β : Type}

/-- Programs of the two adapters that run alike from one state in which `m` was negotiated. -/
def Twins (m : CapabilityManifest)
    (rel : Except CompleteAdapterError α → Except CompleteAdapterError α → Prop)
    (p q : Handler α) : Prop :=
  p.Alike (fun s s' => s = s' ∧ Negotiated m s) rel q

/-- What was negotiated stays so. -/
def Keeps (m : CapabilityManifest) (p : Handler α) : Prop :=
  p.Ensures (fun s s' _ => Negotiated m s → Negotiated m s') fun _ => True

theorem Keeps.twins {p : Handler α} (h : Keeps m p) : Twins m (· = ·) p p := Prog.Alike.refl h

theorem Twins.bind {p q : Handler α} {k l : α → Handler β}
    {rel : Except CompleteAdapterError β → Except CompleteAdapterError β → Prop}
    (h : Twins m (· = ·) p q) (hk : ∀ a, Twins m rel (k a) (l a))
    (herror : ∀ e, rel (.error e) (.error e)) : Twins m rel (p >>= k) (q >>= l) := by
  refine Prog.Alike.andThen h ?_
  rintro result _ rfl
  cases result with
  | ok a => exact hk a
  | error e => exact Prog.alike_done (herror e)

theorem Keeps.bind {p : Handler α} {k : α → Handler β} (hp : Keeps m p)
    (hk : ∀ a, Keeps m (k a)) : Keeps m (p >>= k) :=
  Prog.Ensures.seq hp (fun _ => trivial) hk

theorem keeps_of_lifecycle {s s' : AdapterState} (h : s'.lifecycle = s.lifecycle)
    (hs : Negotiated m s) : Negotiated m s' :=
  ⟨(congrArg Lifecycle.initializeSeen h).trans hs.initializeSeen,
    (congrArg Lifecycle.negotiatedManifest h).trans hs.manifest⟩

theorem Silent.keeps {p : Handler α} (h : Silent p) : Keeps m p :=
  h.mono (fun _ _ _ hstep => keeps_of_lifecycle hstep.1) fun _ _ => trivial

/-- The same refusal, whatever else the state is. -/
def Refused (m : CapabilityManifest) (error : CompleteAdapterError) (p : Handler α) : Prop :=
  ∀ s, Negotiated m s → p.run s = (.error error, s, [])

theorem Refused.twins {p q : Handler α} {error : CompleteAdapterError}
    {rel : Except CompleteAdapterError α → Except CompleteAdapterError α → Prop}
    (hp : Refused m error p) (hq : Refused m error q) (herror : ∀ e, rel (.error e) (.error e)) :
    Twins m rel p q := by
  rintro s _ ⟨rfl, hs⟩
  rw [hp s hs, hq s hs]
  exact ⟨herror _, ⟨rfl, hs⟩, rfl⟩

theorem Refused.bind {p : Handler α} {error : CompleteAdapterError} (h : Refused m error p)
    (k : α → Handler β) : Refused m error (p >>= k) := by
  intro s hs
  rw [Prog.bind_def, Prog.run_andThen, h s hs]
  rfl

theorem refused_ensure {condition : Prop} [Decidable condition] (h : ¬ condition)
    (error : CompleteAdapterError) : Refused m error (ensure condition error) := by
  intro s _
  rw [ensure, if_neg h]
  rfl

/-- Once an initialize was accepted, no other one is. -/
theorem refused_passInitializeOnce :
    Refused m (.invalidRequest "already initialized") passInitializeOnce := by
  intro s hs
  have hstate : { s with initializeSeen := true } = s := by rw [← hs.initializeSeen]
  simp only [passInitializeOnce, Prog.act, Prog.run, hs.initializeSeen, hstate]
  rfl

theorem twins_readManifest :
    Twins m (fun result result' => result = .ok m ∧ result' = .ok m) readManifest readManifest := by
  rintro s _ ⟨rfl, hs⟩
  have hresult : (readManifest.run s).1 = .ok m := congrArg Except.ok hs.manifest
  exact ⟨⟨hresult, hresult⟩, ⟨rfl, hs⟩, rfl⟩

/-- A program that goes on with the manifest. -/
theorem twins_manifest {k l : CapabilityManifest → Handler α}
    {rel : Except CompleteAdapterError α → Except CompleteAdapterError α → Prop}
    (h : Twins m rel (k m) (l m)) : Twins m rel (readManifest >>= k) (readManifest >>= l) := by
  refine Prog.Alike.andThen twins_readManifest ?_
  rintro _ _ ⟨rfl, rfl⟩
  exact h

theorem refused_manifest {k : CapabilityManifest → Handler α} {error : CompleteAdapterError}
    (h : Refused m error (k m)) : Refused m error (readManifest >>= k) := by
  intro s hs
  have hmanifest : (readManifest >>= k).run s = (k s.negotiatedManifest).run s := rfl
  rw [hmanifest, hs.manifest]
  exact h s hs

theorem refused_requireToolCapability {id : UInt16} (h : m.hasTool id = false) :
    Refused m .capabilityDenied (requireToolCapability id) := by
  apply refused_manifest
  intro s _
  simp only [CapabilityManifest.requireTool, h]
  rfl

/-- A name leads to one id that is offered, or it is refused on both sides. -/
theorem twins_lookup {k l : UInt16 → Handler α} {table table' : Table String UInt16}
    {name : String} {has : UInt16 → Bool}
    {rel : Except CompleteAdapterError α → Except CompleteAdapterError α → Prop}
    (hagree : ∀ id, has id = true → (table.lookup name = some id ↔ table'.lookup name = some id))
    (hk : ∀ id, has id = false → Refused m .capabilityDenied (k id))
    (hl : ∀ id, has id = false → Refused m .capabilityDenied (l id))
    (hsame : ∀ id, has id = true → table.lookup name = some id → Twins m rel (k id) (l id))
    (herror : ∀ e, rel (.error e) (.error e)) :
    Twins m rel (expect (table.lookup name) .capabilityDenied >>= k)
      (expect (table'.lookup name) .capabilityDenied >>= l) := by
  have hrefused : ∀ (table : Table String UInt16) (k : UInt16 → Handler α),
      (∀ id, has id = false → Refused m .capabilityDenied (k id)) →
      (∀ id, has id = true → table.lookup name ≠ some id) →
      Refused m .capabilityDenied (expect (table.lookup name) .capabilityDenied >>= k) := by
    intro table k hk hnone s hs
    cases hlookup : table.lookup name with
    | none => rfl
    | some id =>
        have hdenied : has id = false := by
          by_contra hhas
          exact hnone id (by simpa using hhas) hlookup
        exact hk id hdenied s hs
  by_cases hfound : ∃ id, has id = true ∧ table.lookup name = some id
  · obtain ⟨id, hhas, hlookup⟩ := hfound
    rw [hlookup, (hagree id hhas).mp hlookup]
    exact hsame id hhas hlookup
  · have hnone : ∀ id, has id = true → table.lookup name ≠ some id :=
      fun id hhas hlookup => hfound ⟨id, hhas, hlookup⟩
    exact (hrefused table k hk hnone).twins
      (hrefused table' l hl fun id hhas hlookup => hnone id hhas ((hagree id hhas).mpr hlookup))
      herror

end

section
variable {m : CapabilityManifest} {codec : JsonCodec} {request : JsonRpcRequest}

theorem SameUpToOrder.of_eq {α : Type} {wrap : String → α}
    {result result' : Except CompleteAdapterError α} (h : result = result') :
    SameUpToOrder codec request wrap result result' :=
  .inl h

/-- A program that both adapters run. -/
theorem Keeps.same {α : Type} {wrap : String → α} {p : Handler α} (h : Keeps m p) :
    Twins m (SameUpToOrder codec request wrap) p p :=
  h.twins.mono fun _ _ => .of_eq

/-- After a first part that both adapters run, the same error or the rest. -/
theorem Silent.same {α β : Type} {wrap : String → β} {p : Handler α} {k l : α → Handler β}
    (h : Silent p) (hk : ∀ a, Twins m (SameUpToOrder codec request wrap) (k a) (l a)) :
    Twins m (SameUpToOrder codec request wrap) (p >>= k) (p >>= l) :=
  h.keeps.twins.bind hk fun _ => .of_eq rfl

theorem twins_respond {p q : Handler String}
    (h : Twins m (SameUpToOrder codec request id) p q) :
    Twins m (SameUpToOrder codec request some) (respond p) (respond q) := by
  refine Prog.Alike.andThen h ?_
  intro result result' hsame
  obtain rfl | ⟨text, text', hlists, rfl, rfl⟩ := hsame
  · cases result with
    | ok text => exact Prog.alike_done (.of_eq rfl)
    | error e => exact Prog.alike_done (.of_eq rfl)
  · exact Prog.alike_done (.inr ⟨text, text', hlists, rfl, rfl⟩)

/-- Lists with the same entries. -/
theorem twins_listed {maxDepth : Nat} (hcodec : codec.Lawful maxDepth) (hvalid : request.id.Valid)
    {key : String} (hkey : key = "tools" ∨ key = "prompts")
    (hmethod : request.method = key ++ "/list") {entries entries' : List Value}
    (hperm : entries.Perm entries') (hplain : (Value.array entries).plain = true)
    (hplain' : (Value.array entries').plain = true) :
    Twins m (SameUpToOrder codec request id)
      (.lift (formatSuccess codec request.id (.object [(key, .array entries)])))
      (.lift (formatSuccess codec request.id (.object [(key, .array entries')]))) := by
  have hformat : ∀ {entries : List Value}, (Value.array entries).plain = true → ∃ text,
      formatSuccess codec request.id (.object [(key, .array entries)]) = .ok text := by
    intro entries hplain
    have hobject := Value.plain_object_single key hplain
    obtain ⟨text, htext⟩ := (OwnResponse.success hobject).format hcodec hvalid
    exact ⟨text, mapError_eq_ok_iff.mpr htext⟩
  obtain ⟨text, htext⟩ := hformat hplain
  obtain ⟨text', htext'⟩ := hformat hplain'
  refine Prog.alike_done (.inr ⟨text, text', ?_, htext, htext'⟩)
  exact .listed hkey hmethod hperm htext htext'

end

end CompleteMcpAdapter

namespace AgreeOnNegotiated
open CompleteMcpAdapter
variable {m : CapabilityManifest} {a b : CompleteMcpAdapter} {ra rb : BinaryTrieRouter}
  {codec : JsonCodec} {request : JsonRpcRequest}

/-- A second initialize is refused, for the same reason. -/
theorem handleInitialize (h : AgreeOnNegotiated m a b) (hmethod : request.method = "initialize")
    (hid : request.isNotification = false) :
    Twins m (SameUpToOrder codec request id) (a.handleInitialize codec request)
      (b.handleInitialize codec request) := by
  have hparams : a.initializeParams request.params = b.initializeParams request.params := by
    simp only [initializeParams, h.versions]
  refine (silent_requireRequestMethod hmethod hid).same fun _ => ?_
  rw [hparams]
  refine (silent_lift _).same fun _ => ?_
  exact (refused_passInitializeOnce.bind _).twins (refused_passInitializeOnce.bind _)
    fun _ => .of_eq rfl

/-- A tool that is offered is called alike. -/
theorem callTool_eq {id : UInt16} (h : ra.dispatch id = rb.dispatch id) (arguments : Option Value) :
    callTool codec ra request id arguments = callTool codec rb request id arguments := by
  have hschema : ra.toolSchema id = rb.toolSchema id := by
    rw [BinaryTrieRouter.toolSchema, h, BinaryTrieRouter.toolSchema]
  have hrun : ∀ capabilities args,
      runTool ra capabilities id args = runTool rb capabilities id args := by
    intro capabilities args
    have hexec : ∀ calls, ra.executeAuthorized capabilities id args calls =
        rb.executeAuthorized capabilities id args calls :=
      executeAuthorized_congr (fun _ => h) args
    simp only [runTool, hexec]
  simp only [callTool, hschema, hrun]

theorem keeps_audit (action : SecurityAuditAction) (reason : String) :
    Keeps m (auditRequest action reason request) :=
  Prog.ensures_act (fun _ hs => hs) fun _ => trivial

theorem keeps_callTool (router : BinaryTrieRouter) (toolId : UInt16) (arguments : Option Value) :
    Keeps m (callTool codec router request toolId arguments) := by
  refine (silent_expect _ _).keeps.bind fun schema => (silent_lift _).keeps.bind fun encoded => ?_
  have hrecord : Keeps m (recordToolCallRequestId request) := by
    unfold recordToolCallRequestId
    split
    · exact (silent_pure _).keeps
    · exact Prog.ensures_act (fun _ hs => ⟨hs.1, hs.2⟩) fun _ => trivial
  refine hrecord.bind fun fresh => ?_
  split
  · exact (keeps_audit _ _).bind fun _ => (silent_lift _).keeps
  · refine silent_readManifest.keeps.bind fun capabilities => ?_
    have hrun : Keeps m (runTool router capabilities toolId ⟨encoded.1, encoded.2⟩) :=
      Prog.ensures_act (fun _ hs => ⟨hs.1, hs.2⟩) fun _ => trivial
    exact hrun.bind fun _ => (silent_lift _).keeps

theorem handleToolsCall (h : AgreeOnNegotiated m a b)
    (hrouter : ∀ id, m.hasTool id = true → ra.dispatch id = rb.dispatch id)
    (hmethod : request.method = "tools/call") (hid : request.isNotification = false) :
    Twins m (SameUpToOrder codec request id) (a.handleToolsCall codec ra request)
      (b.handleToolsCall codec rb request) := by
  refine (silent_requireRequestMethod hmethod hid).same fun _ => ?_
  refine (silent_requireInitializedForMethod request).same fun _ => ?_
  refine (silent_lift _).same fun target => ?_
  refine twins_lookup (h.tools target.1)
    (fun id hdenied => (refused_requireToolCapability hdenied).bind _)
    (fun id hdenied => (refused_requireToolCapability hdenied).bind _) (fun id hhas _ => ?_)
    fun _ => .of_eq rfl
  rw [callTool_eq (hrouter id hhas)]
  exact ((silent_requireToolCapability id).keeps.bind fun _ => keeps_callTool _ _ _).same

theorem allowedTools_perm (h : AgreeOnNegotiated m a b)
    (hrouter : ∀ id, m.hasTool id = true → ra.dispatch id = rb.dispatch id) :
    (a.allowedTools ra m).Perm (b.allowedTools rb m) := by
  have hentries : (a.toolCache.toPairs.filter fun entry => m.hasTool entry.2).Perm
      (b.toolCache.toPairs.filter fun entry => m.hasTool entry.2) :=
    Table.filter_toPairs_perm fun name id hhas => h.tools name id hhas
  have hentry : ∀ entry ∈ a.toolCache.toPairs.filter fun entry => m.hasTool entry.2,
      toolEntry ra entry.1 entry.2 = toolEntry rb entry.1 entry.2 := by
    intro entry hentry
    have hdispatch := hrouter entry.2 (List.mem_filter.mp hentry).2
    simp only [toolEntry, BinaryTrieRouter.toolSchema, hdispatch]
  rw [allowedTools, List.map_congr_left hentry]
  exact hentries.map _

theorem handleToolsList {maxDepth : Nat} (hcodec : codec.Lawful maxDepth)
    (hvalid : request.id.Valid) (h : AgreeOnNegotiated m a b)
    (hrouter : ∀ id, m.hasTool id = true → ra.dispatch id = rb.dispatch id)
    (hmethod : request.method = "tools/list") (hid : request.isNotification = false) :
    Twins m (SameUpToOrder codec request id) (a.handleToolsList codec ra request)
      (b.handleToolsList codec rb request) := by
  refine (silent_requireRequestMethod hmethod hid).same fun _ => ?_
  refine (silent_requireInitializedForMethod request).same fun _ => ?_
  refine (silent_lift _).same fun _ => silent_requireAnyToolCapability.same fun _ => ?_
  apply twins_manifest
  exact twins_listed hcodec hvalid (.inl rfl) hmethod (h.allowedTools_perm hrouter)
    (plain_allowedTools a ra m) (plain_allowedTools b rb m)

theorem allowedPrompts_perm (h : AgreeOnNegotiated m a b) :
    (a.allowedPrompts m).Perm (b.allowedPrompts m) := by
  have hoffered : ∀ name, (a.promptIds.lookup name).any m.hasPrompt =
      (b.promptIds.lookup name).any m.hasPrompt := by
    intro name
    rw [Bool.eq_iff_iff, Option.any_eq_true, Option.any_eq_true]
    constructor
    · rintro ⟨id, hlookup, hhas⟩
      exact ⟨id, (h.prompts name id hhas).mp hlookup, hhas⟩
    · rintro ⟨id, hlookup, hhas⟩
      exact ⟨id, (h.prompts name id hhas).mpr hlookup, hhas⟩
  simp only [allowedPrompts, ← hoffered]
  refine (Table.filter_toPairs_perm ?_).map _
  intro name template hallowed
  obtain ⟨id, hlookup, hhas⟩ := (Option.any_eq_true _ _).mp hallowed
  rw [h.templates name id hhas hlookup]

theorem handlePromptsList {maxDepth : Nat} (hcodec : codec.Lawful maxDepth)
    (hvalid : request.id.Valid) (h : AgreeOnNegotiated m a b)
    (hmethod : request.method = "prompts/list") (hid : request.isNotification = false) :
    Twins m (SameUpToOrder codec request id) (a.handlePromptsList codec request)
      (b.handlePromptsList codec request) := by
  refine (silent_requireRequestMethod hmethod hid).same fun _ => ?_
  refine (silent_requireInitializedForMethod request).same fun _ => ?_
  refine (silent_lift _).same fun _ => silent_requireAnyPromptCapability.same fun _ => ?_
  apply twins_manifest
  exact twins_listed hcodec hvalid (.inr rfl) hmethod h.allowedPrompts_perm
    (plain_allowedPrompts a m) (plain_allowedPrompts b m)

/-- The template of a prompt that is offered, or the refusal. -/
theorem negotiatedPrompt (h : AgreeOnNegotiated m a b) (name : String) :
    Twins m (· = ·) (a.negotiatedPrompt name) (b.negotiatedPrompt name) := by
  have hrefused : ∀ (adapter : CompleteMcpAdapter) (id : UInt16), m.hasPrompt id = false →
      Refused m .capabilityDenied (do
        let negotiated ← readManifest
        ensure (negotiated.hasPrompt id) .capabilityDenied
        expect (adapter.prompts.lookup name) (.promptError "prompt not found")) := by
    intro adapter id hdenied
    exact refused_manifest ((refused_ensure (by simp [hdenied]) _).bind _)
  refine twins_lookup (h.prompts name) (hrefused a) (hrefused b) (fun id hhas hlookup => ?_)
    fun _ => rfl
  rw [h.templates name id hhas hlookup]
  refine (silent_readManifest.keeps.bind fun _ => ?_).twins
  exact (silent_ensure _ _).keeps.bind fun _ => (silent_expect _ _).keeps

theorem handlePromptsGet (h : AgreeOnNegotiated m a b) (order : MapOrder)
    (hmethod : request.method = "prompts/get") (hid : request.isNotification = false) :
    Twins m (SameUpToOrder codec request id) (a.handlePromptsGet codec order request)
      (b.handlePromptsGet codec order request) := by
  refine (silent_requireRequestMethod hmethod hid).same fun _ => ?_
  refine (silent_requireInitializedForMethod request).same fun _ => ?_
  refine (silent_expect _ _).same fun _ => (silent_expect _ _).same fun name => ?_
  refine (h.negotiatedPrompt name).bind (fun template => ?_) fun _ => .of_eq rfl
  refine (silent_lift _).same fun _ => (silent_lift _).same fun _ => ?_
  exact (silent_lift _).keeps.same

theorem completionReference (h : AgreeOnNegotiated m a b) (params : CompletionParams) :
    Twins m (· = ·) (a.completionReference params) (b.completionReference params) := by
  unfold CompleteMcpAdapter.completionReference
  split
  · refine (silent_expect _ _).keeps.twins.bind (fun name => ?_) fun _ => rfl
    exact (h.negotiatedPrompt name).bind (fun _ => (silent_ensure _ _).keeps.twins) fun _ => rfl
  · refine (silent_expect _ _).keeps.twins.bind (fun uri => ?_) fun _ => rfl
    exact ((silent_requireResourceUriCapability uri).keeps.bind fun _ =>
      (silent_requireWithinRoots uri).keeps).twins
  · exact (silent_fail _).keeps.twins

theorem handleCompletionComplete (h : AgreeOnNegotiated m a b)
    (hmethod : request.method = "completion/complete") (hid : request.isNotification = false) :
    Twins m (SameUpToOrder codec request id) (a.handleCompletionComplete codec request)
      (b.handleCompletionComplete codec request) := by
  refine (silent_requireRequestMethod hmethod hid).same fun _ => ?_
  refine (silent_requireInitializedForMethod request).same fun _ => ?_
  refine (silent_lift _).same fun params => ?_
  exact (h.completionReference params).bind (fun _ => (silent_lift _).keeps.same)
    fun _ => .of_eq rfl

/-- The methods whose handlers look at tools or prompts, or at the versions. -/
def looksAtOffers (method : String) : Bool :=
  method ∈ ["initialize", "tools/list", "tools/call", "prompts/list", "prompts/get",
    "completion/complete"]

/-- The handlers of the other methods do not depend on what is registered. -/
theorem dispatchMethod_eq (a b : CompleteMcpAdapter) (order : MapOrder)
    (ra rb : BinaryTrieRouter) (h : looksAtOffers request.method = false) :
    a.dispatchMethod codec order ra request = b.dispatchMethod codec order rb request := by
  unfold CompleteMcpAdapter.dispatchMethod
  -- the methods of the list first, then those whose handlers do not take the adapter
  split
  · next hmethod => exact absurd h (by rw [hmethod]; decide)
  · rfl
  · rfl
  split
  · rfl
  split
  all_goals try next hmethod => rw [hmethod] at h; exact absurd h (by decide)
  all_goals rfl

theorem keeps_dispatchMethod (adapter : CompleteMcpAdapter) (order : MapOrder)
    (router : BinaryTrieRouter) (h : looksAtOffers request.method = false)
    (hid : request.isNotification = false)
    (hmethod : isNotificationOnlyMethod request.method = false) :
    Keeps m (adapter.dispatchMethod codec order router request) := by
  have hcases := dispatched hid codec adapter order router hmethod
  generalize adapter.dispatchMethod codec order router request = p at hcases ⊢
  cases hcases with
  | begins hmethod | toolsCall hmethod =>
      rw [hmethod] at h
      exact absurd h (by decide)
  | serves h => exact h.silent.keeps.bind fun _ => (silent_pure _).keeps
  | refused reason =>
      refine ((keeps_audit _ _).bind fun _ => ?_).bind fun _ => (silent_pure _).keeps
      exact (silent_lift _).keeps

theorem keeps_handleInitialized (hmethod : request.method = "notifications/initialized")
    (hid : request.isNotification = true) : Keeps m (handleInitialized request) := by
  refine (silent_requireInitializedNotification hmethod hid).keeps.bind fun _ => ?_
  refine (silent_ensure _ _).keeps.bind fun _ => (silent_read _).keeps.bind fun _ => ?_
  refine (silent_ensure _ _).keeps.bind fun _ => ?_
  have haccept : Keeps m acceptInitializedOnce :=
    Prog.ensures_act (fun _ hs => ⟨hs.1, hs.2⟩) fun _ => trivial
  exact haccept.bind fun _ => (silent_pure _).keeps

/-- A notification is handled without a look at what is registered. -/
theorem dispatch_notification (a b : CompleteMcpAdapter) (order : MapOrder)
    (ra rb : BinaryTrieRouter) (hid : request.isNotification = true)
    (hmethod : isNotificationOnlyMethod request.method = true) :
    Twins m (SameUpToOrder codec request some) (a.dispatchMethod codec order ra request)
      (b.dispatchMethod codec order rb request) := by
  have hcases : request.method = "notifications/initialized" ∨
      request.method = "notifications/cancelled" := by
    simpa [isNotificationOnlyMethod] using hmethod
  obtain hmethod | hmethod := hcases
  · rw [dispatchMethod_initialized _ _ _ _ hmethod, dispatchMethod_initialized _ _ _ _ hmethod]
    exact (keeps_handleInitialized hmethod hid).same
  · rw [dispatchMethod_cancelled _ _ _ _ hmethod, dispatchMethod_cancelled _ _ _ _ hmethod]
    exact (silent_handleCancelled hmethod hid).keeps.same

theorem looksAtOffers_of_serverToClient (h : isServerToClientRequestMethod request.method = true) :
    looksAtOffers request.method = false := by
  have hcases : request.method = "roots/list" ∨ request.method = "elicitation/create" ∨
      request.method = "sampling/createMessage" := by
    simpa [isServerToClientRequestMethod] using h
  obtain hmethod | hmethod | hmethod := hcases <;> rw [hmethod] <;> decide

theorem dispatchMethod {maxDepth : Nat} (hcodec : codec.Lawful maxDepth)
    (hvalid : request.id.Valid) (h : AgreeOnNegotiated m a b) (order : MapOrder)
    (hrouter : ∀ id, m.hasTool id = true → ra.dispatch id = rb.dispatch id)
    (hid : request.isNotification = false)
    (hmethod : isNotificationOnlyMethod request.method = false) :
    Twins m (SameUpToOrder codec request some) (a.dispatchMethod codec order ra request)
      (b.dispatchMethod codec order rb request) := by
  cases hlooks : looksAtOffers request.method with
  | false =>
      rw [dispatchMethod_eq b a order rb ra hlooks]
      exact (keeps_dispatchMethod a order ra hlooks hid hmethod).same
  | true =>
      unfold CompleteMcpAdapter.dispatchMethod
      split
      all_goals try next hmethod => rw [hmethod] at hlooks; exact absurd hlooks (by decide)
      · next hmethod => exact twins_respond (h.handleInitialize hmethod hid)
      split
      · next hserver => exact absurd hlooks (by simp [looksAtOffers_of_serverToClient hserver])
      split
      all_goals try next hmethod => rw [hmethod] at hlooks; exact absurd hlooks (by decide)
      · next hmethod =>
          exact twins_respond (silent_requireAnyToolCapability.same fun _ =>
            h.handleToolsList hcodec hvalid hrouter hmethod hid)
      · next hmethod => exact twins_respond (h.handleToolsCall hrouter hmethod hid)
      · next hmethod =>
          exact twins_respond (silent_requireAnyPromptCapability.same fun _ =>
            h.handlePromptsList hcodec hvalid hmethod hid)
      · next hmethod =>
          exact twins_respond (silent_requireAnyPromptCapability.same fun _ =>
            h.handlePromptsGet order hmethod hid)
      · next hmethod => exact twins_respond (h.handleCompletionComplete hmethod hid)
      · simp_all [looksAtOffers]

/-- The errors of a handler are answered alike. -/
theorem twins_answerErrors {p q : Handler (Option String)}
    (h : Twins m (SameUpToOrder codec request some) p q) :
    Twins m (SameUpToOrder codec request some) (p.andThen (answerErrors codec request))
      (q.andThen (answerErrors codec request)) := by
  have hrespond : ∀ e, Keeps m (adapterErrorResponse codec request e) :=
    fun e => (keeps_audit _ _).bind fun _ => (silent_lift _).keeps
  have hanswer : ∀ result, Keeps m (answerErrors codec request result) := by
    intro result
    cases result with
    | ok answer =>
        simp only [answerErrors]
        split
        · exact (silent_pure _).keeps
        · exact (silent_pure _).keeps
    | error e =>
        simp only [answerErrors]
        split
        · exact (hrespond e).andThen fun _ _ => trivial
        · exact (hrespond e).bind fun _ => (silent_pure _).keeps
  refine Prog.Alike.andThen h ?_
  intro result result' hsame
  obtain rfl | ⟨text, text', hlists, rfl, rfl⟩ := hsame
  · exact (hanswer result).same
  · simp only [answerErrors]
    split
    · exact Prog.alike_done (.of_eq rfl)
    · exact Prog.alike_done (.inr ⟨text, text', hlists, rfl, rfl⟩)

theorem handleParsed {maxDepth : Nat} (hcodec : codec.Lawful maxDepth)
    (hvalid : request.isNotification = false → request.id.Valid) (h : AgreeOnNegotiated m a b)
    (order : MapOrder) (hrouter : ∀ id, m.hasTool id = true → ra.dispatch id = rb.dispatch id) :
    Twins m (SameUpToOrder codec request some) (a.handleParsed codec order ra request)
      (b.handleParsed codec order rb request) := by
  have hrefuse : ∀ action reason (p : Handler (Option String)), Silent p →
      Keeps m (auditRequest action reason request >>= fun _ => p) :=
    fun _ _ p hp => (keeps_audit _ _).bind fun _ => hp.keeps
  unfold CompleteMcpAdapter.handleParsed
  split
  · refine (hrefuse _ _ _ ?_).same
    split
    · exact silent_pure _
    · exact silent_lift _
  split
  · exact (hrefuse _ _ _ (silent_pure _)).same
  split
  · exact (hrefuse _ _ _ (silent_lift _)).same
  next hlist hnotification =>
      apply twins_answerErrors
      cases hid : request.isNotification with
      | true =>
          refine (silent_pure ()).same fun _ => ?_
          exact dispatch_notification a b order ra rb hid (by simpa [hid] using hlist)
      | false =>
          refine (silent_requireInitializedForMethod request).same fun _ => ?_
          exact h.dispatchMethod hcodec (hvalid hid) order hrouter hid
            (by simpa [hid] using hnotification)

theorem handleRequest {maxDepth : Nat} (hcodec : codec.Lawful maxDepth)
    (h : AgreeOnNegotiated m a b) (order : MapOrder)
    (hrouter : ∀ id, m.hasTool id = true → ra.dispatch id = rb.dispatch id) (json : String) :
    Twins m (SameResponse codec a json) (a.handleRequest codec order ra json)
      (b.handleRequest codec order rb json) := by
  have hparse : b.parseRequest codec json = a.parseRequest codec json := by
    simp only [parseRequest, h.limit]
  unfold CompleteMcpAdapter.handleRequest
  rw [hparse]
  cases hrequest : a.parseRequest codec json with
  | error e =>
      have hkeeps : Keeps m (Prog.emit (.audit (.new .validationRejected (parseErrorDetails e).1)) :
          Handler Unit) :=
        Prog.ensures_act (fun _ hs => hs) fun _ => trivial
      exact (hkeeps.bind fun _ => (silent_lift _).keeps).twins.mono fun _ _ => .inl
  | ok request =>
      have hvalid : request.isNotification = false → request.id.Valid :=
        JsonRpcParser.valid_of_parseRequest (mapError_eq_ok_iff.mp hrequest)
      exact (h.handleParsed hcodec hvalid order hrouter).mono
        fun _ _ hsame => .inr ⟨request, hrequest, hsame⟩

end AgreeOnNegotiated

namespace AdapterSession

/-- What the handling of a call emits: its receipts and the tools it runs. -/
def events (codec : JsonCodec) (adapter : CompleteMcpAdapter) (session : AdapterSession)
    (call : RequestCall) : List AdapterEvent :=
  ((adapter.handleRequest codec call.order call.router call.json).run session.state).2.2

/-- Two adapters handle one call each. -/
def bothServe (codec : JsonCodec) (a b : CompleteMcpAdapter)
    (sessions : AdapterSession × AdapterSession) (calls : RequestCall × RequestCall) :
    AdapterSession × AdapterSession :=
  (sessions.1.serve codec a calls.1, sessions.2.serve codec b calls.2)

/-- The same response, the same receipts and the same tools run. -/
structure Indistinguishable (codec : JsonCodec) (a b : CompleteMcpAdapter)
    (sessions : AdapterSession × AdapterSession) (calls : RequestCall × RequestCall) : Prop where
  response : CompleteMcpAdapter.SameResponse codec a calls.1.json
    (sessions.1.handle codec a calls.1).1 (sessions.2.handle codec b calls.2).1
  events : sessions.1.events codec a calls.1 = sessions.2.events codec b calls.2

/-- What was not negotiated does not show: adapters in the state after an initialize that agree
on what the manifest offers respond alike to every sequence of calls, when both go through the
arguments of each call in one order. -/
theorem unnegotiated_hidden {codec : JsonCodec} {maxDepth : Nat} (hcodec : codec.Lawful maxDepth)
    {m : CapabilityManifest} {a b : CompleteMcpAdapter} (h : AgreeOnNegotiated m a b)
    {sessions : AdapterSession × AdapterSession} (hstate : sessions.1.state = sessions.2.state)
    (hm : Negotiated m sessions.1.state) {calls : List (RequestCall × RequestCall)}
    (hcalls : ∀ call ∈ calls, SameCall m call.1 call.2) :
    EveryStep (bothServe codec a b) (Indistinguishable codec a b) sessions calls := by
  induction calls generalizing sessions with
  | nil => trivial
  | cons call rest ih =>
      obtain ⟨sa, sb⟩ := sessions
      obtain ⟨⟨json, ra, order⟩, ⟨json', rb, order'⟩⟩ := call
      obtain ⟨hjson, horder, hrouter⟩ := hcalls _ List.mem_cons_self
      dsimp only at hjson horder hrouter hstate hm
      subst hjson horder
      obtain ⟨hresponse, ⟨hnext, hm'⟩, hevents⟩ :=
        h.handleRequest hcodec order hrouter json sa.state sb.state ⟨hstate, hm⟩
      exact ⟨⟨hresponse, hevents⟩,
        ih hnext hm' fun call hcall => hcalls call (List.mem_cons_of_mem _ hcall)⟩

end AdapterSession

namespace CompleteMcpAdapter

/-- An adapter with the tool 1 registered. -/
def readOnly : CompleteMcpAdapter where
  toAdapterTables := AdapterTables.new.insertTool "read" 1
  wellFormed := AdapterTables.wellFormed_new.insertTool (by decide) (by decide) (by decide)

/-- The same adapter with one more tool. -/
def withWrite : CompleteMcpAdapter where
  toAdapterTables := readOnly.insertTool "write" 2
  wellFormed := readOnly.wellFormed.insertTool (by decide) (by decide) (by decide)

/-- A manifest that offers the tool 1. -/
def offersRead : CapabilityManifest := (CapabilityManifest.new 1).setTool 1

theorem agreeOnNegotiated_withWrite :
    AgreeOnNegotiated offersRead readOnly withWrite where
  versions := rfl
  limit := rfl
  tools := by
    intro name id hhas
    have hdenied : offersRead.hasTool 2 = false := by decide
    have hnone : readOnly.toolCache.lookup "write" = none := by decide
    simp only [withWrite, AdapterTables.insertTool, Table.lookup_insert_eq]
    split
    · next hname =>
        subst hname
        rw [hnone]
        constructor
        · exact fun h => absurd h (by simp)
        · intro h
          cases h
          rw [hdenied] at hhas
          contradiction
    · exact Iff.rfl
  prompts := fun _ _ _ => Iff.rfl
  templates := fun _ _ _ _ => rfl

end CompleteMcpAdapter

namespace AdapterSession

/-- A session in which the tool 1 was negotiated. -/
def readSession : AdapterSession where
  state := { AdapterState.new .new [] [] with
    initializeSeen := true
    initializedSeen := true
    negotiatedManifest := CompleteMcpAdapter.offersRead }
  securityAudit := .new

def writeCall : RequestCall where
  json := "\x7b\"jsonrpc\":\"2.0\",\"id\":1,\"method\":\"tools/call\"," ++
    "\"params\":\x7b\"name\":\"write\"\x7d\x7d"
  router := .new
  order := ⟨id, MapOrder.perm_id⟩

/-- A call of the tool that only the second adapter has registered. -/
theorem unnegotiated_hidden_write :
    EveryStep (bothServe .reference .readOnly .withWrite)
      (Indistinguishable .reference .readOnly .withWrite) (readSession, readSession)
      [(writeCall, writeCall)] := by
  refine unnegotiated_hidden (JsonCodec.reference_lawful 127)
    CompleteMcpAdapter.agreeOnNegotiated_withWrite rfl ⟨rfl, rfl⟩ ?_
  intro call hcall
  rw [List.mem_singleton.mp hcall]
  exact ⟨rfl, rfl, fun _ _ => rfl⟩

end AdapterSession

namespace CompleteMcpAdapter

/-- An adapter with the prompt of two arguments. -/
def withPair : CompleteMcpAdapter where
  toAdapterTables := AdapterTables.new.insertPrompt PromptTemplate.pairTemplate 0
  wellFormed := AdapterTables.wellFormed_new.insertPrompt (by decide) (by decide)

def offersPair : CapabilityManifest := (CapabilityManifest.new 1).setPrompt 0

end CompleteMcpAdapter

namespace AdapterSession

/-- A session in which the prompt was negotiated. -/
def pairSession : AdapterSession where
  state := { AdapterState.new .new [] [] with
    initializeSeen := true
    initializedSeen := true
    negotiatedManifest := CompleteMcpAdapter.offersPair }
  securityAudit := .new

/-- The prompt with an argument whose value holds the placeholder of the other. -/
def pairCall (order : MapOrder) : RequestCall where
  json := "\x7b\"jsonrpc\":\"2.0\",\"id\":1,\"method\":\"prompts/get\",\"params\":\x7b" ++
    "\"name\":\"pair\",\"arguments\":\x7b\"a\":\"\x7b\x7bb\x7d\x7d\",\"b\":\"x\"\x7d\x7d\x7d"
  router := .new
  order

/-- Two runs of one adapter that go through the arguments in two orders respond differently. -/
theorem argument_order_shows :
    AgreeOnNegotiated CompleteMcpAdapter.offersPair .withPair .withPair ∧
      Negotiated CompleteMcpAdapter.offersPair pairSession.state ∧
      ¬ EveryStep (bothServe .reference .withPair .withPair)
        (Indistinguishable .reference .withPair .withPair) (pairSession, pairSession)
        [(pairCall ⟨id, MapOrder.perm_id⟩, pairCall ⟨List.reverse, List.reverse_perm⟩)] := by
  refine ⟨.refl _ _, ⟨rfl, rfl⟩, ?_⟩
  rintro ⟨⟨hresponse, -⟩, -⟩
  have hmethod : (CompleteMcpAdapter.withPair.parseRequest .reference
      (pairCall ⟨id, MapOrder.perm_id⟩).json).map (·.method) = .ok "prompts/get" := by
    decide +kernel
  have hdiffer : (pairSession.handle .reference .withPair (pairCall ⟨id, MapOrder.perm_id⟩)).1 ≠
      (pairSession.handle .reference .withPair
        (pairCall ⟨List.reverse, List.reverse_perm⟩)).1 := by
    decide +kernel
  obtain hsame | ⟨request, hparse, hsame | ⟨_, _, hlisted, -, -⟩⟩ := hresponse
  · exact hdiffer hsame
  · exact hdiffer hsame
  · obtain ⟨hkey, hlist⟩ := hlisted
    rw [hparse] at hmethod
    have hprompts : request.method = "prompts/get" := Except.ok.inj hmethod
    obtain rfl | rfl := hkey
    · exact absurd (hprompts.symm.trans hlist) (by decide)
    · exact absurd (hprompts.symm.trans hlist) (by decide)

end AdapterSession
end Dcp
