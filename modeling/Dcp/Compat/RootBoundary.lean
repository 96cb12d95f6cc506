import Dcp.Compat.HandlerEffects
import Dcp.Compat.RootContainment

/-!
What the roots keep from being read. Every handler that takes a URI asks for the capability of the
resource first and for the roots after that. The roots bound a file URI only when its scheme is in
lower case and two slashes follow.
-/

namespace Dcp
open Library

/-- A URI with the scheme `file` in any letter case, and its path: what follows the colon and, if
there are any, two slashes. -/
def FileUri (uri : String) (path : List Char) : Prop :=
  ∃ scheme, scheme.map Char.toLower = "file".toList ∧
    (uri.toList = scheme ++ "://".toList ++ path ∨
      uri.toList = scheme ++ ":".toList ++ path ∧ ¬ "//".toList <+: path)

/-- The path leads to a place within a root. -/
def WithinRoots (roots : List Root) (path : List Char) : Prop :=
  ∃ place, Resolves path place ∧ ∃ root ∈ roots, ∃ rootPath rootPlace,
    LeadsTo root.uri rootPath rootPlace ∧ rootPlace <+: place

theorem FileUri.path_of_spelled {uri : String} {path : List Char} (h : FileUri uri path)
    (hspelled : startsWithText uri "file://" = true) : uri.toList = "file://".toList ++ path := by
  obtain ⟨rest, hrest⟩ := startsWithText_iff.mp hspelled
  obtain ⟨scheme, hscheme, huri⟩ := h
  have hlength : scheme.length = "file".toList.length := by
    rw [← hscheme, List.length_map]
  have hrest' : uri.toList = "file".toList ++ "://".toList ++ rest := hrest
  obtain huri | ⟨huri, hslashes⟩ := huri
  · rw [huri, List.append_assoc, List.append_assoc] at hrest'
    obtain ⟨rfl, htail⟩ := List.append_inj hrest' hlength
    rw [huri]
    rfl
  · rw [huri, List.append_assoc, List.append_assoc] at hrest'
    obtain ⟨rfl, htail⟩ := List.append_inj hrest' hlength
    exact absurd ⟨rest, (List.cons.inj htail).2.symm⟩ hslashes

theorem FileUri.allowed_iff {uri : String} {path : List Char} (h : FileUri uri path)
    (hspelled : startsWithText uri "file://" = true) (roots : List Root) :
    RootsRegistry.allowsUri roots uri = true ↔ WithinRoots roots path := by
  have hpath := h.path_of_spelled hspelled
  rw [RootsRegistry.allowsUri_eq_true_iff roots hspelled]
  constructor
  · rintro ⟨path', place, hplace, hroot⟩
    have hsame : path' = path := List.append_cancel_left (hplace.spelled.symm.trans hpath)
    subst hsame
    exact ⟨place, hplace.toResolves, hroot⟩
  · rintro ⟨place, hplace, hroot⟩
    exact ⟨path, place, ⟨hplace, hpath⟩, hroot⟩

namespace CompleteMcpAdapter

/-- The errors of the checks that come before a resource is touched. -/
def refuses : CompleteAdapterError → Bool
  | .invalidRequest _ | .invalidParams _ | .lifecycleNotInitialized | .capabilityDenied => true
  | _ => false

/-- The request gets past its checks: it succeeds, or fails only in the handler of the resource or
after it. -/
def Reaches {α : Type} (p : Handler α) (s : AdapterState) : Prop :=
  ∀ error, (p.run s).1 = .error error → refuses error = false

section
variable {α β : Type} {s : AdapterState}

/-- A check that leaves the state alone. -/
theorem reaches_check {p : Handler α} {k : α → Handler β} {condition : Prop} {a : α}
    (hstate : (p.run s).2.1 = s) (hok : condition → (p.run s).1 = .ok a)
    (hno : ¬ condition → ∃ error, (p.run s).1 = .error error ∧ refuses error = true) :
    Reaches (p >>= k) s ↔ condition ∧ Reaches (k a) s := by
  rw [Reaches, Reaches, Prog.bind_def, Prog.run_andThen, hstate]
  by_cases h : condition
  · rw [hok h]
    exact (and_iff_right h).symm
  · obtain ⟨error, herror, hrefuses⟩ := hno h
    rw [herror]
    refine iff_of_false (fun hreaches => ?_) fun hreaches => h hreaches.1
    have hnot := hreaches error rfl
    rw [hrefuses] at hnot
    cases hnot

theorem reaches_ensure {k : Unit → Handler β} {condition : Prop} [Decidable condition]
    {error : CompleteAdapterError} (h : refuses error = true) :
    Reaches (ensure condition error >>= k) s ↔ condition ∧ Reaches (k ()) s := by
  refine reaches_check rfl (fun hcondition => ?_) fun hcondition => ⟨error, ?_, h⟩
  · simp [ensure, Prog.lift, Prog.run, hcondition]
  · simp [ensure, Prog.lift, Prog.run, hcondition]

theorem reaches_expect {k : α → Handler β} {a : α} {error : CompleteAdapterError} :
    Reaches (expect (some a) error >>= k) s ↔ Reaches (k a) s := Iff.rfl

theorem reaches_requireRequestMethod {k : Unit → Handler β} {request : JsonRpcRequest}
    {expectedMethod : String} :
    Reaches (requireRequestMethod request expectedMethod >>= k) s ↔
      (request.method = expectedMethod ∧ ¬ request.isNotification) ∧ Reaches (k ()) s := by
  by_cases h : request.method = expectedMethod ∧ ¬ request.isNotification
  · rw [requireRequestMethod, if_pos h, and_iff_right h]
    exact Iff.rfl
  · rw [requireRequestMethod, if_neg h]
    exact reaches_check rfl (fun hcondition => absurd hcondition h) fun _ => ⟨_, rfl, rfl⟩

theorem reaches_requireInitializedForMethod {k : Unit → Handler β} {request : JsonRpcRequest}
    (h : requiresInitialized request.method = true) :
    Reaches (requireInitializedForMethod request >>= k) s ↔
      s.initializedSeen = true ∧ Reaches (k ()) s := by
  rw [requireInitializedForMethod, if_neg (not_not_intro h)]
  exact reaches_ensure (k := k) rfl

/-- The handler that a URI is matched to is negotiated. -/
def Admitted (s : AdapterState) (uri : String) : Prop :=
  ∃ id, s.resources.handlerIdForUri uri = some id ∧ s.negotiatedManifest.hasResource id = true

theorem reaches_requireResourceUriCapability {k : Unit → Handler β} {uri : String} :
    Reaches (requireResourceUriCapability uri >>= k) s ↔ Admitted s uri ∧ Reaches (k ()) s := by
  let checkId (id : UInt16) : Handler Unit := do
    let negotiated ← readManifest
    ensure (negotiated.hasResource id) .capabilityDenied
  have hfound : Reaches (requireResourceUriCapability uri >>= k) s ↔
      Reaches ((expect (s.resources.handlerIdForUri uri) .capabilityDenied >>= checkId) >>= k) s :=
    Iff.rfl
  rw [hfound, Admitted]
  cases s.resources.handlerIdForUri uri with
  | none =>
      refine iff_of_false (fun h => ?_) fun h => by simp at h
      exact Bool.false_ne_true (h .capabilityDenied rfl).symm
  | some id =>
      have hensure : Reaches ((expect (some id) .capabilityDenied >>= checkId) >>= k) s ↔
          s.negotiatedManifest.hasResource id = true ∧ Reaches (k ()) s :=
        reaches_ensure (k := k) rfl
      simp [hensure]

theorem reaches_requireWithinRoots {k : Unit → Handler β} {uri : String} :
    Reaches (requireWithinRoots uri >>= k) s ↔
      RootsRegistry.allowsUri s.roots uri = true ∧ Reaches (k ()) s :=
  reaches_ensure (k := k) rfl

/-- Whatever the state, the program ends with no error of a check. -/
def Proceeds (p : Handler α) : Prop :=
  p.Ensures (fun _ _ _ => True) fun result => ∀ error, result = .error error →
    refuses error = false

theorem Proceeds.reaches {p : Handler α} (h : Proceeds p) : Reaches p s :=
  h.of_mayReturn (p.mayReturn_run s)

theorem Proceeds.bind {p : Handler α} {k : α → Handler β} (hp : Proceeds p)
    (hk : ∀ a, Proceeds (k a)) : Proceeds (p >>= k) :=
  Prog.Ensures.andThen hp fun result hresult => match result with
    | .ok a => hk a
    | .error error => fun error' herror => hresult error' (by cases herror; rfl)

theorem proceeds_resourceError (result : Except ResourceError α) :
    Proceeds (resourceError result) := by
  intro error herror
  cases result with
  | ok a => cases herror
  | error e =>
      cases herror
      rfl

theorem proceeds_formatSuccess (codec : JsonCodec) (id : RequestId) (value : Value) :
    Proceeds (.lift (formatSuccess codec id value)) := by
  intro error herror
  rw [formatSuccess] at herror
  cases hformat : JsonRpcParser.formatResponse codec (.success id value) with
  | ok text =>
      rw [hformat] at herror
      cases herror
  | error e =>
      rw [hformat] at herror
      cases herror
      rfl

theorem proceeds_subscribe (uri : String) : Proceeds (subscribe uri) := by
  refine fun s => ⟨trivial, ?_⟩
  intro error herror
  cases herror

theorem proceeds_ensure_capacity (condition : Prop) [Decidable condition] (kind : String)
    (max : Nat) : Proceeds (ensure condition (.capacityExceeded kind max)) := by
  intro error herror
  split at herror
  · cases herror
  · cases herror
    rfl

end

/-- What is checked before a resource is touched. -/
def Checked (s : AdapterState) (request : JsonRpcRequest) (expectedMethod uri : String) : Prop :=
  (request.method = expectedMethod ∧ ¬ request.isNotification) ∧ s.initializedSeen = true ∧
    Admitted s uri ∧ RootsRegistry.allowsUri s.roots uri = true

/-- The URI that a request is about. -/
def uriOf (request : JsonRpcRequest) : Option String :=
  (request.params.bind fun p => p.get "uri").bind Value.asStr

section
variable {codec : JsonCodec} {request : JsonRpcRequest} {uri : String} {s : AdapterState}

theorem reaches_checked {expectedMethod : String}
    (hmethod : requiresInitialized expectedMethod = true) {k : Unit → Handler String}
    (hk : ∀ a, Proceeds (k a)) :
    Reaches (do
      requireRequestMethod request expectedMethod
      requireInitializedForMethod request
      requireResourceUriCapability uri
      requireWithinRoots uri
      k ()) s ↔ Checked s request expectedMethod uri := by
  rw [reaches_requireRequestMethod, Checked]
  refine and_congr_right fun hrequest => ?_
  rw [reaches_requireInitializedForMethod (by rwa [hrequest.1]),
    reaches_requireResourceUriCapability, reaches_requireWithinRoots, and_iff_left (hk ()).reaches]

theorem reaches_handleResourcesRead (huri : uriOf request = some uri) :
    Reaches (handleResourcesRead codec request) s ↔ Checked s request "resources/read" uri := by
  have hrequest : requestUri request = pure uri := by
    rw [uriOf] at huri
    rw [requestUri, huri]
    rfl
  rw [handleResourcesRead, hrequest]
  refine reaches_checked (k := fun _ => do
    let registry ← .read (·.resources)
    let content ← resourceError (registry.read uri)
    .lift (formatSuccess codec request.id (.object [("contents", .array [contentValue content])])))
    rfl fun _ => ?_
  refine fun s => ⟨trivial, ?_⟩
  exact (proceeds_resourceError _).bind fun _ => proceeds_formatSuccess _ _ _

theorem reaches_handleResourcesSubscribe (huri : uriOf request = some uri) :
    Reaches (handleResourcesSubscribe codec request) s ↔
      Checked s request "resources/subscribe" uri := by
  have hrequest : requestUri request = pure uri := by
    rw [uriOf] at huri
    rw [requestUri, huri]
    rfl
  rw [handleResourcesSubscribe, hrequest]
  refine reaches_checked (k := fun _ => do
    let registry ← .read (·.resources)
    resourceError (registry.ensureSubscribable uri)
    let subscribed ← subscribe uri
    ensure subscribed (.capacityExceeded "subscription"
      SubscriptionTracker.defaultMaxSubscribersPerResource)
    .lift (formatSuccess codec request.id (.object []))) rfl fun _ => ?_
  refine fun s => ⟨trivial, ?_⟩
  exact (proceeds_resourceError _).bind fun _ => (proceeds_subscribe uri).bind fun _ =>
    (proceeds_ensure_capacity _ _ _).bind fun _ => proceeds_formatSuccess _ _ _

/-- The resource that a request for a completion refers to. -/
def resourceRefOf (request : JsonRpcRequest) : Option String :=
  match completionParams request.params with
  | .ok params =>
      if params.refType = "ref/resource" then (params.reference.get "uri").bind Value.asStr
      else none
  | .error _ => none

theorem checked_of_reaches_handleCompletionComplete {adapter : CompleteMcpAdapter}
    (huri : resourceRefOf request = some uri)
    (h : Reaches (adapter.handleCompletionComplete codec request) s) :
    Checked s request "completion/complete" uri := by
  rw [resourceRefOf] at huri
  cases hparams : completionParams request.params with
  | error e =>
      rw [hparams] at huri
      cases huri
  | ok params =>
      rw [hparams] at huri
      obtain ⟨refType, reference, argumentName⟩ := params
      dsimp only at huri
      split at huri
      · next htype =>
          subst htype
          rw [handleCompletionComplete, hparams, reaches_requireRequestMethod] at h
          obtain ⟨hrequest, h⟩ := h
          rw [reaches_requireInitializedForMethod (by rw [hrequest.1]; rfl)] at h
          obtain ⟨hinitialized, h⟩ := h
          have hreference : Reaches ((referenceText reference "uri" >>= fun uri => do
              requireResourceUriCapability uri
              requireWithinRoots uri) >>= fun _ => .lift (formatSuccess codec request.id
                (.object [("completion",
                  .object [("values", .array []), ("hasMore", .bool false)])]))) s := h
          rw [Prog.bind_assoc, referenceText, huri] at hreference
          cases hempty : uri.isEmpty with
          | true =>
              rw [Option.filter_some, if_neg (by simp [hempty])] at hreference
              exact absurd (hreference _ rfl) (by decide)
          | false =>
              rw [Option.filter_some, if_pos (by simp [hempty]), reaches_expect, Prog.bind_assoc,
                reaches_requireResourceUriCapability, reaches_requireWithinRoots] at hreference
              exact ⟨hrequest, hinitialized, hreference.1, hreference.2.1⟩
      · cases huri

end

/-- No request for the URI gets to its resource unless the path is within a root. -/
def Contained (codec : JsonCodec) (adapter : CompleteMcpAdapter) (s : AdapterState) (uri : String)
    (path : List Char) : Prop :=
  ∀ request,
    (uriOf request = some uri → Reaches (handleResourcesRead codec request) s →
      WithinRoots s.roots path) ∧
    (uriOf request = some uri → Reaches (handleResourcesSubscribe codec request) s →
      WithinRoots s.roots path) ∧
    (resourceRefOf request = some uri → Reaches (adapter.handleCompletionComplete codec request) s →
      WithinRoots s.roots path)

/-- A request to read a URI. -/
def readRequest (uri : String) : JsonRpcRequest where
  jsonrpc := "2.0"
  method := "resources/read"
  params := some (.object [("uri", .string uri)])
  id := .number ⟨1, JsonI64.range_one⟩

theorem uriOf_readRequest (uri : String) : uriOf (readRequest uri) = some uri := rfl

theorem reaches_readRequest {codec : JsonCodec} {s : AdapterState} {uri : String}
    (hinitialized : s.initializedSeen = true) (hadmitted : Admitted s uri)
    (hspelled : ¬ startsWithText uri "file://" = true) :
    Reaches (handleResourcesRead codec (readRequest uri)) s := by
  refine (reaches_handleResourcesRead (uriOf_readRequest uri)).mpr ⟨⟨rfl, ?_⟩, hinitialized,
    hadmitted, ?_⟩
  · simp [JsonRpcRequest.isNotification, readRequest]
  · rw [RootsRegistry.allowsUri, if_pos hspelled]

/-- The roots contain a file URI unless it is spelled otherwise, leads out of them and belongs to a
negotiated resource of an initialized adapter. -/
theorem contained_iff (codec : JsonCodec) (adapter : CompleteMcpAdapter) (s : AdapterState)
    {uri : String} {path : List Char} (hfile : FileUri uri path) :
    Contained codec adapter s uri path ↔
      startsWithText uri "file://" = true ∨ WithinRoots s.roots path ∨
        ¬ (s.initializedSeen = true ∧ Admitted s uri) := by
  constructor
  · intro h
    by_contra hcondition
    simp only [not_or, not_not] at hcondition
    obtain ⟨hspelled, hwithin, hinitialized, hadmitted⟩ := hcondition
    exact hwithin ((h (readRequest uri)).1 (uriOf_readRequest uri)
      (reaches_readRequest hinitialized hadmitted hspelled))
  · intro hcondition request
    have hchecked {expectedMethod : String} (h : Checked s request expectedMethod uri) :
        WithinRoots s.roots path := by
      obtain ⟨-, hinitialized, hadmitted, hallowed⟩ := h
      obtain hspelled | hwithin | hrefused := hcondition
      · exact (hfile.allowed_iff hspelled s.roots).mp hallowed
      · exact hwithin
      · exact absurd ⟨hinitialized, hadmitted⟩ hrefused
    refine ⟨fun huri hreaches => ?_, fun huri hreaches => ?_, fun huri hreaches => ?_⟩
    · exact hchecked ((reaches_handleResourcesRead huri).mp hreaches)
    · exact hchecked ((reaches_handleResourcesSubscribe huri).mp hreaches)
    · exact hchecked (checked_of_reaches_handleCompletionComplete huri hreaches)

/-- An initialized adapter with one negotiated resource, any URI, and the root "/home". -/
def homeState : AdapterState where
  __ := AdapterState.new ⟨[{
    uriTemplate := "\x7buri\x7d"
    list := fun _ => .ok ⟨[], none⟩
    read := fun uri => .ok (.text uri "text/plain" "") }], by decide⟩ [⟨"file:///home", none⟩] []
  initializeSeen := true
  initializedSeen := true
  negotiatedManifest := (CapabilityManifest.new 1).setResource 0

theorem homeState_admits : Admitted homeState "FILE:///etc/passwd" := ⟨0, by decide, by decide⟩

theorem homeState_outside : ¬ WithinRoots homeState.roots "/etc/passwd".toList := by
  intro h
  have hfile : FileUri "file:///etc/passwd" "/etc/passwd".toList :=
    ⟨"file".toList, rfl, .inl rfl⟩
  have hallowed := (hfile.allowed_iff (by decide) homeState.roots).mpr h
  have hrefused : RootsRegistry.allowsUri homeState.roots "file:///etc/passwd" = false := by decide
  rw [hrefused] at hallowed
  cases hallowed

/-- With the scheme in capital letters a URI outside the root is read. -/
theorem not_contained : ¬ ∀ (codec : JsonCodec) (adapter : CompleteMcpAdapter) (s : AdapterState)
    (uri : String) (path : List Char), FileUri uri path → Contained codec adapter s uri path := by
  intro h
  have hfile : FileUri "FILE:///etc/passwd" "/etc/passwd".toList := ⟨"FILE".toList, rfl, .inl rfl⟩
  have hcontained := h .reference .new homeState _ _ hfile
  exact homeState_outside ((hcontained (readRequest _)).1 (uriOf_readRequest _)
    (reaches_readRequest rfl homeState_admits (by decide)))

/-- With the scheme in small letters it is not. -/
theorem contained_iff_spelled :
    Contained .reference .new homeState "file:///etc/passwd" "/etc/passwd".toList := by
  have hfile : FileUri "file:///etc/passwd" "/etc/passwd".toList :=
    ⟨"file".toList, rfl, .inl rfl⟩
  exact (contained_iff .reference .new homeState hfile).mpr (.inl (by decide))

end CompleteMcpAdapter
end Dcp
