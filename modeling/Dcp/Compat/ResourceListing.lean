import Dcp.Compat.HandlerEffects

/-!
Which listed resources can be read. A list asks the negotiated handlers for their resources, but a
URI is read by the first handler that it matches, negotiated or not. A listed URI is therefore
refused when a handler that is not negotiated matches it and comes before every negotiated one that
does.
-/

namespace Dcp
open Library

namespace ResourceRegistry
variable {registry : ResourceRegistry} {uri : String}

theorem length_registered (registry : ResourceRegistry) :
    registry.registered.length = registry.handlers.length := by
  rw [registered, List.length_map, List.length_zipIdx]

theorem getElem_registered {i : Nat} (h : i < registry.registered.length)
    (h' : i < registry.handlers.length) :
    registry.registered[i] = (.ofNat i, registry.handlers[i]) := by
  simp [registered]

/-- The URI belongs to the first handler that it matches. -/
theorem handlerIdForUri_eq_some_iff {id : UInt16} :
    registry.handlerIdForUri uri = some id ↔
      ∃ i, ∃ h : i < registry.handlers.length, id = .ofNat i ∧
        registry.handlers[i].matches uri = true ∧
        ∀ j (hj : j < i), registry.handlers[j].matches uri = false := by
  rw [handlerIdForUri, findRegistered, Option.map_eq_some_iff]
  constructor
  · rintro ⟨entry, hfind, rfl⟩
    obtain ⟨hmatches, i, hi, rfl, hbefore⟩ := List.find?_eq_some_iff_getElem.mp hfind
    have hi' : i < registry.handlers.length := length_registered registry ▸ hi
    rw [getElem_registered hi hi'] at hmatches ⊢
    refine ⟨i, hi', rfl, hmatches, fun j hj => ?_⟩
    have hbefore := hbefore j hj
    rw [getElem_registered (by omega) (by omega)] at hbefore
    simpa using hbefore
  · rintro ⟨i, hi, rfl, hmatches, hbefore⟩
    refine ⟨(.ofNat i, registry.handlers[i]), ?_, rfl⟩
    have hlength := length_registered registry
    refine List.find?_eq_some_iff_getElem.mpr ⟨hmatches, i, by omega,
      getElem_registered (by omega) hi, fun j hj => ?_⟩
    rw [getElem_registered (by omega) (by omega)]
    simpa using hbefore j hj

theorem mem_listResources {cursor : Option String} {handlers : List ResourceHandler}
    {resources : List ResourceInfo} (h : listResources cursor handlers = .ok resources)
    {resource : ResourceInfo} (hmem : resource ∈ resources) :
    ∃ handler ∈ handlers, ∃ page, handler.list cursor = .ok page ∧ resource ∈ page.resources := by
  induction handlers generalizing resources with
  | nil =>
      cases h
      cases hmem
  | cons handler rest ih =>
      rw [listResources] at h
      cases hpage : handler.list cursor with
      | error e =>
          rw [hpage] at h
          cases h
      | ok page =>
          cases hothers : listResources cursor rest with
          | error e =>
              rw [hpage, hothers] at h
              cases h
          | ok others =>
              rw [hpage, hothers] at h
              cases h
              obtain hfirst | hrest := List.mem_append.mp hmem
              · exact ⟨handler, List.mem_cons_self, page, hpage, hfirst⟩
              · obtain ⟨handler', hhandler', hpage'⟩ := ih hothers hrest
                exact ⟨handler', List.mem_cons_of_mem handler hhandler', hpage'⟩

/-- The resources of a list come from handlers that are admitted. -/
theorem mem_listAllowed {cursor : Option String} {allowHandler : UInt16 → Bool}
    {list : ResourceList} (h : registry.listAllowed cursor allowHandler = .ok list)
    {resource : ResourceInfo} (hmem : resource ∈ list.resources) :
    ∃ i, ∃ hi : i < registry.handlers.length, allowHandler (.ofNat i) = true ∧
      ∃ page, registry.handlers[i].list cursor = .ok page ∧ resource ∈ page.resources := by
  rw [listAllowed] at h
  cases hresources : listResources cursor
      ((registry.registered.filter fun entry => allowHandler entry.1).map Prod.snd) with
  | error e =>
      rw [hresources] at h
      cases h
  | ok resources =>
      rw [hresources] at h
      cases h
      obtain ⟨handler, hhandler, hpage⟩ := mem_listResources hresources hmem
      obtain ⟨entry, hentry, rfl⟩ := List.mem_map.mp hhandler
      obtain ⟨hregistered, hallowed⟩ := List.mem_filter.mp hentry
      obtain ⟨i, hi, rfl⟩ := List.mem_iff_getElem.mp hregistered
      have hi' : i < registry.handlers.length := length_registered registry ▸ hi
      rw [getElem_registered hi hi'] at hallowed hpage
      exact ⟨i, hi', hallowed, hpage⟩

/-- Every handler that matches the URI but is not admitted comes after one that matches it and
is. -/
def AdmittedFirst (registry : ResourceRegistry) (allowHandler : UInt16 → Bool) (uri : String) :
    Prop :=
  ∀ i (hi : i < registry.handlers.length), registry.handlers[i].matches uri = true →
    allowHandler (.ofNat i) = false →
    ∃ j, ∃ hj : j < i, registry.handlers[j].matches uri = true ∧ allowHandler (.ofNat j) = true

/-- Where some admitted handler matches the URI. -/
theorem admittedFirst_iff {allowHandler : UInt16 → Bool} {i : Nat}
    (hi : i < registry.handlers.length) (hmatches : registry.handlers[i].matches uri = true) :
    (∃ id, registry.handlerIdForUri uri = some id ∧ allowHandler id = true) ↔
      registry.AdmittedFirst allowHandler uri := by
  constructor
  · rintro ⟨id, hid, hallowed⟩ k hk hmatches' hdenied
    obtain ⟨j, hj, rfl, hfirst, hbefore⟩ := handlerIdForUri_eq_some_iff.mp hid
    obtain hlt | rfl | hgt := Nat.lt_trichotomy j k
    · exact ⟨j, hlt, hfirst, hallowed⟩
    · rw [hdenied] at hallowed
      cases hallowed
    · rw [hbefore k hgt] at hmatches'
      cases hmatches'
  · intro h
    cases hid : registry.handlerIdForUri uri with
    | none =>
        rw [handlerIdForUri, findRegistered, Option.map_eq_none_iff, List.find?_eq_none] at hid
        have hlength := length_registered registry
        have hnone := hid _ (List.getElem_mem (by omega : i < registry.registered.length))
        rw [getElem_registered (by omega) hi] at hnone
        exact absurd hmatches hnone
    | some id =>
        obtain ⟨j, hj, rfl, hfirst, hbefore⟩ := handlerIdForUri_eq_some_iff.mp hid
        refine ⟨_, rfl, ?_⟩
        by_contra hdenied
        obtain ⟨k, hk, hearlier, -⟩ := h j hj hfirst (by simpa using hdenied)
        rw [hbefore k hk] at hearlier
        cases hearlier

end ResourceRegistry

namespace CompleteMcpAdapter
variable {s : AdapterState} {request : JsonRpcRequest}

theorem run_requireRequestMethod_state (expectedMethod : String) :
    ((requireRequestMethod request expectedMethod).run s).2.1 = s := by
  rw [requireRequestMethod]
  split <;> rfl

theorem run_requireInitializedForMethod_state :
    ((requireInitializedForMethod request).run s).2.1 = s := by
  rw [requireInitializedForMethod]
  split <;> rfl

theorem run_requireAnyResourceCapability_state : (requireAnyResourceCapability.run s).2.1 = s := rfl

theorem run_resourceError_eq_ok {α : Type} {result : Except ResourceError α} {a : α}
    (h : ((resourceError result).run s).1 = .ok a) : result = .ok a := by
  cases result with
  | ok b =>
      cases h
      rfl
  | error e => cases h

theorem run_resourcesWithinRoots (resources : List ResourceInfo) :
    ((resourcesWithinRoots resources).run s).1 =
        .ok (resources.filter fun resource => RootsRegistry.allowsUri s.roots resource.uri) ∧
      ((resourcesWithinRoots resources).run s).2.1 = s := by
  induction resources with
  | nil => exact ⟨rfl, rfl⟩
  | cons resource rest ih =>
      have hrest : (resourcesWithinRoots (resource :: rest)).run s =
          ((resourcesWithinRoots rest >>= fun others => pure
            (if RootsRegistry.allowsUri s.roots resource.uri then resource :: others else others) :
            Handler (List ResourceInfo)).run s) := rfl
      rw [hrest, Prog.bind_def, Prog.run_andThen, ih.1, ih.2, List.filter_cons]
      exact ⟨rfl, rfl⟩

theorem run_handleResourcesList {codec : JsonCodec} {text : String}
    (h : ((handleResourcesList codec request).run s).1 = .ok text) :
    ∃ cursor list templates, listCursor request = .ok cursor ∧
      s.resources.listAllowed cursor s.negotiatedManifest.hasResource = .ok list ∧
      formatSuccess codec request.id (resourcesListResult (list.resources.filter fun resource =>
        RootsRegistry.allowsUri s.roots resource.uri) list.nextCursor templates) = .ok text := by
  rw [handleResourcesList] at h
  obtain ⟨-, -, h⟩ := Prog.run_bind_eq_ok h
  rw [run_requireRequestMethod_state] at h
  obtain ⟨-, -, h⟩ := Prog.run_bind_eq_ok h
  rw [run_requireInitializedForMethod_state] at h
  obtain ⟨cursor, hcursor, h⟩ := Prog.run_bind_eq_ok h
  rw [Prog.run_lift_state] at h
  obtain ⟨-, -, h⟩ := Prog.run_bind_eq_ok h
  rw [run_requireAnyResourceCapability_state] at h
  obtain ⟨negotiated, hnegotiated, h⟩ := Prog.run_bind_eq_ok h
  rw [readManifest, Prog.run_read_state] at h
  obtain ⟨registry, hregistry, h⟩ := Prog.run_bind_eq_ok h
  rw [Prog.run_read_state] at h
  cases hnegotiated
  cases hregistry
  obtain ⟨list, hlist, h⟩ := Prog.run_bind_eq_ok h
  rw [resourceError, Prog.run_lift_state] at h
  obtain ⟨resources, hresources, h⟩ := Prog.run_bind_eq_ok h
  rw [(run_resourcesWithinRoots list.resources).1] at hresources
  rw [(run_resourcesWithinRoots list.resources).2] at h
  cases hresources
  obtain ⟨templates, -, htext⟩ := Prog.run_bind_eq_ok h
  exact ⟨cursor, list, templates, hcursor, run_resourceError_eq_ok hlist, htext⟩

theorem run_requireResourceUriCapability_eq_ok_iff {uri : String} :
    ((requireResourceUriCapability uri).run s).1 = .ok () ↔
      ∃ id, s.resources.handlerIdForUri uri = some id ∧
        s.negotiatedManifest.hasResource id = true := by
  let checkId (id : UInt16) : Handler Unit := do
    let negotiated ← readManifest
    ensure (negotiated.hasResource id) .capabilityDenied
  have hfound : ((requireResourceUriCapability uri).run s).1 =
      ((expect (s.resources.handlerIdForUri uri) .capabilityDenied >>= checkId).run s).1 := rfl
  rw [hfound]
  cases s.resources.handlerIdForUri uri with
  | none => exact iff_of_false nofun (by simp)
  | some id =>
      have hensure : ((expect (some id) .capabilityDenied >>= checkId).run s).1 =
          if s.negotiatedManifest.hasResource id = true then .ok () else
            .error .capabilityDenied := rfl
      rw [hensure]
      split <;> simp [*]

/-- What a handler lists it also matches. -/
def ListsOwn (handler : ResourceHandler) : Prop :=
  ∀ cursor page, handler.list cursor = .ok page → ∀ resource ∈ page.resources,
    handler.matches resource.uri = true

/-- A listed URI passes the check for reading it exactly when no handler that is not negotiated
matches it before a negotiated one does. -/
theorem listed_readable_iff (codec : JsonCodec)
    (hown : ∀ handler ∈ s.resources.handlers, ListsOwn handler) {text : String}
    (htext : ((handleResourcesList codec request).run s).1 = .ok text) :
    ∃ cursor list templates, listCursor request = .ok cursor ∧
      s.resources.listAllowed cursor s.negotiatedManifest.hasResource = .ok list ∧
      formatSuccess codec request.id (resourcesListResult (list.resources.filter fun resource =>
        RootsRegistry.allowsUri s.roots resource.uri) list.nextCursor templates) = .ok text ∧
      ∀ resource ∈ list.resources.filter fun resource =>
          RootsRegistry.allowsUri s.roots resource.uri,
        (((requireResourceUriCapability resource.uri).run s).1 = .ok () ↔
          s.resources.AdmittedFirst s.negotiatedManifest.hasResource resource.uri) := by
  obtain ⟨cursor, list, templates, hcursor, hlist, htext⟩ := run_handleResourcesList htext
  refine ⟨cursor, list, templates, hcursor, hlist, htext, fun resource hresource => ?_⟩
  obtain ⟨i, hi, -, page, hpage, hmem⟩ :=
    ResourceRegistry.mem_listAllowed hlist (List.mem_of_mem_filter hresource)
  have hmatches := hown _ (List.getElem_mem hi) cursor page hpage resource hmem
  rw [run_requireResourceUriCapability_eq_ok_iff, ResourceRegistry.admittedFirst_iff hi hmatches]

/-- A request for the list of resources. -/
def listRequest : JsonRpcRequest where
  jsonrpc := "2.0"
  method := "resources/list"
  params := none
  id := .number ⟨1, by decide⟩

/-- A handler of all URIs that lists none. -/
def anyHandler : ResourceHandler where
  uriTemplate := "\x7buri\x7d"
  list := fun _ => .ok ⟨[], none⟩
  read := fun uri => .ok (.text uri "text/plain" "")

/-- A handler that lists one note. -/
def noteHandler : ResourceHandler where
  uriTemplate := "note:\x7bname\x7d"
  list := fun _ => .ok ⟨[⟨"note:a", "a", none, none⟩], none⟩
  read := fun uri => .ok (.text uri "text/plain" "")

theorem listsOwn_anyHandler : ListsOwn anyHandler := by
  intro cursor page hpage resource hmem
  cases hpage
  cases hmem

theorem listsOwn_noteHandler : ListsOwn noteHandler := by
  intro cursor page hpage resource hmem
  cases hpage
  rw [List.mem_singleton.mp hmem]
  decide

/-- An initialized adapter in which only the second of two resources is negotiated. -/
def secondNegotiated (first second : ResourceHandler) : AdapterState where
  __ := AdapterState.new ⟨[first, second], show 2 ≤ _ by decide⟩ [] []
  initializeSeen := true
  initializedSeen := true
  negotiatedManifest := (CapabilityManifest.new 1).setResource 1

theorem listsOwn_secondNegotiated {first second : ResourceHandler} (hfirst : ListsOwn first)
    (hsecond : ListsOwn second) :
    ∀ handler ∈ (secondNegotiated first second).resources.handlers, ListsOwn handler := by
  intro handler hmem
  obtain rfl | hmem := List.mem_cons.mp hmem
  · exact hfirst
  · rw [List.mem_singleton.mp hmem]
    exact hsecond

theorem list_secondNegotiated : ∃ text,
    ((handleResourcesList .reference listRequest).run (secondNegotiated anyHandler noteHandler)).1 =
      .ok text := ⟨_, rfl⟩

/-- A listed note is refused when a handler that is not negotiated comes first and matches it. -/
theorem listed_not_readable : ¬ ∀ (codec : JsonCodec) (s : AdapterState) (request : JsonRpcRequest)
    (text : String), (∀ handler ∈ s.resources.handlers, ListsOwn handler) →
    ((handleResourcesList codec request).run s).1 = .ok text →
    ∃ cursor list templates, listCursor request = .ok cursor ∧
      s.resources.listAllowed cursor s.negotiatedManifest.hasResource = .ok list ∧
      formatSuccess codec request.id (resourcesListResult (list.resources.filter fun resource =>
        RootsRegistry.allowsUri s.roots resource.uri) list.nextCursor templates) = .ok text ∧
      ∀ resource ∈ list.resources.filter fun resource =>
          RootsRegistry.allowsUri s.roots resource.uri,
        ((requireResourceUriCapability resource.uri).run s).1 = .ok () := by
  intro h
  obtain ⟨text, htext⟩ := list_secondNegotiated
  have hown := listsOwn_secondNegotiated listsOwn_anyHandler listsOwn_noteHandler
  obtain ⟨cursor, list, -, hcursor, hlist, -, hall⟩ := h _ _ _ text hown htext
  have hnotes : (secondNegotiated anyHandler noteHandler).resources.listAllowed cursor
      (secondNegotiated anyHandler noteHandler).negotiatedManifest.hasResource =
        .ok ⟨[⟨"note:a", "a", none, none⟩], none⟩ := rfl
  rw [hnotes] at hlist
  cases hlist
  have hpasses := hall ⟨"note:a", "a", none, none⟩ (by decide)
  rw [run_requireResourceUriCapability_eq_ok_iff] at hpasses
  obtain ⟨id, hid, hnegotiated⟩ := hpasses
  have hfirst : (secondNegotiated anyHandler noteHandler).resources.handlerIdForUri "note:a" =
      some 0 := by decide
  rw [hfirst] at hid
  cases hid
  revert hnegotiated
  decide

/-- A list with one note, whose handler comes second. -/
theorem listed_readable_iff_note : ∃ text cursor list templates,
    listCursor listRequest = .ok cursor ∧
    (secondNegotiated anyHandler noteHandler).resources.listAllowed cursor
      (secondNegotiated anyHandler noteHandler).negotiatedManifest.hasResource = .ok list ∧
    formatSuccess .reference listRequest.id (resourcesListResult (list.resources.filter
      fun resource => RootsRegistry.allowsUri (secondNegotiated anyHandler noteHandler).roots
        resource.uri) list.nextCursor templates) = .ok text ∧
    ∀ resource ∈ list.resources.filter fun resource =>
        RootsRegistry.allowsUri (secondNegotiated anyHandler noteHandler).roots resource.uri,
      (((requireResourceUriCapability resource.uri).run
          (secondNegotiated anyHandler noteHandler)).1 = .ok () ↔
        (secondNegotiated anyHandler noteHandler).resources.AdmittedFirst
          (secondNegotiated anyHandler noteHandler).negotiatedManifest.hasResource
          resource.uri) := by
  obtain ⟨text, htext⟩ := list_secondNegotiated
  exact ⟨text, listed_readable_iff .reference
    (listsOwn_secondNegotiated listsOwn_anyHandler listsOwn_noteHandler) htext⟩

end CompleteMcpAdapter
end Dcp
