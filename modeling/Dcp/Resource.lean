import Dcp.Capability
import Dcp.Library.Text

/-!
The registry of resource handlers: URI templates, the handler that a URI is matched to, and
listing and reading through the handlers that a predicate admits. Subscriptions with callbacks
come on top of it: nothing here reads them.
-/

namespace Dcp
open Library

inductive ResourceContent
  | text (uri mimeType text : String)
  | blob (uri mimeType blob : String)
  deriving DecidableEq

structure ResourceInfo where
  uri : String
  name : String
  description : Option String
  mimeType : Option String
  deriving DecidableEq

structure ResourceList where
  resources : List ResourceInfo
  nextCursor : Option String
  deriving DecidableEq

inductive ResourceError
  | notFound (uri : String)
  | invalidUri (uri : String)
  | handlerError (text : String)
  | capacityExceeded (kind : String) (max : Nat)
  | subscriptionNotSupported
  deriving DecidableEq

/-- The `Display` text of an error. -/
def ResourceError.toText : ResourceError → String
  | notFound uri => "resource not found: " ++ uri
  | invalidUri uri => "invalid URI: " ++ uri
  | handlerError text => "handler error: " ++ text
  | capacityExceeded kind _ => kind ++ " capacity exceeded"
  | subscriptionNotSupported => "subscription not supported"

/-- The literal parts between the placeholders of a template. A brace that is never closed
leaves the text from the last placeholder on as one more part. -/
def templateParts : Nat → List Char → List (List Char)
  | 0, current => [current]
  | fuel + 1, current =>
      match splitOnce '\x7b' current with
      | none => [current]
      | some (before, rest) =>
          match splitOnce '\x7d' rest with
          | none => [before, current]
          | some (_, after) => before :: templateParts fuel after

/-- Find the parts one after the other; what is left of the URI after the last one. -/
def matchParts : Bool → List (List Char) → List Char → Option (List Char)
  | _, [], uri => some uri
  | _, [] :: parts, uri => matchParts false parts uri
  | first, part :: parts, uri =>
      match findText part uri with
      | none => none
      | some (before, after) =>
          if first ∧ before ≠ [] then none else matchParts false parts after

def uriMatchesTemplate (uri template : String) : Bool :=
  let parts := templateParts template.length template.toList
  match matchParts true parts uri.toList with
  | none => false
  | some rest =>
      match parts.getLast? with
      | some (_ :: _) => rest.isEmpty
      | _ => true

structure ResourceHandler where
  uriTemplate : String
  list : Option String → Except ResourceError ResourceList
  read : String → Except ResourceError ResourceContent
  supportsSubscribe : Bool := false
  «matches» : String → Bool := fun uri => uriMatchesTemplate uri uriTemplate

/-- Handlers in the order they were registered; the place of a handler is its id. -/
structure ResourceRegistry where
  handlers : List ResourceHandler
  bounded : handlers.length ≤ CapabilityManifest.maxResources

namespace ResourceRegistry

def new : ResourceRegistry := ⟨[], by decide⟩

def register (registry : ResourceRegistry) (handler : ResourceHandler) :
    Except ResourceError (UInt16 × ResourceRegistry) :=
  if h : registry.handlers.length ≥ CapabilityManifest.maxResources then
    .error (.capacityExceeded "resource" CapabilityManifest.maxResources)
  else .ok (.ofNat registry.handlers.length,
    ⟨registry.handlers ++ [handler], by simp at h ⊢; omega⟩)

/-- The handlers with their ids. -/
def registered (registry : ResourceRegistry) : List (UInt16 × ResourceHandler) :=
  registry.handlers.zipIdx.map fun (handler, idx) => (.ofNat idx, handler)

def findRegistered (registry : ResourceRegistry) (uri : String) :
    Option (UInt16 × ResourceHandler) :=
  registry.registered.find? fun entry => entry.2.matches uri

def matchUri (registry : ResourceRegistry) (uri : String) : Option ResourceHandler :=
  (registry.findRegistered uri).map Prod.snd

def handlerIdForUri (registry : ResourceRegistry) (uri : String) : Option UInt16 :=
  (registry.findRegistered uri).map Prod.fst

def handlerIds (registry : ResourceRegistry) : List UInt16 := registry.registered.map Prod.fst

def allowedUriTemplates (registry : ResourceRegistry) (allowHandler : UInt16 → Bool) :
    List String :=
  (registry.registered.filter fun entry => allowHandler entry.1).map fun entry =>
    entry.2.uriTemplate

def anyAllowedSupportsSubscribe (registry : ResourceRegistry) (allowHandler : UInt16 → Bool) :
    Bool :=
  registry.registered.any fun entry => allowHandler entry.1 && entry.2.supportsSubscribe

/-- The resources of all admitted handlers, unless one of them fails. -/
def listResources (cursor : Option String) : List ResourceHandler →
    Except ResourceError (List ResourceInfo)
  | [] => .ok []
  | handler :: rest => do
      let page ← handler.list cursor
      let others ← listResources cursor rest
      .ok (page.resources ++ others)

def listAllowed (registry : ResourceRegistry) (cursor : Option String)
    (allowHandler : UInt16 → Bool) : Except ResourceError ResourceList := do
  let allowed := registry.registered.filter fun entry => allowHandler entry.1
  let resources ← listResources cursor (allowed.map Prod.snd)
  .ok ⟨resources, none⟩

/-- The handler that serves the URI, or the error that there is none. -/
def handlerFor (registry : ResourceRegistry) (uri : String) :
    Except ResourceError ResourceHandler :=
  match registry.matchUri uri with
  | some handler => .ok handler
  | none => .error (.notFound uri)

def read (registry : ResourceRegistry) (uri : String) : Except ResourceError ResourceContent := do
  let handler ← registry.handlerFor uri
  handler.read uri

def ensureSubscribable (registry : ResourceRegistry) (uri : String) :
    Except ResourceError Unit := do
  let handler ← registry.handlerFor uri
  if ¬ handler.supportsSubscribe then .error .subscriptionNotSupported
  else (handler.read uri).map fun _ => ()

theorem mem_handlerIds_iff (registry : ResourceRegistry) (id : UInt16) :
    id ∈ registry.handlerIds ↔ id.toNat < registry.handlers.length := by
  have hbound := registry.bounded
  rw [CapabilityManifest.maxResources] at hbound
  simp only [handlerIds, registered, List.map_map, List.mem_map, Function.comp_apply]
  constructor
  · intro ⟨(handler, idx), hmem, hid⟩
    have hidx := List.mem_zipIdx hmem
    subst hid
    rw [UInt16.toNat_ofNat']
    omega
  · intro hlt
    refine ⟨(registry.handlers[id.toNat], id.toNat), ?_, by simp⟩
    rw [List.mem_iff_getElem?]
    exact ⟨id.toNat, by simp [List.getElem?_eq_getElem hlt]⟩

end ResourceRegistry
end Dcp
