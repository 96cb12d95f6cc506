import Dcp.Compat.JsonRpc
import Dcp.Library.Table

/-!
The parts of the newer protocol revisions that requests to the complete adapter reach:
version negotiation, root boundaries, resource templates, the subscriptions of clients and
the cancellation of requests.
-/

namespace Dcp
open Library

inductive ProtocolVersion
  | v2024_11_05
  | v2025_03_26
  | v2025_06_18
  deriving DecidableEq

namespace ProtocolVersion

def fromStr (s : String) : Option ProtocolVersion :=
  match s with
  | "2024-11-05" => some .v2024_11_05
  | "2025-03-26" => some .v2025_03_26
  | "2025-06-18" => some .v2025_06_18
  | _ => none

def asStr : ProtocolVersion → String
  | v2024_11_05 => "2024-11-05"
  | v2025_03_26 => "2025-03-26"
  | v2025_06_18 => "2025-06-18"

/-- The place of a version in the order of the revisions. -/
def rank : ProtocolVersion → Nat
  | v2024_11_05 => 0
  | v2025_03_26 => 1
  | v2025_06_18 => 2

def supportsRoots (version : ProtocolVersion) : Bool := v2025_03_26.rank ≤ version.rank

end ProtocolVersion

structure VersionNegotiator where
  latest : ProtocolVersion

namespace VersionNegotiator

def new : VersionNegotiator := ⟨.v2025_06_18⟩

def tryNegotiate (negotiator : VersionNegotiator) (requested : String) : Option ProtocolVersion :=
  (ProtocolVersion.fromStr requested).filter fun version => version.rank ≤ negotiator.latest.rank

end VersionNegotiator

structure Root where
  uri : String
  name : Option String
  deriving DecidableEq

/-- Resolve the components of a path; climbing above the top is an error. -/
def resolveComponents : List (List Char) → List (List Char) → Option (List (List Char))
  | parts, [] => some parts
  | parts, component :: rest =>
      if component = [] ∨ component = ['.'] then resolveComponents parts rest
      else if component = ['.', '.'] then
        if parts = [] then none else resolveComponents parts.dropLast rest
      else resolveComponents (parts ++ [component]) rest

def normalizeFileUriPath (uri : String) : Option String :=
  if ¬ startsWithText uri "file://" then none
  else
    let rawPath := uri.toList.drop "file://".length
    if rawPath = [] ∨ '%' ∈ rawPath ∨ '\\' ∈ rawPath then none
    else (resolveComponents [] (rawPath.splitOn '/')).map fun parts =>
      String.ofList ('/' :: List.intercalate ['/'] parts)

def isPathWithinRoot (path root : String) : Bool :=
  root == "/" || path == root ||
    (startsWithText path root && (path.toList.drop root.length).head? == some '/')

namespace RootsRegistry

/-- Whether a URI is within a configured root; only file URIs are bounded. -/
def allowsUri (roots : List Root) (uri : String) : Bool :=
  if ¬ startsWithText uri "file://" then true
  else if roots.isEmpty then false
  else
    match normalizeFileUriPath uri with
    | none => false
    | some uriPath => roots.any fun root =>
        match normalizeFileUriPath root.uri with
        | none => false
        | some rootPath => isPathWithinRoot uriPath rootPath

end RootsRegistry

structure ResourceTemplate where
  uriTemplate : String
  name : String
  description : Option String
  mimeType : Option String
  deriving DecidableEq

/-- The member of an optional text, left out when there is none. -/
def optionalMember (key : String) (text : Option String) : Members :=
  (text.map fun text => (key, Value.string text)).toList

def ResourceTemplate.toValue (template : ResourceTemplate) : Value :=
  .object ([("uriTemplate", .string template.uriTemplate), ("name", .string template.name)] ++
    optionalMember "description" template.description ++
    optionalMember "mimeType" template.mimeType)

structure SubscriptionTracker where
  maxSubscribersPerResource : Nat
  subscriptions : Table String (List String)

namespace SubscriptionTracker

def defaultMaxSubscribersPerResource : Nat := 1024

def withMaxSubscribersPerResource (maxSubscribersPerResource : Nat) : SubscriptionTracker :=
  ⟨maxSubscribersPerResource, ∅⟩

def new : SubscriptionTracker := ⟨defaultMaxSubscribersPerResource, ∅⟩

/-- Subscribe to a resource; false when the limit is reached. A resource that was not known
is entered without subscribers before the limit is looked at. -/
def subscribe (tracker : SubscriptionTracker) (uri subscriberId : String) :
    Bool × SubscriptionTracker :=
  let subscribers := (tracker.subscriptions.lookup uri).getD []
  let entered := { tracker with subscriptions := tracker.subscriptions.insert uri subscribers }
  if subscriberId ∈ subscribers then (true, entered)
  else if subscribers.length ≥ tracker.maxSubscribersPerResource then (false, entered)
  else (true, { tracker with
    subscriptions := tracker.subscriptions.insert uri (subscribers ++ [subscriberId]) })

/-- Unsubscribe; a resource without subscribers is forgotten. -/
def unsubscribe (tracker : SubscriptionTracker) (uri subscriberId : String) :
    Bool × SubscriptionTracker :=
  match tracker.subscriptions.lookup uri with
  | none => (true, tracker)
  | some subscribers =>
      let kept := subscribers.filter fun id => id ≠ subscriberId
      let subscriptions := tracker.subscriptions.insert uri kept
      (kept.length < subscribers.length, { tracker with
        subscriptions := if kept.isEmpty then subscriptions.erase uri else subscriptions })

def isSubscribed (tracker : SubscriptionTracker) (uri subscriberId : String) : Bool :=
  ((tracker.subscriptions.lookup uri).map fun subscribers => decide (subscriberId ∈ subscribers)).getD
    false

def clear (tracker : SubscriptionTracker) : SubscriptionTracker :=
  { tracker with subscriptions := ∅ }

end SubscriptionTracker

inductive CancellationState
  | active
  | cancelled
  | completed
  deriving DecidableEq

structure CancellationToken where
  requestId : RequestId
  state : CancellationState
  reason : Option String

namespace CancellationManager

def requestIdToKey : RequestId → String
  | .number n => "n:" ++ toString n.val
  | .string s => "s:" ++ s
  | .null => "null"
  | .missing => "missing"

/-- The table after a token that is still active has been cancelled. -/
def cancelToken (tokens : Table String CancellationToken) (key : String) :
    Table String CancellationToken :=
  match tokens.lookup key with
  | some token =>
      if token.state = .active then tokens.insert key { token with state := .cancelled } else tokens
  | none => tokens

def setReason (tokens : Table String CancellationToken) (key : String) (reason : Option String) :
    Table String CancellationToken :=
  match tokens.lookup key with
  | some token => tokens.insert key { token with reason }
  | none => tokens

end CancellationManager
end Dcp
