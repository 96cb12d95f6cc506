import Mathlib.Tactic

/-!
The bounded window of request ids that have already had a side effect in an adapter
session: a set of keys and the order they came in, the oldest leaving first.
-/

namespace Dcp

def defaultRequestReplayWindow : Nat := 1024

structure RequestReplayGuard where
  seen : List String
  order : List String
  maxEntries : Nat
  deriving DecidableEq

namespace RequestReplayGuard

def new (maxEntries : Nat) : RequestReplayGuard := ⟨[], [], maxEntries⟩

/-- Forget the oldest keys until the window has its size again. -/
def evict (maxEntries : Nat) : List String → List String → List String × List String
  | [], seen => (seen, [])
  | expired :: order, seen =>
      if order.length + 1 > maxEntries then evict maxEntries order (seen.erase expired)
      else (seen, expired :: order)

/-- Record a key unless it is in the window. -/
def checkAndRecord (guard : RequestReplayGuard) (key : String) : Bool × RequestReplayGuard :=
  if key ∈ guard.seen then (false, guard)
  else
    let (seen, order) := evict guard.maxEntries (guard.order ++ [key]) (key :: guard.seen)
    (true, { guard with seen, order })

end RequestReplayGuard

def replayKey (method requestId : String) : String := method ++ ":" ++ requestId

end Dcp
