import Dcp.Library.Run

/-!
The coordinator of a graceful shutdown. Its fields are atomics, and a call on it goes through its
points one at a time: each is one access to an atomic or one reading of the clock, and the points
of other calls may come between any two of them.
-/

namespace Dcp

/-- The channel that announces the shutdown is left out: nothing here listens on it. -/
structure ShutdownCoordinator where
  shutdown : Bool
  inFlight : UInt64
  drainTimeout : Nat
  initiated : Bool
  deriving DecidableEq

/-- A guard of an admitted request keeps the counter, any other guard keeps nothing. -/
structure RequestGuard where
  counter : Bool
  deriving DecidableEq

def RequestGuard.isActive (guard : RequestGuard) : Bool := guard.counter

/-- On behalf of what the counter is lowered. `attempt` tells `try_request_start` from
`request_start`, and `counted` whether the increment of a pair has raised the counter. -/
inductive Decrement
  | request (attempt : Bool)
  | dropped
  | increment
  | paired (counted : Bool)
  deriving DecidableEq

inductive CallPoint
  | shutdown
  | storeShutdown
  | notify
  | announced
  | waitDrain (timeout : Nat)
  | loadInFlight (deadline : Nat)
  | checkDeadline (deadline : Nat)
  | drained (complete : Bool)
  | requestStart (attempt : Bool)
  | requestAdd (attempt : Bool)
  | requestRecheck (attempt : Bool)
  | started (guard : RequestGuard)
  | refused
  | dropped
  | incrementInFlight
  | incrementAdd
  | incrementRecheck
  | incremented (counted : Bool)
  | decrementInFlight (use : Decrement)
  | exchange (use : Decrement) (seen : UInt64) (hseen : seen ≠ 0)
  | decremented
  deriving DecidableEq

def CallPoint.turnedAway (attempt : Bool) : CallPoint :=
  if attempt then .refused else .started ⟨false⟩

def Decrement.done : Decrement → CallPoint
  | .request attempt => .turnedAway attempt
  | .dropped => .dropped
  | .increment => .incremented false
  | .paired _ => .decremented

/-- What a step meets outside the coordinator: the clock, and whether the weak exchange fails
though the counter still is what was seen. -/
structure Surroundings where
  now : Nat
  spurious : Bool

namespace ShutdownCoordinator

def new (drainTimeout : Nat) : ShutdownCoordinator := ⟨false, 0, drainTimeout, false⟩

/-- The loop of `fetch_update` after it has seen a value: it ends if there is nothing to subtract.
-/
def fetchUpdate (seen : UInt64) (use : Decrement) : CallPoint :=
  if hseen : seen = 0 then use.done else .exchange use seen hseen

def step (c : ShutdownCoordinator) (around : Surroundings) :
    CallPoint → ShutdownCoordinator × CallPoint
  | .shutdown => ({ c with initiated := true }, if c.initiated then .announced else .storeShutdown)
  | .storeShutdown => ({ c with shutdown := true }, .notify)
  | .notify => (c, .announced)
  | .waitDrain timeout => (c, .loadInFlight (around.now + timeout))
  | .loadInFlight deadline =>
      (c, if c.inFlight > 0 then .checkDeadline deadline else .drained true)
  | .checkDeadline deadline =>
      (c, if around.now > deadline then .drained false else .loadInFlight deadline)
  | .requestStart attempt =>
      (c, if c.shutdown then .turnedAway attempt else .requestAdd attempt)
  | .requestAdd attempt => ({ c with inFlight := c.inFlight + 1 }, .requestRecheck attempt)
  | .requestRecheck attempt =>
      (c, if c.shutdown then .decrementInFlight (.request attempt) else .started ⟨true⟩)
  | .incrementInFlight => (c, if c.shutdown then .incremented false else .incrementAdd)
  | .incrementAdd => ({ c with inFlight := c.inFlight + 1 }, .incrementRecheck)
  | .incrementRecheck =>
      (c, if c.shutdown then .decrementInFlight .increment else .incremented true)
  | .decrementInFlight use => (c, fetchUpdate c.inFlight use)
  | .exchange use seen _ =>
      if c.inFlight = seen ∧ ¬ around.spurious then ({ c with inFlight := seen - 1 }, use.done)
      else (c, fetchUpdate c.inFlight use)
  | point => (c, point)

end ShutdownCoordinator

inductive ShutdownCall
  | shutdown
  | requestStart
  | tryRequestStart
  | waitDrain
  | waitDrainWithTimeout (timeout : Nat)
  | incrementInFlight

structure Shutdown where
  coordinator : ShutdownCoordinator
  calls : List CallPoint

/-- A guard is dropped by whoever holds it, and a `decrement_in_flight` belongs to the
`increment_in_flight` that returned before it. -/
inductive ShutdownStep
  | call (call : ShutdownCall)
  | advance (index : Nat) (around : Surroundings)
  | dropGuard (index : Nat)
  | decrementInFlight (index : Nat)

namespace Shutdown

def start (drainTimeout : Nat) : Shutdown := ⟨.new drainTimeout, []⟩

def enter (s : Shutdown) : ShutdownCall → CallPoint
  | .shutdown => .shutdown
  | .requestStart => .requestStart false
  | .tryRequestStart => .requestStart true
  | .waitDrain => .waitDrain s.coordinator.drainTimeout
  | .waitDrainWithTimeout timeout => .waitDrain timeout
  | .incrementInFlight => .incrementInFlight

def dropGuard : CallPoint → CallPoint
  | .started guard => if guard.isActive then .decrementInFlight .dropped else .dropped
  | point => point

def pair : CallPoint → CallPoint
  | .incremented counted => .decrementInFlight (.paired counted)
  | point => point

def step (s : Shutdown) : ShutdownStep → Shutdown
  | .call call => { s with calls := s.calls ++ [s.enter call] }
  | .advance index around =>
      match s.calls[index]? with
      | none => s
      | some point =>
          let (coordinator, next) := s.coordinator.step around point
          ⟨coordinator, s.calls.set index next⟩
  | .dropGuard index => { s with calls := s.calls.modify index dropGuard }
  | .decrementInFlight index => { s with calls := s.calls.modify index pair }

def after (drainTimeout : Nat) (inputs : List ShutdownStep) : Shutdown :=
  inputs.foldl step (start drainTimeout)

end Shutdown

namespace CallPoint

/-- Active guards that the call has returned and that are not dropped yet. -/
def guards : CallPoint → Nat
  | .started guard => if guard.isActive then 1 else 0
  | .decrementInFlight .dropped | .exchange .dropped _ _ => 1
  | _ => 0

/-- Whether `request_start` has raised the counter and neither returned nor taken that back. -/
def increments : CallPoint → Nat
  | .requestRecheck _ | .decrementInFlight (.request _) | .exchange (.request _) _ _ => 1
  | _ => 0

/-- What the call has added to the counter by the manual interface and not taken back. -/
def manual : CallPoint → Nat
  | .incrementRecheck | .incremented true => 1
  | .decrementInFlight .increment | .exchange .increment _ _ => 1
  | .decrementInFlight (.paired true) | .exchange (.paired true) _ _ => 1
  | _ => 0

def weight (point : CallPoint) : Nat := point.guards + point.increments + point.manual

def adds : CallPoint → Bool
  | .requestAdd _ | .incrementAdd => true
  | _ => false

end CallPoint

namespace Shutdown

def activeGuards (s : Shutdown) : Nat := (s.calls.map CallPoint.guards).sum

def increments (s : Shutdown) : Nat := (s.calls.map CallPoint.increments).sum

def Fits (s : Shutdown) : ShutdownStep → Prop
  | .advance index _ =>
      s.calls[index]?.any CallPoint.adds = true → s.coordinator.inFlight.toNat + 1 < UInt64.size
  | _ => True

instance (s : Shutdown) : (input : ShutdownStep) → Decidable (s.Fits input)
  | .advance _ _ => inferInstanceAs (Decidable (_ → _))
  | .call _ | .dropGuard _ | .decrementInFlight _ => .isTrue trivial

/-- The step is the last load of a `wait_drain` that returns true. -/
def Drains (s : Shutdown) : ShutdownStep → Prop
  | .advance index _ =>
      (∃ deadline, s.calls[index]? = some (.loadInFlight deadline)) ∧ s.coordinator.inFlight = 0
  | _ => False

end Shutdown
end Dcp
