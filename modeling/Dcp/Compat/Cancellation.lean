import Dcp.Compat.Handlers
import Dcp.Library.Accounting
import Dcp.Library.Run
import Std.Data.String.ToInt

/-!
Cancellation tokens that several tasks hold at the same time. A cancellation by id finds the token in
the table, moves its state away from active by one compare-and-exchange, and writes its reason after
that; completions, registrations, removals and other cancellations may come between any two of these.
A token stays what it is for the tasks that hold it when its entry is replaced or removed.
-/

namespace Dcp
open Library

/-- The tokens that were created, by reference, and those that are found by the key of a request. -/
structure CancellationManager where
  objects : List CancellationToken
  tokens : Table String Nat

/-- What a call returned. A cancellation tells the id it was asked for, the token it found, the
reason it was given and whether it was the one that cancelled. -/
inductive CancelResult
  | created (token : Nat)
  | removed
  | cancelled (asked : Option RequestId) (token : Option Nat) (reason : Option String) (won : Bool)
  | completed (token : Nat) (won : Bool)
  | isCancelled (id : RequestId) (answer : Bool)

/-- Where a call is: what it does next. -/
inductive CancelPoint
  | createToken (id : RequestId)
  | removeToken (id : RequestId)
  | getToken (id : RequestId) (reason : Option String)
  | exchange (asked : Option RequestId) (token : Nat) (reason : Option String)
  | writeReason (asked : Option RequestId) (token : Nat) (reason : Option String)
  | complete (token : Nat)
  | getAsked (id : RequestId)
  | load (id : RequestId) (token : Nat)
  | returned (result : CancelResult)

/-- The calls of a manager, and those of a token that a task holds. -/
inductive CancelCall
  | createToken (id : RequestId)
  | removeToken (id : RequestId)
  | cancel (id : RequestId) (reason : Option String)
  | isCancelled (id : RequestId)
  | cancelToken (token : Nat) (reason : Option String)
  | completeToken (token : Nat)

namespace CancelCall

def start : CancelCall → CancelPoint
  | createToken id => .createToken id
  | removeToken id => .removeToken id
  | cancel id reason => .getToken id reason
  | isCancelled id => .getAsked id
  | cancelToken token reason => .exchange none token reason
  | completeToken token => .complete token

/-- The token that the caller holds. -/
def held : CancelCall → Option Nat
  | cancelToken token _ | completeToken token => some token
  | _ => none

end CancelCall

namespace CancellationToken

def new (requestId : RequestId) : CancellationToken := ⟨requestId, .active, none⟩

end CancellationToken

namespace CancellationManager

def new : CancellationManager := ⟨[], ∅⟩

def createToken (m : CancellationManager) (id : RequestId) : Nat × CancellationManager :=
  (m.objects.length, ⟨m.objects ++ [.new id],
    m.tokens.insert (requestIdToKey id) m.objects.length⟩)

def removeToken (m : CancellationManager) (id : RequestId) : CancellationManager :=
  { m with tokens := m.tokens.erase (requestIdToKey id) }

def getToken (m : CancellationManager) (id : RequestId) : Option Nat :=
  m.tokens.lookup (requestIdToKey id)

def replace (m : CancellationManager) (token : Nat) (object : CancellationToken) :
    CancellationManager :=
  { m with objects := m.objects.set token object }

/-- Move a token from active to another state: `compare_exchange`. -/
def exchange (m : CancellationManager) (token : Nat) (state : CancellationState) :
    Bool × CancellationManager :=
  match m.objects[token]? with
  | some object =>
      if object.state = .active then (true, m.replace token { object with state }) else (false, m)
  | none => (false, m)

def writeReason (m : CancellationManager) (token : Nat) (reason : Option String) :
    CancellationManager :=
  match m.objects[token]? with
  | some object => m.replace token { object with reason }
  | none => m

def isCancelled (m : CancellationManager) (token : Nat) : Bool :=
  m.objects[token]?.any fun object => object.state = .cancelled

/-- One step of a call. -/
def step (m : CancellationManager) : CancelPoint → CancellationManager × CancelPoint
  | .createToken id => ((m.createToken id).2, .returned (.created (m.createToken id).1))
  | .removeToken id => (m.removeToken id, .returned .removed)
  | .getToken id reason =>
      (m, match m.getToken id with
        | some token => .exchange (some id) token reason
        | none => .returned (.cancelled (some id) none reason false))
  | .exchange asked token reason =>
      match m.exchange token .cancelled with
      | (true, m) => (m, .writeReason asked token reason)
      | (false, m) => (m, .returned (.cancelled asked (some token) reason false))
  | .writeReason asked token reason =>
      (m.writeReason token reason, .returned (.cancelled asked (some token) reason true))
  | .complete token =>
      ((m.exchange token .completed).2,
        .returned (.completed token (m.exchange token .completed).1))
  | .getAsked id =>
      (m, match m.getToken id with
        | some token => .load id token
        | none => .returned (.isCancelled id false))
  | .load id token => (m, .returned (.isCancelled id (m.isCancelled token)))
  | .returned result => (m, .returned result)

end CancellationManager

/-- How a call ended a token. A cancellation has written its reason when it returns. -/
inductive Ending
  | completed
  | cancelling
  | cancelled (reason : Option String)

namespace Ending

def state : Ending → CancellationState
  | completed => .completed
  | cancelling | cancelled _ => .cancelled

def reason : Ending → Option String
  | completed | cancelling => none
  | cancelled reason => reason

theorem state_ne_active (ending : Ending) : ending.state ≠ .active := by
  cases ending <;> nofun

end Ending

/-- How the call ended this token, if it did. -/
def CancelPoint.ending (token : Nat) : CancelPoint → Option Ending
  | .writeReason _ target _ => if target = token then some .cancelling else none
  | .returned (.cancelled _ (some target) reason true) =>
      if target = token then some (.cancelled reason) else none
  | .returned (.completed target true) => if target = token then some .completed else none
  | _ => none

/-- A manager and the calls that were made on it and on its tokens. -/
structure SharedTokens where
  manager : CancellationManager
  calls : List CancelPoint

inductive CancelStep
  | call (call : CancelCall)
  | advance (index : Nat)

namespace SharedTokens

def start : SharedTokens := ⟨.new, []⟩

def step (s : SharedTokens) : CancelStep → SharedTokens
  | .call call =>
      -- a task only holds tokens that it was given
      if call.held.all (· < s.manager.objects.length) then
        { s with calls := s.calls ++ [call.start] }
      else s
  | .advance index =>
      match s.calls[index]? with
      | none => s
      | some point => ⟨(s.manager.step point).1, s.calls.set index (s.manager.step point).2⟩

def run (steps : List CancelStep) : SharedTokens := steps.foldl step start

/-- How the calls so far ended a token. -/
def endings (s : SharedTokens) (token : Nat) : List Ending :=
  s.calls.filterMap (CancelPoint.ending token)

end SharedTokens

namespace CancellationManager
variable {m m' : CancellationManager} {token : Nat} {object object' : CancellationToken}

theorem requestIdToKey_injective : Function.Injective requestIdToKey := by
  intro a b h
  have hlist := congrArg String.toList h
  cases a <;> cases b <;> simp [requestIdToKey] at hlist <;> try rfl
  · exact congrArg RequestId.string (String.toList_injective hlist)
  · have hsame := Int.repr_injective (String.toList_injective hlist)
    exact congrArg RequestId.number (Subtype.ext hsame)

/-- There is such a token. -/
def Has (m : CancellationManager) (token : Nat) (p : CancellationToken → Prop) : Prop :=
  ∃ object, m.objects[token]? = some object ∧ p object

/-- Tokens keep their id, the state they ended in, and their reason once it is written. -/
def Keeps (m m' : CancellationManager) : Prop :=
  ∀ token object, m.objects[token]? = some object → m'.Has token fun object' =>
    object'.requestId = object.requestId ∧
      (object.state ≠ .active → object'.state = object.state) ∧
      (object.reason.isSome → object'.reason = object.reason)

theorem Keeps.refl (m : CancellationManager) : m.Keeps m :=
  fun _ object hobject => ⟨object, hobject, rfl, fun _ => rfl, fun _ => rfl⟩

theorem Keeps.trans {m'' : CancellationManager} (h : m.Keeps m') (h' : m'.Keeps m'') :
    m.Keeps m'' := by
  intro token object hobject
  obtain ⟨object', hobject', hid, hstate, hreason⟩ := h token object hobject
  obtain ⟨object'', hobject'', hid', hstate', hreason'⟩ := h' token object' hobject'
  refine ⟨object'', hobject'', hid'.trans hid, ?_, ?_⟩
  · intro hended
    rw [hstate' (hstate hended ▸ hended), hstate hended]
  · intro hsome
    rw [hreason' (hreason hsome ▸ hsome), hreason hsome]

theorem keeps_of_objects (h : ∃ created, m'.objects = m.objects ++ created) : m.Keeps m' := by
  obtain ⟨created, hobjects⟩ := h
  intro token object hobject
  obtain ⟨hlt, -⟩ := List.getElem?_eq_some_iff.mp hobject
  refine ⟨object, ?_, rfl, fun _ => rfl, fun _ => rfl⟩
  rw [hobjects, List.getElem?_append_left hlt, hobject]

theorem objects_replace (h : m.objects[token]? = some object) (other : Nat) :
    (m.replace token object').objects[other]? =
      if token = other then some object' else m.objects[other]? := by
  obtain ⟨hlt, -⟩ := List.getElem?_eq_some_iff.mp h
  by_cases heq : token = other
  · subst heq
    rw [if_pos rfl]
    exact List.getElem?_set_self hlt
  · rw [if_neg heq]
    exact List.getElem?_set_ne heq

theorem keeps_replace (h : m.objects[token]? = some object)
    (hid : object'.requestId = object.requestId)
    (hstate : object.state ≠ .active → object'.state = object.state)
    (hreason : object.reason.isSome → object'.reason = object.reason) :
    m.Keeps (m.replace token object') := by
  intro other held hheld
  by_cases heq : token = other
  · subst heq
    obtain rfl := Option.some.inj (h.symm.trans hheld)
    exact ⟨object', by rw [objects_replace h, if_pos rfl], hid, hstate, hreason⟩
  · exact ⟨held, by rw [objects_replace h, if_neg heq, hheld], rfl, fun _ => rfl, fun _ => rfl⟩

theorem exchange_cases (m : CancellationManager) (token : Nat) (state : CancellationState) :
    (m.exchange token state = (false, m) ∧
        ∀ object, m.objects[token]? = some object → object.state ≠ .active) ∨
      ∃ object, m.objects[token]? = some object ∧ object.state = .active ∧
        m.exchange token state = (true, m.replace token { object with state }) := by
  rw [exchange]
  cases hobject : m.objects[token]? with
  | none => exact .inl ⟨rfl, fun _ hnone => nomatch hnone⟩
  | some object =>
      by_cases hactive : object.state = .active
      · exact .inr ⟨object, rfl, hactive, if_pos hactive⟩
      · refine .inl ⟨if_neg hactive, fun other hother => ?_⟩
        exact Option.some.inj hother ▸ hactive

/-- What a call knows of the tokens: one that a cancellation found was created for that id, one
that a call has tried to end is ended, and an answer that a request is cancelled is true. -/
def Bears (m : CancellationManager) : CancelPoint → Prop
  | .exchange asked token _ | .writeReason asked token _ =>
      m.Has token fun object => ∀ id, asked = some id → object.requestId = id
  | .returned (.cancelled asked (some token) _ _) =>
      m.Has token fun object =>
        object.state ≠ .active ∧ ∀ id, asked = some id → object.requestId = id
  | .complete token => m.Has token fun _ => True
  | .returned (.completed token _) => m.Has token fun object => object.state ≠ .active
  | .load id token => m.Has token fun object => object.requestId = id
  | .returned (.isCancelled id true) =>
      ∃ token, m.Has token fun object => object.requestId = id ∧ object.state = .cancelled
  | _ => True

/-- What is found under a key was created for a request with that key. -/
def Keyed (m : CancellationManager) : Prop :=
  ∀ key token, m.tokens.lookup key = some token →
    m.Has token fun object => key = requestIdToKey object.requestId

theorem Has.mono {p p' : CancellationToken → Prop} (h : m.Has token p) (hkeeps : m.Keeps m')
    (hp : ∀ object object' : CancellationToken, object'.requestId = object.requestId →
      (object.state ≠ .active → object'.state = object.state) → p object → p' object') :
    m'.Has token p' := by
  obtain ⟨object, hobject, hthere⟩ := h
  obtain ⟨object', hobject', hid, hstate, -⟩ := hkeeps token object hobject
  exact ⟨object', hobject', hp object object' hid hstate hthere⟩

theorem Keyed.has (h : m.Keyed) (hkeeps : m.Keeps m') {key : String}
    (hlookup : m.tokens.lookup key = some token) :
    m'.Has token fun object => key = requestIdToKey object.requestId :=
  (h key token hlookup).mono hkeeps fun _ _ hid _ hkey => hkey.trans (by rw [hid])

theorem Bears.mono {point : CancelPoint} (h : m.Bears point) (hkeeps : m.Keeps m') :
    m'.Bears point := by
  cases point with
  | exchange asked token reason | writeReason asked token reason =>
      refine Has.mono h hkeeps fun object object' hid _ hasked id hsome => ?_
      rw [hid, hasked id hsome]
  | complete token => exact Has.mono h hkeeps fun _ _ _ _ _ => trivial
  | load id token => exact Has.mono h hkeeps fun object object' hid _ hasked => hid.trans hasked
  | createToken | removeToken | getToken | getAsked => trivial
  | returned result =>
      cases result with
      | created | removed => trivial
      | completed token won =>
          exact Has.mono h hkeeps fun object object' _ hstate hended => hstate hended ▸ hended
      | cancelled asked token reason won =>
          cases token with
          | none => trivial
          | some token =>
              refine Has.mono h hkeeps fun object object' hid hstate hthere => ?_
              exact ⟨hstate hthere.1 ▸ hthere.1, fun id hsome => hid.trans (hthere.2 id hsome)⟩
      | isCancelled id answer =>
          cases answer with
          | false => trivial
          | true =>
              obtain ⟨token, hhas⟩ := h
              refine ⟨token, hhas.mono hkeeps fun object object' hid hstate hthere => ?_⟩
              refine ⟨hid.trans hthere.1, (hstate ?_).trans hthere.2⟩
              rw [hthere.2]
              nofun

end CancellationManager

namespace SharedTokens
open CancellationManager
variable {s : SharedTokens}

/-- A token is active and no call ended it, or it is as the one call left it that ended it. -/
def Accounts : Option CancellationToken → List Ending → Prop
  | none, endings => endings = []
  | some object, endings =>
      (object.state = .active ∧ object.reason = none ∧ endings = []) ∨
        ∃ ending : Ending, endings = [ending] ∧ object.state = ending.state ∧
          object.reason = ending.reason

structure Sound (s : SharedTokens) : Prop where
  keyed : s.manager.Keyed
  accounts : ∀ token, Accounts s.manager.objects[token]? (s.endings token)
  bears : ∀ point ∈ s.calls, s.manager.Bears point

theorem sound_start : start.Sound := by
  refine ⟨fun key token hlookup => ?_, fun _ => rfl, fun _ hmem => absurd hmem List.not_mem_nil⟩
  rw [start, CancellationManager.new, AList.lookup_empty] at hlookup
  cases hlookup

section
variable {index : Nat} {point next : CancelPoint} {token : Nat}
  {object object' : CancellationToken} {m : CancellationManager}

theorem Sound.moved (h : s.Sound) (hkeeps : s.manager.Keeps m)
    (hkeyed : m.Keyed)
    (haccounts : ∀ token,
      Accounts m.objects[token]? (endings ⟨m, s.calls.set index next⟩ token))
    (hbears : m.Bears next) : Sound ⟨m, s.calls.set index next⟩ := by
  refine ⟨hkeyed, haccounts, ?_⟩
  intro other hother
  obtain rfl | hother := eq_or_mem_of_mem_set hother
  · exact hbears
  · exact (h.bears other hother).mono hkeeps

/-- The call ends no token, or has done so before. -/
theorem endings_quiet (hpoint : s.calls[index]? = some point)
    (hsame : next.ending token = point.ending token) :
    endings ⟨m, s.calls.set index next⟩ token = s.endings token :=
  filterMap_set hpoint hsame

theorem Sound.quiet (h : s.Sound) (hpoint : s.calls[index]? = some point)
    (hsame : ∀ token, next.ending token = point.ending token) (hbears : s.manager.Bears next) :
    Sound ⟨s.manager, s.calls.set index next⟩ := by
  refine h.moved (.refl _) h.keyed ?_ hbears
  intro token
  rw [endings_quiet hpoint (hsame token)]
  exact h.accounts token

/-- The call is the one that ends the token, or ended it and now writes the reason. -/
theorem Sound.ends (h : s.Sound) (before : Option Ending) (ending : Ending)
    (hpoint : s.calls[index]? = some point) (hobject : s.manager.objects[token]? = some object)
    (hbefore : ∀ other, point.ending other = if token = other then before else none)
    (hsole : s.endings token = before.toList)
    (hafter : ∀ other, next.ending other = if token = other then some ending else none)
    (hstate : object'.state = ending.state) (hreason : object'.reason = ending.reason)
    (hkeeps : s.manager.Keeps (s.manager.replace token object'))
    (hbears : (s.manager.replace token object').Bears next) :
    Sound ⟨s.manager.replace token object', s.calls.set index next⟩ := by
  refine h.moved hkeeps (fun key other hlookup => h.keyed.has hkeeps hlookup) ?_ hbears
  intro other
  rw [objects_replace hobject]
  split
  · next heq =>
      subst heq
      refine .inr ⟨ending, ?_, hstate, hreason⟩
      rw [endings, filterMap_set_of_sole hpoint (hsole.trans (by rw [hbefore, if_pos rfl])),
        hafter, if_pos rfl]
      rfl
  · next hne =>
      rw [endings_quiet hpoint (by rw [hafter, hbefore, if_neg hne, if_neg hne])]
      exact h.accounts other

/-- A token that is found was created for the id it was asked for. -/
theorem Sound.has_of_getToken (h : s.Sound) {id : RequestId}
    (hfound : s.manager.getToken id = some token) :
    s.manager.Has token fun object => object.requestId = id := by
  obtain ⟨object, hobject, hkey⟩ := h.keyed _ token hfound
  exact ⟨object, hobject, (requestIdToKey_injective hkey).symm⟩

theorem Sound.endings_active (h : s.Sound) (hobject : s.manager.objects[token]? = some object)
    (hactive : object.state = .active) : s.endings token = [] := by
  have haccounts := h.accounts token
  rw [hobject] at haccounts
  obtain ⟨-, -, hnone⟩ | ⟨ending, -, hstate, -⟩ := haccounts
  · exact hnone
  · exact absurd (hstate.symm.trans hactive) ending.state_ne_active

/-- The call that a token has been ended by is the only one. -/
theorem Sound.endings_sole (h : s.Sound) (hpoint : s.calls[index]? = some point)
    (hobject : s.manager.objects[token]? = some object) {ending : Ending}
    (hending : point.ending token = some ending) :
    s.endings token = [ending] ∧ object.state = ending.state ∧ object.reason = ending.reason := by
  have hmem : ending ∈ s.endings token :=
    List.mem_filterMap.mpr ⟨point, List.mem_of_getElem? hpoint, hending⟩
  have haccounts := h.accounts token
  rw [hobject] at haccounts
  obtain ⟨-, -, hnone⟩ | ⟨other, hsole, hthere⟩ := haccounts
  · rw [hnone] at hmem
    cases hmem
  · rw [hsole] at hmem ⊢
    obtain rfl := List.mem_singleton.mp hmem
    exact ⟨rfl, hthere⟩

theorem Sound.createToken (h : s.Sound) {id : RequestId}
    (hpoint : s.calls[index]? = some (.createToken id)) :
    Sound ⟨(s.manager.createToken id).2,
        s.calls.set index (.returned (.created (s.manager.createToken id).1))⟩ ∧
      s.manager.Keeps (s.manager.createToken id).2 := by
  have hkeeps : s.manager.Keeps (s.manager.createToken id).2 := keeps_of_objects ⟨_, rfl⟩
  have hreturned : ∀ token, (CancelPoint.returned (.created (s.manager.createToken id).1)).ending
      token = (CancelPoint.createToken id).ending token := fun _ => rfl
  refine ⟨h.moved hkeeps ?_ ?_ trivial, hkeeps⟩
  · intro key token hlookup
    rw [CancellationManager.createToken, Table.lookup_insert_eq] at hlookup
    split at hlookup
    · next heq =>
        obtain rfl := Option.some.inj hlookup
        exact ⟨.new id, List.getElem?_concat_length, heq⟩
    · exact h.keyed.has hkeeps hlookup
  · intro token
    have haccounts := h.accounts token
    rw [← endings_quiet hpoint (hreturned token)] at haccounts
    obtain hlt | rfl | hgt := lt_trichotomy token s.manager.objects.length
    · rwa [CancellationManager.createToken, List.getElem?_append_left hlt]
    · rw [List.getElem?_eq_none (Nat.le_refl _)] at haccounts
      rw [CancellationManager.createToken, List.getElem?_concat_length]
      exact .inl ⟨rfl, rfl, haccounts⟩
    · rw [List.getElem?_eq_none hgt.le] at haccounts
      rwa [CancellationManager.createToken, List.getElem?_eq_none (by simpa using hgt)]

theorem Sound.exchange (h : s.Sound) (ending : Ending)
    (hpoint : s.calls[index]? = some point) (hobject : s.manager.objects[token]? = some object)
    (hactive : object.state = .active) (hbefore : ∀ other, point.ending other = none)
    (hafter : ∀ other, next.ending other = if token = other then some ending else none)
    (hreason : ending.reason = none)
    (hbears : s.manager.Keeps (s.manager.replace token { object with state := ending.state }) →
      (s.manager.replace token { object with state := ending.state }).Bears next) :
    Sound ⟨s.manager.replace token { object with state := ending.state },
        s.calls.set index next⟩ ∧
      s.manager.Keeps (s.manager.replace token { object with state := ending.state }) := by
  have hkeeps : s.manager.Keeps (s.manager.replace token { object with state := ending.state }) :=
    keeps_replace hobject rfl (fun hended => absurd hactive hended) fun _ => rfl
  have hnone : object.reason = none := by
    have haccounts := h.accounts token
    rw [hobject] at haccounts
    obtain ⟨-, hnone, -⟩ | ⟨other, -, hstate, -⟩ := haccounts
    · exact hnone
    · exact absurd (hstate.symm.trans hactive) other.state_ne_active
  refine ⟨h.ends none ending hpoint hobject (fun other => ?_) (h.endings_active hobject hactive)
    hafter rfl (hnone.trans hreason.symm) hkeeps (hbears hkeeps), hkeeps⟩
  rw [hbefore, ite_self]

theorem Sound.writeReason (h : s.Sound) {asked : Option RequestId} {reason : Option String}
    (hpoint : s.calls[index]? = some (.writeReason asked token reason)) :
    Sound ⟨s.manager.writeReason token reason,
        s.calls.set index (.returned (.cancelled asked (some token) reason true))⟩ ∧
      s.manager.Keeps (s.manager.writeReason token reason) := by
  obtain ⟨object, hobject, hasked⟩ := h.bears _ (List.mem_of_getElem? hpoint)
  obtain ⟨hsole, hstate, hnone⟩ := h.endings_sole hpoint hobject (if_pos rfl)
  have hwrite : s.manager.writeReason token reason =
      s.manager.replace token { object with reason } := by
    rw [CancellationManager.writeReason, hobject]
  have hkeeps : s.manager.Keeps (s.manager.replace token { object with reason }) := by
    refine keeps_replace hobject rfl (fun _ => rfl) fun hsome => ?_
    rw [hnone] at hsome
    cases hsome
  rw [hwrite]
  refine ⟨h.ends (some .cancelling) (.cancelled reason) hpoint hobject (fun _ => rfl) hsole
    (fun _ => rfl) hstate rfl hkeeps ?_, hkeeps⟩
  refine ⟨{ object with reason }, by rw [objects_replace hobject, if_pos rfl], ?_, hasked⟩
  exact hstate ▸ Ending.state_ne_active .cancelling

/-- Each step of a call keeps the account, and takes back nothing that a task can see. -/
theorem Sound.advance (h : s.Sound) (hpoint : s.calls[index]? = some point) :
    Sound ⟨(s.manager.step point).1, s.calls.set index (s.manager.step point).2⟩ ∧
      s.manager.Keeps (s.manager.step point).1 := by
  have hbears := h.bears point (List.mem_of_getElem? hpoint)
  cases point with
  | createToken id => exact h.createToken hpoint
  | removeToken id =>
      have hkeeps : s.manager.Keeps (s.manager.removeToken id) :=
        keeps_of_objects ⟨[], (List.append_nil _).symm⟩
      refine ⟨h.moved hkeeps ?_ ?_ trivial, hkeeps⟩
      · intro key token hlookup
        exact h.keyed.has hkeeps (Table.lookup_of_lookup_erase hlookup)
      · intro token
        rw [endings_quiet hpoint]
        · exact h.accounts token
        · rfl
  | getToken id reason =>
      refine ⟨?_, .refl _⟩
      cases hfound : s.manager.getToken id with
      | none =>
          simp only [CancellationManager.step, hfound]
          exact h.quiet hpoint (fun _ => rfl) trivial
      | some token =>
          obtain ⟨object, hobject, hid⟩ := h.has_of_getToken hfound
          simp only [CancellationManager.step, hfound]
          refine h.quiet hpoint (fun _ => rfl) ⟨object, hobject, ?_⟩
          exact fun id' hsome => hid.trans (Option.some.inj hsome)
  | exchange asked token reason =>
      obtain ⟨object, hobject, hasked⟩ := hbears
      obtain ⟨hlost, hended⟩ | ⟨_, hthere, hactive, hwon⟩ :=
        exchange_cases s.manager token .cancelled
      · simp only [CancellationManager.step, hlost]
        refine ⟨h.quiet hpoint (fun _ => rfl) ?_, .refl _⟩
        exact ⟨object, hobject, hended object hobject, hasked⟩
      · obtain rfl := Option.some.inj (hobject.symm.trans hthere)
        simp only [CancellationManager.step, hwon]
        refine h.exchange .cancelling hpoint hobject hactive (fun _ => rfl) (fun _ => rfl) rfl ?_
        intro hkeeps
        have hbears : s.manager.Bears (.writeReason asked token reason) :=
          ⟨object, hobject, hasked⟩
        exact hbears.mono hkeeps
  | writeReason asked token reason => exact h.writeReason hpoint
  | complete token =>
      obtain ⟨object, hobject, -⟩ := hbears
      obtain ⟨hlost, hended⟩ | ⟨_, hthere, hactive, hwon⟩ :=
        exchange_cases s.manager token .completed
      · simp only [CancellationManager.step, hlost]
        refine ⟨h.quiet hpoint (fun _ => rfl) ?_, .refl _⟩
        exact ⟨object, hobject, hended object hobject⟩
      · obtain rfl := Option.some.inj (hobject.symm.trans hthere)
        simp only [CancellationManager.step, hwon]
        refine h.exchange .completed hpoint hobject hactive (fun _ => rfl) (fun _ => rfl) rfl ?_
        refine fun _ => ⟨_, by rw [objects_replace hobject, if_pos rfl], ?_⟩
        exact Ending.state_ne_active .completed
  | getAsked id =>
      refine ⟨?_, .refl _⟩
      cases hfound : s.manager.getToken id with
      | none =>
          simp only [CancellationManager.step, hfound]
          exact h.quiet hpoint (fun _ => rfl) trivial
      | some token =>
          simp only [CancellationManager.step, hfound]
          exact h.quiet hpoint (fun _ => rfl) (h.has_of_getToken hfound)
  | load id token =>
      refine ⟨h.quiet hpoint (fun _ => rfl) ?_, .refl _⟩
      rw [CancellationManager.step]
      cases hanswer : s.manager.isCancelled token with
      | false => trivial
      | true =>
          obtain ⟨object, hobject, hid⟩ := hbears
          rw [CancellationManager.isCancelled, hobject] at hanswer
          exact ⟨token, object, hobject, hid, of_decide_eq_true hanswer⟩
  | returned result => exact ⟨h.quiet hpoint (fun _ => rfl) hbears, .refl _⟩

end

theorem Sound.call (h : s.Sound) {call : CancelCall}
    (hheld : call.held.all (· < s.manager.objects.length) = true) :
    Sound { s with calls := s.calls ++ [call.start] } := by
  refine ⟨h.keyed, ?_, ?_⟩
  · intro token
    have hnone : call.start.ending token = none := by cases call <;> rfl
    have hsame : endings { s with calls := s.calls ++ [call.start] } token = s.endings token := by
      simp [endings, hnone]
    rw [hsame]
    exact h.accounts token
  · intro point hpoint
    obtain hpoint | hpoint := List.mem_append.mp hpoint
    · exact h.bears point hpoint
    · rw [List.mem_singleton.mp hpoint]
      cases call with
      | createToken | removeToken | cancel | isCancelled => trivial
      | cancelToken token reason =>
          have hlt : token < s.manager.objects.length := by simpa [CancelCall.held] using hheld
          exact ⟨_, List.getElem?_eq_getElem hlt, fun _ hnone => nomatch hnone⟩
      | completeToken token =>
          have hlt : token < s.manager.objects.length := by simpa [CancelCall.held] using hheld
          exact ⟨_, List.getElem?_eq_getElem hlt, trivial⟩

theorem Sound.step (h : s.Sound) (input : CancelStep) :
    (s.step input).Sound ∧ s.manager.Keeps (s.step input).manager := by
  cases input with
  | call call =>
      rw [SharedTokens.step]
      split
      · next hheld => exact ⟨h.call hheld, .refl _⟩
      · exact ⟨h, .refl _⟩
  | advance index =>
      cases hpoint : s.calls[index]? with
      | none =>
          simp only [SharedTokens.step, hpoint]
          exact ⟨h, .refl _⟩
      | some point =>
          simp only [SharedTokens.step, hpoint]
          exact h.advance hpoint

theorem sound_run (steps : List CancelStep) : (run steps).Sound :=
  invariant_foldl (fun s input (hs : s.Sound) => (hs.step input).1) sound_start steps

theorem Sound.keeps_run (h : s.Sound) (steps : List CancelStep) :
    s.manager.Keeps (steps.foldl SharedTokens.step s).manager := by
  induction steps generalizing s with
  | nil => exact .refl _
  | cons input rest ih =>
      obtain ⟨hnext, hkeeps⟩ := h.step input
      exact hkeeps.trans (ih hnext)

/-- However calls overlap, a token is active or was ended by one call alone: its state is the one
that call gave it, and its reason that of a cancellation that has returned. Nothing later changes
the end of a token or its reason. A cancellation by id only reaches tokens created for that id and
leaves them ended, and who is told that a request is cancelled is told so rightly. -/
theorem ended_once (steps later : List CancelStep) :
    (∀ token object, (run steps).manager.objects[token]? = some object →
      ((object.state = .active ∧ object.reason = none ∧ (run steps).endings token = []) ∨
        ∃ ending, (run steps).endings token = [ending] ∧ object.state = ending.state ∧
          object.reason = ending.reason) ∧
      ∃ object', (run (steps ++ later)).manager.objects[token]? = some object' ∧
        object'.requestId = object.requestId ∧
        (object.state ≠ .active → object'.state = object.state) ∧
        (object.reason.isSome → object'.reason = object.reason)) ∧
    (∀ id token reason won,
      .returned (.cancelled (some id) (some token) reason won) ∈ (run steps).calls →
      ∃ object, (run steps).manager.objects[token]? = some object ∧ object.requestId = id ∧
        object.state ≠ .active) ∧
    ∀ id, .returned (.isCancelled id true) ∈ (run steps).calls →
      ∃ (token : Nat) (object : CancellationToken),
        (run steps).manager.objects[token]? = some object ∧ object.requestId = id ∧
        object.state = .cancelled := by
  have hsound := sound_run steps
  refine ⟨?_, ?_, ?_⟩
  · intro token object hobject
    have haccounts := hsound.accounts token
    rw [hobject] at haccounts
    refine ⟨haccounts, ?_⟩
    rw [run, List.foldl_append]
    exact hsound.keeps_run later token object hobject
  · intro id token reason won hreturned
    obtain ⟨object, hobject, hended, hasked⟩ := hsound.bears _ hreturned
    exact ⟨object, hobject, hasked id rfl, hended⟩
  · intro id hreturned
    obtain ⟨token, object, hobject, hthere⟩ := hsound.bears _ hreturned
    exact ⟨token, object, hobject, hthere⟩

end SharedTokens

namespace CancellationManager
variable {m : CancellationManager}

/-- A cancellation by id that nothing comes between. -/
def cancel (m : CancellationManager) (id : RequestId) (reason : Option String) :
    CancellationManager :=
  match m.getToken id with
  | none => m
  | some token =>
      match m.exchange token .cancelled with
      | (true, m) => m.writeReason token reason
      | (false, m) => m

theorem finish_cancel (m : CancellationManager) (id : RequestId) (reason : Option String) :
    let found := m.step (.getToken id reason)
    let tried := found.1.step found.2
    (tried.1.step tried.2).1 = m.cancel id reason := by
  dsimp only [step, cancel]
  cases m.getToken id with
  | none => rfl
  | some token =>
      obtain ⟨hlost, -⟩ | ⟨object, -, -, hwon⟩ := exchange_cases m token .cancelled
      · simp only [hlost]
      · simp only [hwon]

/-- The table of the adapter, which keeps the tokens themselves, shows those of the manager. -/
def Shows (m : CancellationManager) (table : Table String CancellationToken) : Prop :=
  ∀ key, table.lookup key = (m.tokens.lookup key).bind fun token => m.objects[token]?

/-- A change of a token is seen under its own key alone. -/
theorem shows_replace (h : m.Keyed) {table : Table String CancellationToken}
    (hshows : m.Shows table) {key : String} {token : Nat} {object object' : CancellationToken}
    (hlookup : m.tokens.lookup key = some token) (hobject : m.objects[token]? = some object) :
    (m.replace token object').Shows (table.insert key object') := by
  intro other
  rw [Table.lookup_insert_eq]
  split
  · next heq =>
      subst heq
      have htokens : (m.replace token object').tokens.lookup other = some token := hlookup
      rw [htokens, Option.bind_some, objects_replace hobject, if_pos rfl]
  · next hne =>
      rw [hshows other]
      have htokens : (m.replace token object').tokens = m.tokens := rfl
      rw [htokens]
      cases hother : m.tokens.lookup other with
      | none => rfl
      | some held =>
          rw [Option.bind_some, Option.bind_some, objects_replace hobject, if_neg]
          rintro rfl
          obtain ⟨_, hthere, hkey⟩ := h _ _ hlookup
          obtain ⟨_, hthere', hkey'⟩ := h _ _ hother
          rw [hthere] at hthere'
          obtain rfl := Option.some.inj hthere'
          exact hne (hkey'.trans hkey.symm)

/-- The table that the handler of the adapter leaves. -/
theorem run_cancel (state : AdapterState) (key : String) (reason : Option String) :
    ((CompleteMcpAdapter.cancel key reason).run state).2.1.cancellation =
      match state.cancellation.lookup key with
      | some object =>
          if object.state = .active then setReason (cancelToken state.cancellation key) key reason
          else state.cancellation
      | none => state.cancellation := by
  cases hlookup : state.cancellation.lookup key with
  | none =>
      simp only [CompleteMcpAdapter.cancel, Prog.bind_def, Prog.run_andThen, Prog.read, Prog.act,
        Prog.run, Prog.onOk, hlookup]
      rfl
  | some object =>
      by_cases hactive : object.state = .active
      · simp [CompleteMcpAdapter.cancel, Prog.bind_def, Prog.run_andThen, Prog.read, Prog.act,
          Prog.run, Prog.onOk, Prog.write, hlookup, hactive]
      · have hsame : cancelToken state.cancellation key = state.cancellation := by
          simp [cancelToken, hlookup, hactive]
        simp [CompleteMcpAdapter.cancel, Prog.bind_def, Prog.run_andThen, Prog.read, Prog.act,
          Prog.run, Prog.onOk, hlookup, hactive, hsame]
        rfl

/-- The handler of the adapter cancels as the manager does. -/
theorem shows_cancel (h : m.Keyed) {state : AdapterState} (hshows : m.Shows state.cancellation)
    (id : RequestId) (reason : Option String) :
    (m.cancel id reason).Shows
      ((CompleteMcpAdapter.cancel (requestIdToKey id) reason).run state).2.1.cancellation := by
  rw [run_cancel, hshows, cancel, getToken]
  cases hlookup : m.tokens.lookup (requestIdToKey id) with
  | none => exact hshows
  | some token =>
      obtain ⟨object, hobject, -⟩ := h _ _ hlookup
      have hfound : state.cancellation.lookup (requestIdToKey id) = some object := by
        rw [hshows, hlookup, Option.bind_some, hobject]
      rw [Option.bind_some, hobject]
      dsimp only
      obtain ⟨hlost, hended⟩ | ⟨_, hthere, hactive, hwon⟩ := exchange_cases m token .cancelled
      · rw [hlost, if_neg (hended object hobject)]
        exact hshows
      · obtain rfl := Option.some.inj (hobject.symm.trans hthere)
        have hkeeps : m.Keeps (m.replace token { object with state := .cancelled }) :=
          keeps_replace hobject rfl (fun hended => absurd hactive hended) fun _ => rfl
        have hkeyed : (m.replace token { object with state := .cancelled }).Keyed :=
          fun key other hkept => h.has hkeeps hkept
        have hcancelled : (m.replace token { object with state := .cancelled }).Shows
            (state.cancellation.insert (requestIdToKey id) { object with state := .cancelled }) :=
          shows_replace h hshows hlookup hobject
        have hthere' : (m.replace token { object with state := .cancelled }).objects[token]? =
            some { object with state := .cancelled } := by
          rw [objects_replace hobject, if_pos rfl]
        rw [hwon, if_pos hactive, cancelToken, hfound]
        simp only [writeReason, hthere', setReason, if_pos hactive, AList.lookup_insert]
        exact shows_replace hkeyed hcancelled hlookup hthere'

end CancellationManager
end Dcp
