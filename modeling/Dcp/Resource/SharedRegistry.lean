import Dcp.Library.Accounting
import Dcp.Resource.Notification
import Dcp.SessionLimit

/-!
Subscriptions that come, go and are notified at the same time. A subscription lists its id for the
URI before its callback is stored, and an unsubscription takes the callback away before the id; a
notification copies the callbacks of the ids it finds at one moment, under both locks, and calls
them when the locks are free again. The handlers do not change once a registry is shared.
-/

namespace Dcp
open Library

/-- Where a call is: what it does next. A notification tells the callbacks it has called and those
that are left. -/
inductive RegistryPoint (Callback : Type)
  | subscribe (uri : String) (callback : Callback)
  | refused (error : ResourceError)
  | list (sub : Subscription Callback)
  | store (sub : Subscription Callback)
  | subscribed (sub : Subscription Callback)
  | unsubscribe (id : SubscriptionId)
  | unknown (id : SubscriptionId)
  | unlist (id : SubscriptionId)
  | unsubscribed (id : SubscriptionId)
  | notify (uri : String)
  | calling (uri : String) (called left : List (Callback × String))

inductive SubscriptionCall (Callback : Type)
  | subscribe (uri : String) (callback : Callback)
  | unsubscribe (id : SubscriptionId)
  | notifyChange (uri : String)

def SubscriptionCall.start {Callback : Type} : SubscriptionCall Callback → RegistryPoint Callback
  | subscribe uri callback => .subscribe uri callback
  | unsubscribe id => .unsubscribe id
  | notifyChange uri => .notify uri

namespace SubscribableRegistry
variable {Callback : Type}

def list (registry : SubscribableRegistry Callback) (sub : Subscription Callback) :
    SubscribableRegistry Callback :=
  { registry with
    subscriptions := registry.subscriptions.insert sub.uri (registry.ids sub.uri ++ [sub.id]) }

def store (registry : SubscribableRegistry Callback) (sub : Subscription Callback) :
    SubscribableRegistry Callback :=
  { registry with callbacks := registry.callbacks.insert sub.id sub.callback }

def removeCallback (registry : SubscribableRegistry Callback) (id : SubscriptionId) :
    SubscribableRegistry Callback :=
  { registry with callbacks := registry.callbacks.erase id }

def unlist (registry : SubscribableRegistry Callback) (id : SubscriptionId) :
    SubscribableRegistry Callback :=
  { registry with
    subscriptions := registry.subscriptions.mapValues fun ids =>
      ids.filter fun subId => subId ≠ id }

/-- One step of a call. -/
def step (registry : SubscribableRegistry Callback) (point : RegistryPoint Callback) :
    SubscribableRegistry Callback × RegistryPoint Callback :=
  match point with
  | .subscribe uri callback =>
      match registry.handlerFor uri with
      | .error e => (registry, .refused e)
      | .ok handler =>
          if ¬ handler.supportsSubscribe then (registry, .refused .subscriptionNotSupported)
          else
            ({ registry with subscriptionCounter := registry.subscriptionCounter + 1 },
              .list ⟨registry.subscriptionCounter, uri, callback⟩)
  | .list sub => (registry.list sub, .store sub)
  | .store sub => (registry.store sub, .subscribed sub)
  | .unsubscribe id =>
      if (registry.callbacks.lookup id).isSome then (registry.removeCallback id, .unlist id)
      else (registry, .unknown id)
  | .unlist id => (registry.unlist id, .unsubscribed id)
  | .notify uri => (registry, .calling uri [] (registry.notifyChange uri))
  | .calling uri called (call :: left) => (registry, .calling uri (called ++ [call]) left)
  | .calling _ _ [] | .refused _ | .subscribed _ | .unknown _ | .unsubscribed _ =>
      (registry, point)

end SubscribableRegistry

namespace RegistryPoint
variable {Callback : Type}

/-- The subscription that a call has drawn an id for. -/
def sub : RegistryPoint Callback → Option (Subscription Callback)
  | list sub | store sub | subscribed sub => some sub
  | _ => none

def drawn (point : RegistryPoint Callback) : Multiset SubscriptionId :=
  match point.sub with
  | some sub => {sub.id}
  | none => 0

/-- The subscription that the next step lists. -/
def lists : RegistryPoint Callback → List (Subscription Callback)
  | list sub => [sub]
  | _ => []

/-- The id that a call has drawn since. -/
def newId (before after : RegistryPoint Callback) : List SubscriptionId :=
  match before, after with
  | subscribe _ _, list sub => [sub.id]
  | _, _ => []

/-- The call has stored the callback of this id. -/
def stores (id : SubscriptionId) : RegistryPoint Callback → Bool
  | subscribed sub => sub.id = id
  | _ => false

/-- The call has taken the callback of this id away. -/
def removes (id : SubscriptionId) : RegistryPoint Callback → Bool
  | unlist removed | unsubscribed removed => removed = id
  | _ => false

/-- The call has taken this id off the lists. -/
def unlists (id : SubscriptionId) : RegistryPoint Callback → Bool
  | unsubscribed removed => removed = id
  | _ => false

end RegistryPoint

/-- A registry, the calls that were made on it, the ids that were drawn and the subscriptions in the
order they were listed. -/
structure SharedRegistry (Callback : Type) where
  registry : SubscribableRegistry Callback
  calls : List (RegistryPoint Callback)
  issued : List SubscriptionId
  listed : List (Subscription Callback)

inductive RegistryStep (Callback : Type)
  | call (call : SubscriptionCall Callback)
  | advance (index : Nat)

namespace SharedRegistry
variable {Callback : Type}

def start (handlers : ResourceRegistry) : SharedRegistry Callback :=
  ⟨{ SubscribableRegistry.new with toResourceRegistry := handlers }, [], [], []⟩

def advance (s : SharedRegistry Callback) (index : Nat) (point : RegistryPoint Callback) :
    SharedRegistry Callback :=
  let next := s.registry.step point
  ⟨next.1, s.calls.set index next.2, s.issued ++ point.newId next.2, s.listed ++ point.lists⟩

def step (s : SharedRegistry Callback) : RegistryStep Callback → SharedRegistry Callback
  | .call call => { s with calls := s.calls ++ [call.start] }
  | .advance index =>
      match s.calls[index]? with
      | none => s
      | some point => s.advance index point

def run (handlers : ResourceRegistry) (steps : List (RegistryStep Callback)) :
    SharedRegistry Callback :=
  steps.foldl step (start handlers)

def stored (s : SharedRegistry Callback) (id : SubscriptionId) : Bool := s.calls.any (·.stores id)

def removed (s : SharedRegistry Callback) (id : SubscriptionId) : Bool :=
  s.calls.any (·.removes id)

def unlisted (s : SharedRegistry Callback) (id : SubscriptionId) : Bool :=
  s.calls.any (·.unlists id)

/-- The subscriptions to a URI that have returned and that no call has begun to take away, in the
order they were listed. -/
def live (s : SharedRegistry Callback) (uri : String) : List (Subscription Callback) :=
  s.listed.filter fun sub => sub.uri = uri ∧ s.stored sub.id = true ∧ s.removed sub.id = false

end SharedRegistry

namespace SubscribableRegistry
variable {Callback : Type} (registry : SubscribableRegistry Callback)

theorem ids_list (sub : Subscription Callback) (uri : String) :
    (registry.list sub).ids uri = registry.ids uri ++ if sub.uri = uri then [sub.id] else [] := by
  rw [ids, list, Table.lookup_insert_eq]
  by_cases heq : sub.uri = uri
  · rw [if_pos heq.symm, if_pos heq, heq]
    rfl
  · rw [if_neg (Ne.symm heq), if_neg heq, List.append_nil]
    rfl

theorem ids_unlist (id : SubscriptionId) (uri : String) :
    (registry.unlist id).ids uri = (registry.ids uri).filter fun subId => subId ≠ id := by
  have hlookup := Table.lookup_mapValues (fun ids => ids.filter fun subId => subId ≠ id) uri
    registry.subscriptions
  rw [ids, unlist, hlookup, ids]
  cases registry.subscriptions.lookup uri <;> rfl

/-- What a step does: a subscription is refused or draws an id, or the call goes on alone. -/
theorem step_subscribe (uri : String) (callback : Callback) :
    (∃ e, registry.step (.subscribe uri callback) = (registry, .refused e)) ∨
      registry.step (.subscribe uri callback) =
        ({ registry with subscriptionCounter := registry.subscriptionCounter + 1 },
          .list ⟨registry.subscriptionCounter, uri, callback⟩) := by
  rw [step]
  cases registry.handlerFor uri with
  | error e => exact .inl ⟨e, rfl⟩
  | ok handler =>
      dsimp only
      split
      · exact .inl ⟨_, rfl⟩
      · exact .inr rfl

/-- A subscription that nothing comes between. -/
theorem finish_subscribe (uri : String) (callback : Callback) :
    let drawn := registry.step (.subscribe uri callback)
    let listed := drawn.1.step drawn.2
    (listed.1.step listed.2).1 = (registry.subscribe uri callback).2 := by
  cases hhandler : registry.handlerFor uri with
  | error e => simp only [step, subscribe, hhandler]
  | ok handler =>
      by_cases hsupports : handler.supportsSubscribe = true
      · simp only [step, subscribe, hhandler, hsupports, not_true_eq_false, if_false]
        rfl
      · simp only [step, subscribe, hhandler, hsupports, Bool.false_eq_true, not_false_eq_true,
          if_true]

/-- An unsubscription that nothing comes between. -/
theorem finish_unsubscribe (id : SubscriptionId) :
    let taken := registry.step (.unsubscribe id)
    (taken.1.step taken.2).1 = (registry.unsubscribe id).2 := by
  by_cases hsome : (registry.callbacks.lookup id).isSome = true
  · simp only [step, unsubscribe, hsome, if_true]
    rfl
  · simp only [step, unsubscribe, hsome, Bool.false_eq_true, if_false]

variable (point : RegistryPoint Callback)

theorem counter_step :
    (registry.step point).1.subscriptionCounter =
      registry.subscriptionCounter +
        UInt64.ofNat (point.newId (registry.step point).2).length := by
  fun_cases step registry point <;>
    simp [RegistryPoint.newId, list, store, removeCallback, unlist]

theorem newId_step :
    point.newId (registry.step point).2 = [] ∨
      point.newId (registry.step point).2 = [registry.subscriptionCounter] := by
  fun_cases step registry point <;> simp [RegistryPoint.newId]

theorem stores_step {id : SubscriptionId} (h : point.stores id = true) :
    (registry.step point).2.stores id = true := by
  cases point <;> first | exact h | cases h

theorem removes_step {id : SubscriptionId} (h : point.removes id = true) :
    (registry.step point).2.removes id = true := by
  cases point <;> first | exact h | cases h

theorem unlists_step {id : SubscriptionId} (h : point.unlists id = true) :
    (registry.step point).2.unlists id = true := by
  cases point <;> first | exact h | cases h

theorem drawn_step :
    (registry.step point).2.drawn =
      point.drawn + (point.newId (registry.step point).2 : Multiset SubscriptionId) := by
  fun_cases step registry point <;>
    simp [RegistryPoint.drawn, RegistryPoint.sub, RegistryPoint.newId]

end SubscribableRegistry

namespace RegistryPoint
variable {Callback : Type} {point : RegistryPoint Callback} {id : SubscriptionId}

theorem mem_drawn {sub : Subscription Callback} (h : point.sub = some sub) :
    sub.id ∈ point.drawn := by
  rw [drawn, h]
  exact Multiset.mem_singleton_self sub.id

/-- The call has begun to change the tables and has not returned. -/
def underway : RegistryPoint Callback → Bool
  | store _ | unlist _ => true
  | _ => false

/-- The point shows in what the tables hold. -/
def visible : RegistryPoint Callback → Bool
  | store _ | subscribed _ | unlist _ | unsubscribed _ => true
  | _ => false

theorem visible_of_flags (h : point.stores id = true ∨ point.removes id = true ∨
    point.unlists id = true) : point.visible = true := by
  cases point <;> first | rfl | simp [stores, removes, unlists] at h

theorem stores_iff : point.stores id = true ↔ ∃ sub, point = .subscribed sub ∧ sub.id = id := by
  cases point <;> simp [stores]

theorem removes_of_unlists (h : point.unlists id = true) : point.removes id = true := by
  cases point <;> first | exact h | cases h

end RegistryPoint

namespace SharedRegistry
variable {Callback : Type} {s : SharedRegistry Callback} {point : RegistryPoint Callback}
  {index : Nat}

/-- The tables hold the subscriptions that were listed and are not unlisted, and the callbacks that
were stored and are not removed. Only what was stored is removed, and by one call. -/
structure Tracks (s : SharedRegistry Callback) : Prop where
  ids : ∀ uri, s.registry.ids uri = (s.listed.filter fun sub =>
    sub.uri = uri ∧ s.unlisted sub.id = false).map Subscription.id
  callbacks : ∀ id callback, s.registry.callbacks.lookup id = some callback ↔
    (∃ sub, .subscribed sub ∈ s.calls ∧ sub.id = id ∧ sub.callback = callback) ∧
      s.removed id = false
  stored_of_removed : ∀ id, s.removed id = true → s.stored id = true
  listed : ∀ sub, sub ∈ s.listed ↔ .store sub ∈ s.calls ∨ .subscribed sub ∈ s.calls
  nodup : (s.listed.map Subscription.id).Nodup
  once : ∀ (i j : Nat) (a b : RegistryPoint Callback) (id : SubscriptionId),
    s.calls[i]? = some a → s.calls[j]? = some b → a.removes id = true → b.removes id = true → i = j

/-- Every id that was drawn is with one call, and as long as ids are not used up the tables are in
order. -/
structure Sound (s : SharedRegistry Callback) : Prop where
  issued : s.issued = idsFrom1 s.issued.length
  counter : s.registry.subscriptionCounter = UInt64.ofNat (s.issued.length + 1)
  drawn : (s.calls.map RegistryPoint.drawn).sum = (s.issued : Multiset SubscriptionId)
  tracks : s.issued.length ≤ 2 ^ 64 → s.Tracks

theorem sound_start (handlers : ResourceRegistry) :
    (start handlers : SharedRegistry Callback).Sound := by
  refine ⟨rfl, rfl, rfl, fun _ => ⟨fun _ => rfl, ?_, ?_, ?_, List.nodup_nil, ?_⟩⟩
  · intro id callback
    constructor
    · intro hnone
      cases hnone
    · rintro ⟨⟨sub, hsub, -⟩, -⟩
      cases hsub
  · intro id hremoved
    cases hremoved
  · intro sub
    constructor
    · intro hmem
      cases hmem
    · rintro (hmem | hmem) <;> cases hmem
  · intro i j a b id ha
    cases ha

/-- No two calls have one id, unless the counter has gone round. -/
theorem Sound.apart (h : s.Sound) (hfew : s.issued.length ≤ 2 ^ 64) {i j : Nat}
    {a b : RegistryPoint Callback} {id : SubscriptionId} (hi : s.calls[i]? = some a)
    (hj : s.calls[j]? = some b) (ha : id ∈ a.drawn) (hb : id ∈ b.drawn) : i = j := by
  have hnodup : (s.calls.map RegistryPoint.drawn).sum.Nodup := by
    rw [h.drawn, h.issued]
    exact (nodup_idsFrom1_iff _).mpr hfew
  exact index_eq_of_nodup_sum hnodup hi hj ha hb

/-- A call that has an id is the only one that has it. -/
theorem Sound.only (h : s.Sound) (hfew : s.issued.length ≤ 2 ^ 64)
    (hpoint : s.calls[index]? = some point) {sub sub' : Subscription Callback}
    (hsub : point.sub = some sub) (hid : sub'.id = sub.id) {other : RegistryPoint Callback}
    (hother : other ∈ s.calls) (hsub' : other.sub = some sub') : other = point := by
  obtain ⟨j, hj⟩ := List.mem_iff_getElem?.mp hother
  have hmem := RegistryPoint.mem_drawn hsub'
  rw [hid] at hmem
  have hsame := h.apart hfew hpoint hj (RegistryPoint.mem_drawn hsub) hmem
  subst hsame
  exact Option.some.inj (hj.symm.trans hpoint)

/-- The id of a subscription that has not returned is neither stored nor removed. -/
theorem Sound.fresh (h : s.Sound) (hfew : s.issued.length ≤ 2 ^ 64)
    (hpoint : s.calls[index]? = some point) {sub : Subscription Callback}
    (hsub : point.sub = some sub) (hnot : ∀ sub', point ≠ .subscribed sub') :
    s.stored sub.id = false ∧ s.removed sub.id = false ∧ s.unlisted sub.id = false := by
  have hstores : s.stored sub.id = false := by
    rw [stored, List.any_eq_false]
    intro other hother hstores
    obtain ⟨sub', rfl, hid⟩ := RegistryPoint.stores_iff.mp hstores
    exact hnot sub' (h.only hfew hpoint hsub hid hother rfl).symm
  have hremoves : s.removed sub.id = false := by
    refine Bool.eq_false_iff.mpr fun hremoved => ?_
    rw [(h.tracks hfew).stored_of_removed sub.id hremoved] at hstores
    cases hstores
  refine ⟨hstores, hremoves, ?_⟩
  rw [removed, List.any_eq_false] at hremoves
  rw [unlisted, List.any_eq_false]
  intro other hother hunlists
  exact hremoves other hother (RegistryPoint.removes_of_unlists hunlists)

/-- Calls that do not show go on. -/
theorem Tracks.unseen (h : s.Tracks) {s' : SharedRegistry Callback}
    (hsubscriptions : s'.registry.subscriptions = s.registry.subscriptions)
    (hcallbacks : s'.registry.callbacks = s.registry.callbacks) (hlisted : s'.listed = s.listed)
    (hcalls : ∀ (i : Nat) (point : RegistryPoint Callback), point.visible = true →
      (s'.calls[i]? = some point ↔ s.calls[i]? = some point)) : s'.Tracks := by
  have hmem : ∀ point : RegistryPoint Callback, point.visible = true →
      (point ∈ s'.calls ↔ point ∈ s.calls) := by
    intro point hvisible
    simp only [List.mem_iff_getElem?, hcalls _ point hvisible]
  have hany : ∀ p : RegistryPoint Callback → Bool, (∀ point, p point = true →
      point.visible = true) → s'.calls.any p = s.calls.any p := by
    intro p hp
    rw [Bool.eq_iff_iff, List.any_eq_true, List.any_eq_true]
    refine exists_congr fun point => and_congr_left fun hpoint => ?_
    exact hmem point (hp point hpoint)
  have hstores : ∀ id, s'.stored id = s.stored id := fun id =>
    hany (·.stores id) fun _ hflag => RegistryPoint.visible_of_flags (.inl hflag)
  have hremoves : ∀ id, s'.removed id = s.removed id := fun id =>
    hany (·.removes id) fun _ hflag => RegistryPoint.visible_of_flags (.inr (.inl hflag))
  have hunlists : ∀ id, s'.unlisted id = s.unlisted id := fun id =>
    hany (·.unlists id) fun _ hflag => RegistryPoint.visible_of_flags (.inr (.inr hflag))
  refine ⟨?_, ?_, ?_, ?_, hlisted ▸ h.nodup, ?_⟩
  · intro uri
    simp only [hlisted, hunlists, ← h.ids uri, SubscribableRegistry.ids, hsubscriptions]
  · intro id callback
    rw [hcallbacks, h.callbacks, hremoves]
    simp only [hmem (.subscribed _) rfl]
  · intro id
    rw [hremoves, hstores]
    exact h.stored_of_removed id
  · intro sub
    rw [hlisted, h.listed, hmem (.store sub) rfl, hmem (.subscribed sub) rfl]
  · intro i j a b id hi hj ha hb
    rw [hcalls i a (RegistryPoint.visible_of_flags (.inr (.inl ha)))] at hi
    rw [hcalls j b (RegistryPoint.visible_of_flags (.inr (.inl hb)))] at hj
    exact h.once i j a b id hi hj ha hb

theorem Tracks.idle (h : s.Tracks) (hpoint : s.calls[index]? = some point)
    (hbefore : point.visible = false) (hlists : point.lists = [])
    (hafter : (s.registry.step point).2.visible = false)
    (hsubscriptions : (s.registry.step point).1.subscriptions = s.registry.subscriptions)
    (hcallbacks : (s.registry.step point).1.callbacks = s.registry.callbacks) :
    (s.advance index point).Tracks := by
  refine h.unseen hsubscriptions hcallbacks ?_ ?_
  · exact (congrArg (s.listed ++ ·) hlists).trans (List.append_nil _)
  · intro i seen hvisible
    change (s.calls.set index _)[i]? = some seen ↔ _
    have hlt := (List.getElem?_eq_some_iff.mp hpoint).1
    by_cases heq : index = i
    · subst heq
      rw [List.getElem?_set_self hlt, hpoint]
      refine iff_of_false ?_ ?_
      · intro hsame
        rw [Option.some.inj hsame, hvisible] at hafter
        cases hafter
      · intro hsame
        rw [Option.some.inj hsame, hvisible] at hbefore
        cases hbefore
    · rw [List.getElem?_set_ne heq]

theorem Tracks.stay (h : s.Tracks) (hpoint : s.calls[index]? = some point)
    (hlists : point.lists = []) (hsame : s.registry.step point = (s.registry, point)) :
    (s.advance index point).Tracks := by
  refine h.unseen ?_ ?_ ?_ ?_
  · exact congrArg (fun next => next.1.subscriptions) hsame
  · exact congrArg (fun next => next.1.callbacks) hsame
  · exact (congrArg (s.listed ++ ·) hlists).trans (List.append_nil _)
  · intro i seen _
    change (s.calls.set index (s.registry.step point).2)[i]? = some seen ↔ _
    rw [hsame, set_of_getElem? hpoint]

/-- Still one call removes what is removed, if the step removes nothing else. -/
theorem Tracks.once_set (h : s.Tracks) (hpoint : s.calls[index]? = some point)
    {point' : RegistryPoint Callback}
    (hremoves : ∀ id, point'.removes id = true → point.removes id = true) {i j : Nat}
    {a b : RegistryPoint Callback} {id : SubscriptionId}
    (hi : (s.calls.set index point')[i]? = some a) (hj : (s.calls.set index point')[j]? = some b)
    (ha : a.removes id = true) (hb : b.removes id = true) : i = j := by
  have hlt := (List.getElem?_eq_some_iff.mp hpoint).1
  have hbefore : ∀ {k : Nat} {c : RegistryPoint Callback},
      (s.calls.set index point')[k]? = some c → c.removes id = true →
        ∃ c', s.calls[k]? = some c' ∧ c'.removes id = true := by
    intro k c hk hc
    by_cases heq : index = k
    · subst heq
      rw [List.getElem?_set_self hlt] at hk
      obtain rfl := Option.some.inj hk
      exact ⟨point, hpoint, hremoves id hc⟩
    · rw [List.getElem?_set_ne heq] at hk
      exact ⟨c, hk, hc⟩
  obtain ⟨a', hi', ha'⟩ := hbefore hi ha
  obtain ⟨b', hj', hb'⟩ := hbefore hj hb
  exact h.once i j a' b' id hi' hj' ha' hb'

section Advance
variable (hpoint : s.calls[index]? = some point) (id : SubscriptionId)
include hpoint

theorem stored_advance : (s.advance index point).stored id =
    (s.stored id || (s.registry.step point).2.stores id) :=
  any_set hpoint (s.registry.stores_step point)

theorem removed_advance : (s.advance index point).removed id =
    (s.removed id || (s.registry.step point).2.removes id) :=
  any_set hpoint (s.registry.removes_step point)

theorem unlisted_advance : (s.advance index point).unlisted id =
    (s.unlisted id || (s.registry.step point).2.unlists id) :=
  any_set hpoint (s.registry.unlists_step point)

theorem mem_advance_iff {other : RegistryPoint Callback} (hne : other ≠ point) :
    other ∈ (s.advance index point).calls ↔
      other = (s.registry.step point).2 ∨ other ∈ s.calls :=
  mem_set_iff hpoint hne

end Advance

theorem Tracks.list (h : s.Tracks) {sub : Subscription Callback}
    (hpoint : s.calls[index]? = some (.list sub)) (hunlists : s.unlisted sub.id = false)
    (hnew : sub.id ∉ s.listed.map Subscription.id) : (s.advance index (.list sub)).Tracks := by
  have hstored : ∀ id, (s.advance index (.list sub)).stored id = s.stored id :=
    fun id => (stored_advance hpoint id).trans (Bool.or_false _)
  have hremoved : ∀ id, (s.advance index (.list sub)).removed id = s.removed id :=
    fun id => (removed_advance hpoint id).trans (Bool.or_false _)
  have hunlisted : ∀ id, (s.advance index (.list sub)).unlisted id = s.unlisted id :=
    fun id => (unlisted_advance hpoint id).trans (Bool.or_false _)
  have hmem : ∀ sub', .subscribed sub' ∈ (s.advance index (.list sub)).calls ↔
      .subscribed sub' ∈ s.calls := by
    intro sub'
    rw [mem_advance_iff hpoint (by simp)]
    exact or_iff_right (by simp [SubscribableRegistry.step])
  have hlisted : (s.advance index (.list sub)).listed = s.listed ++ [sub] := rfl
  refine ⟨?_, ?_, ?_, ?_, ?_, ?_⟩
  · intro uri
    simp only [hlisted, hunlisted]
    refine (s.registry.ids_list sub uri).trans ?_
    rw [h.ids, List.filter_append, List.map_append]
    by_cases huri : sub.uri = uri <;> simp [huri, hunlists]
  · intro id callback
    simp only [hmem, hremoved]
    exact h.callbacks id callback
  · intro id
    rw [hremoved, hstored]
    exact h.stored_of_removed id
  · intro sub'
    rw [hmem, mem_advance_iff hpoint (by simp), hlisted, List.mem_append, List.mem_singleton,
      h.listed]
    simp only [SubscribableRegistry.step, RegistryPoint.store.injEq]
    tauto
  · rw [hlisted, List.map_append, List.map_singleton, List.nodup_append]
    refine ⟨h.nodup, List.nodup_singleton _, ?_⟩
    intro id hid id' hid' heq
    rw [List.mem_singleton.mp hid'] at heq
    exact hnew (heq ▸ hid)
  · intro i j a b id hi hj
    refine h.once_set hpoint (fun _ hremoves => ?_) hi hj
    cases hremoves

theorem Tracks.store (h : s.Tracks) {sub : Subscription Callback}
    (hpoint : s.calls[index]? = some (.store sub)) (hremoves : s.removed sub.id = false)
    (hstores : s.stored sub.id = false) : (s.advance index (.store sub)).Tracks := by
  have hstored : ∀ id, (s.advance index (.store sub)).stored id =
      (s.stored id || decide (sub.id = id)) := fun id => stored_advance hpoint id
  have hremoved : ∀ id, (s.advance index (.store sub)).removed id = s.removed id :=
    fun id => (removed_advance hpoint id).trans (Bool.or_false _)
  have hunlisted : ∀ id, (s.advance index (.store sub)).unlisted id = s.unlisted id :=
    fun id => (unlisted_advance hpoint id).trans (Bool.or_false _)
  have hmem : ∀ sub', .subscribed sub' ∈ (s.advance index (.store sub)).calls ↔
      sub' = sub ∨ .subscribed sub' ∈ s.calls := by
    intro sub'
    rw [mem_advance_iff hpoint (by simp)]
    simp only [SubscribableRegistry.step, RegistryPoint.subscribed.injEq]
  have hother : ∀ sub', .subscribed sub' ∈ s.calls → sub'.id ≠ sub.id := by
    intro sub' hsub' heq
    rw [stored, List.any_eq_false] at hstores
    exact hstores _ hsub' (RegistryPoint.stores_iff.mpr ⟨sub', rfl, heq⟩)
  have hlisted : (s.advance index (.store sub)).listed = s.listed := List.append_nil _
  refine ⟨?_, ?_, ?_, ?_, hlisted ▸ h.nodup, ?_⟩
  · intro uri
    simp only [hlisted, hunlisted]
    exact h.ids uri
  · intro id callback
    change (s.registry.callbacks.insert sub.id sub.callback).lookup id = some callback ↔ _
    simp only [hmem, hremoved, Table.lookup_insert_eq]
    split
    · next heq =>
        subst heq
        simp only [Option.some.injEq, hremoves, and_true]
        constructor
        · intro hcallback
          exact ⟨sub, .inl rfl, rfl, hcallback⟩
        · rintro ⟨sub', rfl | hsub', hid, hcallback⟩
          · exact hcallback
          · exact absurd hid (hother sub' hsub')
    · next hne =>
        rw [h.callbacks]
        refine and_congr_left fun _ => exists_congr fun sub' => ?_
        refine and_congr_left fun hsub' => (or_iff_right ?_).symm
        rintro rfl
        exact hne hsub'.1.symm
  · intro id hid
    rw [hremoved] at hid
    rw [hstored, h.stored_of_removed id hid, Bool.true_or]
  · intro sub'
    rw [hmem, hlisted, h.listed]
    constructor
    · rintro (hstore | hsubscribed)
      · by_cases heq : sub' = sub
        · exact .inr (.inl heq)
        · refine .inl ((mem_advance_iff hpoint ?_).mpr (.inr hstore))
          simpa using heq
      · exact .inr (.inr hsubscribed)
    · rintro (hstore | rfl | hsubscribed)
      · obtain hsame | hstore := eq_or_mem_of_mem_set hstore
        · cases hsame
        · exact .inl hstore
      · exact .inl (List.mem_of_getElem? hpoint)
      · exact .inr hsubscribed
  · intro i j a b id hi hj
    refine h.once_set hpoint (fun _ hremoves => ?_) hi hj
    cases hremoves

theorem Tracks.removeCallback (h : s.Tracks) {id : SubscriptionId}
    (hpoint : s.calls[index]? = some (.unsubscribe id))
    (hsome : (s.registry.callbacks.lookup id).isSome) :
    (s.advance index (.unsubscribe id)).Tracks := by
  have hstep : s.registry.step (.unsubscribe id) = (s.registry.removeCallback id, .unlist id) :=
    if_pos hsome
  have hstored : ∀ id', (s.advance index (.unsubscribe id)).stored id' = s.stored id' := by
    intro id'
    rw [stored_advance hpoint, hstep]
    exact Bool.or_false _
  have hremoved : ∀ id', (s.advance index (.unsubscribe id)).removed id' =
      (s.removed id' || decide (id = id')) := by
    intro id'
    rw [removed_advance hpoint, hstep]
    rfl
  have hunlisted : ∀ id', (s.advance index (.unsubscribe id)).unlisted id' = s.unlisted id' := by
    intro id'
    rw [unlisted_advance hpoint, hstep]
    exact Bool.or_false _
  have hmem : ∀ point : RegistryPoint Callback, point.sub.isSome →
      (point ∈ (s.advance index (.unsubscribe id)).calls ↔ point ∈ s.calls) := by
    intro point hsub
    rw [mem_advance_iff hpoint (by rintro rfl; cases hsub), hstep]
    refine or_iff_right ?_
    rintro rfl
    cases hsub
  have hlisted : (s.advance index (.unsubscribe id)).listed = s.listed := List.append_nil _
  obtain ⟨callback₀, hfound⟩ := Option.isSome_iff_exists.mp hsome
  obtain ⟨⟨sub₀, hsub₀, hid₀, -⟩, hnot⟩ := (h.callbacks id callback₀).mp hfound
  refine ⟨?_, ?_, ?_, ?_, hlisted ▸ h.nodup, ?_⟩
  · intro uri
    simp only [hlisted, hunlisted, ← h.ids uri]
    simp only [advance, hstep]
    rfl
  · intro id' callback
    have htable : (s.advance index (.unsubscribe id)).registry.callbacks =
        s.registry.callbacks.erase id := by
      simp only [advance, hstep]
      rfl
    rw [htable, Table.lookup_erase_eq, hremoved]
    split
    · next heq =>
        subst heq
        simp
    · next hne =>
        rw [h.callbacks, decide_eq_false (Ne.symm hne), Bool.or_false]
        simp only [hmem (.subscribed _) rfl]
  · intro id' hid'
    rw [hremoved, Bool.or_eq_true, decide_eq_true_eq] at hid'
    rw [hstored]
    obtain hbefore | rfl := hid'
    · exact h.stored_of_removed id' hbefore
    · exact List.any_eq_true.mpr ⟨_, hsub₀, RegistryPoint.stores_iff.mpr ⟨sub₀, rfl, hid₀⟩⟩
  · intro sub
    rw [hlisted, h.listed, hmem (.store sub) rfl, hmem (.subscribed sub) rfl]
  · -- the callback was there, so that no other call has removed it
    have hnew : ∀ {i : Nat} {c : RegistryPoint Callback} {id' : SubscriptionId},
        (s.advance index (.unsubscribe id)).calls[i]? = some c → c.removes id' = true →
          i = index ∧ id' = id ∨ i ≠ index ∧ id' ≠ id ∧ s.calls[i]? = some c := by
      intro i c id' hi hc
      have hcalls : (s.advance index (.unsubscribe id)).calls = s.calls.set index (.unlist id) := by
        simp only [advance, hstep]
      rw [hcalls] at hi
      by_cases heq : index = i
      · subst heq
        rw [List.getElem?_set_self (List.getElem?_eq_some_iff.mp hpoint).1] at hi
        obtain rfl := Option.some.inj hi
        exact .inl ⟨rfl, (of_decide_eq_true hc).symm⟩
      · rw [List.getElem?_set_ne heq] at hi
        refine .inr ⟨Ne.symm heq, ?_, hi⟩
        rintro rfl
        rw [removed, List.any_eq_false] at hnot
        exact hnot c (List.mem_of_getElem? hi) hc
    intro i j a b id' hi hj ha hb
    obtain ⟨hindex, hid⟩ | ⟨-, hne, hi⟩ := hnew hi ha
    · obtain ⟨hindex', -⟩ | ⟨-, hne, -⟩ := hnew hj hb
      · exact hindex.trans hindex'.symm
      · exact absurd hid hne
    · obtain ⟨-, hid⟩ | ⟨-, -, hj⟩ := hnew hj hb
      · exact absurd hid hne
      · exact h.once i j a b id' hi hj ha hb

theorem Tracks.unlist (h : s.Tracks) {id : SubscriptionId}
    (hpoint : s.calls[index]? = some (.unlist id)) : (s.advance index (.unlist id)).Tracks := by
  have hstored : ∀ id', (s.advance index (.unlist id)).stored id' = s.stored id' :=
    fun id' => (stored_advance hpoint id').trans (Bool.or_false _)
  have hremoved : ∀ id', (s.advance index (.unlist id)).removed id' = s.removed id' := by
    intro id'
    rw [removed_advance hpoint]
    change (s.removed id' || decide (id = id')) = s.removed id'
    by_cases heq : id = id'
    · have hbefore : s.removed id' = true :=
        List.any_eq_true.mpr ⟨_, List.mem_of_getElem? hpoint, decide_eq_true heq⟩
      rw [hbefore, Bool.true_or]
    · rw [decide_eq_false heq, Bool.or_false]
  have hunlisted : ∀ id', (s.advance index (.unlist id)).unlisted id' =
      (s.unlisted id' || decide (id = id')) := fun id' => unlisted_advance hpoint id'
  have hmem : ∀ point : RegistryPoint Callback, point.sub.isSome →
      (point ∈ (s.advance index (.unlist id)).calls ↔ point ∈ s.calls) := by
    intro point hsub
    rw [mem_advance_iff hpoint (by rintro rfl; cases hsub)]
    refine or_iff_right ?_
    rintro rfl
    cases hsub
  have hlisted : (s.advance index (.unlist id)).listed = s.listed := List.append_nil _
  refine ⟨?_, ?_, ?_, ?_, hlisted ▸ h.nodup, ?_⟩
  · intro uri
    refine (s.registry.ids_unlist id uri).trans ?_
    rw [h.ids, List.filter_map, List.filter_filter, hlisted]
    refine congrArg (List.map _) (List.filter_congr fun sub _ => ?_)
    rw [hunlisted]
    simp only [Function.comp_apply, Bool.or_eq_false_iff, decide_eq_false_iff_not, ne_eq,
      eq_comm (a := id)]
    rw [Bool.eq_iff_iff]
    simp
    tauto
  · intro id' callback
    rw [hremoved]
    simp only [hmem (.subscribed _) rfl]
    exact h.callbacks id' callback
  · intro id'
    rw [hremoved, hstored]
    exact h.stored_of_removed id'
  · intro sub
    rw [hlisted, h.listed, hmem (.store sub) rfl, hmem (.subscribed sub) rfl]
  · intro i j a b id' hi hj
    have hsame : ∀ id', (.unsubscribed id : RegistryPoint Callback).removes id' = true →
        (.unlist id : RegistryPoint Callback).removes id' = true := fun _ hremoves => hremoves
    exact h.once_set hpoint hsame hi hj

theorem Sound.tracks_advance (h : s.Sound) (hfew : s.issued.length ≤ 2 ^ 64)
    (hpoint : s.calls[index]? = some point) : (s.advance index point).Tracks := by
  have htracks := h.tracks hfew
  cases point with
  | subscribe uri callback =>
      obtain ⟨e, hstep⟩ | hstep := s.registry.step_subscribe uri callback
      · exact htracks.idle hpoint rfl rfl (by rw [hstep]; rfl) (by rw [hstep]) (by rw [hstep])
      · exact htracks.idle hpoint rfl rfl (by rw [hstep]; rfl) (by rw [hstep]) (by rw [hstep])
  | refused | subscribed | unknown | unsubscribed => exact htracks.stay hpoint rfl rfl
  | list sub =>
      obtain ⟨-, -, hunlists⟩ := h.fresh hfew hpoint rfl (by simp)
      refine htracks.list hpoint hunlists fun hmem => ?_
      obtain ⟨sub', hsub', hid⟩ := List.mem_map.mp hmem
      obtain hstore | hsubscribed := (htracks.listed sub').mp hsub'
      · exact nomatch h.only hfew hpoint rfl hid hstore rfl
      · exact nomatch h.only hfew hpoint rfl hid hsubscribed rfl
  | store sub =>
      obtain ⟨hstores, hremoves, -⟩ := h.fresh hfew hpoint rfl (by simp)
      exact htracks.store hpoint hremoves hstores
  | unsubscribe id =>
      by_cases hsome : (s.registry.callbacks.lookup id).isSome = true
      · exact htracks.removeCallback hpoint hsome
      · have hstep : s.registry.step (.unsubscribe id) = (s.registry, .unknown id) := if_neg hsome
        exact htracks.idle hpoint rfl rfl (by rw [hstep]; rfl) (by rw [hstep]) (by rw [hstep])
  | unlist id => exact htracks.unlist hpoint
  | notify uri => exact htracks.idle hpoint rfl rfl rfl rfl rfl
  | calling uri called left =>
      cases left with
      | nil => exact htracks.stay hpoint rfl rfl
      | cons call left => exact htracks.idle hpoint rfl rfl rfl rfl rfl

theorem Sound.advance (h : s.Sound) (hpoint : s.calls[index]? = some point) :
    (s.advance index point).Sound := by
  obtain ⟨hissued, hcounter⟩ := idsFrom1_draw h.issued h.counter (s.registry.newId_step point)
  refine ⟨hissued, (s.registry.counter_step point).trans hcounter, ?_, fun hfew => ?_⟩
  · have hsum := sum_map_set RegistryPoint.drawn (s.registry.step point).2 hpoint
    simp only [SharedRegistry.advance, ← Multiset.coe_add, ← h.drawn]
    refine add_right_cancel (b := point.drawn) ?_
    rw [hsum, s.registry.drawn_step, add_right_comm, add_assoc]
  · refine h.tracks_advance (Nat.le_trans ?_ hfew) hpoint
    change s.issued.length ≤ (s.issued ++ point.newId (s.registry.step point).2).length
    rw [List.length_append]
    exact Nat.le_add_right _ _

theorem Sound.call (h : s.Sound) (call : SubscriptionCall Callback) :
    Sound { s with calls := s.calls ++ [call.start] } := by
  have hnew : call.start.drawn = 0 ∧ call.start.visible = false := by
    cases call <;> exact ⟨rfl, rfl⟩
  refine ⟨h.issued, h.counter, ?_, fun hfew => ?_⟩
  · simpa [hnew.1] using h.drawn
  · refine (h.tracks hfew).unseen rfl rfl rfl fun i seen hvisible => ?_
    rw [List.getElem?_append]
    split
    · rfl
    · next hge =>
        rw [List.getElem?_eq_none (Nat.le_of_not_lt hge)]
        refine iff_of_false (fun hsame => ?_) (fun hnone => nomatch hnone)
        have hmem := List.mem_singleton.mp (List.mem_of_getElem? hsame)
        rw [hmem, hnew.2] at hvisible
        cases hvisible

theorem Sound.step (h : s.Sound) (input : RegistryStep Callback) : (s.step input).Sound := by
  cases input with
  | call call => exact h.call call
  | advance index =>
      cases hpoint : s.calls[index]? with
      | none =>
          simp only [SharedRegistry.step, hpoint]
          exact h
      | some point =>
          simp only [SharedRegistry.step, hpoint]
          exact h.advance hpoint

theorem sound_run (handlers : ResourceRegistry) (steps : List (RegistryStep Callback)) :
    (run handlers steps).Sound := by
  refine invariant_foldl (fun s input (hs : s.Sound) => ?_) (sound_start handlers) steps
  exact hs.step input

/-- What a listed subscription has in the table of callbacks. -/
theorem Tracks.lookup_listed (h : s.Tracks) {sub : Subscription Callback} (hsub : sub ∈ s.listed) :
    s.registry.callbacks.lookup sub.id =
      if s.stored sub.id = true ∧ s.removed sub.id = false then some sub.callback else none := by
  split
  · next halive =>
      obtain ⟨point, hpoint, hstores⟩ := List.any_eq_true.mp halive.1
      obtain ⟨sub', rfl, hid⟩ := RegistryPoint.stores_iff.mp hstores
      have hsame : sub' = sub :=
        List.inj_on_of_nodup_map h.nodup ((h.listed sub').mpr (.inr hpoint)) hsub hid
      exact (h.callbacks sub.id sub.callback).mpr ⟨⟨sub', hpoint, hid, by rw [hsame]⟩, halive.2⟩
  · next hnot =>
      refine Option.eq_none_iff_forall_not_mem.mpr fun callback hfound => hnot ?_
      obtain ⟨⟨sub', hsub', hid, -⟩, hremoves⟩ := (h.callbacks sub.id callback).mp hfound
      exact ⟨List.any_eq_true.mpr ⟨_, hsub', RegistryPoint.stores_iff.mpr ⟨sub', rfl, hid⟩⟩,
        hremoves⟩

theorem unlisted_of_removed_false {id : SubscriptionId} (h : s.removed id = false) :
    s.unlisted id = false := by
  rw [removed, List.any_eq_false] at h
  rw [unlisted, List.any_eq_false]
  exact fun point hpoint hunlists => h point hpoint (RegistryPoint.removes_of_unlists hunlists)

/-- A notification calls the subscriptions that are alive. -/
theorem Tracks.notifyChange_eq (h : s.Tracks) (uri : String) :
    s.registry.notifyChange uri = (s.live uri).map fun sub => (sub.callback, uri) := by
  have hcalled : (s.listed.filter fun sub =>
      sub.uri = uri ∧ s.unlisted sub.id = false).filterMap
        ((fun id => s.registry.callbacks.lookup id) ∘ Subscription.id) =
      (s.live uri).map Subscription.callback := by
    rw [live, ← List.filterMap_eq_map, List.filterMap_filter, List.filterMap_filter]
    refine List.filterMap_congr fun sub hsub => ?_
    simp only [Function.comp_apply, h.lookup_listed hsub]
    by_cases halive : s.stored sub.id = true ∧ s.removed sub.id = false
    · simp [halive, unlisted_of_removed_false halive.2]
    · simp [halive]
  rw [SubscribableRegistry.notifyChange, h.ids, List.filterMap_map, hcalled, List.map_map]
  rfl

theorem Tracks.mem_live_iff (h : s.Tracks) {uri : String} {sub : Subscription Callback} :
    sub ∈ s.live uri ↔ sub.uri = uri ∧ .subscribed sub ∈ s.calls ∧ s.removed sub.id = false := by
  rw [live, List.mem_filter, decide_eq_true_eq, and_left_comm]
  refine and_congr_right fun _ => ?_
  constructor
  · rintro ⟨hsub, hstores, hremoves⟩
    refine ⟨?_, hremoves⟩
    obtain ⟨point, hpoint, hpoint'⟩ := List.any_eq_true.mp hstores
    obtain ⟨sub', rfl, hid⟩ := RegistryPoint.stores_iff.mp hpoint'
    have hsame : sub' = sub :=
      List.inj_on_of_nodup_map h.nodup ((h.listed sub').mpr (.inr hpoint)) hsub hid
    exact hsame ▸ hpoint
  · rintro ⟨hsubscribed, hremoves⟩
    refine ⟨(h.listed sub).mpr (.inr hsubscribed), ?_, hremoves⟩
    exact List.any_eq_true.mpr ⟨_, hsubscribed, RegistryPoint.stores_iff.mpr ⟨sub, rfl, rfl⟩⟩

/-- When no call is on its way, what is listed for a URI is what is alive. -/
theorem Tracks.subscriptionCount_eq (h : s.Tracks)
    (hquiet : ∀ point ∈ s.calls, point.underway = false) (uri : String) :
    s.registry.subscriptionCount uri = (s.live uri).length := by
  rw [SubscribableRegistry.subscriptionCount, h.ids, List.length_map, live]
  refine congrArg List.length (List.filter_congr fun sub hsub => ?_)
  have hstored : s.stored sub.id = true := by
    obtain hstore | hsubscribed := (h.listed sub).mp hsub
    · cases hquiet _ hstore
    · exact List.any_eq_true.mpr ⟨_, hsubscribed, RegistryPoint.stores_iff.mpr ⟨sub, rfl, rfl⟩⟩
  have hremoved : s.removed sub.id = s.unlisted sub.id := by
    rw [removed, unlisted, Bool.eq_iff_iff, List.any_eq_true, List.any_eq_true]
    refine exists_congr fun point => and_congr_right fun hpoint => ?_
    have hdone := hquiet point hpoint
    cases point <;> first | rfl | cases hdone
  rw [hstored, hremoved]
  simp

/-- Who calls callbacks has begun to, or has called one more. -/
theorem step_eq_calling {registry : SubscribableRegistry Callback} {uri : String}
    {called left : List (Callback × String)}
    (h : (registry.step point).2 = .calling uri called left) :
    (point = .notify uri ∧ called ++ left = registry.notifyChange uri) ∨
      ∃ called' left', point = .calling uri called' left' ∧ called' ++ left' = called ++ left := by
  cases point with
  | notify uri' =>
      cases h
      exact .inl ⟨rfl, rfl⟩
  | calling uri' called' left' =>
      cases left' with
      | nil =>
          cases h
          exact .inr ⟨_, _, rfl, rfl⟩
      | cons call left' =>
          cases h
          exact .inr ⟨_, _, rfl, by rw [List.append_assoc, List.singleton_append]⟩
  | subscribe uri' callback =>
      obtain ⟨e, hstep⟩ | hstep := registry.step_subscribe uri' callback
      · rw [hstep] at h
        cases h
      · rw [hstep] at h
        cases h
  | unsubscribe id =>
      rw [SubscribableRegistry.step] at h
      split at h <;> cases h
  | refused | list | store | subscribed | unknown | unlist | unsubscribed => cases h

/-- A notification has copied what was there at one moment after it began. -/
theorem copied_once (handlers : ResourceRegistry) (steps : List (RegistryStep Callback))
    {index : Nat} {uri : String} {called left : List (Callback × String)}
    (h : (run handlers steps).calls[index]? = some (.calling uri called left)) :
    ∃ front, front <+: steps ∧ (run handlers front).calls[index]? = some (.notify uri) ∧
      called ++ left = (run handlers front).registry.notifyChange uri := by
  induction steps using List.reverseRecOn generalizing called left with
  | nil => cases h
  | append_singleton steps input ih =>
      have hgoes {called' left' : List (Callback × String)}
          (hbefore : (run handlers steps).calls[index]? = some (.calling uri called' left'))
          (hsame : called' ++ left' = called ++ left) :
          ∃ front, front <+: steps ++ [input] ∧
            (run handlers front).calls[index]? = some (.notify uri) ∧
            called ++ left = (run handlers front).registry.notifyChange uri := by
        obtain ⟨front, hfront, hnotify, hcopied⟩ := ih hbefore
        exact ⟨front, hfront.trans (List.prefix_append steps [input]), hnotify,
          hsame.symm.trans hcopied⟩
      rw [run, List.foldl_append] at h
      change ((run handlers steps).step input).calls[index]? = _ at h
      cases input with
      | call call =>
          change ((run handlers steps).calls ++ [call.start])[index]? = _ at h
          rw [List.getElem?_append] at h
          split at h
          · exact hgoes h rfl
          · have hmem := List.mem_singleton.mp (List.mem_of_getElem? h)
            cases call <;> cases hmem
      | advance moved =>
          cases hpoint : (run handlers steps).calls[moved]? with
          | none =>
              simp only [step, hpoint] at h
              exact hgoes h rfl
          | some point =>
              simp only [step, hpoint] at h
              change ((run handlers steps).calls.set moved _)[index]? = _ at h
              by_cases heq : moved = index
              · subst heq
                rw [List.getElem?_set_self (List.getElem?_eq_some_iff.mp hpoint).1] at h
                obtain ⟨rfl, hcopied⟩ | ⟨called', left', rfl, hsame⟩ :=
                  step_eq_calling (Option.some.inj h)
                · exact ⟨steps, List.prefix_append steps _, hpoint, hcopied⟩
                · exact hgoes hpoint hsame
              · rw [List.getElem?_set_ne heq] at h
                exact hgoes h rfl

theorem issued_le_step (s : SharedRegistry Callback) (input : RegistryStep Callback) :
    s.issued.length ≤ (s.step input).issued.length := by
  cases input with
  | call call => exact Nat.le_refl _
  | advance index =>
      rw [step]
      split
      · exact Nat.le_refl _
      · rw [advance, List.length_append]
        exact Nat.le_add_right _ _

theorem issued_le_run (handlers : ResourceRegistry)
    {front steps : List (RegistryStep Callback)} (h : front <+: steps) :
    (run handlers front).issued.length ≤ (run handlers steps).issued.length := by
  obtain ⟨rest, rfl⟩ := h
  rw [run, run, List.foldl_append]
  generalize front.foldl step (start handlers) = s
  induction rest generalizing s with
  | nil => exact Nat.le_refl _
  | cons input rest ih => exact (issued_le_step s input).trans (ih (s.step input))

/-- As long as ids are not used up, a notification calls exactly the subscriptions to its URI that
were alive at one moment after it began, in order and each once: those that had returned and that no
call had begun to take away. A subscription is taken away by one call at most, and when no call is
on its way as many are listed as are alive. -/
theorem notified_once (handlers : ResourceRegistry) (steps : List (RegistryStep Callback))
    (hfew : (run handlers steps).issued.length ≤ 2 ^ 64) :
    let s := run handlers steps
    (∀ (index : Nat) (uri : String) (called left : List (Callback × String)),
      s.calls[index]? = some (.calling uri called left) →
      ∃ front, front <+: steps ∧ (run handlers front).calls[index]? = some (.notify uri) ∧
        called ++ left = ((run handlers front).live uri).map fun sub => (sub.callback, uri)) ∧
      (∀ uri, ((s.live uri).map Subscription.id).Nodup ∧ ∀ sub, sub ∈ s.live uri ↔
        sub.uri = uri ∧ .subscribed sub ∈ s.calls ∧ s.removed sub.id = false) ∧
      (∀ (i j : Nat) (a b : RegistryPoint Callback) (id : SubscriptionId), s.calls[i]? = some a →
        s.calls[j]? = some b → a.removes id = true → b.removes id = true → i = j) ∧
      ((∀ point ∈ s.calls, point.underway = false) →
        ∀ uri, s.registry.subscriptionCount uri = (s.live uri).length) := by
  have h := (sound_run handlers steps).tracks hfew
  refine ⟨?_, fun uri => ⟨?_, fun sub => h.mem_live_iff⟩, h.once, h.subscriptionCount_eq⟩
  · intro index uri called left hcalling
    obtain ⟨front, hfront, hnotify, hcopied⟩ := copied_once handlers steps hcalling
    have hbefore := (issued_le_run handlers hfront).trans hfew
    refine ⟨front, hfront, hnotify, ?_⟩
    rw [hcopied, ((sound_run handlers front).tracks hbefore).notifyChange_eq]
  · exact h.nodup.sublist (List.Sublist.map _ List.filter_sublist)

/-- Two subscriptions overlap and one is taken away while a notification calls them. -/
theorem notified_once_page :
    let s := run ⟨[LiveRegistry.pageHandler], by decide⟩ ([.call (.subscribe "file:///a" false),
      .call (.subscribe "file:///a" true), .advance 0, .advance 1, .advance 1, .advance 0,
      .advance 0, .advance 1, .call (.notifyChange "file:///a"), .advance 2, .advance 2,
      .call (.unsubscribe 1), .advance 3] : List (RegistryStep Bool))
    s.calls[2]? = some (.calling "file:///a" [(true, "file:///a")] [(false, "file:///a")]) ∧
      ((s.live "file:///a").map Subscription.id).Nodup := by
  intro s
  have hfew : s.issued.length ≤ 2 ^ 64 := by decide
  exact ⟨by rfl, ((notified_once _ _ hfew).2.1 "file:///a").1⟩

end SharedRegistry
end Dcp
