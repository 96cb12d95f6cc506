import Dcp.Library.Run
import Dcp.Library.Table
import Dcp.Resource

/-!
Subscriptions to the changes of resources. The ids of the subscribers of a URI and the callbacks of
the ids are kept in two tables; together they hold the live subscriptions in order, as long as the
counter of ids, which goes round, does not hand out an id that is still in use.
-/

namespace Dcp
open Library

abbrev SubscriptionId := UInt64

/-- A registry of handlers with the subscriptions to their resources. -/
structure SubscribableRegistry (Callback : Type) extends ResourceRegistry where
  subscriptions : Table String (List SubscriptionId)
  subscriptionCounter : UInt64
  callbacks : Table SubscriptionId Callback

namespace SubscribableRegistry
variable {Callback : Type}

def new : SubscribableRegistry Callback :=
  { ResourceRegistry.new with subscriptions := ∅, subscriptionCounter := 1, callbacks := ∅ }

/-- The ids that are listed for a URI. -/
def ids (registry : SubscribableRegistry Callback) (uri : String) : List SubscriptionId :=
  (registry.subscriptions.lookup uri).getD []

/-- Subscribe to resource changes. -/
def subscribe (registry : SubscribableRegistry Callback) (uri : String) (callback : Callback) :
    Except ResourceError SubscriptionId × SubscribableRegistry Callback :=
  match registry.handlerFor uri with
  | .error e => (.error e, registry)
  | .ok handler =>
      if ¬ handler.supportsSubscribe then (.error .subscriptionNotSupported, registry)
      else
        let id := registry.subscriptionCounter
        (.ok id, { registry with
          subscriptionCounter := id + 1
          subscriptions := registry.subscriptions.insert uri (registry.ids uri ++ [id])
          callbacks := registry.callbacks.insert id callback })

/-- Unsubscribe from resource changes; an id without a callback changes nothing. -/
def unsubscribe (registry : SubscribableRegistry Callback) (id : SubscriptionId) :
    Bool × SubscribableRegistry Callback :=
  if (registry.callbacks.lookup id).isSome then
    (true, { registry with
      callbacks := registry.callbacks.erase id
      subscriptions := registry.subscriptions.mapValues fun ids =>
        ids.filter fun subId => subId ≠ id })
  else (false, registry)

/-- The callbacks that a change calls, one after the other, each with the URI. -/
def notifyChange (registry : SubscribableRegistry Callback) (uri : String) :
    List (Callback × String) :=
  ((registry.ids uri).filterMap fun id => registry.callbacks.lookup id).map fun callback =>
    (callback, uri)

def subscriptionCount (registry : SubscribableRegistry Callback) (uri : String) : Nat :=
  (registry.ids uri).length

end SubscribableRegistry

/-- A subscription that succeeded. -/
structure Subscription (Callback : Type) where
  id : SubscriptionId
  uri : String
  callback : Callback

inductive RegistryOp (Callback : Type)
  | register (handler : ResourceHandler)
  | subscribe (uri : String) (callback : Callback)
  | unsubscribe (id : SubscriptionId)

/-- A registry, with the subscriptions that succeeded and have not been unsubscribed, in order. -/
structure LiveRegistry (Callback : Type) where
  registry : SubscribableRegistry Callback
  live : List (Subscription Callback)

namespace LiveRegistry
variable {Callback : Type}

def start : LiveRegistry Callback := ⟨.new, []⟩

def step (s : LiveRegistry Callback) : RegistryOp Callback → LiveRegistry Callback
  | .register handler =>
      match s.registry.register handler with
      | .error _ => s
      | .ok (_, handlers) =>
          { s with registry := { s.registry with toResourceRegistry := handlers } }
  | .subscribe uri callback =>
      let (result, registry) := s.registry.subscribe uri callback
      match result with
      | .error _ => ⟨registry, s.live⟩
      | .ok id => ⟨registry, s.live ++ [⟨id, uri, callback⟩]⟩
  | .unsubscribe id => ⟨(s.registry.unsubscribe id).2, s.live.filter fun sub => sub.id ≠ id⟩

/-- A change of a resource calls the callbacks of its live subscriptions, and what is unsubscribed
was live. -/
structure Notifies (s : LiveRegistry Callback) : Prop where
  calls : ∀ uri, s.registry.notifyChange uri =
    (s.live.filter fun sub => sub.uri = uri).map fun sub => (sub.callback, uri)
  answers : ∀ id, (s.registry.unsubscribe id).1 = true ↔ ∃ sub ∈ s.live, sub.id = id

/-- No live subscription has the id that the next one gets. -/
def FreshId (s : LiveRegistry Callback) : RegistryOp Callback → Prop
  | .subscribe _ _ => ∀ sub ∈ s.live, sub.id ≠ s.registry.subscriptionCounter
  | .register _ | .unsubscribe _ => True

/-- The two tables hold the live subscriptions. -/
structure Tracks (s : LiveRegistry Callback) : Prop where
  ids : ∀ uri, s.registry.ids uri =
    (s.live.filter fun sub => sub.uri = uri).map fun sub => sub.id
  callbacks : ∀ id callback, s.registry.callbacks.lookup id = some callback ↔
    ∃ sub ∈ s.live, sub.id = id ∧ sub.callback = callback

/-- What a subscription does: it is refused, or it is entered under the id of the counter. -/
theorem subscribe_cases (registry : SubscribableRegistry Callback) (uri : String)
    (callback : Callback) :
    (∃ e, registry.subscribe uri callback = (.error e, registry)) ∨
      registry.subscribe uri callback = (.ok registry.subscriptionCounter, { registry with
        subscriptionCounter := registry.subscriptionCounter + 1
        subscriptions := registry.subscriptions.insert uri
          (registry.ids uri ++ [registry.subscriptionCounter])
        callbacks := registry.callbacks.insert registry.subscriptionCounter callback }) := by
  rw [SubscribableRegistry.subscribe]
  cases registry.handlerFor uri with
  | error e => exact .inl ⟨e, rfl⟩
  | ok handler =>
      dsimp only
      split
      · exact .inl ⟨_, rfl⟩
      · exact .inr rfl

variable {s : LiveRegistry Callback}

theorem tracks_start : (start : LiveRegistry Callback).Tracks := by
  refine ⟨fun uri => rfl, fun id callback => ?_⟩
  constructor
  · intro h
    cases h
  · rintro ⟨sub, hsub, -⟩
    cases hsub

theorem Tracks.lookup_isSome_iff (h : s.Tracks) (id : SubscriptionId) :
    (s.registry.callbacks.lookup id).isSome ↔ ∃ sub ∈ s.live, sub.id = id := by
  rw [Option.isSome_iff_exists]
  constructor
  · rintro ⟨callback, hcallback⟩
    obtain ⟨sub, hsub, hid, -⟩ := (h.callbacks id callback).mp hcallback
    exact ⟨sub, hsub, hid⟩
  · rintro ⟨sub, hsub, hid⟩
    exact ⟨sub.callback, (h.callbacks id sub.callback).mpr ⟨sub, hsub, hid, rfl⟩⟩

theorem Tracks.notifies (h : s.Tracks) : s.Notifies := by
  refine ⟨fun uri => ?_, fun id => ?_⟩
  · have hcallback : ∀ sub ∈ s.live, s.registry.callbacks.lookup sub.id = some sub.callback :=
      fun sub hsub => (h.callbacks _ _).mpr ⟨sub, hsub, rfl, rfl⟩
    have hcalled : ((s.live.filter fun sub => sub.uri = uri).filterMap fun sub =>
        s.registry.callbacks.lookup sub.id) =
        (s.live.filter fun sub => sub.uri = uri).map fun sub => sub.callback := by
      rw [← List.filterMap_eq_map]
      exact List.filterMap_congr fun sub hsub => hcallback sub (List.mem_of_mem_filter hsub)
    rw [SubscribableRegistry.notifyChange, h.ids, List.filterMap_map]
    exact (congrArg (List.map _) hcalled).trans List.map_map
  · rw [← h.lookup_isSome_iff, SubscribableRegistry.unsubscribe]
    split
    · next hsome => exact iff_of_true rfl hsome
    · next hnone => exact iff_of_false Bool.false_ne_true hnone

theorem Tracks.register (h : s.Tracks) (handler : ResourceHandler) :
    (s.step (.register handler)).Tracks := by
  rw [step]
  split
  · exact h
  · exact ⟨h.ids, h.callbacks⟩

theorem Tracks.subscribe (h : s.Tracks) {uri : String} {callback : Callback}
    (hfresh : s.FreshId (.subscribe uri callback)) : (s.step (.subscribe uri callback)).Tracks := by
  obtain ⟨e, hresult⟩ | hresult := subscribe_cases s.registry uri callback
  · rw [step, hresult]
    exact h
  · rw [step, hresult]
    refine ⟨fun uri' => ?_, fun id' callback' => ?_⟩
    · rw [List.filter_append, List.map_append, ← h.ids, SubscribableRegistry.ids,
        Table.lookup_insert_eq]
      split
      · next huri =>
          subst huri
          simp
      · next huri =>
          have hother : ¬ uri = uri' := fun heq => huri heq.symm
          simp [hother, SubscribableRegistry.ids]
    · rw [Table.lookup_insert_eq]
      split
      · next hid =>
          subst hid
          simp only [List.mem_append, List.mem_singleton]
          constructor
          · intro heq
            exact ⟨_, .inr rfl, rfl, Option.some.inj heq⟩
          · rintro ⟨sub, hsub | rfl, hid, hcallback⟩
            · exact absurd hid (hfresh sub hsub)
            · exact congrArg some hcallback
      · next hid =>
          rw [h.callbacks]
          simp only [List.mem_append, List.mem_singleton]
          constructor
          · rintro ⟨sub, hsub, hfound⟩
            exact ⟨sub, .inl hsub, hfound⟩
          · rintro ⟨sub, hsub | rfl, hfound, hcallback⟩
            · exact ⟨sub, hsub, hfound, hcallback⟩
            · exact absurd hfound.symm hid

theorem Tracks.unsubscribe (h : s.Tracks) (id : SubscriptionId) :
    (s.step (.unsubscribe id)).Tracks := by
  rw [step, SubscribableRegistry.unsubscribe]
  split
  · refine ⟨fun uri => ?_, fun id' callback' => ?_⟩
    · have hlookup := Table.lookup_mapValues (fun ids => ids.filter fun subId => subId ≠ id) uri
        s.registry.subscriptions
      have hids : (((s.registry.subscriptions.lookup uri).map fun ids =>
          ids.filter fun subId => subId ≠ id).getD []) =
          (s.registry.ids uri).filter fun subId => subId ≠ id := by
        rw [SubscribableRegistry.ids]
        cases s.registry.subscriptions.lookup uri <;> rfl
      rw [SubscribableRegistry.ids, hlookup, hids, h.ids, List.filter_map, List.filter_filter,
        List.filter_filter]
      exact congrArg (List.map _) (List.filter_congr fun sub _ => Bool.and_comm _ _)
    · rw [Table.lookup_erase_eq]
      simp only [List.mem_filter, decide_eq_true_eq]
      split
      · next hid =>
          refine iff_of_false (fun hnone => by cases hnone) ?_
          rintro ⟨sub, ⟨-, hne⟩, hfound, -⟩
          exact hne (hfound.trans hid)
      · next hid =>
          rw [h.callbacks]
          constructor
          · rintro ⟨sub, hsub, hfound, hcallback⟩
            exact ⟨sub, ⟨hsub, hfound ▸ hid⟩, hfound, hcallback⟩
          · rintro ⟨sub, ⟨hsub, -⟩, hfound⟩
            exact ⟨sub, hsub, hfound⟩
  · next hnone =>
      have hall : s.live.filter (fun sub => sub.id ≠ id) = s.live := by
        rw [List.filter_eq_self]
        intro sub hsub
        rw [h.lookup_isSome_iff] at hnone
        exact decide_eq_true fun hid => hnone ⟨sub, hsub, hid⟩
      rw [hall]
      exact h

theorem Tracks.step (h : s.Tracks) {op : RegistryOp Callback} (hfresh : s.FreshId op) :
    (s.step op).Tracks := by
  cases op with
  | register handler => exact h.register handler
  | subscribe uri callback => exact h.subscribe hfresh
  | unsubscribe id => exact h.unsubscribe id

theorem Tracks.subscriptionCount (h : s.Tracks) (uri : String) :
    s.registry.subscriptionCount uri = (s.live.filter fun sub => sub.uri = uri).length := by
  rw [SubscribableRegistry.subscriptionCount, h.ids, List.length_map]

/-- After any calls that draw no id which is still in use, changes reach the live subscriptions. -/
theorem notifies_run {ops : List (RegistryOp Callback)}
    (hfresh : EveryStep step FreshId start ops) : (ops.foldl step start).Notifies :=
  (EveryStep.invariant (fun _ _ h hop => Tracks.step h hop) hfresh tracks_start).notifies

/-- The ids in use are among those that were drawn. -/
structure Drawn (s : LiveRegistry Callback) (count : Nat) : Prop where
  counter : s.registry.subscriptionCounter = .ofNat (count + 1)
  ids : ∀ sub ∈ s.live, ∃ k < count, sub.id = .ofNat (k + 1)

theorem Drawn.freshId {count : Nat} (h : s.Drawn count) (hcount : count < 2 ^ 64)
    (op : RegistryOp Callback) : s.FreshId op := by
  cases op with
  | register handler => trivial
  | unsubscribe id => trivial
  | subscribe uri callback =>
      intro sub hsub heq
      obtain ⟨k, hk, hid⟩ := h.ids sub hsub
      rw [hid, h.counter, UInt64.ofNat_eq_iff_mod_eq_toNat, UInt64.toNat_ofNat'] at heq
      omega

/-- Only a subscription draws an id. -/
theorem Drawn.step {count : Nat} (h : s.Drawn count) (op : RegistryOp Callback) :
    (s.step op).Drawn count ∨
      (∃ uri callback, op = .subscribe uri callback) ∧ (s.step op).Drawn (count + 1) := by
  cases op with
  | register handler =>
      rw [LiveRegistry.step]
      split
      · exact .inl h
      · exact .inl ⟨h.counter, h.ids⟩
  | subscribe uri callback =>
      obtain ⟨e, hresult⟩ | hresult := subscribe_cases s.registry uri callback
      · rw [LiveRegistry.step, hresult]
        exact .inl h
      · rw [LiveRegistry.step, hresult]
        refine .inr ⟨⟨uri, callback, rfl⟩, ?_, fun sub hsub => ?_⟩
        · exact (congrArg (· + 1) h.counter).trans (UInt64.ofNat_add (count + 1) 1).symm
        · rcases List.mem_append.mp hsub with hsub | hsub
          · obtain ⟨k, hk, hid⟩ := h.ids sub hsub
            exact ⟨k, Nat.lt_succ_of_lt hk, hid⟩
          · obtain rfl := List.mem_singleton.mp hsub
            exact ⟨count, Nat.lt_succ_self count, h.counter⟩
  | unsubscribe id =>
      refine .inl ⟨?_, fun sub hsub => h.ids sub (List.mem_of_mem_filter hsub)⟩
      rw [← h.counter, LiveRegistry.step, SubscribableRegistry.unsubscribe]
      split <;> rfl

/-- Ids are drawn again only after 2^64 subscriptions. -/
theorem fresh_of_few {count : Nat} (h : s.Drawn count) (ops : List (RegistryOp Callback))
    (hfew : count + ops.length ≤ 2 ^ 64) : EveryStep LiveRegistry.step FreshId s ops := by
  induction ops generalizing s count with
  | nil => trivial
  | cons op ops ih =>
      rw [List.length_cons] at hfew
      refine ⟨h.freshId (by omega) op, ?_⟩
      rcases h.step op with hsame | ⟨-, hnext⟩
      · exact ih hsame (by omega)
      · exact ih hnext (by omega)

theorem drawn_start : (start : LiveRegistry Callback).Drawn 0 :=
  ⟨rfl, fun sub hsub => by cases hsub⟩

/-- A handler whose one resource can be subscribed to. -/
def pageHandler : ResourceHandler :=
  { uriTemplate := "file:///a"
    list := fun _ => .ok ⟨[], none⟩
    read := fun uri => .ok (.text uri "text/plain" "")
    supportsSubscribe := true }

theorem notifies_run_page : (([.register pageHandler, .subscribe "file:///a" true, .unsubscribe 1,
    .subscribe "file:///a" false] : List (RegistryOp Bool)).foldl step start).Notifies :=
  notifies_run (fresh_of_few drawn_start _ (by decide))

/-- A subscription that is taken back. -/
def passing (k : Nat) : List (RegistryOp Bool) :=
  [.subscribe "file:///a" true, .unsubscribe (.ofNat (k + 2))]

/-- A subscription, and behind it others until the ids have gone round, all taken back but the
last one. -/
def overtaking : List (RegistryOp Bool) :=
  .register pageHandler :: .subscribe "file:///a" false ::
    ((List.range 18446744073709551615).flatMap passing ++ [.subscribe "file:///a" true])

/-- The first subscription is live, and no other has its callback. -/
structure FirstLive (s : LiveRegistry Bool) (count : Nat) : Prop where
  handler : ∃ handler, s.registry.handlerFor "file:///a" = .ok handler ∧
    handler.supportsSubscribe = true
  counter : s.registry.subscriptionCounter = .ofNat (count + 2)
  callbacks : ∀ id, s.registry.callbacks.lookup id = some false → id = 1
  live : ⟨1, "file:///a", false⟩ ∈ s.live

theorem subscribe_accepted {registry : SubscribableRegistry Callback} {uri : String}
    (hhandler : ∃ handler, registry.handlerFor uri = .ok handler ∧
      handler.supportsSubscribe = true) (callback : Callback) :
    ∃ registry', registry.subscribe uri callback = (.ok registry.subscriptionCounter, registry') ∧
      registry'.toResourceRegistry = registry.toResourceRegistry ∧
      registry'.subscriptionCounter = registry.subscriptionCounter + 1 ∧
      registry'.callbacks = registry.callbacks.insert registry.subscriptionCounter callback := by
  obtain ⟨handler, hfound, hsupports⟩ := hhandler
  rw [SubscribableRegistry.subscribe, hfound]
  simp only [hsupports, not_true_eq_false, if_false]
  exact ⟨_, rfl, rfl, rfl, rfl⟩

theorem FirstLive.step {s : LiveRegistry Bool} {count : Nat} (h : s.FirstLive count) :
    (s.step (.subscribe "file:///a" true)).FirstLive (count + 1) ∧
      (s.step (.subscribe "file:///a" true)).registry.callbacks =
        s.registry.callbacks.insert (.ofNat (count + 2)) true := by
  obtain ⟨registry, hresult, hsame, hcounter, hcallbacks⟩ := subscribe_accepted h.handler true
  rw [h.counter] at hcounter hcallbacks
  rw [LiveRegistry.step, hresult]
  refine ⟨⟨?_, ?_, fun id hid => ?_, List.mem_append_left _ h.live⟩, hcallbacks⟩
  · rw [hsame]
    exact h.handler
  · exact hcounter.trans (UInt64.ofNat_add (count + 2) 1).symm
  · dsimp only at hid
    rw [hcallbacks, Table.lookup_insert_eq] at hid
    split at hid
    · cases hid
    · exact h.callbacks id hid

theorem FirstLive.unsubscribe {s : LiveRegistry Bool} {count : Nat} (h : s.FirstLive count)
    {id : SubscriptionId} (hid : id ≠ 1) : (s.step (.unsubscribe id)).FirstLive count := by
  have hlive : ⟨1, "file:///a", false⟩ ∈ s.live.filter fun sub => sub.id ≠ id :=
    List.mem_filter.mpr ⟨h.live, decide_eq_true hid.symm⟩
  rw [LiveRegistry.step, SubscribableRegistry.unsubscribe]
  split
  · refine ⟨h.handler, h.counter, fun id' hlookup => ?_, hlive⟩
    dsimp only at hlookup
    rw [Table.lookup_erase_eq] at hlookup
    split at hlookup
    · cases hlookup
    · exact h.callbacks id' hlookup
  · exact ⟨h.handler, h.counter, h.callbacks, hlive⟩

theorem FirstLive.run {s : LiveRegistry Bool} (h : s.FirstLive 0) {more : Nat}
    (hmore : more < 2 ^ 64) :
    (((List.range more).flatMap passing).foldl LiveRegistry.step s).FirstLive more := by
  induction more with
  | zero => exact h
  | succ more ih =>
      have hid : UInt64.ofNat (more + 2) ≠ 1 := by
        intro hsame
        have hmod := congrArg UInt64.toNat hsame
        rw [UInt64.toNat_ofNat'] at hmod
        change _ = 1 at hmod
        omega
      rw [List.range_succ, List.flatMap_append, List.foldl_append, List.flatMap_singleton]
      exact (ih (by omega)).step.1.unsubscribe hid

theorem firstLive {s : LiveRegistry Bool}
    (hhandler : ∃ handler, s.registry.handlerFor "file:///a" = .ok handler ∧
      handler.supportsSubscribe = true)
    (hcounter : s.registry.subscriptionCounter = 1) (hcallbacks : s.registry.callbacks = ∅) :
    (s.step (.subscribe "file:///a" false)).FirstLive 0 := by
  obtain ⟨registry, hresult, hsame, hnext, hinserted⟩ := subscribe_accepted hhandler false
  rw [hcounter] at hresult hnext hinserted
  rw [LiveRegistry.step, hresult]
  refine ⟨hsame ▸ hhandler, hnext, fun id hid => ?_,
    List.mem_append_right _ (List.mem_singleton_self _)⟩
  dsimp only at hid
  rw [hinserted, hcallbacks, Table.lookup_insert_eq] at hid
  split at hid
  · next heq => exact heq
  · cases hid

/-- A subscription that gets the id of the first one takes its callback away. -/
theorem FirstLive.overtaken {s : LiveRegistry Bool} {count : Nat} (h : s.FirstLive count)
    (hround : UInt64.ofNat (count + 2) = 1) :
    ¬ (s.step (.subscribe "file:///a" true)).Notifies := by
  obtain ⟨hend, hcallbacks⟩ := h.step
  generalize s.step (.subscribe "file:///a" true) = last at hend hcallbacks ⊢
  intro hnotifies
  have hcalled : (false, "file:///a") ∈ last.registry.notifyChange "file:///a" := by
    rw [hnotifies.calls "file:///a"]
    exact List.mem_map.mpr ⟨_, List.mem_filter.mpr ⟨hend.live, rfl⟩, rfl⟩
  obtain ⟨callback, hfound, heq⟩ := List.mem_map.mp hcalled
  obtain ⟨id, -, hlookup⟩ := List.mem_filterMap.mp hfound
  rw [(Prod.mk.inj heq).1, hcallbacks, Table.lookup_insert_eq, hround] at hlookup
  split at hlookup
  · cases hlookup
  · next hid => exact hid (h.callbacks id hlookup)

/-- The ids go round, and the last subscription gets that of the first one. -/
theorem overtaking_not_notifies : ¬ (overtaking.foldl step start).Notifies := by
  have hfirst : ((start.step (.register pageHandler)).step
      (.subscribe "file:///a" false)).FirstLive 0 :=
    firstLive ⟨pageHandler, rfl, rfl⟩ rfl rfl
  rw [overtaking, List.foldl_cons, List.foldl_cons, List.foldl_append, List.foldl_cons,
    List.foldl_nil]
  exact (hfirst.run (by norm_num)).overtaken (by decide)

end LiveRegistry
end Dcp
