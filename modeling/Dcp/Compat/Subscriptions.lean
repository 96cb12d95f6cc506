import Dcp.Compat.Mcp2025
import Dcp.Library.Run

/-!
Which pairs of a resource and a subscriber a tracker holds after any calls. A limit of zero enters a
resource without subscribers, and the answer to a subscriber who is not there depends on whether
there are others.
-/

namespace Dcp
open Library

namespace SubscriptionTracker
variable {tracker : SubscriptionTracker}

/-- The tracker when nobody is subscribed to the resource. -/
def withoutSubscribers (tracker : SubscriptionTracker) (uri : String) : SubscriptionTracker :=
  { tracker with subscriptions := tracker.subscriptions.erase uri }

/-- The trackers find the same lists. -/
def SameLists (tracker other : SubscriptionTracker) : Prop :=
  ∀ uri, other.subscriptions.lookup uri = tracker.subscriptions.lookup uri

/-- No list is empty, longer than the limit or has a subscriber twice. -/
def Bounded (tracker : SubscriptionTracker) : Prop :=
  ∀ uri subscribers, tracker.subscriptions.lookup uri = some subscribers →
    subscribers ≠ [] ∧ subscribers.length ≤ tracker.maxSubscribersPerResource ∧ subscribers.Nodup

theorem isSubscribed_iff {uri id : String} : tracker.isSubscribed uri id = true ↔
    ∃ subscribers, tracker.subscriptions.lookup uri = some subscribers ∧ id ∈ subscribers := by
  rw [isSubscribed]
  cases tracker.subscriptions.lookup uri <;> simp

/-- The list of a resource, which is empty when the resource is not known. -/
def subscribers (tracker : SubscriptionTracker) (uri : String) : List String :=
  (tracker.subscriptions.lookup uri).getD []

theorem isSubscribed_eq_decide (uri id : String) :
    tracker.isSubscribed uri id = decide (id ∈ tracker.subscribers uri) := by
  rw [isSubscribed, subscribers]
  cases tracker.subscriptions.lookup uri <;> simp

theorem subscribe_eq (tracker : SubscriptionTracker) (uri id : String) :
    tracker.subscribe uri id =
      let entered := { tracker with
        subscriptions := tracker.subscriptions.insert uri (tracker.subscribers uri) }
      if id ∈ tracker.subscribers uri then (true, entered)
      else if (tracker.subscribers uri).length ≥ tracker.maxSubscribersPerResource then
        (false, entered)
      else (true, { tracker with
        subscriptions := tracker.subscriptions.insert uri (tracker.subscribers uri ++ [id]) }) :=
  rfl

/-- What subscribing does. A list that is refused is entered even if it is empty. -/
theorem subscribe_cases (tracker : SubscriptionTracker) (uri id : String) :
    (tracker.isSubscribed uri id = true ∧ (tracker.subscribe uri id).1 = true ∧
        tracker.SameLists (tracker.subscribe uri id).2) ∨
      (tracker.isSubscribed uri id = false ∧ (tracker.subscribe uri id).1 = false ∧
        tracker.maxSubscribersPerResource ≤ (tracker.subscribers uri).length ∧
        ∀ r, (tracker.subscribe uri id).2.subscriptions.lookup r =
          if r = uri then some (tracker.subscribers uri) else tracker.subscriptions.lookup r) ∨
      (tracker.isSubscribed uri id = false ∧ (tracker.subscribe uri id).1 = true ∧
        (tracker.subscribers uri).length < tracker.maxSubscribersPerResource ∧
        ∀ r, (tracker.subscribe uri id).2.subscriptions.lookup r =
          if r = uri then some (tracker.subscribers uri ++ [id])
          else tracker.subscriptions.lookup r) := by
  have hentered : ∀ list r, (AList.insert uri list tracker.subscriptions).lookup r =
      if r = uri then some list else tracker.subscriptions.lookup r :=
    fun list r => Table.lookup_insert_eq uri r list tracker.subscriptions
  rw [subscribe_eq, isSubscribed_eq_decide]
  dsimp only
  split_ifs with hmem hfull
  · refine .inl ⟨decide_eq_true hmem, rfl, fun r => (hentered _ r).trans ?_⟩
    split
    · next hr =>
        obtain ⟨list, hlist, -⟩ := isSubscribed_iff.mp
          ((isSubscribed_eq_decide uri id).trans (decide_eq_true hmem))
        rw [hr, subscribers, hlist]
        rfl
    · rfl
  · exact .inr (.inl ⟨decide_eq_false hmem, rfl, hfull, hentered _⟩)
  · exact .inr (.inr ⟨decide_eq_false hmem, rfl, Nat.lt_of_not_le hfull, hentered _⟩)

/-- The answer is whether the subscriber was there, or that nobody was. -/
theorem unsubscribe_answer (tracker : SubscriptionTracker) (uri id : String) :
    (tracker.unsubscribe uri id).1 = true ↔
      tracker.subscriptions.lookup uri = none ∨ tracker.isSubscribed uri id = true := by
  rw [unsubscribe, isSubscribed_iff]
  cases hlookup : tracker.subscriptions.lookup uri with
  | none => simp
  | some list =>
      simp

/-- What is left of the list of a resource; nothing is left of an empty one. -/
theorem lookup_unsubscribe (tracker : SubscriptionTracker) (uri id r : String) :
    (tracker.unsubscribe uri id).2.subscriptions.lookup r =
      if r = uri then
        let kept := (tracker.subscribers uri).filter fun other => other ≠ id
        if kept = [] then none else some kept
      else tracker.subscriptions.lookup r := by
  rw [unsubscribe, subscribers]
  cases hlookup : tracker.subscriptions.lookup uri with
  | none =>
      dsimp only
      split
      · next hr =>
          rw [hr, hlookup]
          rfl
      · rfl
  | some list =>
      dsimp only [Option.getD_some]
      by_cases hkept : (list.filter fun other => other ≠ id) = []
      · rw [if_pos (List.isEmpty_iff.mpr hkept), if_pos hkept]
        exact (congrArg (AList.lookup r) (Table.erase_insert uri _ _)).trans
          (Table.lookup_erase_eq uri r _)
      · rw [if_neg (mt List.isEmpty_iff.mp hkept), if_neg hkept]
        exact Table.lookup_insert_eq uri r _ _

theorem subscribers_unsubscribe (tracker : SubscriptionTracker) (uri id r : String) :
    (tracker.unsubscribe uri id).2.subscribers r =
      if r = uri then (tracker.subscribers uri).filter fun other => other ≠ id
      else tracker.subscribers r := by
  rw [subscribers, lookup_unsubscribe]
  split
  · dsimp only
    split
    · next hkept => exact hkept.symm
    · rfl
  · rfl

theorem Bounded.subscribers (h : tracker.Bounded) (uri : String) :
    (tracker.subscribers uri).length ≤ tracker.maxSubscribersPerResource ∧
      (tracker.subscribers uri).Nodup := by
  rw [SubscriptionTracker.subscribers]
  cases hlist : tracker.subscriptions.lookup uri with
  | none => exact ⟨Nat.zero_le _, List.nodup_nil⟩
  | some list => exact (h uri list hlist).2

theorem Bounded.lookup_eq_none_iff {uri : String} (h : tracker.Bounded) :
    tracker.subscriptions.lookup uri = none ↔ tracker.subscribers uri = [] := by
  rw [SubscriptionTracker.subscribers]
  cases hlookup : tracker.subscriptions.lookup uri with
  | none => exact iff_of_true rfl rfl
  | some list => exact iff_of_false nofun (h uri list hlookup).1

theorem max_subscribe (tracker : SubscriptionTracker) (uri id : String) :
    (tracker.subscribe uri id).2.maxSubscribersPerResource =
      tracker.maxSubscribersPerResource := by
  rw [subscribe_eq]
  dsimp only
  split_ifs <;> rfl

theorem max_unsubscribe (tracker : SubscriptionTracker) (uri id : String) :
    (tracker.unsubscribe uri id).2.maxSubscribersPerResource =
      tracker.maxSubscribersPerResource := by
  rw [unsubscribe]
  split <;> rfl

/-- A tracker whose lists are bounded but for that of one resource. -/
theorem Bounded.update {other : SubscriptionTracker} (h : tracker.Bounded)
    (hmax : other.maxSubscribersPerResource = tracker.maxSubscribersPerResource) {uri : String}
    {list : Option (List String)}
    (hlookup : ∀ r, other.subscriptions.lookup r =
      if r = uri then list else tracker.subscriptions.lookup r)
    (hlist : ∀ subscribers, list = some subscribers → subscribers ≠ [] ∧
      subscribers.length ≤ tracker.maxSubscribersPerResource ∧ subscribers.Nodup) :
    other.Bounded := by
  intro r subscribers hr
  rw [hlookup] at hr
  rw [hmax]
  split at hr
  · exact hlist subscribers hr
  · exact h r subscribers hr

theorem SameLists.bounded {other : SubscriptionTracker} (hsame : tracker.SameLists other)
    (hmax : other.maxSubscribersPerResource = tracker.maxSubscribersPerResource)
    (h : tracker.Bounded) : other.Bounded := by
  intro r subscribers hr
  rw [hmax]
  exact h r subscribers ((hsame r).symm.trans hr)

theorem SameLists.isSubscribed {other : SubscriptionTracker} (hsame : tracker.SameLists other)
    (uri id : String) : other.isSubscribed uri id = tracker.isSubscribed uri id := by
  rw [SubscriptionTracker.isSubscribed, hsame uri]
  rfl

end SubscriptionTracker

inductive SubscriptionOp
  | subscribe (uri subscriberId : String)
  | unsubscribe (uri subscriberId : String)
  | clear

/-- A tracker, with the pairs that were subscribed and not since unsubscribed or cleared. -/
structure Subscriptions where
  tracker : SubscriptionTracker
  held : Set (String × String)

namespace Subscriptions

def start (maxSubscribersPerResource : Nat) : Subscriptions :=
  ⟨.withMaxSubscribersPerResource maxSubscribersPerResource, ∅⟩

def step (s : Subscriptions) : SubscriptionOp → Subscriptions
  | .subscribe uri id =>
      let (subscribed, tracker) := s.tracker.subscribe uri id
      ⟨tracker, if subscribed then insert (uri, id) s.held else s.held⟩
  | .unsubscribe uri id => ⟨(s.tracker.unsubscribe uri id).2, s.held \ {(uri, id)}⟩
  | .clear => ⟨s.tracker.clear, ∅⟩

structure Tracks (s : Subscriptions) : Prop where
  bounded : s.tracker.Bounded
  exact : ∀ uri id, s.tracker.isSubscribed uri id = true ↔ (uri, id) ∈ s.held

/-- The call leaves a bounded tracker that holds exactly the pairs it should, changes nothing when
it refuses a subscriber, and answers one who is not there as if nobody else was. -/
def Behaves (s : Subscriptions) (op : SubscriptionOp) : Prop :=
  (s.step op).Tracks ∧
    match op with
    | .subscribe uri id => (s.tracker.subscribe uri id).1 = false →
        s.tracker.SameLists (s.tracker.subscribe uri id).2
    | .unsubscribe uri id => s.tracker.isSubscribed uri id = false →
        (s.tracker.unsubscribe uri id).1 =
          ((s.tracker.withoutSubscribers uri).unsubscribe uri id).1
    | .clear => True

/-- The limit allows a subscriber, and who unsubscribes is there or nobody is. -/
def Usual (s : Subscriptions) : SubscriptionOp → Prop
  | .subscribe _ _ => s.tracker.maxSubscribersPerResource ≠ 0
  | .unsubscribe uri id => s.tracker.isSubscribed uri id = false → s.tracker.subscribers uri = []
  | .clear => True

theorem tracks_start (max : Nat) : (start max).Tracks := by
  refine ⟨?_, ?_⟩
  · intro uri list hlist
    cases hlist
  · exact fun uri id => iff_of_false Bool.false_ne_true (Set.notMem_empty _)

variable {s : Subscriptions}

/-- A resource that was not known is entered without subscribers only if the limit is zero. -/
theorem Tracks.subscribe (h : s.Tracks) (hmax : s.tracker.maxSubscribersPerResource ≠ 0)
    (uri id : String) : s.Behaves (.subscribe uri id) := by
  have hlimit := s.tracker.max_subscribe uri id
  obtain ⟨hmem, hanswer, hsame⟩ | ⟨hnot, hanswer, hfull, hlookup⟩ |
    ⟨hnot, hanswer, hroom, hlookup⟩ := s.tracker.subscribe_cases uri id
  · refine ⟨⟨?_, fun uri' id' => ?_⟩, fun _ => hsame⟩
    · exact hsame.bounded hlimit h.bounded
    · have hheld : insert (uri, id) s.held = s.held :=
        Set.insert_eq_of_mem ((h.exact uri id).mp hmem)
      simp only [step, hanswer, if_true, hheld]
      rw [hsame.isSubscribed]
      exact h.exact uri' id'
  · have hsame : s.tracker.SameLists (s.tracker.subscribe uri id).2 := by
      intro r
      rw [hlookup]
      split
      · next hr =>
          subst hr
          cases hlist : s.tracker.subscriptions.lookup r with
          | none =>
              rw [SubscriptionTracker.subscribers, hlist] at hfull
              exact absurd (Nat.le_zero.mp hfull) hmax
          | some list =>
              rw [SubscriptionTracker.subscribers, hlist]
              rfl
      · rfl
    refine ⟨⟨?_, fun uri' id' => ?_⟩, fun _ => hsame⟩
    · exact hsame.bounded hlimit h.bounded
    · simp only [step, hanswer, Bool.false_eq_true, if_false]
      rw [hsame.isSubscribed]
      exact h.exact uri' id'
  · have hfresh : id ∉ s.tracker.subscribers uri := by
      rw [SubscriptionTracker.isSubscribed_eq_decide] at hnot
      exact of_decide_eq_false hnot
    have hnodup := (h.bounded.subscribers uri).2
    refine ⟨⟨?_, fun uri' id' => ?_⟩, fun hfalse => ?_⟩
    · refine h.bounded.update hlimit hlookup fun list hlist => ?_
      cases hlist
      refine ⟨List.append_ne_nil_of_right_ne_nil _ (List.cons_ne_nil _ _), ?_, ?_⟩
      · rw [List.length_append]
        exact hroom
      · exact List.nodup_append'.mpr ⟨hnodup, List.nodup_singleton id,
          List.disjoint_singleton.mpr hfresh⟩
    · have hsubscribers : (s.tracker.subscribe uri id).2.subscribers uri' =
          if uri' = uri then s.tracker.subscribers uri ++ [id]
          else s.tracker.subscribers uri' := by
        rw [SubscriptionTracker.subscribers, hlookup]
        split <;> rfl
      have hexact := h.exact uri' id'
      rw [SubscriptionTracker.isSubscribed_eq_decide, decide_eq_true_eq] at hexact
      simp only [step, hanswer, if_true]
      rw [SubscriptionTracker.isSubscribed_eq_decide, decide_eq_true_eq, hsubscribers,
        Set.mem_insert_iff, ← hexact, Prod.mk.injEq]
      split
      · next huri => simp [huri, or_comm]
      · next huri => simp [huri]
    · rw [hanswer] at hfalse
      cases hfalse

theorem Tracks.unsubscribe (h : s.Tracks) (uri id : String) :
    (s.step (.unsubscribe uri id)).Tracks := by
  refine ⟨?_, fun uri' id' => ?_⟩
  · refine h.bounded.update (s.tracker.max_unsubscribe uri id)
      (s.tracker.lookup_unsubscribe uri id) fun list hlist => ?_
    dsimp only at hlist
    split at hlist
    · cases hlist
    · next hkept =>
        cases hlist
        obtain ⟨hlength, hnodup⟩ := h.bounded.subscribers uri
        exact ⟨hkept, (List.length_filter_le _ _).trans hlength, hnodup.filter _⟩
  · have hexact := h.exact uri' id'
    rw [SubscriptionTracker.isSubscribed_eq_decide, decide_eq_true_eq] at hexact
    simp only [step]
    rw [SubscriptionTracker.isSubscribed_eq_decide, decide_eq_true_eq,
      SubscriptionTracker.subscribers_unsubscribe, Set.mem_sdiff, Set.mem_singleton_iff, ← hexact,
      Prod.mk.injEq]
    split
    · next huri => simp [huri]
    · next huri => simp [huri]

theorem subscribe_usual (h : s.Tracks) {uri id : String}
    (hbehaves : s.Behaves (.subscribe uri id)) : s.tracker.maxSubscribersPerResource ≠ 0 := by
  intro hzero
  obtain ⟨hmem, -, -⟩ | ⟨-, -, -, hlookup⟩ | ⟨-, -, hroom, -⟩ := s.tracker.subscribe_cases uri id
  · obtain ⟨list, hlist, -⟩ := SubscriptionTracker.isSubscribed_iff.mp hmem
    obtain ⟨hne, hlength, -⟩ := h.bounded uri list hlist
    rw [hzero, Nat.le_zero, List.length_eq_zero_iff] at hlength
    exact hne hlength
  · have hbounded : (s.tracker.subscribe uri id).2.Bounded := hbehaves.1.bounded
    obtain ⟨hne, hlength, -⟩ := hbounded uri _ ((hlookup uri).trans (if_pos rfl))
    rw [SubscriptionTracker.max_subscribe, hzero, Nat.le_zero, List.length_eq_zero_iff] at hlength
    exact hne hlength
  · rw [hzero] at hroom
    exact absurd hroom (Nat.not_lt_zero _)

/-- Alone, who is not there is answered with true. -/
theorem unsubscribe_alone (tracker : SubscriptionTracker) (uri id : String) :
    ((tracker.withoutSubscribers uri).unsubscribe uri id).1 = true :=
  (SubscriptionTracker.unsubscribe_answer _ uri id).mpr (.inl (AList.lookup_erase _ _))

theorem behaves_iff_usual (h : s.Tracks) (op : SubscriptionOp) : s.Behaves op ↔ s.Usual op := by
  cases op with
  | subscribe uri id =>
      exact ⟨subscribe_usual h, fun hmax => h.subscribe hmax uri id⟩
  | unsubscribe uri id =>
      refine (and_iff_right (h.unsubscribe uri id)).trans (imp_congr_right fun hnot => ?_)
      have hanswer := s.tracker.unsubscribe_answer uri id
      rw [hnot, or_iff_left Bool.false_ne_true] at hanswer
      rw [unsubscribe_alone, hanswer]
      exact h.bounded.lookup_eq_none_iff
  | clear =>
      refine iff_of_true ⟨⟨?_, ?_⟩, trivial⟩ trivial
      · intro uri list hlist
        cases hlist
      · exact fun uri id => iff_of_false Bool.false_ne_true (Set.notMem_empty _)

/-- Through any calls a tracker behaves exactly if its limit is not zero when it is subscribed to,
and nobody unsubscribes from a resource that has other subscribers only. -/
theorem tracker_behaves_iff (maxSubscribersPerResource : Nat) (ops : List SubscriptionOp) :
    EveryStep step Behaves (start maxSubscribersPerResource) ops ↔
      EveryStep step Usual (start maxSubscribersPerResource) ops := by
  have hiff : ∀ (s : Subscriptions) (op : SubscriptionOp), s.Tracks → (s.Behaves op ↔ s.Usual op) :=
    fun _ op h => behaves_iff_usual h op
  have hstep : ∀ (s : Subscriptions) (op : SubscriptionOp), s.Tracks → s.Usual op →
      (s.step op).Tracks := fun s op h husual => ((hiff s op h).mpr husual).1
  exact EveryStep.iff_of_invariant hiff hstep (tracks_start maxSubscribersPerResource) ops

/-- The answer to bob is false because alice is subscribed. -/
theorem unsubscribe_other_answered : ¬ EveryStep step Behaves (start 1024)
    [.subscribe "file:///a" "alice", .unsubscribe "file:///a" "bob"] := by
  intro hrun
  have hanswer := hrun.2.1.2 (by decide)
  revert hanswer
  decide

end Subscriptions
end Dcp
