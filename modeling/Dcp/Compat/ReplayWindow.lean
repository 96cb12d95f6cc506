import Dcp.Compat.RequestReplay
import Dcp.Library.Recent

/-!
The window of request ids is exact: it holds the keys that were accepted last, as many as it has
room for, and a key is refused while it is one of them. A key that has left may come back.
-/

namespace Dcp
open Library

namespace RequestReplayGuard

/-- The guard after keys have been checked one after the other. -/
def run (guard : RequestReplayGuard) (keys : List String) : RequestReplayGuard :=
  keys.foldl (fun guard key => (guard.checkAndRecord key).2) guard

/-- The keys among these that are accepted, in the order they come in. -/
def accepted (guard : RequestReplayGuard) : List String → List String
  | [] => []
  | key :: rest =>
      let checked := guard.checkAndRecord key
      if checked.1 then key :: checked.2.accepted rest else checked.2.accepted rest

/-- The window holds the last of the accepted keys, and the set holds the keys of the queue. -/
structure Window (guard : RequestReplayGuard) (accepted : List String) : Prop where
  recent : guard.order = accepted.rtake guard.maxEntries
  nodup : guard.order.Nodup
  same : guard.seen.Perm guard.order

theorem evict_of_perm (maxEntries : Nat) {order seen : List String} (h : seen.Perm order) :
    (evict maxEntries order seen).1.Perm (order.rtake maxEntries) ∧
      (evict maxEntries order seen).2 = order.rtake maxEntries := by
  induction order generalizing seen with
  | nil =>
      rw [evict, List.rtake_nil]
      exact ⟨h, rfl⟩
  | cons expired order ih =>
      rw [evict]
      split
      · next hlong =>
          have herased : (seen.erase expired).Perm order := by
            rw [← List.erase_cons_head expired order]
            exact h.erase expired
          have hdrop : (expired :: order).rtake maxEntries = order.rtake maxEntries := by
            rw [List.rtake, List.rtake, List.length_cons, Nat.succ_sub (by omega),
              List.drop_succ_cons]
          rw [hdrop]
          exact ih herased
      · next hroom =>
          rw [Recent.rtake_of_length_le (by rw [List.length_cons]; omega)]
          exact ⟨h, rfl⟩

theorem fst_checkAndRecord (guard : RequestReplayGuard) (key : String) :
    (guard.checkAndRecord key).1 = decide (key ∉ guard.seen) := by
  rw [checkAndRecord]
  split
  · next hseen => simp [hseen]
  · next hfresh => simp [hfresh]

theorem checkAndRecord_fresh {guard : RequestReplayGuard} {key : String}
    (h : key ∉ guard.seen) :
    (guard.checkAndRecord key).2 =
      ⟨(evict guard.maxEntries (guard.order ++ [key]) (key :: guard.seen)).1,
        (evict guard.maxEntries (guard.order ++ [key]) (key :: guard.seen)).2,
        guard.maxEntries⟩ := by
  rw [checkAndRecord, if_neg h]

theorem maxEntries_checkAndRecord (guard : RequestReplayGuard) (key : String) :
    (guard.checkAndRecord key).2.maxEntries = guard.maxEntries := by
  rw [checkAndRecord]
  split <;> rfl

section
variable {guard : RequestReplayGuard} {accepted : List String} {key : String}

theorem Window.mem_seen_iff (h : guard.Window accepted) :
    key ∈ guard.seen ↔ key ∈ accepted.rtake guard.maxEntries := by
  rw [h.same.mem_iff, h.recent]

/-- A key outside the window is accepted and is the newest in it. -/
theorem Window.record (h : guard.Window accepted) (hfresh : key ∉ guard.seen) :
    (guard.checkAndRecord key).2.Window (accepted ++ [key]) := by
  have hperm : (key :: guard.seen).Perm (guard.order ++ [key]) :=
    (h.same.cons key).trans (List.perm_append_singleton key guard.order).symm
  have hkey : key ∉ guard.order := fun hmem => hfresh (h.same.mem_iff.mpr hmem)
  have hnodup : (guard.order ++ [key]).Nodup := by
    rw [List.nodup_append]
    refine ⟨h.nodup, List.nodup_singleton key, fun a ha b hb heq => ?_⟩
    rw [List.mem_singleton] at hb
    exact hkey (hb ▸ heq ▸ ha)
  obtain ⟨hseen, horder⟩ := evict_of_perm guard.maxEntries hperm
  have hlast : (guard.order ++ [key]).rtake guard.maxEntries =
      (accepted ++ [key]).rtake guard.maxEntries := by
    rw [h.recent, Recent.rtake_concat_rtake]
  rw [checkAndRecord_fresh hfresh]
  refine ⟨horder.trans hlast, ?_, ?_⟩
  · dsimp only
    rw [horder]
    exact hnodup.sublist (List.drop_sublist _ _)
  · dsimp only
    rw [horder]
    exact hseen

/-- A key inside the window changes nothing. -/
theorem Window.refuse (h : guard.Window accepted) (hseen : key ∈ guard.seen) :
    (guard.checkAndRecord key).2.Window accepted := by
  rw [checkAndRecord, if_pos hseen]
  exact h

end

theorem window_new (maxEntries : Nat) : (new maxEntries).Window [] :=
  ⟨(List.rtake_nil _).symm, List.nodup_nil, .refl _⟩

/-- Along a run the window moves over the keys that are accepted. -/
theorem Window.run {guard : RequestReplayGuard} {before : List String} (h : guard.Window before)
    (keys : List String) :
    (guard.run keys).Window (before ++ guard.accepted keys) ∧
      (guard.run keys).maxEntries = guard.maxEntries := by
  induction keys generalizing guard before with
  | nil =>
      rw [accepted, List.append_nil]
      exact ⟨h, rfl⟩
  | cons key rest ih =>
      have hmax := guard.maxEntries_checkAndRecord key
      have hrun : guard.run (key :: rest) = (guard.checkAndRecord key).2.run rest := rfl
      rw [accepted, hrun, fst_checkAndRecord, ← hmax]
      by_cases hseen : key ∈ guard.seen
      · rw [if_neg (by simpa using hseen)]
        exact ih (h.refuse hseen)
      · rw [if_pos (by simpa using hseen), ← List.singleton_append, ← List.append_assoc]
        exact ih (h.record hseen)

/-- The guard is a sliding window over the accepted keys. -/
theorem slides_over_accepted (maxEntries : Nat) (keys : List String) :
    let guard := (new maxEntries).run keys
    let recent := ((new maxEntries).accepted keys).rtake maxEntries
    (∀ key, key ∈ guard.seen ↔ key ∈ guard.order) ∧ guard.order.Nodup ∧
      guard.order.length ≤ maxEntries ∧ guard.order = recent ∧
      ∀ key, (guard.checkAndRecord key).1 = false ↔ key ∈ recent := by
  intro guard recent
  obtain ⟨hwindow, hmax⟩ := (window_new maxEntries).run keys
  rw [List.nil_append] at hwindow
  have horder : guard.order = recent := hwindow.recent.trans (congrArg (List.rtake _) hmax)
  refine ⟨fun key => hwindow.same.mem_iff, hwindow.nodup, ?_, horder, fun key => ?_⟩
  · rw [horder]
    exact Recent.length_rtake_le maxEntries _
  · rw [fst_checkAndRecord, decide_eq_false_iff_not, not_not, ← horder]
    exact hwindow.same.mem_iff

end RequestReplayGuard
end Dcp
