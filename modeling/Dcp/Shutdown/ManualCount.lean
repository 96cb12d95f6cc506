import Dcp.Shutdown.Drain

/-!
The manual interface beside the guards. An increment that finds the shutdown flag stored counts
nothing, and its decrement takes away what a guard has counted. As long as no such decrement takes
effect while a guard is out, the counter covers the guards.
-/

namespace Dcp
open Library

namespace CallPoint

def refusedIncrement : CallPoint → Bool
  | .incremented false => true
  | .decrementInFlight .increment | .exchange .increment _ _ => true
  | .decrementInFlight (.paired false) | .exchange (.paired false) _ _ => true
  | _ => false

def overdraws (inFlight : UInt64) (around : Surroundings) : CallPoint → Bool
  | .exchange (.paired false) seen _ => inFlight == seen && !around.spurious
  | _ => false

end CallPoint

namespace Shutdown
open CallPoint

/-- The step is not one that lowers the counter for a refused increment while a guard is out. -/
def Spares (s : Shutdown) : ShutdownStep → Prop
  | .advance index around =>
      s.calls[index]?.any (overdraws s.coordinator.inFlight around) = true → s.activeGuards = 0
  | _ => True

instance (s : Shutdown) : (input : ShutdownStep) → Decidable (s.Spares input)
  | .advance _ _ => inferInstanceAs (Decidable (_ → _))
  | .call _ | .dropGuard _ | .decrementInFlight _ => .isTrue trivial

/-- The guards are counted throughout the run, and no drain ends before they are dropped. -/
structure GuardSafe (drainTimeout : Nat) (inputs : List ShutdownStep) : Prop where
  covered : ∀ front, front <+: inputs →
    (after drainTimeout front).activeGuards ≤
      (after drainTimeout front).coordinator.inFlight.toNat
  drained : ∀ front input back, inputs = front ++ input :: back →
    (after drainTimeout front).Drains input → (after drainTimeout front).activeGuards = 0

/-- The counter is right, or nothing is left to count. -/
structure Covers (s : Shutdown) : Prop where
  refused : ∀ point ∈ s.calls, point.refusedIncrement = true → s.coordinator.shutdown = true
  counted : s.Counted ∨ s.Closed

theorem covers_start (drainTimeout : Nat) : (start drainTimeout).Covers :=
  ⟨nofun, .inl (counted_start drainTimeout)⟩

theorem Covers.guards_le {s : Shutdown} (h : s.Covers) :
    s.activeGuards ≤ s.coordinator.inFlight.toNat := by
  obtain hcounted | hclosed := h.counted
  · exact hcounted.guards_le
  · rw [hclosed.noGuards]
    exact Nat.zero_le _

theorem refused_fetchUpdate {seen : UInt64} {use : Decrement}
    (h : (ShutdownCoordinator.fetchUpdate seen use).refusedIncrement = true) :
    (decrementInFlight use).refusedIncrement = true := by
  unfold ShutdownCoordinator.fetchUpdate at h
  split at h
  · cases use with
    | request attempt => cases attempt <;> cases h
    | increment => rfl
    | dropped | paired _ => cases h
  · cases use with
    | paired counted => cases counted <;> exact h
    | request _ | dropped | increment => exact h

theorem refused_step {c : ShutdownCoordinator} {around : Surroundings} {point : CallPoint}
    (h : (c.step around point).2.refusedIncrement = true) :
    point.refusedIncrement = true ∨ c.shutdown = true := by
  cases point with
  | decrementInFlight use => exact .inl (refused_fetchUpdate h)
  | exchange use seen hseen =>
      left
      have huse : (decrementInFlight use).refusedIncrement = true := by
        simp only [ShutdownCoordinator.step] at h
        split at h
        · cases use with
          | request attempt => cases attempt <;> cases h
          | increment => rfl
          | dropped | paired _ => cases h
        · exact refused_fetchUpdate h
      cases use with
      | paired counted => cases counted <;> exact huse
      | request _ | dropped | increment => exact huse
  | incrementInFlight | incrementRecheck =>
      right
      simp only [ShutdownCoordinator.step] at h
      split at h
      · next hflag => exact hflag
      · cases h
  | shutdown | loadInFlight _ | checkDeadline _ | requestRecheck _ =>
      simp only [ShutdownCoordinator.step] at h
      split at h <;> cases h
  | requestStart attempt =>
      simp only [ShutdownCoordinator.step] at h
      split at h
      · cases attempt <;> cases h
      · cases h
  | incremented counted => exact .inl h
  | storeShutdown | notify | announced | waitDrain _ | drained _ | requestAdd _ | started _
  | refused | dropped | incrementAdd | decremented => cases h

theorem inFlight_uncounted {c : ShutdownCoordinator} {around : Surroundings} {point : CallPoint}
    (hpoint : point.Uncounted) (h : overdraws c.inFlight around point = false) :
    (c.step around point).1.inFlight = c.inFlight := by
  obtain ⟨seen, hseen, rfl⟩ := hpoint
  have hfails : ¬ (c.inFlight = seen ∧ ¬ around.spurious = true) := by
    rintro ⟨hsame, hsure⟩
    simp [overdraws, hsame, hsure] at h
  rw [ShutdownCoordinator.step, if_neg hfails]

theorem Covers.step {s : Shutdown} (h : s.Covers) {input : ShutdownStep} (hfits : s.Fits input)
    (hspares : s.Spares input) : (s.step input).Covers := by
  cases input with
  | call call =>
      refine ⟨?_, ?_⟩
      · intro point hpoint hrefused
        obtain hpoint | hpoint := List.mem_append.mp hpoint
        · exact h.refused point hpoint hrefused
        · rw [List.mem_singleton.mp hpoint] at hrefused
          cases call <;> cases hrefused
      · exact h.counted.imp (counted_call · call) (·.step _)
  | advance index around =>
      cases hpoint : s.calls[index]? with
      | none =>
          simp only [Shutdown.step, hpoint]
          exact h
      | some point =>
          have hmem := List.mem_of_getElem? hpoint
          refine ⟨?_, ?_⟩
          · simp only [Shutdown.step, hpoint]
            intro point' hpoint' hrefused
            apply ShutdownCoordinator.shutdown_step around point
            obtain rfl | hpoint' := eq_or_mem_of_mem_set hpoint'
            · exact (refused_step hrefused).elim (h.refused point hmem) id
            · exact h.refused point' hpoint' hrefused
          · obtain hcounted | hclosed := h.counted
            · cases hover : overdraws s.coordinator.inFlight around point with
              | true =>
                  -- the counter goes wrong here, but there is nothing left that it has to cover
                  have hrefused : point.refusedIncrement = true := by
                    unfold overdraws at hover
                    split at hover
                    · rfl
                    · cases hover
                  have hnone := hspares (by rw [hpoint]; exact hover)
                  exact .inr (Closed.step ⟨h.refused point hmem hrefused, hnone⟩ _)
              | false =>
                  left
                  simp only [Shutdown.step, hpoint]
                  apply counted_advance hcounted hpoint
                    (ShutdownCoordinator.counts_step _ around _)
                  · exact fun hadds => hfits (by rw [hpoint]; exact hadds)
                  · exact fun huncounted => inFlight_uncounted huncounted hover
            · exact .inr (hclosed.step _)
  | dropGuard index =>
      refine ⟨?_, h.counted.imp (counted_modify · weight_dropGuard index)
        (·.step (.dropGuard index))⟩
      intro point hpoint hrefused
      obtain ⟨point, hmem, rfl⟩ | hmem := mem_modify hpoint
      · refine h.refused point hmem ?_
        cases point with
        | started guard =>
            obtain ⟨counter⟩ := guard
            cases counter <;> cases hrefused
        | _ => exact hrefused
      · exact h.refused point hmem hrefused
  | decrementInFlight index =>
      refine ⟨?_, h.counted.imp (counted_modify · weight_pair index)
        (·.step (.decrementInFlight index))⟩
      intro point hpoint hrefused
      obtain ⟨point, hmem, rfl⟩ | hmem := mem_modify hpoint
      · refine h.refused point hmem ?_
        cases point with
        | incremented counted => cases counted <;> exact hrefused
        | _ => exact hrefused
      · exact h.refused point hmem hrefused

/-- The manual interface leaves the guards counted if no decrement of a refused increment takes
effect while a guard is out, and the counter does not overflow. -/
theorem guards_counted {drainTimeout : Nat} {inputs : List ShutdownStep}
    (hrun : EveryStep step (fun s input => s.Fits input ∧ s.Spares input) (start drainTimeout)
      inputs) : GuardSafe drainTimeout inputs := by
  have hcovers : ∀ front, front <+: inputs → (after drainTimeout front).Covers := by
    rintro front ⟨back, rfl⟩
    apply hrun.append_left.invariant _ (covers_start drainTimeout)
    intro s input h hok
    exact h.step hok.1 hok.2
  refine ⟨fun front hfront => (hcovers front hfront).guards_le, ?_⟩
  rintro front input back rfl hdrains
  have hle := (hcovers front (List.prefix_append front (input :: back))).guards_le
  cases input with
  | advance index around =>
      rw [hdrains.2, UInt64.toNat_zero] at hle
      exact Nat.le_zero.mp hle
  | call _ | dropGuard _ | decrementInFlight _ => exact hdrains.elim

/-- A pair around a request, and a refused pair after the request is done. -/
def balancedPairs : List ShutdownStep :=
  let go index := ShutdownStep.advance index ⟨0, false⟩
  [.call .incrementInFlight, go 0, go 0, go 0, .call .requestStart, go 1, go 1, go 1,
    .call .shutdown, go 2, go 2, go 2, .dropGuard 1, go 1, go 1, .call .incrementInFlight, go 3,
    .decrementInFlight 3, go 3, go 3, .decrementInFlight 0, go 0, .call .waitDrain, go 4, go 4]

theorem guards_counted_pairs : GuardSafe 0 balancedPairs := guards_counted (by decide)

/-- The pair comes after the shutdown, while a request is under way. -/
def refusedPair : List ShutdownStep :=
  let go index := ShutdownStep.advance index ⟨0, false⟩
  [.call .requestStart, go 0, go 0, go 0, .call .shutdown, go 1, go 1, go 1,
    .call .incrementInFlight, go 2, .decrementInFlight 2, go 2, go 2, .call .waitDrain, go 3, go 3]

theorem refused_pair_uncounts : ¬ GuardSafe 0 refusedPair := by
  intro h
  have hdrained := h.drained (refusedPair.take 15) _ _ rfl ⟨⟨0, rfl⟩, rfl⟩
  revert hdrained
  decide

end Shutdown
end Dcp
