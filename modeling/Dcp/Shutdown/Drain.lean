import Dcp.Library.Accounting
import Dcp.Shutdown.Coordinator

/-!
The counter of requests through all interleavings of the calls on a coordinator, and what a drain
promises: after a `shutdown` has returned, a counter that is seen at zero stands for no guard, and
no request is admitted any more. A `shutdown` that finds another one under way returns before the
flag is stored, and nothing holds then.
-/

namespace Dcp
open Library

namespace CallPoint

/-- The call is not one of the manual interface. -/
def guardApi : CallPoint → Bool
  | .incrementInFlight | .incrementAdd | .incrementRecheck | .incremented _ | .decremented => false
  | .decrementInFlight .increment | .exchange .increment _ _ => false
  | .decrementInFlight (.paired _) | .exchange (.paired _) _ _ => false
  | _ => true

/-- Only the paired decrement of an increment that was refused lowers what it has not raised. -/
def Uncounted (point : CallPoint) : Prop :=
  ∃ seen hseen, point = .exchange (.paired false) seen hseen

theorem weight_turnedAway (attempt : Bool) : (turnedAway attempt).weight = 0 := by
  cases attempt <;> rfl

theorem weight_ite {P : Prop} [Decidable P] {point point' : CallPoint} {n : Nat}
    (h : point.weight = n) (h' : point'.weight = n) : (if P then point else point').weight = n := by
  split
  · exact h
  · exact h'

theorem weight_done (use : Decrement) : use.done.weight = 0 := by
  cases use with
  | request attempt => exact weight_turnedAway attempt
  | dropped | increment | paired counted => rfl

theorem guards_done (use : Decrement) : use.done.guards = 0 := by
  have hweight := weight_done use
  unfold weight at hweight
  omega

theorem weight_exchange (use : Decrement) (seen : UInt64) (hseen : seen ≠ 0) :
    (exchange use seen hseen).weight = (decrementInFlight use).weight := by
  cases use with
  | paired counted => cases counted <;> rfl
  | request _ | dropped | increment => rfl

theorem guards_exchange (use : Decrement) (seen : UInt64) (hseen : seen ≠ 0) :
    (exchange use seen hseen).guards = (decrementInFlight use).guards := by
  cases use <;> rfl

end CallPoint

namespace ShutdownCoordinator
open CallPoint

/-- What a step of a call does to the counter, and to what the call accounts for. -/
inductive Counts (c : ShutdownCoordinator) (point : CallPoint) (c' : ShutdownCoordinator)
    (point' : CallPoint) : Prop
  | keeps (hcount : c'.inFlight = c.inFlight) (hweight : point'.weight = point.weight)
  | raises (hadds : point.adds = true) (hcount : c'.inFlight = c.inFlight + 1)
      (hweight : point'.weight = point.weight + 1)
  | lowers (hpos : c.inFlight ≠ 0) (hcount : c'.inFlight = c.inFlight - 1)
      (hpoint : point.weight = 1 ∨ point.Uncounted) (hweight : point'.weight = 0)
  | misses (hzero : c.inFlight = 0) (hcount : c'.inFlight = c.inFlight)
      (hweight : point'.weight = 0)

theorem counts_fetchUpdate {c : ShutdownCoordinator} {point : CallPoint} {use : Decrement}
    (h : point.weight = (decrementInFlight use).weight) :
    Counts c point c (fetchUpdate c.inFlight use) := by
  unfold fetchUpdate
  split
  · next hzero => exact .misses hzero rfl (weight_done use)
  · next hseen => exact .keeps rfl ((weight_exchange use _ hseen).trans h.symm)

theorem counts_step (c : ShutdownCoordinator) (around : Surroundings) (point : CallPoint) :
    Counts c point (c.step around point).1 (c.step around point).2 := by
  cases point with
  | shutdown => exact .keeps rfl (weight_ite rfl rfl)
  | requestStart attempt => exact .keeps rfl (weight_ite (weight_turnedAway attempt) rfl)
  | requestAdd attempt => exact .raises rfl rfl rfl
  | requestRecheck attempt => exact .keeps rfl (weight_ite rfl rfl)
  | loadInFlight deadline => exact .keeps rfl (weight_ite rfl rfl)
  | checkDeadline deadline => exact .keeps rfl (weight_ite rfl rfl)
  | incrementInFlight => exact .keeps rfl (weight_ite rfl rfl)
  | incrementAdd => exact .raises rfl rfl rfl
  | incrementRecheck => exact .keeps rfl (weight_ite rfl rfl)
  | decrementInFlight use => exact counts_fetchUpdate rfl
  | exchange use seen hseen =>
      simp only [step]
      split
      · next hsame =>
          refine .lowers (hsame.1 ▸ hseen) (by rw [hsame.1]) ?_ (weight_done use)
          cases use with
          | paired counted =>
              cases counted with
              | false => exact .inr ⟨seen, hseen, rfl⟩
              | true => exact .inl rfl
          | request attempt | dropped | increment => exact .inl rfl
      · exact counts_fetchUpdate (weight_exchange use seen hseen)
  | storeShutdown | notify | announced | waitDrain _ | drained _ | started _ | refused | dropped
  | incremented _ | decremented => exact .keeps rfl rfl

theorem shutdown_step {c : ShutdownCoordinator} (around : Surroundings) (point : CallPoint)
    (h : c.shutdown = true) : (c.step around point).1.shutdown = true := by
  cases point with
  | exchange use seen hseen =>
      simp only [step]
      split <;> exact h
  | storeShutdown => rfl
  | _ => exact h

theorem guards_fetchUpdate_le (seen : UInt64) (use : Decrement) :
    (fetchUpdate seen use).guards ≤ (decrementInFlight use).guards := by
  unfold fetchUpdate
  split
  · rw [guards_done]
    exact Nat.zero_le _
  · next hseen => exact (guards_exchange use seen hseen).le

/-- Once the flag is stored, no guard is given out. -/
theorem guards_step_le {c : ShutdownCoordinator} (around : Surroundings) (point : CallPoint)
    (h : c.shutdown = true) : (c.step around point).2.guards ≤ point.guards := by
  cases point with
  | requestRecheck attempt => simp [step, h, guards]
  | decrementInFlight use => exact guards_fetchUpdate_le c.inFlight use
  | exchange use seen hseen =>
      simp only [step]
      split
      · rw [guards_done]
        exact Nat.zero_le _
      · exact (guards_fetchUpdate_le c.inFlight use).trans (guards_exchange use seen hseen).ge
  | shutdown | loadInFlight _ | checkDeadline _ | incrementInFlight | incrementRecheck =>
      simp only [step]
      split <;> exact Nat.le_refl _
  | requestStart attempt =>
      cases attempt <;> simp [step, h, turnedAway, guards, RequestGuard.isActive]
  | _ => exact Nat.le_refl _

end ShutdownCoordinator

/-- The step is not one of the manual interface. -/
def ShutdownStep.guardApi : ShutdownStep → Bool
  | .call .incrementInFlight | .decrementInFlight _ => false
  | _ => true

namespace Shutdown
open CallPoint

/-- The counter is what the calls account for. -/
def Counted (s : Shutdown) : Prop :=
  s.coordinator.inFlight.toNat = (s.calls.map weight).sum

/-- The flag is stored and no guard is out. -/
structure Closed (s : Shutdown) : Prop where
  flag : s.coordinator.shutdown = true
  noGuards : s.activeGuards = 0

theorem weight_enter (s : Shutdown) (call : ShutdownCall) : (s.enter call).weight = 0 := by
  cases call <;> rfl

theorem weight_dropGuard (point : CallPoint) : (dropGuard point).weight = point.weight := by
  cases point with
  | started guard =>
      obtain ⟨counter⟩ := guard
      cases counter <;> rfl
  | _ => rfl

theorem guards_dropGuard (point : CallPoint) : (dropGuard point).guards = point.guards := by
  cases point with
  | started guard =>
      obtain ⟨counter⟩ := guard
      cases counter <;> rfl
  | _ => rfl

theorem weight_pair (point : CallPoint) : (pair point).weight = point.weight := by
  cases point with
  | incremented counted => cases counted <;> rfl
  | _ => rfl

theorem guards_pair (point : CallPoint) : (pair point).guards = point.guards := by
  cases point <;> rfl

theorem weight_le {s : Shutdown} (h : s.Counted) {point : CallPoint} (hpoint : point ∈ s.calls) :
    point.weight ≤ s.coordinator.inFlight.toNat :=
  h.symm ▸ le_sum_map weight hpoint

/-- A step of a call keeps the counter right, unless it is the decrement of a refused increment. -/
theorem counted_advance {s : Shutdown} (h : s.Counted) {index : Nat} {point : CallPoint}
    (hpoint : s.calls[index]? = some point) {c' : ShutdownCoordinator} {point' : CallPoint}
    (hstep : ShutdownCoordinator.Counts s.coordinator point c' point')
    (hfits : point.adds = true → s.coordinator.inFlight.toNat + 1 < UInt64.size)
    (hcounted : point.Uncounted → c'.inFlight = s.coordinator.inFlight) :
    Counted ⟨c', s.calls.set index point'⟩ := by
  have hsum := sum_map_set weight point' hpoint
  have hle := weight_le h (List.mem_of_getElem? hpoint)
  unfold Counted at h
  show c'.inFlight.toNat = ((s.calls.set index point').map weight).sum
  simp only [UInt64.size] at hfits
  cases hstep with
  | keeps hcount hweight =>
      rw [hcount]
      omega
  | raises hadds hcount hweight =>
      have hroom := hfits hadds
      rw [hcount, UInt64.toNat_add, UInt64.toNat_one]
      omega
  | lowers hpos hcount hused hweight =>
      have hchanged : s.coordinator.inFlight - 1 ≠ s.coordinator.inFlight := by grind
      have hone : point.weight = 1 :=
        hused.resolve_right fun huncounted => hchanged (hcount ▸ hcounted huncounted)
      have hle' : (1 : UInt64) ≤ s.coordinator.inFlight := by
        rw [UInt64.le_iff_toNat_le, UInt64.toNat_one]
        omega
      rw [hcount, UInt64.toNat_sub_of_le _ _ hle', UInt64.toNat_one]
      omega
  | misses hzero hcount hweight =>
      rw [hcount]
      rw [hzero, UInt64.toNat_zero] at hle h ⊢
      omega

theorem counted_call {s : Shutdown} (h : s.Counted) (call : ShutdownCall) :
    Counted { s with calls := s.calls ++ [s.enter call] } := by
  unfold Counted at h ⊢
  rw [List.map_append, List.sum_append, List.map_singleton, List.sum_singleton, weight_enter]
  exact h

theorem counted_modify {s : Shutdown} (h : s.Counted) {g : CallPoint → CallPoint}
    (hg : ∀ point, (g point).weight = point.weight) (index : Nat) :
    Counted { s with calls := s.calls.modify index g } := by
  unfold Counted at h ⊢
  rw [map_modify hg]
  exact h

theorem counted_start (drainTimeout : Nat) : (start drainTimeout).Counted := rfl

/-- After the flag is stored and the guards are gone, no guard comes back. -/
theorem Closed.step {s : Shutdown} (h : s.Closed) (input : ShutdownStep) :
    (s.step input).Closed := by
  obtain ⟨hflag, hguards⟩ := h
  unfold activeGuards at hguards
  cases input with
  | call call =>
      refine ⟨hflag, ?_⟩
      have henter : (s.enter call).guards = 0 := by cases call <;> rfl
      rw [Shutdown.step, activeGuards, List.map_append, List.sum_append, List.map_singleton,
        List.sum_singleton, henter]
      exact hguards
  | advance index around =>
      simp only [Shutdown.step]
      split
      · exact ⟨hflag, hguards⟩
      · next point hpoint =>
          refine ⟨ShutdownCoordinator.shutdown_step around point hflag, ?_⟩
          have hsum := sum_map_set guards (s.coordinator.step around point).2 hpoint
          have hle := ShutdownCoordinator.guards_step_le around point hflag
          show ((s.calls.set index _).map guards).sum = 0
          omega
  | dropGuard index =>
      refine ⟨hflag, ?_⟩
      rw [Shutdown.step, activeGuards, map_modify guards_dropGuard]
      exact hguards
  | decrementInFlight index =>
      refine ⟨hflag, ?_⟩
      rw [Shutdown.step, activeGuards, map_modify guards_pair]
      exact hguards

/-- What the counter says about the guards. -/
theorem Counted.guards_le {s : Shutdown} (h : s.Counted) :
    s.activeGuards ≤ s.coordinator.inFlight.toNat := by
  rw [h]
  apply List.sum_le_sum
  intro point _
  unfold weight
  omega

/-- A `shutdown` that finds another one before it also finds the flag stored. -/
def Announces (s : Shutdown) : ShutdownStep → Prop
  | .advance index _ =>
      s.calls[index]? = some .shutdown → s.coordinator.initiated = true →
        s.coordinator.shutdown = true
  | _ => True

instance (s : Shutdown) : (input : ShutdownStep) → Decidable (s.Announces input)
  | .advance _ _ => inferInstanceAs (Decidable (_ → _ → _))
  | .call _ | .dropGuard _ | .decrementInFlight _ => .isTrue trivial

/-- What a drain promises along a run: the counter stands for the guards and the increments under
way, and from the load that ends a drain on there is no guard if a `shutdown` returned before. -/
structure DrainSafe (drainTimeout : Nat) (inputs : List ShutdownStep) : Prop where
  counted : ∀ front, front <+: inputs →
    (after drainTimeout front).coordinator.inFlight.toNat =
      (after drainTimeout front).activeGuards + (after drainTimeout front).increments
  drained : ∀ front input back, inputs = front ++ input :: back →
    (after drainTimeout front).Drains input → .announced ∈ (after drainTimeout front).calls →
    ∀ later, later <+: input :: back → (after drainTimeout (front ++ later)).activeGuards = 0

structure Sound (s : Shutdown) : Prop where
  counted : s.Counted
  guardApi : ∀ point ∈ s.calls, point.guardApi = true
  announced : ∀ point ∈ s.calls, point = .notify ∨ point = .announced →
    s.coordinator.shutdown = true

theorem guardApi_done {use : Decrement} (h : (decrementInFlight use).guardApi = true) :
    use.done.guardApi = true := by
  cases use with
  | request attempt => cases attempt <;> rfl
  | dropped => rfl
  | increment | paired _ => cases h

theorem guardApi_fetchUpdate (seen : UInt64) {use : Decrement}
    (h : (decrementInFlight use).guardApi = true) :
    (ShutdownCoordinator.fetchUpdate seen use).guardApi = true := by
  unfold ShutdownCoordinator.fetchUpdate
  split
  · exact guardApi_done h
  · cases use with
    | request _ | dropped => rfl
    | increment | paired _ => cases h

theorem guardApi_step (c : ShutdownCoordinator) (around : Surroundings) {point : CallPoint}
    (h : point.guardApi = true) : (c.step around point).2.guardApi = true := by
  cases point with
  | decrementInFlight use => exact guardApi_fetchUpdate _ h
  | exchange use seen hseen =>
      have huse : (decrementInFlight use).guardApi = true := by
        cases use with
        | request _ | dropped => rfl
        | increment | paired _ => cases h
      simp only [ShutdownCoordinator.step]
      split
      · exact guardApi_done huse
      · exact guardApi_fetchUpdate _ huse
  | shutdown | loadInFlight _ | checkDeadline _ | requestRecheck _ =>
      simp only [ShutdownCoordinator.step]
      split <;> rfl
  | requestStart attempt =>
      simp only [ShutdownCoordinator.step]
      split
      · cases attempt <;> rfl
      · rfl
  | incrementInFlight | incrementAdd | incrementRecheck | incremented _ | decremented => cases h
  | storeShutdown | notify | announced | waitDrain _ | drained _ | requestAdd _ | started _
  | refused | dropped => rfl

/-- Without the manual interface the counter is right by the guards and the increments. -/
theorem Sound.split_count {s : Shutdown} (h : s.Sound) :
    s.coordinator.inFlight.toNat = s.activeGuards + s.increments := by
  have hweight : ∀ point ∈ s.calls, point.weight = point.guards + point.increments := by
    intro point hpoint
    have hapi := h.guardApi point hpoint
    have hmanual : point.manual = 0 := by
      cases point with
      | incremented _ | incrementRecheck => cases hapi
      | decrementInFlight use | exchange use _ _ =>
          cases use with
          | request _ | dropped => rfl
          | increment | paired _ => cases hapi
      | _ => rfl
    rw [weight, hmanual, Nat.add_zero]
  rw [h.counted, activeGuards, increments, ← List.sum_map_add, List.map_congr_left hweight]

theorem sound_start (drainTimeout : Nat) : (start drainTimeout).Sound :=
  ⟨counted_start drainTimeout, nofun, nofun⟩

/-- What a call that is about to return from `shutdown` has seen. -/
theorem announced_step {c : ShutdownCoordinator} {around : Surroundings} {point : CallPoint}
    (hpoint : point = .notify ∨ point = .announced → c.shutdown = true)
    (hswap : point = .shutdown → c.initiated = true → c.shutdown = true)
    (hnext : (c.step around point).2 = .notify ∨ (c.step around point).2 = .announced) :
    (c.step around point).1.shutdown = true := by
  have hfetch : ∀ seen use,
      ¬ (ShutdownCoordinator.fetchUpdate seen use = .notify ∨
        ShutdownCoordinator.fetchUpdate seen use = .announced) := by
    intro seen use
    unfold ShutdownCoordinator.fetchUpdate
    split
    · cases use with
      | request attempt => cases attempt <;> exact nofun
      | dropped | increment | paired _ => exact nofun
    · exact nofun
  cases point with
  | shutdown =>
      cases hinitiated : c.initiated with
      | true => exact hswap rfl hinitiated
      | false => simp [ShutdownCoordinator.step, hinitiated] at hnext
  | storeShutdown => rfl
  | notify => exact hpoint (.inl rfl)
  | announced => exact hpoint (.inr rfl)
  | decrementInFlight use => exact absurd hnext (hfetch _ _)
  | exchange use seen hseen =>
      simp only [ShutdownCoordinator.step] at hnext
      split at hnext
      · cases use with
        | request attempt => cases attempt <;> exact absurd hnext nofun
        | dropped | increment | paired _ => exact absurd hnext nofun
      · exact absurd hnext (hfetch _ _)
  | loadInFlight _ | checkDeadline _ | requestRecheck _ | incrementInFlight | incrementRecheck =>
      simp only [ShutdownCoordinator.step] at hnext
      split at hnext <;> exact absurd hnext nofun
  | requestStart attempt =>
      simp only [ShutdownCoordinator.step] at hnext
      split at hnext
      · cases attempt <;> exact absurd hnext nofun
      · exact absurd hnext nofun
  | waitDrain _ | drained _ | requestAdd _ | started _ | refused | dropped | incrementAdd
  | incremented _ | decremented => exact absurd hnext nofun

theorem Sound.step {s : Shutdown} (h : s.Sound) {input : ShutdownStep}
    (hapi : input.guardApi = true) (hfits : s.Fits input) (hannounces : s.Announces input) :
    (s.step input).Sound := by
  cases input with
  | call call =>
      refine ⟨counted_call h.counted call, ?_, ?_⟩
      · intro point hpoint
        obtain hpoint | hpoint := List.mem_append.mp hpoint
        · exact h.guardApi point hpoint
        · rw [List.mem_singleton.mp hpoint]
          cases call with
          | incrementInFlight => cases hapi
          | _ => rfl
      · intro point hpoint hreturned
        obtain hpoint | hpoint := List.mem_append.mp hpoint
        · exact h.announced point hpoint hreturned
        · rw [List.mem_singleton.mp hpoint] at hreturned
          cases call <;> exact absurd hreturned nofun
  | advance index around =>
      simp only [Shutdown.step]
      split
      · exact h
      · next point hpoint =>
          have hmem := List.mem_of_getElem? hpoint
          have hcounted : ¬ point.Uncounted := by
            rintro ⟨seen, hseen, rfl⟩
            cases h.guardApi _ hmem
          refine ⟨counted_advance h.counted hpoint (ShutdownCoordinator.counts_step _ around _) ?_
            (absurd · hcounted), ?_, ?_⟩
          · intro hadds
            exact hfits (by rw [hpoint]; exact hadds)
          · intro point' hpoint'
            obtain rfl | hpoint' := eq_or_mem_of_mem_set hpoint'
            · exact guardApi_step s.coordinator around (h.guardApi point hmem)
            · exact h.guardApi point' hpoint'
          · intro point' hpoint' hreturned
            obtain rfl | hpoint' := eq_or_mem_of_mem_set hpoint'
            · refine announced_step (h.announced point hmem) ?_ hreturned
              rintro rfl
              exact hannounces hpoint
            · exact ShutdownCoordinator.shutdown_step around point
                (h.announced point' hpoint' hreturned)
  | dropGuard index =>
      refine ⟨counted_modify h.counted weight_dropGuard index, ?_, ?_⟩
      · intro point hpoint
        obtain ⟨point, hmem, rfl⟩ | hmem := mem_modify hpoint
        · have hapi := h.guardApi point hmem
          cases point with
          | started guard =>
              obtain ⟨counter⟩ := guard
              cases counter <;> rfl
          | _ => exact hapi
        · exact h.guardApi point hmem
      · intro point hpoint hreturned
        obtain ⟨point, hmem, rfl⟩ | hmem := mem_modify hpoint
        · refine h.announced point hmem ?_
          cases point with
          | started guard =>
              obtain ⟨counter⟩ := guard
              cases counter <;> exact absurd hreturned nofun
          | _ => exact hreturned
        · exact h.announced point hmem hreturned
  | decrementInFlight index => cases hapi

/-- A drain keeps its promise if no `shutdown` returns before the flag is stored, and the counter
does not overflow. -/
theorem drain_safe {drainTimeout : Nat} {inputs : List ShutdownStep}
    (hapi : ∀ input ∈ inputs, input.guardApi = true)
    (hrun : EveryStep step (fun s input => s.Fits input ∧ s.Announces input)
      (start drainTimeout) inputs) : DrainSafe drainTimeout inputs := by
  have hsound : ∀ front, front <+: inputs → (after drainTimeout front).Sound := by
    rintro front ⟨back, rfl⟩
    apply (hrun.with_inputs hapi).append_left.invariant _ (sound_start drainTimeout)
    intro s input h hok
    exact h.step hok.1 hok.2.1 hok.2.2
  refine ⟨fun front hfront => (hsound front hfront).split_count, ?_⟩
  rintro front input back rfl hdrains hreturned later -
  have hs := hsound front (List.prefix_append front (input :: back))
  have hzero : (after drainTimeout front).coordinator.inFlight = 0 := by
    cases input with
    | advance index around => exact hdrains.2
    | call _ | dropGuard _ | decrementInFlight _ => exact hdrains.elim
  have hcount := hs.split_count
  rw [hzero, UInt64.toNat_zero] at hcount
  have hclosed : (after drainTimeout front).Closed :=
    ⟨hs.announced .announced hreturned (.inr rfl), by omega⟩
  rw [after, List.foldl_append]
  exact (invariant_foldl (fun s input h => h.step input) hclosed later).noGuards

/-- One request, then a shutdown and a drain; a second request comes too late. -/
def orderlyShutdown : List ShutdownStep :=
  let go index := ShutdownStep.advance index ⟨0, false⟩
  [.call .requestStart, go 0, go 0, go 0, .call .shutdown, go 1, go 1, go 1, .dropGuard 0, go 0,
    go 0, .call .waitDrain, go 2, .call .tryRequestStart, go 3, go 2]

theorem drain_safe_orderly : DrainSafe 0 orderlyShutdown :=
  drain_safe (by decide) (by decide)

/-- The second `shutdown` returns while the first has not stored the flag yet; a drain then ends,
and a request that has read the flag before is admitted after it. -/
def lateAdmission : List ShutdownStep :=
  let go index := ShutdownStep.advance index ⟨0, false⟩
  [.call .shutdown, go 0, .call .shutdown, go 1, .call .waitDrain, go 2, .call .tryRequestStart,
    go 3, go 2, go 3, go 3]

theorem drain_admits_late :
    (∀ input ∈ lateAdmission, input.guardApi = true) ∧ ¬ DrainSafe 0 lateAdmission := by
  refine ⟨by decide, fun h => ?_⟩
  have hnone := h.drained (lateAdmission.take 8) _ _ rfl ⟨⟨0, rfl⟩, rfl⟩ (by decide)
    (lateAdmission.drop 8) (List.prefix_refl _)
  revert hnone
  decide

end Shutdown
end Dcp
