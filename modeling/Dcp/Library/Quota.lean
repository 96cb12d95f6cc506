import Mathlib.Tactic

/-!
A table whose size is limited by a counter beside it. Who enters asks the counter first, enters
the table later and counts up after that; who leaves does so before it counts down. The counter is a
word, and what is asked of it is not of one moment with what is done. The limit holds when who
enters adds those on the way between the question and the counter.
-/

namespace Library

/-- Where a participant is: in front of the table with its question answered, in the table and not
counted yet, out of the table and still counted, or at none of these places. -/
inductive Stage
  | outside
  | entering
  | uncounted
  | leaving
  deriving DecidableEq

structure Quota where
  held : Nat
  counter : Nat
  stages : List Stage

theorem count_set_stage {stages : List Stage} {i : Nat} {before : Stage}
    (hi : stages[i]? = some before) (after stage : Stage) :
    (stages.set i after).count stage + (if before = stage then 1 else 0) =
      stages.count stage + if after = stage then 1 else 0 := by
  induction stages generalizing i with
  | nil => cases hi
  | cons first rest ih =>
      cases i with
      | zero =>
          obtain rfl : first = before := Option.some.inj hi
          simp only [List.set_cons_zero, List.count_cons, beq_iff_eq]
          omega
      | succ i =>
          have hrest := ih hi
          simp only [List.set_cons_succ, List.count_cons]
          omega

namespace Quota
variable {width limit held counter i : Nat} {stages : List Stage}

/-- The places of the limit that are taken or on the way, with some that are lost: they are counted,
and nobody has them. -/
def Sound (width limit : Nat) (q : Quota) : Prop :=
  ∃ lost, q.held + q.stages.count .leaving + q.stages.count .entering + lost ≤ limit ∧
    q.counter + q.stages.count .uncounted ≡ q.held + q.stages.count .leaving + lost [MOD width]

theorem sound_empty (width limit : Nat) : Sound width limit ⟨0, 0, []⟩ :=
  ⟨0, Nat.zero_le _, rfl⟩

section
variable (h : Sound width limit ⟨held, counter, stages⟩)
include h

theorem Sound.held_le : held ≤ limit := by
  obtain ⟨lost, hfits, -⟩ := h
  dsimp only at hfits
  omega

theorem Sound.join : Sound width limit ⟨held, counter, stages ++ [.outside]⟩ := by
  obtain ⟨lost, hfits, hcount⟩ := h
  refine ⟨lost, ?_⟩
  simp only [List.count_append, List.count_singleton]
  exact ⟨hfits, hcount⟩

/-- The table is emptied; its places are lost until the counter is set back. -/
theorem Sound.drain : Sound width limit ⟨0, counter, stages⟩ := by
  obtain ⟨lost, hfits, hcount⟩ := h
  dsimp only at hfits hcount
  refine ⟨held + lost, by dsimp only; omega, hcount.trans (congrArg (· % width) ?_)⟩
  dsimp only
  omega

/-- The counter is set back while the table is empty and nobody is between the two. -/
theorem Sound.reset (hheld : held = 0) (huncounted : stages.count .uncounted = 0)
    (hleaving : stages.count .leaving = 0) : Sound width limit ⟨held, 0, stages⟩ := by
  obtain ⟨lost, hfits, -⟩ := h
  dsimp only at hfits
  refine ⟨0, by dsimp only; omega, congrArg (· % width) ?_⟩
  dsimp only
  omega

theorem Sound.move {before after : Stage} (hi : stages[i]? = some before) {held' counter' : Nat}
    (hmove : ∀ lost entering uncounted leaving entering' uncounted' leaving' : Nat,
      entering' + (if before = .entering then 1 else 0) =
        entering + (if after = .entering then 1 else 0) →
      uncounted' + (if before = .uncounted then 1 else 0) =
        uncounted + (if after = .uncounted then 1 else 0) →
      leaving' + (if before = .leaving then 1 else 0) =
        leaving + (if after = .leaving then 1 else 0) →
      uncounted = stages.count .uncounted → entering = stages.count .entering →
      held + leaving + entering + lost ≤ limit →
      counter + uncounted ≡ held + leaving + lost [MOD width] →
      ∃ lost', held' + leaving' + entering' + lost' ≤ limit ∧
        counter' + uncounted' ≡ held' + leaving' + lost' [MOD width]) :
    Sound width limit ⟨held', counter', stages.set i after⟩ := by
  obtain ⟨lost, hfits, hcount⟩ := h
  have htally := count_set_stage hi after
  exact hmove lost _ _ _ _ _ _ (htally _) (htally _) (htally _) rfl rfl hfits hcount

theorem Sound.abandon (hi : stages[i]? = some .entering) :
    Sound width limit ⟨held, counter, stages.set i .outside⟩ := by
  refine h.move hi ?_
  rintro lost entering uncounted leaving entering' uncounted' leaving' he hu hl - - hfits hcount
  simp only [reduceCtorEq, if_true, if_false] at he hu hl
  obtain rfl : uncounted' = uncounted := hu
  obtain rfl : leaving' = leaving := hl
  exact ⟨lost, by omega, hcount⟩

theorem Sound.letIn (hi : stages[i]? = some .outside) (hwidth : limit < width)
    (hroom : counter + stages.count .entering + stages.count .uncounted < limit) :
    Sound width limit ⟨held, counter, stages.set i .entering⟩ := by
  refine h.move hi ?_
  rintro lost entering uncounted leaving entering' uncounted' leaving' he hu hl rfl rfl hfits hcount
  simp only [reduceCtorEq, if_true, if_false] at he hu hl
  have hshown : counter + stages.count .uncounted = held + leaving + lost :=
    hcount.eq_of_lt_of_lt (by omega) (by omega)
  refine ⟨lost, by omega, ?_⟩
  rwa [Nat.add_right_cancel hu, Nat.add_right_cancel hl]

theorem Sound.enter (hi : stages[i]? = some .entering) {held' : Nat}
    (hheld : held' = held + 1 ∨ held' = held) :
    Sound width limit ⟨held', counter, stages.set i .uncounted⟩ := by
  refine h.move hi ?_
  rintro lost entering uncounted leaving entering' uncounted' leaving' he hu hl - - hfits hcount
  simp only [reduceCtorEq, if_true, if_false] at he hu hl
  have hnext := hcount.add_right 1
  rw [Nat.add_assoc, ← hu, Nat.add_zero] at hnext
  obtain rfl | rfl := hheld
  · refine ⟨lost, by omega, hnext.trans (congrArg (· % width) ?_)⟩
    omega
  · refine ⟨lost + 1, by omega, hnext.trans (congrArg (· % width) ?_)⟩
    omega

theorem Sound.count (hi : stages[i]? = some .uncounted) {counter' : Nat}
    (hcounter : counter' ≡ counter + 1 [MOD width]) :
    Sound width limit ⟨held, counter', stages.set i .outside⟩ := by
  refine h.move hi ?_
  rintro lost entering uncounted leaving entering' uncounted' leaving' he hu hl - - hfits hcount
  simp only [reduceCtorEq, if_true, if_false] at he hu hl
  refine ⟨lost, by omega, ?_⟩
  calc counter' + uncounted' ≡ counter + 1 + uncounted' [MOD width] := hcounter.add_right _
    _ = counter + uncounted := by omega
    _ ≡ held + leaving + lost [MOD width] := hcount
    _ = held + leaving' + lost := by omega

theorem Sound.leave (hi : stages[i]? = some .outside) {held' : Nat} (hheld : held' + 1 = held) :
    Sound width limit ⟨held', counter, stages.set i .leaving⟩ := by
  refine h.move hi ?_
  rintro lost entering uncounted leaving entering' uncounted' leaving' he hu hl - - hfits hcount
  simp only [reduceCtorEq, if_true, if_false] at he hu hl
  refine ⟨lost, by omega, ?_⟩
  rw [Nat.add_right_cancel hu]
  exact hcount.trans (congrArg (· % width) (by omega))

theorem Sound.release (hi : stages[i]? = some .leaving) {counter' : Nat}
    (hcounter : counter' + 1 ≡ counter [MOD width]) :
    Sound width limit ⟨held, counter', stages.set i .outside⟩ := by
  refine h.move hi ?_
  rintro lost entering uncounted leaving entering' uncounted' leaving' he hu hl - - hfits hcount
  simp only [reduceCtorEq, if_true, if_false] at he hu hl
  refine ⟨lost, by omega, Nat.ModEq.add_right_cancel' 1 ?_⟩
  calc counter' + uncounted' + 1 = counter' + 1 + uncounted := by omega
    _ ≡ counter + uncounted [MOD width] := hcounter.add_right _
    _ ≡ held + leaving + lost [MOD width] := hcount
    _ = held + leaving' + lost + 1 := by omega

end

end Quota
end Library
