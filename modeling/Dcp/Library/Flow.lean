import Mathlib.Data.List.Basic
import Mathlib.Logic.Relation
import Mathlib.Tactic

/-!
One direction of a connection that carries values in order. The sender announces itself once
and then sends values; the receiver starts to take them in at the announcement, may stop at any
time and never starts again. What was read is then a front of what was sent, whatever is lost
after the receiver stops or the sender ends.
-/

namespace Library
variable {α : Type*}

inductive Parcel (α : Type*)
  | announcement
  | value (a : α)
  deriving DecidableEq

/-- What the receiver has: nothing, or values to be read, with more taken in or not. -/
inductive Intake (α : Type*)
  | absent
  | receiving (buffer : List α)
  | stopped (buffer : List α)

namespace Intake

/-- The receiver stops or lets everything go. -/
inductive Wanes : Intake α → Intake α → Prop
  | same (intake : Intake α) : Wanes intake intake
  | stops (buffer : List α) : Wanes (.receiving buffer) (.stopped buffer)
  | leaves (intake : Intake α) : Wanes intake .absent

inductive Reads (a : α) : Intake α → Intake α → Prop
  | receiving (buffer : List α) : Reads a (.receiving (a :: buffer)) (.receiving buffer)
  | stopped (buffer : List α) : Reads a (.stopped (a :: buffer)) (.stopped buffer)

def IsReceiving : Intake α → Prop
  | .receiving _ => True
  | _ => False

end Intake

/-- The values sent so far, what is on its way, oldest first, the receiver, and the values that
were read. When the sender has ended it sends no more, and parcels on their way can be lost. -/
@[ext]
structure Flow (α : Type*) where
  sent : List α
  trail : List (Parcel α)
  intake : Intake α
  read : List α
  ended : Bool

namespace Flow

/-- Nobody has used the flow yet. -/
structure Unused (f : Flow α) : Prop where
  sent : f.sent = []
  trail : f.trail = []
  intake : f.intake = .absent
  read : f.read = []

inductive Step : Flow α → Flow α → Prop
  | announces {f : Flow α} (h : f.Unused) : Step f { f with trail := [.announcement] }
  | starts {f : Flow α} (h : f.Unused) : Step f { f with intake := .receiving [] }
  | sends {f : Flow α} (a : α) (h : f.ended = false) :
      Step f { f with sent := f.sent ++ [a], trail := f.trail ++ [.value a] }
  | ends {f : Flow α} {front : List (Parcel α)} (h : front <+: f.trail) :
      Step f { f with trail := front, ended := true }
  | accepts {f : Flow α} {rest : List (Parcel α)} (h : f.trail = .announcement :: rest)
      (habsent : f.intake = .absent) : Step f { f with trail := rest, intake := .receiving [] }
  | refuses {f : Flow α} {rest : List (Parcel α)} {intake : Intake α}
      (h : f.trail = .announcement :: rest) (hwanes : f.intake.Wanes intake) :
      Step f { f with trail := rest, intake }
  | takes {f : Flow α} {a : α} {rest : List (Parcel α)} {buffer : List α}
      (h : f.trail = .value a :: rest) (hreceiving : f.intake = .receiving buffer) :
      Step f { f with trail := rest, intake := .receiving (buffer ++ [a]) }
  | drops {f : Flow α} {a : α} {rest : List (Parcel α)} {intake : Intake α}
      (h : f.trail = .value a :: rest) (hwanes : f.intake.Wanes intake)
      (hnot : ¬ intake.IsReceiving) : Step f { f with trail := rest, intake }
  | reads {f : Flow α} {a : α} {intake : Intake α} (h : f.intake.Reads a intake) :
      Step f { f with intake, read := f.read ++ [a] }
  | wanes {f : Flow α} {intake : Intake α} (h : f.intake.Wanes intake) :
      Step f { f with intake }

/-- What the receiver got, followed by the values on their way, is what was sent, or the front
of it that the end of the sender has left. -/
structure Continues (f : Flow α) (got values : List α) : Prop where
  front : got ++ values <+: f.sent
  all : f.ended = false → got ++ values = f.sent

def InOrder (f : Flow α) : Prop :=
  match f.intake with
  | .absent => f.read <+: f.sent ∧ (.announcement ∈ f.trail → f.read = [] ∧
      ∃ values, f.trail = .announcement :: values.map .value ∧ f.Continues [] values)
  | .receiving buffer => ∃ values, f.trail = values.map .value ∧
      f.Continues (f.read ++ buffer) values
  | .stopped buffer => .announcement ∉ f.trail ∧ f.read ++ buffer <+: f.sent

variable {f g : Flow α} {a : α} {buffer values got : List α}

theorem announcement_notMem_map (values : List α) :
    Parcel.announcement ∉ values.map Parcel.value := by
  simp

theorem inOrder_absent (h : f.intake = .absent) :
    f.InOrder ↔ f.read <+: f.sent ∧ (.announcement ∈ f.trail → f.read = [] ∧
      ∃ values, f.trail = .announcement :: values.map .value ∧ f.Continues [] values) := by
  unfold InOrder
  rw [h]

theorem inOrder_receiving (h : f.intake = .receiving buffer) :
    f.InOrder ↔ ∃ values, f.trail = values.map .value ∧
      f.Continues (f.read ++ buffer) values := by
  unfold InOrder
  rw [h]

theorem inOrder_stopped (h : f.intake = .stopped buffer) :
    f.InOrder ↔ .announcement ∉ f.trail ∧ f.read ++ buffer <+: f.sent := by
  unfold InOrder
  rw [h]

theorem Unused.inOrder (h : f.Unused) : f.InOrder := by
  rw [inOrder_absent h.intake, h.read, h.trail]
  exact ⟨List.nil_prefix, fun hmem => absurd hmem (List.not_mem_nil)⟩

/-- Whatever the receiver is, what was read is a front of what was sent. -/
theorem InOrder.read_prefix (h : f.InOrder) : f.read <+: f.sent := by
  cases hintake : f.intake with
  | absent => exact ((inOrder_absent hintake).mp h).1
  | receiving buffer =>
      obtain ⟨values, -, hcontinues⟩ := (inOrder_receiving hintake).mp h
      refine List.IsPrefix.trans ?_ hcontinues.front
      rw [List.append_assoc]
      exact List.prefix_append _ _
  | stopped buffer =>
      exact (List.prefix_append _ _).trans ((inOrder_stopped hintake).mp h).2

/-- While the receiver takes values in and the sender has not ended, nothing is lost. -/
theorem InOrder.complete (h : f.InOrder) (hintake : f.intake = .receiving buffer)
    (hended : f.ended = false) :
    ∃ values, f.trail = values.map .value ∧ f.read ++ buffer ++ values = f.sent := by
  obtain ⟨values, htrail, hcontinues⟩ := (inOrder_receiving hintake).mp h
  exact ⟨values, htrail, hcontinues.all hended⟩

theorem Continues.sends (h : f.Continues got values) (hended : f.ended = false)
    (hsent : g.sent = f.sent ++ [a]) : g.Continues got (values ++ [a]) := by
  have hall : got ++ (values ++ [a]) = g.sent := by
    rw [hsent, ← h.all hended, List.append_assoc]
  exact ⟨hall ▸ List.prefix_rfl, fun _ => hall⟩

theorem Continues.ends {front : List α} (h : f.Continues got values) (hfront : front <+: values)
    (hsent : g.sent = f.sent) (hended : g.ended = true) : g.Continues got front where
  front := hsent ▸ ((List.prefix_append_right_inj got).mpr hfront).trans h.front
  all hnot := by rw [hended] at hnot; cases hnot

theorem Continues.moved (h : f.Continues got (a :: values)) (hsent : g.sent = f.sent)
    (hended : g.ended = f.ended) : g.Continues (got ++ [a]) values where
  front := by
    rw [hsent, List.append_assoc]
    exact h.front
  all hnot := by
    rw [hsent, List.append_assoc]
    exact h.all (hended ▸ hnot)

theorem Continues.same (h : f.Continues got values) (hsent : g.sent = f.sent)
    (hended : g.ended = f.ended) : g.Continues got values :=
  ⟨hsent ▸ h.front, fun hnot => hsent ▸ h.all (hended ▸ hnot)⟩

/-- A front of values on their way is values on their way. -/
theorem exists_map_of_prefix {front : List (Parcel α)} (h : front <+: values.map .value) :
    ∃ values', front = values'.map .value ∧ values' <+: values := by
  refine ⟨values.take front.length, ?_, List.take_prefix _ _⟩
  rw [List.map_take]
  exact List.prefix_iff_eq_take.mp h

/-- When no announcement is on its way, a receiver that does not take values in stays in order. -/
theorem InOrder.wanes {intake : Intake α} {rest : List (Parcel α)} (h : f.InOrder)
    (hwanes : f.intake.Wanes intake) (hnot : ¬ intake.IsReceiving)
    (hrest : .announcement ∉ rest) : ({ f with trail := rest, intake } : Flow α).InOrder := by
  have hread := h.read_prefix
  obtain ⟨sent, trail, old, read, ended⟩ := f
  cases hwanes with
  | same =>
      cases old with
      | absent => exact ⟨hread, fun hmem => absurd hmem hrest⟩
      | receiving buffer => exact absurd trivial hnot
      | stopped buffer => exact ⟨hrest, h.2⟩
  | stops buffer =>
      obtain ⟨values, -, hcontinues⟩ := h
      exact ⟨hrest, (List.prefix_append _ values).trans hcontinues.front⟩
  | leaves => exact ⟨hread, fun hmem => absurd hmem hrest⟩

/-- An announcement is on its way only to a receiver that has nothing. -/
theorem InOrder.announcement_notMem (h : f.InOrder) (hintake : f.intake ≠ .absent) :
    .announcement ∉ f.trail := by
  obtain ⟨sent, trail, intake, read, ended⟩ := f
  cases intake with
  | absent => exact absurd rfl hintake
  | receiving buffer =>
      obtain ⟨values, rfl, -⟩ := h
      exact announcement_notMem_map values
  | stopped buffer => exact h.1

theorem InOrder.step (h : f.InOrder) (hstep : Step f g) : g.InOrder := by
  cases hstep with
  | announces hunused =>
      obtain ⟨sent, trail, intake, read, ended⟩ := f
      obtain ⟨rfl, rfl, rfl, rfl⟩ := hunused
      exact ⟨List.nil_prefix, fun _ => ⟨rfl, [], rfl, List.nil_prefix, fun _ => rfl⟩⟩
  | starts hunused =>
      obtain ⟨sent, trail, intake, read, ended⟩ := f
      obtain ⟨rfl, rfl, rfl, rfl⟩ := hunused
      exact ⟨[], rfl, List.nil_prefix, fun _ => rfl⟩
  | sends a hended =>
      obtain ⟨sent, trail, intake, read, ended⟩ := f
      cases intake with
      | absent =>
          obtain ⟨hread, hannounced⟩ := h
          refine ⟨hread.trans (List.prefix_append _ _), fun hmem => ?_⟩
          have hbefore : .announcement ∈ trail := by simpa using hmem
          obtain ⟨hnone, values, rfl, hcontinues⟩ := hannounced hbefore
          exact ⟨hnone, values ++ [a], by simp, hcontinues.sends hended rfl⟩
      | receiving buffer =>
          obtain ⟨values, rfl, hcontinues⟩ := h
          exact ⟨values ++ [a], by simp, hcontinues.sends hended rfl⟩
      | stopped buffer =>
          obtain ⟨hnone, hread⟩ := h
          exact ⟨by simpa using hnone, hread.trans (List.prefix_append _ _)⟩
  | @ends front hfront =>
      obtain ⟨sent, trail, intake, read, ended⟩ := f
      cases intake with
      | absent =>
          obtain ⟨hread, hannounced⟩ := h
          refine ⟨hread, fun hmem => ?_⟩
          obtain ⟨hnone, values, rfl, hcontinues⟩ := hannounced (hfront.subset hmem)
          obtain rfl | ⟨rest, rfl, hrest⟩ := List.prefix_cons_iff.mp hfront
          · cases hmem
          · obtain ⟨values', rfl, hvalues⟩ := exists_map_of_prefix hrest
            exact ⟨hnone, values', rfl, hcontinues.ends hvalues rfl rfl⟩
      | receiving buffer =>
          obtain ⟨values, rfl, hcontinues⟩ := h
          obtain ⟨values', rfl, hvalues⟩ := exists_map_of_prefix hfront
          exact ⟨values', rfl, hcontinues.ends hvalues rfl rfl⟩
      | stopped buffer => exact ⟨fun hmem => h.1 (hfront.subset hmem), h.2⟩
  | accepts htrail habsent =>
      obtain ⟨hread, hannounced⟩ := (inOrder_absent habsent).mp h
      obtain ⟨hnone, values, hvalues, hcontinues⟩ := hannounced (by simp [htrail])
      rw [htrail, List.cons.injEq] at hvalues
      refine ⟨values, hvalues.2, ?_⟩
      change Continues _ (f.read ++ []) values
      rw [hnone]
      exact hcontinues.same rfl rfl
  | @refuses rest intake htrail hwanes =>
      have habsent : f.intake = .absent := by
        by_contra hne
        exact h.announcement_notMem hne (by simp [htrail])
      obtain ⟨hread, hannounced⟩ := (inOrder_absent habsent).mp h
      obtain ⟨-, values, hvalues, -⟩ := hannounced (by simp [htrail])
      rw [htrail, List.cons.injEq] at hvalues
      refine h.wanes hwanes ?_ (hvalues.2 ▸ announcement_notMem_map values)
      rw [habsent] at hwanes
      cases hwanes <;> exact not_false
  | takes htrail hreceiving =>
      obtain ⟨values, hvalues, hcontinues⟩ := (inOrder_receiving hreceiving).mp h
      cases values with
      | nil => simp [htrail] at hvalues
      | cons a values =>
          rw [htrail, List.map_cons, List.cons.injEq, Parcel.value.injEq] at hvalues
          obtain ⟨rfl, hrest⟩ := hvalues
          refine ⟨values, hrest, ?_⟩
          rw [← List.append_assoc]
          exact hcontinues.moved rfl rfl
  | @drops a rest intake htrail hwanes hnot =>
      refine h.wanes hwanes hnot ?_
      cases hintake : f.intake with
      | absent =>
          intro hmem
          obtain ⟨-, values, hvalues, -⟩ :=
            ((inOrder_absent hintake).mp h).2 (by simp [htrail, hmem])
          simp [htrail] at hvalues
      | receiving buffer | stopped buffer =>
          have hnone := h.announcement_notMem (by simp [hintake])
          exact fun hmem => hnone (by simp [htrail, hmem])
  | @reads a intake hreads =>
      obtain ⟨sent, trail, old, read, ended⟩ := f
      cases hreads with
      | receiving buffer =>
          obtain ⟨values, htrail, hcontinues⟩ := h
          refine ⟨values, htrail, ?_⟩
          rw [List.append_cons] at hcontinues
          exact hcontinues.same rfl rfl
      | stopped buffer =>
          obtain ⟨hnone, hread⟩ := h
          rw [List.append_cons] at hread
          exact ⟨hnone, hread⟩
  | @wanes intake hwanes =>
      obtain ⟨sent, trail, old, read, ended⟩ := f
      cases hwanes with
      | same => exact h
      | stops buffer => exact h.wanes (.stops buffer) not_false (h.announcement_notMem (by simp))
      | leaves =>
          cases old with
          | absent => exact h
          | receiving buffer | stopped buffer =>
              exact h.wanes (.leaves _) not_false (h.announcement_notMem (by simp))

end Flow
end Library
