import Dcp.Context
import Dcp.Library.Run

/-!
The states of the tools as a map. In every context that setting and clearing lead to, a state that
was set is found under its id, and stays there. An id of zero is that of an empty slot: a state set
under it is found as well, but it may be overwritten like any empty slot.
-/

namespace Dcp
open Library

inductive ContextOp
  | set (state : ToolState)
  | clear (index : Nat)

/-- The operation overwrites the state of an id, or clears its slot. -/
def ContextOp.Ends (toolId : UInt32) (slot : Nat) : ContextOp → Prop
  | .set state => state.toolId = toolId
  | .clear index => index = slot

namespace DcpContext

def apply (ctx : DcpContext) : ContextOp → DcpContext
  | .set state => (ctx.setToolState state).2
  | .clear index => (ctx.clearToolState index).2

/-- What makes a map of the slots. -/
structure MapLike (ctx : DcpContext) : Prop where
  distinct : ∀ i j si sj, ctx.getToolState i = some si → ctx.getToolState j = some sj →
    si.toolId = sj.toolId → si.toolId ≠ 0 → i = j
  found : ∀ state index, (ctx.setToolState state).1 = .ok index →
    (ctx.setToolState state).2.findToolState state.toolId = some state
  others : ∀ state index, (ctx.setToolState state).1 = .ok index →
    ∀ toolId, toolId ≠ state.toolId → toolId ≠ 0 →
      (ctx.setToolState state).2.findToolState toolId = ctx.findToolState toolId
  full : ∀ state e, (ctx.setToolState state).1 = .error e →
    (ctx.setToolState state).2 = ctx ∧ ∀ index < maxToolStates, ∃ other,
      ctx.getToolState index = some other ∧ other.toolId ≠ 0 ∧ other.toolId ≠ state.toolId
  stays : ∀ state index, (ctx.setToolState state).1 = .ok index → state.toolId ≠ 0 →
    ∀ later : List ContextOp, (∀ op ∈ later, ¬ op.Ends state.toolId index) →
      (later.foldl apply (ctx.setToolState state).2).findToolState state.toolId = some state

variable {ctx : DcpContext}

/-- The slots are changed by putting a state into them, or by clearing one of them. -/
theorem apply_slots (ctx : DcpContext) (op : ContextOp) :
    (ctx.apply op).slots = ctx.slots ∨
      (∃ state i, op = .set state ∧ Slots.put ToolState.toolId 0 ctx.slots state =
        some (i, (ctx.apply op).slots)) ∨
      ∃ i : Fin maxToolStates, op = .clear i ∧
        (ctx.apply op).slots = Function.update ctx.slots i (.new 0) := by
  cases op with
  | set state =>
      cases hput : Slots.put ToolState.toolId 0 ctx.slots state with
      | none =>
          left
          rw [apply, setToolState_of_put_none hput]
      | some result =>
          obtain ⟨i, slots⟩ := result
          refine .inr (.inl ⟨state, i, rfl, ?_⟩)
          rw [apply, (setToolState_of_put hput).2]
          exact hput
  | clear index =>
      by_cases h : index < maxToolStates
      · exact .inr (.inr ⟨⟨index, h⟩, rfl, clearToolState_slots ⟨index, h⟩⟩)
      · left
        rw [apply, clearToolState, updateToolState_of_ge (Nat.not_lt.mp h)]

/-- No id is in two slots. -/
def Distinct (ctx : DcpContext) : Prop := Slots.Distinct ToolState.toolId 0 ctx.slots

theorem distinct_new (conversationId : UInt64) : (new conversationId).Distinct := by
  intro i j _ hfree
  rw [slots_new] at hfree
  exact absurd rfl hfree

theorem Distinct.apply (h : ctx.Distinct) (op : ContextOp) : (ctx.apply op).Distinct := by
  unfold Distinct
  rcases ctx.apply_slots op with hsame | ⟨state, i, -, hput⟩ | ⟨i, -, hclear⟩
  · rw [hsame]
    exact h
  · exact Slots.Distinct.put h hput
  · rw [hclear]
    exact Slots.Distinct.update h fun hfree => absurd rfl hfree

/-- A state stays in its slot. -/
theorem slots_apply (op : ContextOp) {i : Fin maxToolStates} {state : ToolState}
    (hi : ctx.slots i = state) (hid : state.toolId ≠ 0) (hends : ¬ op.Ends state.toolId i) :
    (ctx.apply op).slots i = state := by
  rcases ctx.apply_slots op with hsame | ⟨other, j, rfl, hput⟩ | ⟨j, rfl, hclear⟩
  · rw [hsame, hi]
  · exact Slots.put_keeps hput hi (Ne.symm hends) hid
  · have hij : i ≠ j := fun heq => hends (congrArg Fin.val heq.symm)
    rw [hclear, Function.update_of_ne hij, hi]

theorem slots_foldl_apply (later : List ContextOp) {i : Fin maxToolStates} {state : ToolState}
    (hi : ctx.slots i = state) (hid : state.toolId ≠ 0)
    (hends : ∀ op ∈ later, ¬ op.Ends state.toolId i) :
    (later.foldl DcpContext.apply ctx).slots i = state := by
  induction later generalizing ctx with
  | nil => exact hi
  | cons op rest ih =>
      obtain ⟨hhere, hrest⟩ := List.forall_mem_cons.mp hends
      exact ih (slots_apply op hi hid hhere) hrest

theorem Distinct.foldl_apply (h : ctx.Distinct) (ops : List ContextOp) :
    (ops.foldl DcpContext.apply ctx).Distinct := by
  have hstep : ∀ (ctx : DcpContext) op, ctx.Distinct → (ctx.apply op).Distinct :=
    fun _ op hctx => hctx.apply op
  exact invariant_foldl hstep h ops

/-- A state that is set is put into the slot that is answered. -/
theorem put_of_setToolState {state : ToolState} {index : Nat}
    (h : (ctx.setToolState state).1 = .ok index) :
    ∃ i : Fin maxToolStates, i.val = index ∧ Slots.put ToolState.toolId 0 ctx.slots state =
      some (i, (ctx.setToolState state).2.slots) := by
  cases hput : Slots.put ToolState.toolId 0 ctx.slots state with
  | none =>
      rw [setToolState_of_put_none hput] at h
      cases h
  | some result =>
      obtain ⟨i, slots⟩ := result
      obtain ⟨hok, hslots⟩ := setToolState_of_put hput
      exact ⟨i, Except.ok.inj (hok.symm.trans h), by rw [hslots]⟩

theorem put_of_setToolState_error {state : ToolState} {e : DCPError}
    (h : (ctx.setToolState state).1 = .error e) :
    Slots.put ToolState.toolId 0 ctx.slots state = none := by
  cases hput : Slots.put ToolState.toolId 0 ctx.slots state with
  | none => rfl
  | some result =>
      obtain ⟨i, slots⟩ := result
      rw [(setToolState_of_put hput).1] at h
      cases h

theorem Distinct.mapLike (h : ctx.Distinct) : MapLike ctx where
  distinct i j si sj hi hj hsame hid := by
    obtain ⟨i, rfl, rfl⟩ := getToolState_eq_some_iff.mp hi
    obtain ⟨j, rfl, rfl⟩ := getToolState_eq_some_iff.mp hj
    exact congrArg Fin.val (h i j hsame hid)
  found state index hset := by
    obtain ⟨i, -, hput⟩ := put_of_setToolState hset
    rw [findToolState_eq]
    exact Slots.lookup_put_self hput
  others state index hset toolId hne hid := by
    obtain ⟨i, -, hput⟩ := put_of_setToolState hset
    rw [findToolState_eq, findToolState_eq]
    exact Slots.lookup_put_of_ne h hput hne hid
  full state e hset := by
    have hput := put_of_setToolState_error hset
    refine ⟨by rw [setToolState_of_put_none hput], fun index hindex => ?_⟩
    obtain ⟨hne, hid⟩ := Slots.put_eq_none_iff.mp hput ⟨index, hindex⟩
    exact ⟨_, getToolState_slots ⟨index, hindex⟩, hid, hne⟩
  stays state index hset hid later hends := by
    obtain ⟨i, rfl, hput⟩ := put_of_setToolState hset
    have hheld : (ctx.setToolState state).2.slots i = state := by
      rw [(Slots.put_eq_some_iff.mp hput).1, Function.update_self]
    have hdistinct : (later.foldl DcpContext.apply (ctx.setToolState state).2).Distinct :=
      (h.apply (.set state)).foldl_apply later
    rw [findToolState_eq]
    exact (Slots.lookup_eq_some_iff hdistinct hid).mpr
      ⟨rfl, i, slots_foldl_apply later hheld hid hends⟩

/-- In every context that setting and clearing lead to, the slots are a map. -/
theorem tool_states_map_like (conversationId : UInt64) (ops : List ContextOp) :
    MapLike (ops.foldl DcpContext.apply (new conversationId)) :=
  ((distinct_new conversationId).foldl_apply ops).mapLike

/-- A state set under the id zero is overwritten by the next one that needs an empty slot. -/
theorem state_of_zero_overwritten :
    let first := ((new 1).setToolState ⟨0, 5, 0, Vector.replicate 24 0⟩)
    let second := first.2.setToolState (.new 7)
    first.1 = .ok 0 ∧ second.1 = .ok 0 ∧
      first.2.findToolState 0 = some ⟨0, 5, 0, Vector.replicate 24 0⟩ ∧
      second.2.findToolState 0 = some (.new 0) := by
  decide +kernel

end DcpContext
end Dcp
