import Dcp.Error
import Dcp.Library.Outcome
import Dcp.Library.Slots

/-!
The context that is shared in memory: a header, and slots for the states of the tools, all at fixed
offsets of one buffer. A state is read from the bytes of its slot and written over them.
-/

namespace Dcp
open Library

def contextMagic : UInt64 := 0x4443505F43545831

def maxToolStates : Nat := 25

def toolStatesOffset : Nat := 24

structure ToolState where
  toolId : UInt32
  flags : UInt32
  lastInvoked : UInt64
  data : Vector UInt8 24
  deriving DecidableEq

namespace ToolState

def size : Nat := 40

def new (toolId : UInt32) : ToolState := ⟨toolId, 0, 0, Vector.replicate 24 0⟩

def asBytes (state : ToolState) : List UInt8 :=
  leBytes 4 state.toolId.toNat ++ leBytes 4 state.flags.toNat ++
    leBytes 8 state.lastInvoked.toNat ++ state.data.toList

/-- The state whose bytes begin at an offset. -/
def readAt (bytes : List UInt8) (offset : Nat) : ToolState :=
  ⟨u32At bytes offset, u32At bytes (offset + 4), u64At bytes (offset + 8),
    arrayAt 24 bytes (offset + 16)⟩

@[simp] theorem length_asBytes (state : ToolState) : state.asBytes.length = size := by
  simp [asBytes, size]

end ToolState

/-- The header and the states, one after the other. -/
structure ContextLayout where
  header : UInt64
  conversationId : UInt64
  messageCount : UInt64
  toolStates : Vector ToolState maxToolStates

namespace ContextLayout

def size : Nat := 8 + 8 + 8 + maxToolStates * ToolState.size

def new (conversationId : UInt64) : ContextLayout :=
  ⟨contextMagic, conversationId, 0, Vector.replicate maxToolStates (.new 0)⟩

def asBytes (layout : ContextLayout) : List UInt8 :=
  leBytes 8 layout.header.toNat ++ leBytes 8 layout.conversationId.toNat ++
    leBytes 8 layout.messageCount.toNat ++ layout.toolStates.toList.flatMap ToolState.asBytes

theorem length_flatMap_asBytes (states : List ToolState) :
    (states.flatMap ToolState.asBytes).length = states.length * ToolState.size := by
  induction states with
  | nil => rfl
  | cons state rest ih =>
      rw [List.flatMap_cons, List.length_append, ih, ToolState.length_asBytes, List.length_cons]
      ring

theorem length_asBytes (layout : ContextLayout) : layout.asBytes.length = size := by
  simp only [asBytes, List.length_append, length_leBytes, length_flatMap_asBytes,
    Vector.length_toList, size]

end ContextLayout

/-- A buffer that has room for the layout. -/
structure DcpContext where
  buffer : List UInt8
  version : UInt32
  sized : ContextLayout.size ≤ buffer.length

namespace DcpContext

def new (conversationId : UInt64) : DcpContext :=
  ⟨(ContextLayout.new conversationId).asBytes, 1, (ContextLayout.length_asBytes _).ge⟩

def toolStateOffset (index : Nat) : Nat := toolStatesOffset + index * ToolState.size

def getToolState (ctx : DcpContext) (index : Nat) : Option ToolState :=
  if index ≥ maxToolStates then none
  else some (.readAt ctx.buffer (toolStateOffset index))

def findToolState (ctx : DcpContext) (toolId : UInt32) : Option ToolState :=
  Fin.findSome? fun i : Fin maxToolStates =>
    (ctx.getToolState i).filter fun state => state.toolId = toolId

theorem slot_fits {index : Nat} (h : index < maxToolStates) :
    toolStateOffset index + ToolState.size ≤ ContextLayout.size := by
  simp only [toolStateOffset, toolStatesOffset, ToolState.size, ContextLayout.size,
    maxToolStates] at h ⊢
  omega

def updateToolState (ctx : DcpContext) (index : Nat) (state : ToolState) :
    Except DCPError Unit × DcpContext :=
  if h : index ≥ maxToolStates then (.error .outOfBounds, ctx)
  else
    (.ok (), { ctx with
      buffer := overwrite ctx.buffer (toolStateOffset index) state.asBytes
      sized := by
        have hfits := slot_fits (Nat.not_le.mp h)
        have hsized := ctx.sized
        rw [length_overwrite (by rw [ToolState.length_asBytes]; omega)]
        exact hsized })

/-- The first slot that a state with the id is in. -/
def slotWith (ctx : DcpContext) (toolId : UInt32) : Option (Fin maxToolStates) :=
  Fin.find? fun i => (ctx.getToolState i).any fun existing => existing.toolId = toolId

/-- Write the state into the slot; what the update answers is passed on. -/
def setAt (ctx : DcpContext) (i : Fin maxToolStates) (state : ToolState) :
    Except DCPError Nat × DcpContext :=
  let (updated, ctx) := ctx.updateToolState i state
  (updated.map fun () => i, ctx)

/-- An id of zero marks the slots that are empty. -/
def setToolState (ctx : DcpContext) (state : ToolState) : Except DCPError Nat × DcpContext :=
  match ctx.slotWith state.toolId with
  | some i => ctx.setAt i state
  | none =>
      match ctx.slotWith 0 with
      | some i => ctx.setAt i state
      | none => (.error .outOfBounds, ctx)

def clearToolState (ctx : DcpContext) (index : Nat) : Except DCPError Unit × DcpContext :=
  ctx.updateToolState index (.new 0)

end DcpContext

namespace ToolState

/-- A state is read from where it is held. -/
theorem readAt_of_holdsAt {bytes : List UInt8} {offset : Nat} {state : ToolState}
    (h : HoldsAt bytes offset state.asBytes) : readAt bytes offset = state := by
  obtain ⟨h, hdata⟩ := h.append
  obtain ⟨h, hlast⟩ := h.append
  obtain ⟨hid, hflags⟩ := h.append
  simp only [List.length_append, length_leBytes, ← Nat.add_assoc] at hdata hlast hflags
  have hidSlice := hid.slice
  have hflagsSlice := hflags.slice
  have hlastSlice := hlast.slice
  have hdataSlice := hdata.slice
  rw [length_leBytes] at hidSlice hflagsSlice hlastSlice
  rw [Vector.length_toList] at hdataSlice
  rw [readAt, u32At_eq hidSlice, u32At_eq hflagsSlice, u64At_eq hlastSlice, arrayAt_eq hdataSlice]

/-- A state that is written elsewhere is not seen. -/
theorem readAt_overwrite_of_apart {buffer : List UInt8} {offset offset' : Nat} (state : ToolState)
    (hwritten : offset' + size ≤ buffer.length) (hread : offset + size ≤ buffer.length)
    (hapart : offset + size ≤ offset' ∨ offset' + size ≤ offset) :
    readAt (overwrite buffer offset' state.asBytes) offset = readAt buffer offset := by
  have hsize : size = 40 := rfl
  have hslice : ∀ start stop, offset ≤ start → stop ≤ offset + size →
      slice (overwrite buffer offset' state.asBytes) start stop = slice buffer start stop := by
    intro start stop hstart hstop
    refine slice_overwrite_of_apart ?_ ?_
    · rwa [length_asBytes]
    · rw [length_asBytes]
      omega
  have hdata : arrayAt 24 (overwrite buffer offset' state.asBytes) (offset + 16) =
      arrayAt 24 buffer (offset + 16) := by
    refine arrayAt_eq ?_
    rw [hslice _ _ (by omega) (by omega), toList_arrayAt (by omega)]
  have hid := hslice offset (offset + 4) (by omega) (by omega)
  have hflags := hslice (offset + 4) (offset + 4 + 4) (by omega) (by omega)
  have hlast := hslice (offset + 8) (offset + 8 + 8) (by omega) (by omega)
  simp only [readAt, hdata, u32At, u64At, hid, hflags, hlast]

end ToolState

namespace ContextLayout

/-- A state is where its index says. -/
theorem holdsAt_toolState (layout : ContextLayout) (i : Fin maxToolStates) :
    HoldsAt layout.asBytes (DcpContext.toolStateOffset i) layout.toolStates[i].asBytes := by
  have hsplit : layout.toolStates.toList = layout.toolStates.toList.take i ++
      layout.toolStates[i] :: layout.toolStates.toList.drop (i + 1) := by
    have hlt : i.val < layout.toolStates.toList.length := by simp
    have hget : layout.toolStates.toList[i.val] = layout.toolStates[i] := by simp
    rw [← hget, List.cons_getElem_drop_succ, List.take_append_drop]
  refine ⟨leBytes 8 layout.header.toNat ++ leBytes 8 layout.conversationId.toNat ++
      leBytes 8 layout.messageCount.toNat ++
        (layout.toolStates.toList.take i).flatMap ToolState.asBytes,
    (layout.toolStates.toList.drop (i + 1)).flatMap ToolState.asBytes, ?_, ?_⟩
  · have hlt := i.isLt
    simp only [List.length_append, length_leBytes, length_flatMap_asBytes, List.length_take,
      Vector.length_toList, Nat.min_eq_left hlt.le]
    rfl
  · rw [asBytes]
    conv_lhs => rw [hsplit]
    simp only [List.flatMap_append, List.flatMap_cons, List.append_assoc]

end ContextLayout

namespace DcpContext
variable {ctx : DcpContext}

/-- The states in the slots. -/
def slots (ctx : DcpContext) : Slots maxToolStates ToolState :=
  fun i => .readAt ctx.buffer (toolStateOffset i)

theorem getToolState_slots (i : Fin maxToolStates) : ctx.getToolState i = some (ctx.slots i) :=
  if_neg (Nat.not_le.mpr i.isLt)

theorem getToolState_eq_some_iff {index : Nat} {state : ToolState} :
    ctx.getToolState index = some state ↔
      ∃ i : Fin maxToolStates, i.val = index ∧ ctx.slots i = state := by
  constructor
  · intro h
    rw [getToolState] at h
    split at h
    · cases h
    · next hlt => exact ⟨⟨index, Nat.not_le.mp hlt⟩, rfl, Option.some.inj h⟩
  · rintro ⟨i, rfl, rfl⟩
    exact getToolState_slots i

theorem slotWith_eq (toolId : UInt32) :
    ctx.slotWith toolId = Slots.slotOf ToolState.toolId ctx.slots toolId := by
  simp only [slotWith, getToolState_slots, Option.any_some, Slots.slotOf]

/-- Finding a state is a lookup in the slots. -/
theorem findToolState_eq (toolId : UInt32) :
    ctx.findToolState toolId = Slots.lookup ToolState.toolId ctx.slots toolId := by
  rw [Slots.lookup]
  cases hslot : Slots.slotOf ToolState.toolId ctx.slots toolId with
  | none =>
      refine Fin.findSome?_eq_none_iff.mpr fun i => ?_
      have hne := Slots.slotOf_eq_none_iff.mp hslot i
      rw [getToolState_slots, Option.filter_some, if_neg (by simpa using hne)]
  | some i =>
      obtain ⟨hi, hbefore⟩ := Slots.slotOf_eq_some_iff.mp hslot
      refine Fin.findSome?_eq_some_iff.mpr ⟨i, ?_, fun j hj => ?_⟩
      · rw [getToolState_slots, Option.filter_some, if_pos (by simpa using hi)]
      · rw [getToolState_slots, Option.filter_some, if_neg (by simpa using hbefore j hj)]

theorem updateToolState_of_ge {index : Nat} (h : index ≥ maxToolStates) (state : ToolState) :
    ctx.updateToolState index state = (.error .outOfBounds, ctx) := dif_pos h

/-- An update changes one slot. -/
theorem updateToolState_slots (ctx : DcpContext) (i : Fin maxToolStates) (state : ToolState) :
    (ctx.updateToolState i state).1 = .ok () ∧
      (ctx.updateToolState i state).2.slots = Function.update ctx.slots i state := by
  rw [updateToolState, dif_neg (Nat.not_le.mpr i.isLt)]
  refine ⟨rfl, funext fun j => ?_⟩
  have hsized := ctx.sized
  have hi := slot_fits i.isLt
  have hj := slot_fits j.isLt
  change ToolState.readAt (overwrite ctx.buffer (toolStateOffset i) state.asBytes)
    (toolStateOffset j) = _
  by_cases hji : j = i
  · subst hji
    rw [Function.update_self]
    refine ToolState.readAt_of_holdsAt (.overwrite ?_)
    rw [ToolState.length_asBytes]
    omega
  · rw [Function.update_of_ne hji]
    refine ToolState.readAt_overwrite_of_apart state (by omega) (by omega) ?_
    have hval : j.val ≠ i.val := fun heq => hji (Fin.ext heq)
    simp only [toolStateOffset, ToolState.size]
    omega

theorem setAt_slots (i : Fin maxToolStates) (state : ToolState) :
    (ctx.setAt i state).1 = .ok i.val ∧
      (ctx.setAt i state).2.slots = Function.update ctx.slots i state := by
  obtain ⟨hok, hslots⟩ := ctx.updateToolState_slots i state
  refine ⟨?_, hslots⟩
  change (ctx.updateToolState i state).1.map _ = _
  rw [hok]
  rfl

/-- Setting a state puts it into the slots. -/
theorem setToolState_of_put {state : ToolState} {i : Fin maxToolStates}
    {slots : Slots maxToolStates ToolState}
    (h : Slots.put ToolState.toolId 0 ctx.slots state = some (i, slots)) :
    (ctx.setToolState state).1 = .ok i.val ∧ (ctx.setToolState state).2.slots = slots := by
  obtain ⟨rfl, hslot⟩ := Slots.put_eq_some_iff.mp h
  have hset : ctx.setToolState state = ctx.setAt i state := by
    unfold setToolState
    rcases hslot with hsame | ⟨hnone, hfree⟩
    · simp only [slotWith_eq, hsame]
    · simp only [slotWith_eq, hnone, hfree]
  rw [hset]
  exact setAt_slots i state

/-- Where there is no place in the slots, setting a state changes nothing. -/
theorem setToolState_of_put_none {state : ToolState}
    (h : Slots.put ToolState.toolId 0 ctx.slots state = none) :
    ctx.setToolState state = (.error .outOfBounds, ctx) := by
  have hnone := Slots.put_eq_none_iff.mp h
  have hid := Slots.slotOf_eq_none_iff.mpr fun i => (hnone i).1
  have hfree := Slots.slotOf_eq_none_iff.mpr fun i => (hnone i).2
  unfold setToolState
  simp only [slotWith_eq, hid, hfree]

theorem clearToolState_slots (i : Fin maxToolStates) :
    (ctx.clearToolState i).2.slots = Function.update ctx.slots i (.new 0) :=
  (ctx.updateToolState_slots i _).2

/-- At first all slots are empty. -/
theorem slots_new (conversationId : UInt64) : (new conversationId).slots = fun _ => .new 0 := by
  funext i
  have hheld := (ContextLayout.new conversationId).holdsAt_toolState i
  have hstate : (ContextLayout.new conversationId).toolStates[i] = .new 0 :=
    Vector.getElem_replicate i.isLt
  rw [hstate] at hheld
  exact ToolState.readAt_of_holdsAt hheld

end DcpContext
end Dcp
