import Dcp.Dispatch.Router
import Dcp.Library.Run
import Mathlib.Data.Set.Function

/-!
What any registrations leave in a router: names and ids of the stored handlers in bijection, and a
count and a largest id that are those of the handlers.
-/

namespace Dcp
open Library

namespace BinaryTrieRouter

/-- The router after a registration; one that fails returns before anything is changed. -/
def afterRegister (router : BinaryTrieRouter) (handler : ToolHandler) : BinaryTrieRouter :=
  match router.register handler with
  | .ok (_, next) => next
  | .error _ => router

def registeredNames (router : BinaryTrieRouter) : Set String := {name | name ∈ router.nameToId}

def registeredIds (router : BinaryTrieRouter) : Set UInt16 := {id | router.hasTool id = true}

/-- The tables describe the same handlers, each under its own id. -/
structure Consistent (router : BinaryTrieRouter) : Prop where
  bijection : Set.BijOn router.resolveName router.registeredNames
    (some '' router.registeredIds)
  bounded : ∀ id ∈ router.registeredIds, id.toNat < CapabilityManifest.maxTools
  own_id : ∀ id handler, router.dispatch id = some handler → handler.toolId = id
  count : router.toolCount = router.nameToId.size
  largest : router.registeredIds.Nonempty → IsGreatest router.registeredIds router.maxToolId

variable {router : BinaryTrieRouter}

theorem mem_registeredIds {id : UInt16} :
    id ∈ router.registeredIds ↔ ∃ handler, router.slot id = some handler :=
  Option.isSome_iff_exists

theorem bijOn_resolveName (router : BinaryTrieRouter) :
    Set.BijOn router.resolveName router.registeredNames (some '' router.registeredIds) := by
  have hnames := router.wellFormed.names
  refine ⟨?_, ?_, ?_⟩
  · intro name hname
    obtain ⟨id, hid⟩ := Option.isSome_iff_exists.mp (AList.lookup_isSome.mpr hname)
    obtain ⟨handler, hslot, -⟩ := (hnames name id).mp hid
    exact ⟨id, mem_registeredIds.mpr ⟨handler, hslot⟩, hid.symm⟩
  · intro name hname name' hname' heq
    obtain ⟨id, hid⟩ := Option.isSome_iff_exists.mp (AList.lookup_isSome.mpr hname)
    obtain ⟨handler, hslot, rfl⟩ := (hnames name id).mp hid
    obtain ⟨handler', hslot', rfl⟩ := (hnames name' id).mp (heq.symm.trans hid)
    rw [Option.some.inj (hslot.symm.trans hslot')]
  · rintro _ ⟨id, hid, rfl⟩
    obtain ⟨handler, hslot⟩ := mem_registeredIds.mp hid
    have hlookup := (hnames handler.toolName id).mpr ⟨handler, hslot, rfl⟩
    exact ⟨handler.toolName, AList.lookup_isSome.mp (Option.isSome_of_eq_some hlookup), hlookup⟩

theorem lt_of_mem_registeredIds {id : UInt16} (h : id ∈ router.registeredIds) :
    id.toNat < CapabilityManifest.maxTools := by
  obtain ⟨handler, hslot⟩ := mem_registeredIds.mp h
  refine Nat.lt_of_lt_of_le ?_ router.wellFormed.bounded
  by_contra hge
  rw [RouterTables.slot, List.getElem?_eq_none (Nat.le_of_not_lt hge)] at hslot
  cases hslot

/-- A registration stores the handler in a free place, or fails. -/
theorem register_cases (router : BinaryTrieRouter) (handler : ToolHandler) :
    (∃ e, router.register handler = .error e ∧ router.afterRegister handler = router) ∨
      router.nameToId.lookup handler.toolName = none ∧ router.slot handler.toolId = none ∧
        (router.afterRegister handler).toRouterTables = router.insert handler := by
  rw [afterRegister, register]
  split_ifs with hid hname hslot
  · exact .inl ⟨_, rfl, rfl⟩
  · exact .inl ⟨_, rfl, rfl⟩
  · exact .inl ⟨_, rfl, rfl⟩
  · exact .inr ⟨Option.not_isSome_iff_eq_none.mp hname, Option.not_isSome_iff_eq_none.mp hslot,
      rfl⟩

end BinaryTrieRouter

namespace RouterTables

/-- Storing a handler in a free place adds one. -/
theorem countP_insert (tables : RouterTables) {handler : ToolHandler}
    (hslot : tables.slot handler.toolId = none) :
    (tables.insert handler).handlers.countP Option.isSome =
      tables.handlers.countP Option.isSome + 1 := by
  let id := handler.toolId.toNat
  have hlt : id < (padTo tables.handlers id).length := by
    simp only [padTo, List.length_append, List.length_replicate]
    omega
  have hfree : (padTo tables.handlers id)[id] = none := by
    have hjoin : ((padTo tables.handlers id)[id]?).join = none := by
      rw [padTo]
      rcases Nat.lt_or_ge id tables.handlers.length with hin | hout
      · rw [List.getElem?_append_left hin]
        exact hslot
      · rw [List.getElem?_append_right hout, List.getElem?_replicate]
        split <;> rfl
    rw [List.getElem?_eq_getElem hlt] at hjoin
    exact hjoin
  have hpad : (padTo tables.handlers id).countP Option.isSome =
      tables.handlers.countP Option.isSome := by
    rw [padTo, List.countP_append, List.countP_replicate]
    simp
  change ((padTo tables.handlers id).set id (some handler)).countP Option.isSome = _
  rw [List.countP_set hlt, hfree, hpad]
  rfl

end RouterTables

namespace BinaryTrieRouter
variable {router : BinaryTrieRouter}

/-- What the router counts, and the largest id it remembers, are those of the handlers. -/
structure Counted (router : BinaryTrieRouter) : Prop where
  count : router.toolCount = router.nameToId.size
  upper : ∀ id ∈ router.registeredIds, id ≤ router.maxToolId
  reached : router.maxToolId ∈ router.registeredIds ∨
    router.registeredIds = ∅ ∧ router.maxToolId = 0

theorem Counted.afterRegister (h : router.Counted) (handler : ToolHandler) :
    (router.afterRegister handler).Counted := by
  obtain ⟨e, -, hsame⟩ | ⟨hname, hslot, htables⟩ := router.register_cases handler
  · rw [hsame]
    exact h
  have hids : ∀ id, id ∈ (router.afterRegister handler).registeredIds ↔
      id = handler.toolId ∨ id ∈ router.registeredIds := by
    intro id
    rw [mem_registeredIds, mem_registeredIds, htables, RouterTables.slot_insert]
    split <;> simp_all
  have hmax : (router.afterRegister handler).maxToolId =
      if handler.toolId > router.maxToolId then handler.toolId else router.maxToolId :=
    congrArg RouterTables.maxToolId htables
  refine ⟨?_, ?_, ?_⟩
  · have hsize := Table.size_insert_of_lookup_none handler.toolId hname
    rw [toolCount, htables, RouterTables.countP_insert _ hslot]
    exact (congrArg (· + 1) h.count).trans hsize.symm
  · intro id hid
    rw [hmax]
    rcases (hids id).mp hid with rfl | hid
    · split
      · exact UInt16.le_refl _
      · next hle => exact UInt16.not_lt.mp hle
    · split
      · next hlt => exact UInt16.le_trans (h.upper id hid) (UInt16.le_of_lt hlt)
      · exact h.upper id hid
  · left
    rw [hids, hmax]
    split
    · exact .inl rfl
    · next hle =>
        rcases h.reached with hreached | ⟨-, hzero⟩
        · exact .inr hreached
        · left
          rw [hzero] at hle ⊢
          exact (UInt16.le_antisymm (UInt16.not_lt.mp hle) UInt16.zero_le).symm

theorem Counted.consistent (h : router.Counted) : router.Consistent where
  bijection := router.bijOn_resolveName
  bounded := fun _ => lt_of_mem_registeredIds
  own_id := router.wellFormed.own_id
  count := h.count
  largest := by
    intro hnonempty
    refine ⟨h.reached.resolve_right fun hempty => ?_, h.upper⟩
    rw [hempty.1] at hnonempty
    exact Set.not_nonempty_empty hnonempty

end BinaryTrieRouter
end Dcp
