import Dcp.Capability
import Dcp.Dispatch.Schema
import Dcp.Library.Table

/-!
Tool handlers and the binary trie router. The trait object of a handler is a record: its schema,
the id and name it reports, and the function behind `execute`; a handler may keep state of its own,
so its answer is a function of every handler call made so far and of the arguments it is given. The
router is a dispatch table indexed by tool id, a table from names to ids, and registration, which
keeps the two tables describing the same handlers.
-/

namespace Dcp
open Library

/-- One run of a handler: the id the handler reports and the arguments it was given. -/
structure Call where
  toolId : UInt16
  args : SharedArgs
  deriving DecidableEq

inductive ToolResult
  | success (data : List UInt8)
  | empty
  | error (err : DCPError)
  deriving DecidableEq

structure ToolHandler where
  schema : ToolSchema
  execute : List Call → SharedArgs → Except DCPError ToolResult
  toolId : UInt16 := schema.id
  toolName : String := schema.name

def ToolHandler.invoke (handler : ToolHandler) (args : SharedArgs) (calls : List Call) :
    Except DCPError ToolResult × List Call :=
  (handler.execute calls args, calls ++ [⟨handler.toolId, args⟩])

/-- The fields of the router as the source declares them. -/
structure RouterTables where
  handlers : List (Option ToolHandler)
  nameToId : Table String UInt16
  maxToolId : UInt16

namespace RouterTables

def slot (tables : RouterTables) (toolId : UInt16) : Option ToolHandler :=
  (tables.handlers[toolId.toNat]?).join

/-- What registration maintains: a handler sits at the id it reports, ids are in range,
and the name table lists exactly the stored handlers. -/
structure WellFormed (tables : RouterTables) : Prop where
  own_id : ∀ toolId handler, tables.slot toolId = some handler → handler.toolId = toolId
  bounded : tables.handlers.length ≤ CapabilityManifest.maxTools
  names : ∀ name toolId, tables.nameToId.lookup name = some toolId ↔
    ∃ handler, tables.slot toolId = some handler ∧ handler.toolName = name

end RouterTables

/-- A router is a pair of tables that registration could have built. -/
structure BinaryTrieRouter extends RouterTables where
  wellFormed : toRouterTables.WellFormed

namespace BinaryTrieRouter

def new : BinaryTrieRouter where
  handlers := []
  nameToId := ∅
  maxToolId := 0
  wellFormed := ⟨by simp [RouterTables.slot], by simp, by simp [RouterTables.slot]⟩

/-- O(1) internal dispatch by tool id. -/
def dispatch (router : BinaryTrieRouter) (toolId : UInt16) : Option ToolHandler :=
  router.slot toolId

def toolSchema (router : BinaryTrieRouter) (toolId : UInt16) : Option ToolSchema :=
  (router.dispatch toolId).map (·.schema)

def resolveName (router : BinaryTrieRouter) (name : String) : Option UInt16 :=
  router.nameToId.lookup name

def toolCount (router : BinaryTrieRouter) : Nat := router.handlers.countP Option.isSome

def hasTool (router : BinaryTrieRouter) (toolId : UInt16) : Bool := (router.dispatch toolId).isSome

theorem dispatch_toolId {router : BinaryTrieRouter} {toolId : UInt16} {handler : ToolHandler}
    (h : router.dispatch toolId = some handler) : handler.toolId = toolId :=
  router.wellFormed.own_id toolId handler h

end BinaryTrieRouter

namespace RouterTables

/-- Grow the handler list with empty slots until `id` is inside it. -/
def padTo (handlers : List (Option ToolHandler)) (id : Nat) : List (Option ToolHandler) :=
  handlers ++ List.replicate (id + 1 - handlers.length) none

def insert (tables : RouterTables) (handler : ToolHandler) : RouterTables where
  handlers := (padTo tables.handlers handler.toolId.toNat).set handler.toolId.toNat (some handler)
  nameToId := AList.insert handler.toolName handler.toolId tables.nameToId
  maxToolId := if handler.toolId > tables.maxToolId then handler.toolId else tables.maxToolId

theorem slot_insert (tables : RouterTables) (handler : ToolHandler) (toolId : UInt16) :
    (tables.insert handler).slot toolId =
      if toolId = handler.toolId then some handler else tables.slot toolId := by
  unfold slot insert
  rw [List.getElem?_set]
  by_cases h : toolId = handler.toolId
  · subst h
    have hlt : handler.toolId.toNat < (padTo tables.handlers handler.toolId.toNat).length := by
      simp only [padTo, List.length_append, List.length_replicate]
      omega
    rw [if_pos rfl, if_pos rfl, if_pos hlt]
    rfl
  · have hne : handler.toolId.toNat ≠ toolId.toNat := fun e => h (UInt16.toNat_inj.mp e).symm
    rw [if_neg hne, if_neg h, padTo]
    rcases Nat.lt_or_ge toolId.toNat tables.handlers.length with hlt | hge
    · rw [List.getElem?_append_left hlt]
    · rw [List.getElem?_append_right hge, List.getElem?_eq_none hge, List.getElem?_replicate]
      split <;> rfl

/-- A free id and a free name may be registered. -/
theorem WellFormed.insert {tables : RouterTables} (h : tables.WellFormed) {handler : ToolHandler}
    (hid : handler.toolId.toNat < CapabilityManifest.maxTools)
    (hname : tables.nameToId.lookup handler.toolName = none)
    (hslot : tables.slot handler.toolId = none) : (tables.insert handler).WellFormed where
  own_id := by
    intro toolId stored hs
    rw [slot_insert] at hs
    split at hs
    · rename_i he
      cases hs
      exact he.symm
    · exact h.own_id toolId stored hs
  bounded := by
    have hb := h.bounded
    simp only [RouterTables.insert, padTo, List.length_set, List.length_append,
      List.length_replicate]
    omega
  names := by
    intro name toolId
    simp only [RouterTables.insert, Table.lookup_insert_eq]
    change _ ↔ ∃ stored, (tables.insert handler).slot toolId = some stored ∧ _
    rw [slot_insert]
    by_cases hn : name = handler.toolName
    · subst hn
      rw [if_pos rfl]
      constructor
      · intro he
        cases he
        exact ⟨handler, by simp, rfl⟩
      · rintro ⟨stored, hs, hstored⟩
        split at hs
        · rename_i he
          rw [he]
        · have hres := (h.names handler.toolName toolId).mpr ⟨stored, hs, hstored⟩
          rw [hname] at hres
          contradiction
    · rw [if_neg hn, h.names]
      by_cases hi : toolId = handler.toolId
      · subst hi
        simp only [hslot, ite_true]
        constructor
        · rintro ⟨_, hs, _⟩
          contradiction
        · rintro ⟨stored, hs, hstored⟩
          cases hs
          exact absurd hstored.symm hn
      · rw [if_neg hi]

end RouterTables

def BinaryTrieRouter.register (router : BinaryTrieRouter) (handler : ToolHandler) :
    Except DCPError (UInt16 × BinaryTrieRouter) :=
  if hid : handler.toolId.toNat ≥ CapabilityManifest.maxTools then .error .validationFailed
  else if hname : (router.nameToId.lookup handler.toolName).isSome then .error .validationFailed
  else if hslot : (router.slot handler.toolId).isSome then .error .validationFailed
  else .ok (handler.toolId, ⟨router.insert handler, router.wellFormed.insert (by omega)
    (by simpa using hname) (by simpa using hslot)⟩)

end Dcp
