import Dcp.Compat.CompleteAdapter
import Dcp.Dispatch.Registration

/-!
What any registrations leave in an adapter: two tables of tools that are inverse to each other,
prompt ids that count up from zero, and a manifest that offers what is registered.
-/

namespace Dcp
open Library

namespace CompleteMcpAdapter

inductive Registration
  | tool (name : String) (toolId : UInt16)
  | prompt (template : PromptTemplate)

/-- The adapter after a registration; one that fails returns before anything is changed, but for
the receipt. -/
def afterRegistration (adapter : CompleteMcpAdapter) : Registration → CompleteMcpAdapter
  | .tool name toolId =>
      match adapter.registerTool name toolId with
      | .ok (_, next) => next
      | .error _ => adapter
  | .prompt template =>
      match adapter.registerPrompt template with
      | .ok (_, next) => next
      | .error _ => adapter

structure Consistent (adapter : CompleteMcpAdapter) : Prop where
  inverse : ∀ name id, adapter.toolCache.lookup name = some id ↔
    adapter.idToName.lookup id = some name
  promptIds : (adapter.promptIds.values.map UInt16.toNat).Perm (List.range adapter.promptIds.size)
  tools : ∀ id, adapter.serverManifest.hasTool id = true ↔
    ∃ name, adapter.toolCache.lookup name = some id
  prompts : ∀ id, adapter.serverManifest.hasPrompt id = true ↔
    ∃ name, adapter.promptIds.lookup name = some id

/-- The two tables of prompts have the same names, and the ids are those below their number. -/
structure Numbered (adapter : CompleteMcpAdapter) : Prop where
  names : ∀ name, adapter.prompts.lookup name = none ↔ adapter.promptIds.lookup name = none
  size : adapter.prompts.size = adapter.promptIds.size
  bounded : adapter.promptIds.size ≤ CapabilityManifest.maxPrompts
  ids : (adapter.promptIds.values.map UInt16.toNat).Perm (List.range adapter.promptIds.size)

/-- Registering a tool does not touch the prompts. -/
theorem prompts_afterTool (adapter : CompleteMcpAdapter) (name : String) (toolId : UInt16) :
    (adapter.afterRegistration (.tool name toolId)).prompts = adapter.prompts ∧
      (adapter.afterRegistration (.tool name toolId)).promptIds = adapter.promptIds := by
  rw [afterRegistration, registerTool]
  split_ifs <;> exact ⟨rfl, rfl⟩

/-- A prompt is registered under the number of prompts before it, or not at all. -/
theorem afterPrompt_cases (adapter : CompleteMcpAdapter) (template : PromptTemplate) :
    adapter.afterRegistration (.prompt template) = adapter ∨
      adapter.promptIds.lookup template.name = none ∧
        adapter.prompts.size < CapabilityManifest.maxPrompts ∧
        (adapter.afterRegistration (.prompt template)).toAdapterTables =
          adapter.insertPrompt template (.ofNat adapter.prompts.size) := by
  rw [afterRegistration, registerPrompt]
  split_ifs with hname hcount
  · exact .inl rfl
  · exact .inl rfl
  · exact .inr ⟨Option.not_isSome_iff_eq_none.mp hname, Nat.lt_of_not_le hcount, rfl⟩

theorem Numbered.afterPrompt {adapter : CompleteMcpAdapter} (h : adapter.Numbered)
    (template : PromptTemplate) : (adapter.afterRegistration (.prompt template)).Numbered := by
  obtain hsame | ⟨hname, hcount, htables⟩ := adapter.afterPrompt_cases template
  · rw [hsame]
    exact h
  have hsize := Table.size_insert_of_lookup_none (UInt16.ofNat adapter.prompts.size) hname
  have hid : (UInt16.ofNat adapter.prompts.size).toNat = adapter.promptIds.size := by
    have hlt : adapter.prompts.size < 512 := hcount
    rw [UInt16.toNat_ofNat_of_lt' (show _ < 65536 by omega), h.size]
  rw [h.size] at hcount
  constructor
  · intro name
    rw [htables]
    change (AList.insert template.name template adapter.prompts).lookup name = none ↔
      (AList.insert template.name _ adapter.promptIds).lookup name = none
    rw [Table.lookup_insert_eq, Table.lookup_insert_eq]
    split
    · exact iff_of_false nofun nofun
    · exact h.names name
  · rw [htables]
    change Table.size (AList.insert template.name template adapter.prompts) = Table.size
      (AList.insert template.name _ adapter.promptIds)
    rw [hsize, Table.size_insert_of_lookup_none template ((h.names _).mpr hname), h.size]
  · rw [htables]
    change Table.size (AList.insert template.name _ adapter.promptIds) ≤ _
    rw [hsize]
    exact hcount
  · rw [htables]
    change ((Table.values (AList.insert template.name _ adapter.promptIds)).map UInt16.toNat).Perm
      (List.range (Table.size (AList.insert template.name _ adapter.promptIds)))
    have hvalues : Table.values (AList.insert template.name (UInt16.ofNat adapter.prompts.size)
        adapter.promptIds) = .ofNat adapter.prompts.size :: adapter.promptIds.values := by
      rw [Table.values, AList.entries_insert_of_notMem (AList.lookup_eq_none.mp hname)]
      rfl
    rw [hsize, hvalues, List.map_cons, hid, List.range_succ]
    exact (h.ids.cons _).trans (List.perm_append_singleton _ _).symm

theorem Numbered.afterRegistration {adapter : CompleteMcpAdapter} (h : adapter.Numbered)
    (registration : Registration) : (adapter.afterRegistration registration).Numbered := by
  cases registration with
  | tool name toolId =>
      obtain ⟨hprompts, hids⟩ := adapter.prompts_afterTool name toolId
      constructor
      · rw [hprompts, hids]
        exact h.names
      · rw [hprompts, hids]
        exact h.size
      · rw [hids]
        exact h.bounded
      · rw [hids]
        exact h.ids
  | prompt template => exact h.afterPrompt template

theorem Numbered.consistent {adapter : CompleteMcpAdapter} (h : adapter.Numbered) :
    adapter.Consistent where
  inverse name id := (adapter.wellFormed.names id name).symm
  promptIds := h.ids
  tools := adapter.wellFormed.tools
  prompts := adapter.wellFormed.prompts

end CompleteMcpAdapter

end Dcp
