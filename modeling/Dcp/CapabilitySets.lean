import Dcp.Capability
import Dcp.Library.BitsetMembers

/-!
A capability manifest as four sets of ids, one of each kind. The operations of a manifest are those
of the sets; an id past the bound of its kind is in none of them.
-/

namespace Dcp
open Library

inductive CapabilityKind
  | tool
  | resource
  | prompt
  | extension
  deriving DecidableEq

/-- The ids of a kind are below its bound. -/
def CapabilityKind.bound : CapabilityKind → Nat
  | tool => CapabilityManifest.maxTools
  | resource => CapabilityManifest.maxResources
  | prompt => CapabilityManifest.maxPrompts
  | extension => 64

/-- A set of ids for each kind. -/
abbrev CapabilitySets := CapabilityKind → Finset Nat

namespace CapabilitySets

/-- An id past the bound is ignored. -/
def insertId (sets : CapabilitySets) (kind : CapabilityKind) (id : Nat) : CapabilitySets :=
  Function.update sets kind (if id < kind.bound then insert id (sets kind) else sets kind)

def eraseId (sets : CapabilitySets) (kind : CapabilityKind) (id : Nat) : CapabilitySets :=
  Function.update sets kind ((sets kind).erase id)

end CapabilitySets

namespace CapabilityManifest

/-- The sets whose bits a manifest holds. -/
def sets (m : CapabilityManifest) : CapabilitySets
  | .tool => m.tools.members
  | .resource => m.resources.members
  | .prompt => m.prompts.members
  | .extension => m.extensions.members

/-- What a manifest answers is what the sets say. -/
structure Represents (m : CapabilityManifest) (sets : CapabilitySets) : Prop where
  bounded : ∀ kind, ∀ id ∈ sets kind, id < kind.bound
  hasTool : ∀ id, m.hasTool id = decide (id.toNat ∈ sets .tool)
  hasResource : ∀ id, m.hasResource id = decide (id.toNat ∈ sets .resource)
  hasPrompt : ∀ id, m.hasPrompt id = decide (id.toNat ∈ sets .prompt)
  hasExtension : ∀ id, m.hasExtension id = decide (id.toNat ∈ sets .extension)
  toolCount : m.toolCount = (sets .tool).card
  resourceCount : m.resourceCount = (sets .resource).card
  promptCount : m.promptCount = (sets .prompt).card
  extensionCount : m.extensionCount = (sets .extension).card
  toolIds : m.toolIds.map UInt16.toNat = (sets .tool).sort (· ≤ ·)
  resourceIds : m.resourceIds.map UInt16.toNat = (sets .resource).sort (· ≤ ·)
  promptIds : m.promptIds.map UInt16.toNat = (sets .prompt).sort (· ≤ ·)

end CapabilityManifest

/-- The operations that change a manifest, or make the next one from it and another one. -/
inductive CapabilityOp
  | setTool (toolId : UInt16)
  | clearTool (toolId : UInt16)
  | setResource (resourceId : UInt16)
  | clearResource (resourceId : UInt16)
  | setPrompt (promptId : UInt16)
  | clearPrompt (promptId : UInt16)
  | setExtension (id : UInt8)
  | clearExtension (id : UInt8)
  | intersect (other : CapabilityManifest)

namespace CapabilityOp

def apply (m : CapabilityManifest) : CapabilityOp → CapabilityManifest
  | setTool id => m.setTool id
  | clearTool id => m.clearTool id
  | setResource id => m.setResource id
  | clearResource id => m.clearResource id
  | setPrompt id => m.setPrompt id
  | clearPrompt id => m.clearPrompt id
  | setExtension id => m.setExtension id
  | clearExtension id => m.clearExtension id
  | intersect other => m.intersect other

/-- What the operations are on sets. -/
def applySets (sets : CapabilitySets) : CapabilityOp → CapabilitySets
  | setTool id => sets.insertId .tool id.toNat
  | clearTool id => sets.eraseId .tool id.toNat
  | setResource id => sets.insertId .resource id.toNat
  | clearResource id => sets.eraseId .resource id.toNat
  | setPrompt id => sets.insertId .prompt id.toNat
  | clearPrompt id => sets.eraseId .prompt id.toNat
  | setExtension id => sets.insertId .extension id.toNat
  | clearExtension id => sets.eraseId .extension id.toNat
  | intersect other => fun kind => sets kind ∩ other.sets kind

/-- The kind of the ids that an operation is about; an intersection is about all of them. -/
def kind : CapabilityOp → Option CapabilityKind
  | setTool _ | clearTool _ => some .tool
  | setResource _ | clearResource _ => some .resource
  | setPrompt _ | clearPrompt _ => some .prompt
  | setExtension _ | clearExtension _ => some .extension
  | intersect _ => none

end CapabilityOp

namespace CapabilityManifest

theorem idsOf_toNat {n : Nat} (words : Bitset n) (hn : n ≤ 1024) :
    (idsOf words).map UInt16.toNat = words.members.sort (· ≤ ·) := by
  rw [Bitset.sort_members, idsOf, Bitset.ids, List.map_flatMap]
  refine List.flatMap_congr ?_
  rintro ⟨word, wordIdx⟩ hentry
  have hidx : wordIdx < n := by
    have hlt := List.snd_lt_of_mem_zipIdx hentry
    simpa using hlt
  dsimp only
  rw [Bitset.wordIds, List.map_filterMap, ← List.filterMap_eq_filter, List.map_filterMap]
  refine List.filterMap_congr fun b hb => ?_
  have hb := List.mem_range.mp hb
  have hbit := and_bit_ne_zero_iff word hb
  by_cases hset : word.toNat.testBit b = true
  · rw [if_pos (hbit.mpr hset)]
    simp [hset]
    omega
  · rw [if_neg (mt hbit.mp hset)]
    simp [hset]

/-- The bound of a kind is the size of its bitset. -/
theorem members_set {n : Nat} (words : Bitset n) (id : Nat) {kind : CapabilityKind}
    (hbound : kind.bound = 64 * n) : (words.set id).members =
      if id < kind.bound then insert id words.members else words.members := by
  rw [hbound, Bitset.members_set]

theorem bound_eq : CapabilityKind.tool.bound = 64 * 128 ∧ CapabilityKind.resource.bound = 64 * 16 ∧
    CapabilityKind.prompt.bound = 64 * 8 ∧ CapabilityKind.extension.bound = 64 * 1 := by
  decide

theorem has_eq_decide {n : Nat} (words : Bitset n) (id : Nat) :
    words.has id = decide (id ∈ words.members) := by
  rw [Bool.eq_iff_iff, decide_eq_true_eq, Bitset.mem_members]

theorem represents_sets (m : CapabilityManifest) : m.Represents m.sets where
  bounded := by
    intro kind id hid
    cases kind with
    | tool | resource | prompt | extension => exact Bitset.lt_of_mem_members hid
  hasTool id := has_eq_decide m.tools id.toNat
  hasResource id := has_eq_decide m.resources id.toNat
  hasPrompt id := has_eq_decide m.prompts id.toNat
  hasExtension id := has_eq_decide m.extensions id.toNat
  toolCount := m.tools.card_members.symm
  resourceCount := m.resources.card_members.symm
  promptCount := m.prompts.card_members.symm
  extensionCount := m.extensions.card_members.symm
  toolIds := idsOf_toNat m.tools (by norm_num)
  resourceIds := idsOf_toNat m.resources (by norm_num)
  promptIds := idsOf_toNat m.prompts (by norm_num)

theorem sets_new (version : UInt16) : (new version).sets = fun _ => ∅ := by
  funext kind
  cases kind with
  | tool | resource | prompt | extension => exact Bitset.members_empty

theorem sets_intersect (m other : CapabilityManifest) :
    (m.intersect other).sets = fun kind => m.sets kind ∩ other.sets kind := by
  funext kind
  cases kind with
  | tool | resource | prompt | extension => exact Bitset.members_inter _ _

end CapabilityManifest

namespace CapabilityOp

/-- An operation on a manifest is the operation on its sets. -/
theorem sets_apply (m : CapabilityManifest) (op : CapabilityOp) :
    (apply m op).sets = applySets m.sets op := by
  funext kind
  cases op with
  | setTool id =>
      cases kind with
      | tool => exact CapabilityManifest.members_set m.tools id.toNat CapabilityManifest.bound_eq.1
      | resource | prompt | extension => rfl
  | clearTool id =>
      cases kind with
      | tool => exact Bitset.members_clear m.tools id.toNat
      | resource | prompt | extension => rfl
  | setResource id =>
      cases kind with
      | resource =>
          exact CapabilityManifest.members_set m.resources id.toNat
            CapabilityManifest.bound_eq.2.1
      | tool | prompt | extension => rfl
  | clearResource id =>
      cases kind with
      | resource => exact Bitset.members_clear m.resources id.toNat
      | tool | prompt | extension => rfl
  | setPrompt id =>
      cases kind with
      | prompt =>
          exact CapabilityManifest.members_set m.prompts id.toNat
            CapabilityManifest.bound_eq.2.2.1
      | tool | resource | extension => rfl
  | clearPrompt id =>
      cases kind with
      | prompt => exact Bitset.members_clear m.prompts id.toNat
      | tool | resource | extension => rfl
  | setExtension id =>
      cases kind with
      | extension =>
          exact CapabilityManifest.members_set m.extensions id.toNat
            CapabilityManifest.bound_eq.2.2.2
      | tool | resource | prompt => rfl
  | clearExtension id =>
      cases kind with
      | extension => exact Bitset.members_clear m.extensions id.toNat
      | tool | resource | prompt => rfl
  | intersect other => exact congrFun (m.sets_intersect other) kind

theorem applySets_of_kind_ne (sets : CapabilitySets) {op : CapabilityOp} {kind : CapabilityKind}
    (hop : op.kind = some kind) {other : CapabilityKind} (hne : other ≠ kind) :
    applySets sets op other = sets other := by
  cases op with
  | intersect => cases hop
  | setTool | setResource | setPrompt | setExtension | clearTool | clearResource | clearPrompt
  | clearExtension =>
      cases hop
      exact Function.update_of_ne hne _ _

theorem sets_foldl_apply (m : CapabilityManifest) (ops : List CapabilityOp) :
    (ops.foldl apply m).sets = ops.foldl applySets m.sets := by
  induction ops generalizing m with
  | nil => rfl
  | cons op rest ih => rw [List.foldl_cons, List.foldl_cons, ih, sets_apply]

end CapabilityOp

/-- After any operations a manifest answers as its sets do after the same operations, where a new
manifest has empty sets, an operation on the ids of one kind leaves the others alone, and what is
negotiated is what both sides have. -/
theorem CapabilityManifest.behaves_as_sets (m : CapabilityManifest) (ops : List CapabilityOp) :
    (ops.foldl CapabilityOp.apply m).Represents (ops.foldl CapabilityOp.applySets m.sets) ∧
      (∀ version, (CapabilityManifest.new version).sets = fun _ => ∅) ∧
      (∀ (op : CapabilityOp) (kind other : CapabilityKind), op.kind = some kind → other ≠ kind →
        (CapabilityOp.apply m op).sets other = m.sets other) ∧
      ∀ server, (negotiate m server).sets = fun kind => m.sets kind ∩ server.sets kind := by
  refine ⟨?_, sets_new, ?_, fun server => sets_intersect m server⟩
  · rw [← CapabilityOp.sets_foldl_apply]
    exact represents_sets _
  · intro op kind other hop hne
    rw [CapabilityOp.sets_apply]
    exact CapabilityOp.applySets_of_kind_ne m.sets hop hne

end Dcp
