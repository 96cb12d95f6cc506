import Dcp.Compat.Handlers

/-!
What is negotiated. An initialize lists the ids of the client at one of two places in its
parameters; of these the manifest gets the ones that are registered with the server and that the
authorization policy, if there is one, allows.
-/

namespace Dcp
open Library

/-- Where the ids of a client are listed: in `capabilities.dcp`, or else in `dcpCapabilities`. -/
def capabilityPlace (params : Option Value) : Option Value :=
  ((params.bind fun p => p.get "capabilities").bind fun c => c.get "dcp").or
    (params.bind fun p => p.get "dcpCapabilities")

/-- The parameters of an initialize list this id. -/
def Lists (params : Option Value) (kind : String) (id : Nat) : Prop :=
  ∃ items, ((capabilityPlace params).bind fun c => c.get kind).bind Value.asArray = some items ∧
    ∃ item ∈ items, item.asU64 = some id

theorem manifestIds_ok {value : Option Value} {field : String} {bound : Nat} {ids : List Nat}
    (h : manifestIds value field bound = .ok ids) :
    (∀ id, id ∈ ids ↔ ∃ items, value.bind Value.asArray = some items ∧
      ∃ item ∈ items, item.asU64 = some id) ∧ ∀ id ∈ ids, id < bound := by
  cases value with
  | none =>
      cases h
      simp
  | some value =>
      cases hitems : value.asArray with
      | none =>
          simp only [manifestIds, hitems] at h
          cases h
      | some items =>
          simp only [manifestIds, hitems] at h
          have hread : (∀ item ∈ items, ∃ id, item.asU64 = some id ∧ id < bound) ∧
              ∀ id, id ∈ ids ↔ ∃ item ∈ items, item.asU64 = some id ∧ id < bound := by
            apply mapM_ok h
            intro item id
            cases item.asU64 with
            | none => simp
            | some n =>
                simp only [ge_iff_le, guard_error_eq_ok_iff, not_le, Except.ok.injEq,
                  Option.some.injEq]
                exact and_comm.trans (and_congr_right fun heq => by rw [heq])
          obtain ⟨hall, hmem⟩ := hread
          simp only [Option.bind_some, hitems, Option.some.injEq, exists_eq_left']
          constructor
          · intro id
            rw [hmem]
            refine exists_congr fun item => and_congr_right fun hitem => ?_
            obtain ⟨n, hn, hlt⟩ := hall item hitem
            exact and_iff_left_of_imp fun hid => by
              rw [hn] at hid
              exact Option.some.inj hid ▸ hlt
          · intro id hid
            obtain ⟨item, -, -, hlt⟩ := (hmem id).mp hid
            exact hlt

theorem optionalObject_ok_iff {value : Option Value} {field : String} {members : Option Members} :
    optionalObject value field = .ok members ↔ value = members.map .object := by
  cases value with
  | none => cases members <;> simp [optionalObject]
  | some value => cases value <;> cases members <;> simp [optionalObject]

namespace CompleteMcpAdapter

theorem dcpCapabilities_ok {params : Option Value} {members : Option Members}
    (h : dcpCapabilities params = .ok members) :
    capabilityPlace params = members.map .object := by
  simp only [dcpCapabilities, bind_eq_ok_iff, optionalObject_ok_iff] at h
  obtain ⟨params', rfl, h⟩ := h
  cases params' with
  | none =>
      simp only [bind_eq_ok_iff, optionalObject_ok_iff, Except.ok.injEq, exists_eq_left'] at h
      exact h
  | some p =>
      simp only [bind_eq_ok_iff, optionalObject_ok_iff] at h
      obtain ⟨capabilities, hcapabilities, h⟩ := h
      have hget : ∀ key, ((Option.some p).map Value.object).bind (fun v => v.get key) = p.get key :=
        fun _ => rfl
      have hbind : (capabilities.map Value.object).bind (fun v => v.get "dcp") =
          capabilities.bind fun c => c.get "dcp" := by
        cases capabilities <;> rfl
      rw [capabilityPlace, hget, hget, hcapabilities, hbind]
      cases hlegacy : p.get "dcpCapabilities" with
      | none =>
          simp only [hlegacy, bind_eq_ok_iff, optionalObject_ok_iff, Except.ok.injEq,
            exists_eq_left'] at h
          exact h
      | some legacy =>
          cases hstandard : capabilities.bind fun c => c.get "dcp" with
          | none =>
              simp only [hlegacy, hstandard, bind_eq_ok_iff, optionalObject_ok_iff,
                Except.ok.injEq, exists_eq_left'] at h
              exact h
          | some standard =>
              simp only [hlegacy, hstandard] at h
              split at h
              · simp at h
              · simp only [bind_eq_ok_iff, optionalObject_ok_iff, Except.ok.injEq,
                  exists_eq_left'] at h
                exact h

theorem field_foldl {α : Type} {n : Nat} (field : CapabilityManifest → Bitset n)
    {set : CapabilityManifest → α → CapabilityManifest} (place : α → Nat)
    (h : ∀ m x, field (set m x) = (field m).set (place x)) (ids : List α) (m : CapabilityManifest) :
    field (ids.foldl set m) = (ids.map place).foldl Bitset.set (field m) := by
  rw [List.foldl_map]
  exact (List.foldl_hom field fun m x => (h m x).symm).symm

theorem field_foldl_other {α β : Type} (field : CapabilityManifest → β)
    (set : CapabilityManifest → α → CapabilityManifest) (h : ∀ m x, field (set m x) = field m)
    (ids : List α) (m : CapabilityManifest) : field (ids.foldl set m) = field m := by
  induction ids generalizing m with
  | nil => rfl
  | cons id rest ih => exact (ih _).trans (h m id)

structure HasListed (params : Option Value) (m : CapabilityManifest) : Prop where
  tools : ∀ id, m.hasTool id = true ↔ Lists params "tools" id.toNat
  resources : ∀ id, m.hasResource id = true ↔ Lists params "resources" id.toNat
  prompts : ∀ id, m.hasPrompt id = true ↔ Lists params "prompts" id.toNat
  extensions : ∀ id, m.hasExtension id = true ↔ Lists params "extensions" id.toNat

theorem hasListed_ids {n bound : Nat} (hbound : bound = 64 * n) {value : Option Value}
    {field : String} {ids : List Nat} (h : manifestIds value field bound = .ok ids)
    {place : Nat → Nat} (hplace : ∀ id < bound, place id = id) (k : Nat) :
    ((ids.map place).foldl Bitset.set (.empty : Bitset n)).has k = true ↔
      ∃ items, value.bind Value.asArray = some items ∧ ∃ item ∈ items, item.asU64 = some k := by
  obtain ⟨hmem, hlt⟩ := manifestIds_ok h
  have hsame : ids.map place = ids :=
    (List.map_congr_left fun id hid => hplace id (hlt id hid)).trans (List.map_id _)
  rw [hsame, Bitset.has_foldl_set, Bitset.has_empty, ← hmem]
  constructor
  · rintro (hfalse | ⟨hk, -⟩)
    · cases hfalse
    · exact hk
  · intro hk
    exact .inr ⟨hk, Nat.div_lt_of_lt_mul (hbound ▸ hlt k hk)⟩

theorem clientManifest_ok {params : Option Value} {m : CapabilityManifest}
    (h : clientManifestFromInitialize params = .ok m) : HasListed params m := by
  simp only [clientManifestFromInitialize, bind_eq_ok_iff] at h
  obtain ⟨members, hmembers, h⟩ := h
  have hplace := dcpCapabilities_ok hmembers
  have h16 : ∀ bound ≤ 65536, ∀ id < bound, (UInt16.ofNat id).toNat = id :=
    fun bound hbound id hid => UInt16.toNat_ofNat_of_lt' (Nat.lt_of_lt_of_le hid hbound)
  have h8 : ∀ id < 64, (UInt8.ofNat id).toNat = id :=
    fun id hid => UInt8.toNat_ofNat_of_lt' (Nat.lt_of_lt_of_le hid (by decide))
  cases members with
  | none =>
      cases h
      have hnone : ∀ kind id, ¬ Lists params kind id := by
        rintro kind id ⟨items, hitems, -⟩
        rw [hplace] at hitems
        cases hitems
      constructor <;> intro id <;> refine iff_of_false ?_ (hnone _ _) <;>
        simp [CapabilityManifest.new, CapabilityManifest.hasTool, CapabilityManifest.hasResource,
          CapabilityManifest.hasPrompt, CapabilityManifest.hasExtension]
  | some members =>
      simp only [bind_eq_ok_iff, Except.ok.injEq] at h
      obtain ⟨tools, htools, resources, hresources, prompts, hprompts, extensions, hextensions,
        rfl⟩ := h
      have hlists : ∀ kind id, Lists params kind id ↔ ∃ items,
          (members.get kind).bind Value.asArray = some items ∧
            ∃ item ∈ items, item.asU64 = some id := by
        intro kind id
        rw [Lists, hplace]
        rfl
      constructor <;> intro id <;> rw [hlists]
      · rw [← hasListed_ids (n := 128) rfl htools (h16 _ (by decide)), CapabilityManifest.hasTool,
          field_foldl_other CapabilityManifest.tools, field_foldl_other CapabilityManifest.tools,
          field_foldl_other CapabilityManifest.tools,
          field_foldl CapabilityManifest.tools fun id => (UInt16.ofNat id).toNat]
        · rfl
        all_goals exact fun _ _ => rfl
      · rw [← hasListed_ids (n := 16) rfl hresources (h16 _ (by decide)),
          CapabilityManifest.hasResource, field_foldl_other CapabilityManifest.resources,
          field_foldl_other CapabilityManifest.resources,
          field_foldl CapabilityManifest.resources fun id => (UInt16.ofNat id).toNat,
          field_foldl_other CapabilityManifest.resources]
        · rfl
        all_goals exact fun _ _ => rfl
      · rw [← hasListed_ids (n := 8) rfl hprompts (h16 _ (by decide)),
          CapabilityManifest.hasPrompt, field_foldl_other CapabilityManifest.prompts,
          field_foldl CapabilityManifest.prompts fun id => (UInt16.ofNat id).toNat,
          field_foldl_other CapabilityManifest.prompts,
          field_foldl_other CapabilityManifest.prompts]
        · rfl
        all_goals exact fun _ _ => rfl
      · rw [← hasListed_ids (n := 1) rfl hextensions h8, CapabilityManifest.hasExtension,
          field_foldl CapabilityManifest.extensions fun id => (UInt8.ofNat id).toNat,
          field_foldl_other CapabilityManifest.extensions,
          field_foldl_other CapabilityManifest.extensions,
          field_foldl_other CapabilityManifest.extensions]
        · rfl
        all_goals exact fun _ _ => rfl

/-- The authorization policy, if there is one, allows it. -/
def Permits (adapter : CompleteMcpAdapter) (has : CapabilityManifest → Bool) : Prop :=
  ∀ policy, adapter.authorizationPolicy = some policy → has policy = true

/-- The manifest has what was listed, is registered and is allowed, and nothing else. -/
structure Agreed (adapter : CompleteMcpAdapter) (resources : ResourceRegistry)
    (params : Option Value) (m : CapabilityManifest) : Prop where
  tools : ∀ id, m.hasTool id = true ↔ Lists params "tools" id.toNat ∧
    (∃ name, adapter.toolCache.lookup name = some id) ∧ adapter.Permits (·.hasTool id)
  resources : ∀ id, m.hasResource id = true ↔ Lists params "resources" id.toNat ∧
    id ∈ resources.handlerIds ∧ adapter.Permits (·.hasResource id)
  prompts : ∀ id, m.hasPrompt id = true ↔ Lists params "prompts" id.toNat ∧
    (∃ name, adapter.promptIds.lookup name = some id) ∧ adapter.Permits (·.hasPrompt id)
  extensions : ∀ id, m.hasExtension id = true ↔ Lists params "extensions" id.toNat ∧
    adapter.serverManifest.hasExtension id = true ∧ adapter.Permits (·.hasExtension id)

section
variable {adapter : CompleteMcpAdapter}

theorem has_negotiated {n : Nat} (field : CapabilityManifest → Bitset n)
    (h : ∀ a b, field (a.intersect b) = (field a).inter (field b)) (client : CapabilityManifest)
    (resourceIds : List UInt16) (k : Nat) :
    (field (.negotiate client (adapter.offeredManifest resourceIds))).has k = true ↔
      (field client).has k = true ∧
        (field (resourceIds.foldl .setResource adapter.serverManifest)).has k = true ∧
          adapter.Permits fun policy => (field policy).has k := by
  rw [CapabilityManifest.negotiate, h, Bitset.has_inter, Bool.and_eq_true]
  refine and_congr_right fun _ => ?_
  simp only [offeredManifest, Permits]
  cases adapter.authorizationPolicy with
  | none => simp
  | some policy => simp [h, Bitset.has_inter]

theorem agreed_negotiate {resources : ResourceRegistry} {params : Option Value}
    {client : CapabilityManifest} (h : HasListed params client) :
    adapter.Agreed resources params
      (.negotiate client (adapter.offeredManifest resources.handlerIds)) := by
  have hwellFormed := adapter.wellFormed
  constructor <;> intro id
  · rw [← h.tools, ← hwellFormed.tools]
    refine (has_negotiated CapabilityManifest.tools (fun _ _ => rfl) _ _ _).trans ?_
    rw [field_foldl_other CapabilityManifest.tools .setResource fun _ _ => rfl]
    rfl
  · rw [← h.resources]
    refine (has_negotiated CapabilityManifest.resources (fun _ _ => rfl) _ _ _).trans ?_
    rw [field_foldl CapabilityManifest.resources UInt16.toNat fun _ _ => rfl,
      Bitset.has_foldl_set, List.mem_map_of_injective fun _ _ => UInt16.toNat_inj.mp]
    refine and_congr_right fun _ => and_congr_left fun _ => ?_
    have hnone : adapter.serverManifest.resources.has id.toNat = false := hwellFormed.resources id
    rw [hnone, or_iff_right Bool.false_ne_true, and_iff_left_of_imp]
    intro hid
    have hlt := resources.bounded
    rw [resources.mem_handlerIds_iff] at hid
    exact Nat.div_lt_of_lt_mul (hid.trans_le hlt)
  · rw [← h.prompts, ← hwellFormed.prompts]
    refine (has_negotiated CapabilityManifest.prompts (fun _ _ => rfl) _ _ _).trans ?_
    rw [field_foldl_other CapabilityManifest.prompts .setResource fun _ _ => rfl]
    rfl
  · rw [← h.extensions]
    refine (has_negotiated CapabilityManifest.extensions (fun _ _ => rfl) _ _ _).trans ?_
    rw [field_foldl_other CapabilityManifest.extensions .setResource fun _ _ => rfl]
    rfl

end

end CompleteMcpAdapter
end Dcp
