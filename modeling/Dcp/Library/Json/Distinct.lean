import Dcp.Library.Json.Value

/-!
Values in which no object repeats a key, whatever numbers they hold: those that a map of members
can stand for. Such a value is the same as itself, and inserting a member keeps it such.
-/

namespace Library
namespace Members

theorem mem_insert {members : Members} {key : String} {value : Value} {m : String × Value}
    (h : m ∈ members.insert key value) : m = (key, value) ∨ m ∈ members := by
  induction members with
  | nil => exact .inl (List.mem_singleton.mp h)
  | cons member rest ih =>
      obtain ⟨k, v⟩ := member
      rw [insert] at h
      split at h
      · exact (List.mem_cons.mp h).imp_right (List.mem_cons_of_mem _)
      · rcases List.mem_cons.mp h with rfl | h
        · exact .inr List.mem_cons_self
        · exact (ih h).imp_right (List.mem_cons_of_mem _)

theorem get_of_mem {members : Members} (hkeys : members.keys.Nodup) {m : String × Value}
    (h : m ∈ members) : members.get m.1 = some m.2 := by
  induction members with
  | nil => cases h
  | cons member rest ih =>
      obtain ⟨k, v⟩ := member
      rw [keys, List.map_cons, List.nodup_cons] at hkeys
      rcases List.mem_cons.mp h with rfl | hrest
      · exact if_pos rfl
      · have hmem : m.1 ∈ List.map Prod.fst rest := List.mem_map_of_mem hrest
        have hne : k ≠ m.1 := fun heq => hkeys.1 (heq.symm ▸ hmem)
        rw [get, if_neg hne, ih hkeys.2 hrest]

end Members

namespace Value

mutual

/-- No object repeats a key. -/
def distinct : Value → Bool
  | array items => distinctItems items
  | object members => decide (Members.keys members).Nodup && distinctMembers members
  | _ => true

def distinctItems : List Value → Bool
  | [] => true
  | v :: rest => distinct v && distinctItems rest

def distinctMembers : List (String × Value) → Bool
  | [] => true
  | (_, v) :: rest => distinct v && distinctMembers rest

end

mutual

theorem distinct_of_plain : ∀ v : Value, v.plain = true → v.distinct = true
  | .null, _ | .bool _, _ | .number _, _ | .string _, _ => rfl
  | .array items, h => distinctItems_of_plain items h
  | .object members, h => by
      rw [plain, Bool.and_eq_true] at h
      rw [distinct, h.1, distinctMembers_of_plain members h.2]
      rfl

theorem distinctItems_of_plain : ∀ items : List Value, plainItems items = true →
    distinctItems items = true
  | [], _ => rfl
  | v :: rest, h => by
      rw [plainItems, Bool.and_eq_true] at h
      rw [distinctItems, distinct_of_plain v h.1, distinctItems_of_plain rest h.2]
      rfl

theorem distinctMembers_of_plain : ∀ members : List (String × Value), plainMembers members = true →
    distinctMembers members = true
  | [], _ => rfl
  | (_, v) :: rest, h => by
      rw [plainMembers, Bool.and_eq_true] at h
      rw [distinctMembers, distinct_of_plain v h.1, distinctMembers_of_plain rest h.2]
      rfl

end

theorem distinctMembers_iff (members : List (String × Value)) :
    distinctMembers members = true ↔ ∀ m ∈ members, distinct m.2 = true := by
  induction members with
  | nil => simp [distinctMembers]
  | cons m rest ih =>
      obtain ⟨k, v⟩ := m
      simp only [distinctMembers, Bool.and_eq_true, ih, List.forall_mem_cons]

theorem distinct_object (members : Members) :
    distinct (object members) = true ↔
      members.keys.Nodup ∧ ∀ m ∈ members, distinct m.2 = true := by
  rw [distinct, Bool.and_eq_true, decide_eq_true_iff, distinctMembers_iff]

theorem distinct_object_insert {members : Members} (h : distinct (object members) = true)
    (key : String) {value : Value} (hv : distinct value = true) :
    distinct (object (members.insert key value)) = true := by
  rw [distinct_object] at h ⊢
  refine ⟨Members.nodup_keys_insert h.1 key value, fun m hm => ?_⟩
  rcases Members.mem_insert hm with rfl | hm
  · exact hv
  · exact h.2 m hm

theorem Number.same_refl (n : Number) : Number.same n n = true := by
  cases n with
  | int n => exact decide_eq_true rfl
  | float bits => exact decide_eq_true (.inl rfl)

mutual

theorem same_refl : ∀ v : Value, v.distinct = true → v.same v = true
  | .null, _ => rfl
  | .bool b, _ => by rw [same, beq_self_eq_true]
  | .number n, _ => Number.same_refl n
  | .string s, _ => by rw [same, beq_self_eq_true]
  | .array items, h => sameItems_refl items h
  | .object members, h => by
      rw [distinct_object] at h
      rw [same, decide_eq_true rfl, Bool.true_and]
      exact sameMembers_of_get members members h.2 fun m hm => Members.get_of_mem h.1 hm

theorem sameItems_refl : ∀ items : List Value, distinctItems items = true →
    sameItems items items = true
  | [], _ => rfl
  | v :: rest, h => by
      rw [distinctItems, Bool.and_eq_true] at h
      rw [sameItems, same_refl v h.1, sameItems_refl rest h.2]
      rfl

/-- Members that are found again in an object. -/
theorem sameMembers_of_get : ∀ (members : List (String × Value)) (obj : Members),
    (∀ m ∈ members, distinct m.2 = true) → (∀ m ∈ members, obj.get m.1 = some m.2) →
    sameMembers members obj = true
  | [], _, _, _ => rfl
  | (k, v) :: rest, obj, h, hget => by
      rw [List.forall_mem_cons] at h hget
      have hfound : obj.get k = some v := hget.1
      rw [sameMembers, hfound, sameMembers_of_get rest obj h.2 hget.2, Bool.and_true]
      exact same_refl v h.1

end

/-- A member of one of two equal objects has its like in the other. -/
theorem get_of_sameMembers {members obj : Members} (h : sameMembers members obj = true)
    {key : String} {v : Value} (hget : members.get key = some v) :
    ∃ w, obj.get key = some w ∧ v.same w = true := by
  induction members with
  | nil => cases hget
  | cons m rest ih =>
      obtain ⟨k, u⟩ := m
      rw [sameMembers, Bool.and_eq_true] at h
      rw [Members.get] at hget
      split at hget
      · next hk =>
          subst hk
          cases hget
          cases hobj : obj.get k with
          | none =>
              rw [hobj] at h
              cases h.1
          | some w =>
              rw [hobj] at h
              exact ⟨w, rfl, h.1⟩
      · exact ih h.2 hget

end Value
end Library
