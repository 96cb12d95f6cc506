import Mathlib.Tactic

/-!
Sums over the participants of a system, of which one changes at a time.
-/

namespace Library
variable {α M : Type*}

theorem sum_map_set [AddCommMonoid M] (f : α → M) {items : List α} {i : Nat} {a : α} (b : α)
    (h : items[i]? = some a) : ((items.set i b).map f).sum + f a = (items.map f).sum + f b := by
  induction items generalizing i with
  | nil => simp at h
  | cons item rest ih =>
      cases i with
      | zero =>
          simp only [List.getElem?_cons_zero, Option.some.injEq] at h
          subst h
          simp only [List.set_cons_zero, List.map_cons, List.sum_cons]
          ac_rfl
      | succ i =>
          have hrest := ih (by simpa using h)
          simp only [List.set_cons_succ, List.map_cons, List.sum_cons]
          rw [add_assoc, hrest, add_assoc]

theorem le_sum_map (f : α → Nat) {items : List α} {a : α} (h : a ∈ items) :
    f a ≤ (items.map f).sum :=
  List.le_sum_of_mem (List.mem_map_of_mem h)

theorem index_eq_of_nodup_sum {β : Type*} {f : α → Multiset β} {items : List α}
    (h : (items.map f).sum.Nodup) {i j : Nat} {a b : α} {x : β} (hi : items[i]? = some a)
    (hj : items[j]? = some b) (ha : x ∈ f a) (hb : x ∈ f b) : i = j := by
  have hmem : ∀ {rest : List α} {k : Nat} {c : α}, rest[k]? = some c → x ∈ f c →
      x ∈ (rest.map f).sum := by
    intro rest k c hk hc
    have hle : f c ≤ (rest.map f).sum :=
      List.le_sum_of_mem (List.mem_map_of_mem (List.mem_of_getElem? hk))
    exact Multiset.mem_of_le hle hc
  induction items generalizing i j with
  | nil => cases hi
  | cons item rest ih =>
      rw [List.map_cons, List.sum_cons, Multiset.nodup_add] at h
      obtain ⟨-, hrest, hdisjoint⟩ := h
      cases i with
      | zero =>
          obtain rfl := Option.some.inj hi
          cases j with
          | zero => rfl
          | succ j =>
              have hother : rest[j]? = some b := hj
              exact absurd (hmem hother hb) (Multiset.disjoint_left.mp hdisjoint ha)
      | succ i =>
          cases j with
          | zero =>
              obtain rfl := Option.some.inj hj
              have hother : rest[i]? = some a := hi
              exact absurd (hmem hother ha) (Multiset.disjoint_left.mp hdisjoint hb)
          | succ j => rw [ih hrest hi hj]

theorem eq_or_mem_of_mem_set {items : List α} {i : Nat} {a b : α} (h : a ∈ items.set i b) :
    a = b ∨ a ∈ items :=
  (List.mem_or_eq_of_mem_set h).symm

theorem mem_set_of_ne {items : List α} {i : Nat} {a b c : α} (hi : items[i]? = some a)
    (hc : c ∈ items) (hne : c ≠ a) : c ∈ items.set i b := by
  obtain ⟨j, hj⟩ := List.mem_iff_getElem?.mp hc
  have hij : i ≠ j := by
    rintro rfl
    exact hne (Option.some.inj (hj.symm.trans hi))
  refine List.mem_iff_getElem?.mpr ⟨j, ?_⟩
  rw [List.getElem?_set_ne hij]
  exact hj

/-- After a change of one item, what holds of some item: nothing is lost if the change keeps it. -/
theorem any_set {p : α → Bool} {items : List α} {i : Nat} {a b : α} (h : items[i]? = some a)
    (hkeeps : p a = true → p b = true) : (items.set i b).any p = (items.any p || p b) := by
  induction items generalizing i with
  | nil => cases h
  | cons item rest ih =>
      cases i with
      | zero =>
          obtain rfl := Option.some.inj h
          rw [List.set_cons_zero, List.any_cons, List.any_cons]
          cases hb : p b with
          | true => simp
          | false =>
              have ha : p item = false := by
                cases ha : p item with
                | false => rfl
                | true => exact (hkeeps ha).symm.trans hb
              rw [ha, Bool.false_or, Bool.or_false]
      | succ i =>
          have hrest : rest[i]? = some a := h
          rw [List.set_cons_succ, List.any_cons, List.any_cons, ih hrest, Bool.or_assoc]

theorem mem_set_iff {items : List α} {i : Nat} {a b c : α} (h : items[i]? = some a)
    (hne : c ≠ a) : c ∈ items.set i b ↔ c = b ∨ c ∈ items := by
  refine ⟨eq_or_mem_of_mem_set, ?_⟩
  rintro (rfl | hc)
  · exact List.mem_set (List.getElem?_eq_some_iff.mp h).1 c
  · exact mem_set_of_ne h hc hne

/-- A change of one item that the sum does not see. -/
theorem map_modify {β : Type*} {f : α → β} {g : α → α} (h : ∀ a, f (g a) = f a) (items : List α)
    (i : Nat) : (items.modify i g).map f = items.map f := by
  apply List.ext_getElem?
  intro j
  rw [List.getElem?_map, List.getElem?_modify, List.getElem?_map]
  split
  · cases items[j]? with
    | none => rfl
    | some a => exact congrArg some (h a)
  · cases items[j]? <;> rfl

theorem eq_or_mem_of_mem_modify {g : α → α} {items : List α} {i : Nat} {a : α}
    (h : a ∈ items.modify i g) : (∃ b, items[i]? = some b ∧ a = g b) ∨ a ∈ items := by
  obtain ⟨j, hj⟩ := List.mem_iff_getElem?.mp h
  rw [List.getElem?_modify] at hj
  split at hj
  · next hij =>
      obtain ⟨b, hb, heq⟩ := Option.map_eq_some_iff.mp hj
      exact .inl ⟨b, hij ▸ hb, heq.symm⟩
  · exact .inr (List.mem_of_getElem? (by simpa using hj))

theorem mem_modify {g : α → α} {items : List α} {i : Nat} {a : α} (h : a ∈ items.modify i g) :
    (∃ b ∈ items, a = g b) ∨ a ∈ items := by
  refine (eq_or_mem_of_mem_modify h).imp_left ?_
  rintro ⟨b, hb, heq⟩
  exact ⟨b, List.mem_of_getElem? hb, heq⟩

theorem set_of_getElem? {items : List α} {i : Nat} {a : α} (h : items[i]? = some a) :
    items.set i a = items := by
  obtain ⟨hi, rfl⟩ := List.getElem?_eq_some_iff.mp h
  exact List.set_getElem_self hi

/-- A change of one item that a selection does not see. -/
theorem filterMap_set {β : Type*} {f : α → Option β} {items : List α} {i : Nat} {a b : α}
    (h : items[i]? = some a) (heq : f b = f a) :
    (items.set i b).filterMap f = items.filterMap f := by
  induction items generalizing i with
  | nil => rfl
  | cons item rest ih =>
      cases i with
      | zero =>
          obtain rfl := Option.some.inj h
          simp only [List.set_cons_zero, List.filterMap_cons, heq]
      | succ i => simp only [List.set_cons_succ, List.filterMap_cons, ih h]

/-- A change of the only item that a selection may see. -/
theorem filterMap_set_of_sole {β : Type*} {f : α → Option β} {items : List α} {i : Nat} {a b : α}
    (h : items[i]? = some a) (hsole : items.filterMap f = (f a).toList) :
    (items.set i b).filterMap f = (f b).toList := by
  induction items generalizing i with
  | nil => cases h
  | cons item rest ih =>
      cases i with
      | zero =>
          obtain rfl := Option.some.inj h
          have hrest : rest.filterMap f = [] := by
            cases hf : f item <;> simpa [hf] using hsole
          cases hf : f b <;> simp [hf, hrest]
      | succ i =>
          have hmem : a ∈ rest := List.mem_of_getElem? h
          cases hf : f item with
          | none => simpa [hf] using ih h (by simpa [hf] using hsole)
          | some y =>
              cases ha : f a with
              | none => simp [hf, ha] at hsole
              | some x =>
                  simp only [List.filterMap_cons, hf, ha, Option.toList_some,
                    List.cons.injEq] at hsole
                  have hnone := List.filterMap_eq_nil_iff.mp hsole.2 a hmem
                  rw [ha] at hnone
                  cases hnone

end Library
