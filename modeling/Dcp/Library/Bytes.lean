import Mathlib.Data.List.Basic
import Mathlib.Tactic

/-!
Byte strings: numbers of a fixed width in either byte order, and buffers that are
overwritten in place over a range of positions.
-/

namespace Library

/-- The `k` low-order bytes of a number, least significant first. -/
def leBytes : Nat → Nat → List UInt8
  | 0, _ => []
  | k + 1, n => UInt8.ofNat n :: leBytes k (n / 256)

@[simp] theorem length_leBytes (k n : Nat) : (leBytes k n).length = k := by
  induction k generalizing n with
  | zero => rfl
  | succ k ih => simp [leBytes, ih]

theorem leBytes_injOn {k m n : Nat} (hm : m < 256 ^ k) (hn : n < 256 ^ k)
    (h : leBytes k m = leBytes k n) : m = n := by
  induction k generalizing m n with
  | zero => simp only [pow_zero] at hm hn; omega
  | succ k ih =>
      rw [pow_succ'] at hm hn
      simp only [leBytes, List.cons.injEq] at h
      have hrest : m / 256 = n / 256 := ih (by omega) (by omega) h.2
      have hfirst : m % 256 = n % 256 := by
        simpa [UInt8.toNat_ofNat'] using congrArg UInt8.toNat h.1
      omega

/-- The number that little-endian bytes stand for. -/
def ofLeBytes : List UInt8 → Nat
  | [] => 0
  | b :: rest => b.toNat + 256 * ofLeBytes rest

theorem ofLeBytes_leBytes (k : Nat) {n : Nat} (hn : n < 256 ^ k) : ofLeBytes (leBytes k n) = n := by
  induction k generalizing n with
  | zero =>
      rw [pow_zero] at hn
      exact (Nat.lt_one_iff.mp hn).symm
  | succ k ih =>
      rw [pow_succ'] at hn
      have hfirst : (UInt8.ofNat n).toNat = n % 256 := UInt8.toNat_ofNat'
      rw [leBytes, ofLeBytes, hfirst, ih (by omega)]
      omega

/-- The `k` low-order bytes of a number, most significant first. -/
def beBytes (k n : Nat) : List UInt8 := (leBytes k n).reverse

/-- The number that big-endian bytes stand for. -/
def ofBeBytes (bytes : List UInt8) : Nat := ofLeBytes bytes.reverse

@[simp] theorem length_beBytes (k n : Nat) : (beBytes k n).length = k := by
  rw [beBytes, List.length_reverse, length_leBytes]

theorem ofBeBytes_beBytes (k : Nat) {n : Nat} (hn : n < 256 ^ k) : ofBeBytes (beBytes k n) = n := by
  rw [ofBeBytes, beBytes, List.reverse_reverse, ofLeBytes_leBytes k hn]

/-- Replace the bytes from `offset` on by `bytes`; the caller has checked that the
range lies inside the buffer. -/
def overwrite (buffer : List UInt8) (offset : Nat) (bytes : List UInt8) : List UInt8 :=
  buffer.take offset ++ bytes ++ buffer.drop (offset + bytes.length)

@[simp] theorem length_overwrite {buffer : List UInt8} {offset : Nat} {bytes : List UInt8}
    (h : offset + bytes.length ≤ buffer.length) :
    (overwrite buffer offset bytes).length = buffer.length := by
  simp only [overwrite, List.length_append, List.length_take, List.length_drop]
  omega

theorem getElem?_overwrite {buffer : List UInt8} {offset : Nat} {bytes : List UInt8}
    (h : offset + bytes.length ≤ buffer.length) (i : Nat) :
    (overwrite buffer offset bytes)[i]? =
      if offset ≤ i ∧ i < offset + bytes.length then bytes[i - offset]? else buffer[i]? := by
  have htake : (buffer.take offset).length = offset := by
    rw [List.length_take]
    omega
  unfold overwrite
  by_cases hlo : i < offset
  · rw [if_neg (by omega), List.append_assoc, List.getElem?_append_left (by omega),
      List.getElem?_take_of_lt hlo]
  · rw [List.append_assoc, List.getElem?_append_right (by omega), htake]
    by_cases hhi : i < offset + bytes.length
    · rw [if_pos ⟨by omega, hhi⟩, List.getElem?_append_left (by omega)]
    · rw [if_neg (by omega), List.getElem?_append_right (by omega), List.getElem?_drop]
      congr 1
      omega

/-- Two byte strings that agree once padded with zeros differ by trailing zeros. -/
theorem eq_append_zeros {a b : List UInt8} {n : Nat} (hab : a.length ≤ b.length)
    (hb : b.length ≤ n) (h : ∀ k < n, a[k]?.getD 0 = b[k]?.getD 0) :
    b = a ++ List.replicate (b.length - a.length) 0 := by
  apply List.ext_getElem?
  intro k
  by_cases hk : k < b.length
  · have heq := h k (by omega)
    rw [List.getElem?_eq_getElem hk] at heq ⊢
    by_cases hka : k < a.length
    · rw [List.getElem?_eq_getElem hka] at heq
      rw [List.getElem?_append_left hka, List.getElem?_eq_getElem hka]
      simpa using heq.symm
    · rw [List.getElem?_eq_none (by omega)] at heq
      rw [List.getElem?_append_right (by omega), List.getElem?_replicate, if_pos (by omega)]
      simpa using heq.symm
  · rw [List.getElem?_eq_none (by omega), List.getElem?_eq_none (by simp; omega)]

/-- A list of writes, each a position and the bytes stored from there on. -/
abbrev Writes := List (Nat × List UInt8)

/-- The byte that the last write covering a position stores there. -/
def lastWritten : Writes → Nat → Option UInt8
  | [], _ => none
  | (offset, bytes) :: rest, i =>
      match lastWritten rest i with
      | some b => some b
      | none => if offset ≤ i then bytes[i - offset]? else none

def applyWrites (buffer : List UInt8) (writes : Writes) : List UInt8 :=
  writes.foldl (fun buffer write => overwrite buffer write.1 write.2) buffer

def WritesInside (length : Nat) (writes : Writes) : Prop :=
  ∀ write ∈ writes, write.1 + write.2.length ≤ length

theorem length_applyWrites {buffer : List UInt8} {writes : Writes}
    (h : WritesInside buffer.length writes) :
    (applyWrites buffer writes).length = buffer.length := by
  induction writes generalizing buffer with
  | nil => rfl
  | cons write rest ih =>
      have hlen := length_overwrite (h write List.mem_cons_self)
      have hrest : WritesInside (overwrite buffer write.1 write.2).length rest := by
        rw [hlen]
        exact fun w hw => h w (List.mem_cons_of_mem _ hw)
      rw [applyWrites, List.foldl_cons]
      exact (ih hrest).trans hlen

theorem getElem?_applyWrites {buffer : List UInt8} {writes : Writes}
    (h : WritesInside buffer.length writes) (i : Nat) :
    (applyWrites buffer writes)[i]? = (lastWritten writes i).or buffer[i]? := by
  induction writes generalizing buffer with
  | nil => rfl
  | cons write rest ih =>
      obtain ⟨offset, bytes⟩ := write
      have hinside : offset + bytes.length ≤ buffer.length := h (offset, bytes) List.mem_cons_self
      have hrest : WritesInside (overwrite buffer offset bytes).length rest := by
        rw [length_overwrite hinside]
        exact fun w hw => h w (List.mem_cons_of_mem _ hw)
      rw [applyWrites, List.foldl_cons]
      change (applyWrites (overwrite buffer offset bytes) rest)[i]? = _
      rw [ih hrest, getElem?_overwrite hinside, lastWritten]
      cases lastWritten rest i with
      | some b => rfl
      | none =>
          simp only [Option.none_or]
          by_cases hlo : offset ≤ i
          · by_cases hhi : i < offset + bytes.length
            · have hin : i - offset < bytes.length := by omega
              have hbyte : bytes[i - offset]? = some bytes[i - offset] :=
                List.getElem?_eq_getElem hin
              rw [if_pos ⟨hlo, hhi⟩, if_pos hlo, hbyte]
              rfl
            · have hbyte : bytes[i - offset]? = none := List.getElem?_eq_none (by omega)
              rw [if_neg (by omega), if_pos hlo, hbyte]
              rfl
          · rw [if_neg (by omega), if_neg hlo]
            rfl

theorem covered_of_lastWritten {writes : Writes} {i : Nat} {b : UInt8}
    (h : lastWritten writes i = some b) :
    ∃ write ∈ writes, write.1 ≤ i ∧ i < write.1 + write.2.length := by
  induction writes with
  | nil => contradiction
  | cons write rest ih =>
      obtain ⟨offset, bytes⟩ := write
      rw [lastWritten] at h
      cases hrest : lastWritten rest i with
      | some c =>
          obtain ⟨w, hw, hcover⟩ := ih (by simpa [hrest] using h)
          exact ⟨w, List.mem_cons_of_mem _ hw, hcover⟩
      | none =>
          rw [hrest] at h
          by_cases hlo : offset ≤ i
          · rw [if_pos hlo] at h
            have hlt := (List.getElem?_eq_some_iff.mp h).1
            exact ⟨(offset, bytes), List.mem_cons_self, hlo, by simp only; omega⟩
          · rw [if_neg hlo] at h
            contradiction

theorem isSome_lastWritten {writes : Writes} {write : Nat × List UInt8} {i : Nat}
    (hmem : write ∈ writes) (hlo : write.1 ≤ i) (hhi : i < write.1 + write.2.length) :
    (lastWritten writes i).isSome = true := by
  induction writes with
  | nil => contradiction
  | cons head rest ih =>
      obtain ⟨offset, bytes⟩ := head
      rw [lastWritten]
      cases hrest : lastWritten rest i with
      | some b => rfl
      | none =>
          rcases List.mem_cons.mp hmem with rfl | hmem'
          · simp only at hlo hhi
            rw [if_pos hlo, List.getElem?_eq_getElem (by omega)]
            rfl
          · have hsome := ih hmem'
            rw [hrest] at hsome
            contradiction

theorem lastWritten_eq_of_only {writes : Writes} {offset : Nat} {bytes : List UInt8} {i : Nat}
    (hmem : (offset, bytes) ∈ writes) (hlo : offset ≤ i)
    (honly : ∀ write ∈ writes, write.1 ≤ i → i < write.1 + write.2.length →
      write = (offset, bytes)) : lastWritten writes i = bytes[i - offset]? := by
  induction writes with
  | nil => contradiction
  | cons write rest ih =>
      obtain ⟨o, bs⟩ := write
      have honly' := fun w hw => honly w (List.mem_cons_of_mem _ hw)
      by_cases hrest : (offset, bytes) ∈ rest
      · rw [lastWritten, ih hrest honly']
        cases hbyte : bytes[i - offset]? with
        | some b => rfl
        | none =>
            by_cases ho : o ≤ i
            · rw [if_pos ho]
              refine List.getElem?_eq_none ?_
              by_contra hlt
              have heq := honly (o, bs) List.mem_cons_self ho (by simp only; omega)
              cases heq
              exact absurd (List.getElem?_eq_none_iff.mp hbyte) (by omega)
            · rw [if_neg ho]
      · rcases List.mem_cons.mp hmem with heq | hrest'
        · cases heq
          have hnone : lastWritten rest i = none := by
            by_contra hsome
            obtain ⟨b, hb⟩ := Option.ne_none_iff_exists'.mp hsome
            obtain ⟨w, hw, hwlo, hwhi⟩ := covered_of_lastWritten hb
            have heq := honly' w hw hwlo hwhi
            rw [heq] at hw
            exact hrest hw
          rw [lastWritten, hnone, if_pos hlo]
        · exact absurd hrest' hrest

end Library
