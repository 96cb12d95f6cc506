import Dcp.Error

/-!
Synchronization of states by deltas: the bytes in which two states differ, run-length encoded,
with the hashes of both states. The hash is that of a library and a parameter here.
-/

namespace Dcp

abbrev ContentHash := Vector UInt8 32

/-- The length of a run that has been followed for `count` bytes and may go on in `data`. -/
def countRun (value : UInt8) : Nat → List UInt8 → Nat
  | count, [] => count
  | count, byte :: rest =>
      if byte = value ∧ count < 255 then countRun value (count + 1) rest else count

/-- The loop over the runs, of which there are no more than bytes. -/
def rleCompressFrom : Nat → List UInt8 → List UInt8
  | 0, _ | _, [] => []
  | fuel + 1, value :: rest =>
      let count := countRun value 1 rest
      UInt8.ofNat count :: value :: rleCompressFrom fuel ((value :: rest).drop count)

/-- Run-length encode bytes as pairs of a count and a value. -/
def rleCompress (data : List UInt8) : List UInt8 := rleCompressFrom data.length data

/-- Run-length decode bytes; a last byte without a value is dropped. -/
def rleDecompress : List UInt8 → List UInt8
  | count :: value :: rest => List.replicate count.toNat value ++ rleDecompress rest
  | _ => []

structure XorDelta where
  prevHash : ContentHash
  newHash : ContentHash
  patch : List UInt8
  newLen : Nat

namespace XorDelta

/-- The first `length` bytes of two byte strings combined, each padded with zeros. -/
def xorPadded (length : Nat) (a b : List UInt8) : List UInt8 :=
  (List.range length).map fun i => a.getD i 0 ^^^ b.getD i 0

variable (hash : List UInt8 → ContentHash)

def compute (prev new : List UInt8) : XorDelta where
  prevHash := hash prev
  newHash := hash new
  patch := rleCompress (xorPadded (max prev.length new.length) prev new)
  newLen := new.length

def apply (delta : XorDelta) (state : List UInt8) : Except DCPError (List UInt8) :=
  if hash state ≠ delta.prevHash then .error .hashMismatch
  else
    let newState := xorPadded delta.newLen state (rleDecompress delta.patch)
    if hash newState ≠ delta.newHash then .error .hashMismatch else .ok newState

end XorDelta

theorem countRun_spec (value : UInt8) (count : Nat) (data : List UInt8) (h : count ≤ 255) :
    ∃ more, countRun value count data = count + more ∧ count + more ≤ 255 ∧ more ≤ data.length ∧
      data.take more = List.replicate more value := by
  induction data generalizing count with
  | nil => exact ⟨0, rfl, h, Nat.le_refl _, rfl⟩
  | cons byte rest ih =>
      rw [countRun]
      split
      · next hrun =>
          obtain ⟨rfl, hlt⟩ := hrun
          obtain ⟨more, hcount, hbound, hlength, htake⟩ := ih (count + 1) (by omega)
          refine ⟨more + 1, by omega, by omega, by simpa using hlength, ?_⟩
          rw [List.take_succ_cons, htake, List.replicate_succ]
      · exact ⟨0, rfl, h, Nat.zero_le _, rfl⟩

theorem countRun_one (value : UInt8) (rest : List UInt8) :
    ∃ more, countRun value 1 rest = more + 1 ∧ (UInt8.ofNat (more + 1)).toNat = more + 1 ∧
      more ≤ rest.length ∧ List.replicate (more + 1) value = (value :: rest).take (more + 1) := by
  obtain ⟨more, hcount, hbound, hlength, htake⟩ := countRun_spec value 1 rest (by omega)
  refine ⟨more, by omega, ?_, hlength, ?_⟩
  · rw [UInt8.toNat_ofNat', Nat.mod_eq_of_lt (by omega)]
  · rw [List.take_succ_cons, htake, List.replicate_succ]

theorem rleDecompress_rleCompress (data : List UInt8) :
    rleDecompress (rleCompress data) = data := by
  have hfrom : ∀ fuel (data : List UInt8), data.length ≤ fuel →
      rleDecompress (rleCompressFrom fuel data) = data := by
    intro fuel
    induction fuel with
    | zero =>
        intro data hlength
        rw [List.length_eq_zero_iff.mp (Nat.le_zero.mp hlength)]
        rfl
    | succ fuel ih =>
        intro data hlength
        cases data with
        | nil => rfl
        | cons value rest =>
            obtain ⟨more, hcount, hbyte, hmore, hrun⟩ := countRun_one value rest
            have hrest :
                rleDecompress (rleCompressFrom fuel (rest.drop more)) = rest.drop more := by
              apply ih
              rw [List.length_drop]
              rw [List.length_cons] at hlength
              omega
            simp only [rleCompressFrom, hcount, rleDecompress, hbyte, hrun, List.drop_succ_cons,
              hrest]
            exact List.take_append_drop (more + 1) (value :: rest)
  exact hfrom data.length data le_rfl

namespace XorDelta

@[simp] theorem getElem?_xorPadded (length : Nat) (a b : List UInt8) (i : Nat) :
    (xorPadded length a b)[i]? =
      if i < length then some (a.getD i 0 ^^^ b.getD i 0) else none := by
  rw [xorPadded, List.getElem?_map]
  by_cases hi : i < length
  · rw [List.getElem?_range hi, if_pos hi]
    rfl
  · rw [List.getElem?_eq_none (by simpa using hi), if_neg hi]
    rfl

theorem xorPadded_xorPadded {length : Nat} {prev new : List UInt8} (h : new.length ≤ length) :
    xorPadded new.length prev (xorPadded length prev new) = new := by
  apply List.ext_getElem?
  intro i
  rw [getElem?_xorPadded]
  by_cases hi : i < new.length
  · have hvalue : new.getD i 0 = new[i] := by
      rw [List.getD_eq_getElem?_getD, List.getElem?_eq_getElem hi, Option.getD_some]
    have hinner : (xorPadded length prev new).getD i 0 = prev.getD i 0 ^^^ new[i] := by
      rw [List.getD_eq_getElem?_getD, getElem?_xorPadded, if_pos (Nat.lt_of_lt_of_le hi h),
        Option.getD_some, hvalue]
    rw [if_pos hi, hinner, ← UInt8.xor_assoc, UInt8.xor_self, UInt8.zero_xor,
      List.getElem?_eq_getElem hi]
  · rw [if_neg hi, List.getElem?_eq_none (Nat.not_lt.mp hi)]

variable {hash : List UInt8 → ContentHash}

theorem apply_compute (prev new : List UInt8) :
    (compute hash prev new).apply hash prev = .ok new := by
  have hnew : xorPadded new.length prev
      (rleDecompress (rleCompress (xorPadded (max prev.length new.length) prev new))) = new := by
    rw [rleDecompress_rleCompress]
    exact xorPadded_xorPadded (Nat.le_max_right _ _)
  simp [apply, compute, hnew]

theorem apply_cases (hash : List UInt8 → ContentHash) (delta : XorDelta) (state : List UInt8) :
    delta.apply hash state = .error .hashMismatch ∨
      ∃ x, delta.apply hash state = .ok x ∧
        hash state = delta.prevHash ∧ hash x = delta.newHash := by
  rw [apply]
  split
  · exact .inl rfl
  · next hprev =>
      dsimp only
      split
      · exact .inl rfl
      · next hnew => exact .inr ⟨_, rfl, not_not.mp hprev, not_not.mp hnew⟩

end XorDelta

/-- A delta leads from the state it was computed for to the new one; it is applied only with both
hashes right, so that without collisions a wrong state or a corrupted patch is refused. -/
theorem XorDelta.exact_sync (hash : List UInt8 → ContentHash) :
    (∀ prev new, (compute hash prev new).apply hash prev = .ok new) ∧
    (∀ (delta : XorDelta) state x, delta.apply hash state = .ok x →
      hash state = delta.prevHash ∧ hash x = delta.newHash) ∧
    ∀ prev new, (∀ a, hash a = hash prev → a = prev) → (∀ a, hash a = hash new → a = new) →
      ∀ (delta : XorDelta) state, delta.prevHash = hash prev → delta.newHash = hash new →
        delta.apply hash state = .error .hashMismatch ∨
          state = prev ∧ delta.apply hash state = .ok new := by
  refine ⟨apply_compute, ?_, ?_⟩
  · intro delta state x happly
    obtain hrefused | ⟨y, hy, hprev, hnew⟩ := delta.apply_cases hash state
    · rw [hrefused] at happly
      cases happly
    · rw [hy] at happly
      cases happly
      exact ⟨hprev, hnew⟩
  · intro prev new hprevOnly hnewOnly delta state hprev hnew
    obtain hrefused | ⟨x, hx, hstate, hresult⟩ := delta.apply_cases hash state
    · exact .inl hrefused
    · have hsame := hnewOnly x (hresult.trans hnew)
      exact .inr ⟨hprevOnly state (hstate.trans hprev), hsame ▸ hx⟩

end Dcp
