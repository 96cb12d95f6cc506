import Dcp.Library.Digits

/-!
The ids of requests. An id is the clock, the node and the number of the call in hexadecimal, so that
two calls get one id when they agree in all three. Generators may be called from many threads: each
call reads the clock and then takes its number in one atomic operation, and the calls are listed in
the order in which they took their numbers, with whatever they read before.
-/

namespace Dcp.Observability
open Library

structure RequestIdGenerator where
  counter : UInt64
  nodeId : UInt16

/-- The milliseconds from the epoch to a clock reading, which are zero for an earlier reading. -/
def millisSinceEpoch (now : Int) : UInt64 := .ofNat now.toNat

namespace RequestIdGenerator

def withNodeId (nodeId : UInt16) : RequestIdGenerator := ⟨0, nodeId⟩

def new : RequestIdGenerator := withNodeId 0

def parts (generator : RequestIdGenerator) (now : Int) : List (List Char) :=
  [paddedDigits 0 16 (millisSinceEpoch now).toNat, paddedDigits 4 16 generator.nodeId.toNat,
    paddedDigits 8 16 generator.counter.toNat]

def generate (generator : RequestIdGenerator) (now : Int) : String × RequestIdGenerator :=
  (String.ofList (['-'].intercalate (generator.parts now)),
    { generator with counter := generator.counter + 1 })

def after (generator : RequestIdGenerator) (calls : Nat) : RequestIdGenerator :=
  { generator with counter := generator.counter + .ofNat calls }

theorem after_zero (generator : RequestIdGenerator) : generator.after 0 = generator := by
  have hcounter : generator.counter + UInt64.ofNat 0 = generator.counter := UInt64.add_zero _
  rw [after, hcounter]

theorem after_succ (generator : RequestIdGenerator) (now : Int) (calls : Nat) :
    (generator.generate now).2.after calls = generator.after (calls + 1) := by
  have hcounter : generator.counter + 1 + UInt64.ofNat calls =
      generator.counter + UInt64.ofNat (calls + 1) := by
    rw [UInt64.ofNat_add, UInt64.add_assoc, UInt64.add_comm 1]
    rfl
  rw [generate, after, after, hcounter]

theorem hyphen_notMem_parts (generator : RequestIdGenerator) (now : Int) :
    ∀ part ∈ generator.parts now, '-' ∉ part := by
  have hdigits : ∀ d < 16, Nat.digitChar d ≠ '-' := by decide
  have hpart : ∀ width n, '-' ∉ paddedDigits width 16 n := by
    intro width n hmem
    obtain ⟨d, hd, heq⟩ := exists_digit_of_mem_paddedDigits (by decide) hmem
    exact hdigits d hd heq
  intro part hmem
  simp only [parts, List.mem_cons, List.not_mem_nil, or_false] at hmem
  obtain rfl | rfl | rfl := hmem
  all_goals exact hpart _ _

theorem generate_eq_iff (generator generator' : RequestIdGenerator) (now now' : Int) :
    (generator.generate now).1 = (generator'.generate now').1 ↔
      millisSinceEpoch now = millisSinceEpoch now' ∧ generator.nodeId = generator'.nodeId ∧
        generator.counter = generator'.counter := by
  have hsplit : ∀ (g : RequestIdGenerator) (now : Int),
      (['-'].intercalate (g.parts now)).splitOn '-' = g.parts now := fun g now =>
    List.splitOn_intercalate '-' (g.hyphen_notMem_parts now) (List.cons_ne_nil _ _)
  have hparts : generator.parts now = generator'.parts now' ↔
      millisSinceEpoch now = millisSinceEpoch now' ∧ generator.nodeId = generator'.nodeId ∧
        generator.counter = generator'.counter := by
    simp only [parts, List.cons.injEq, and_true,
      (paddedDigits_injective (by decide : 1 < 16) (by decide) _).eq_iff, UInt64.toNat_inj,
      UInt16.toNat_inj]
  rw [generate, generate, String.ofList_inj, ← hparts]
  constructor
  · intro h
    rw [← hsplit generator now, h, hsplit]
  · intro h
    rw [h]

end RequestIdGenerator

section Calls
variable {γ : Type*} [DecidableEq γ]

def requestIds (generators : γ → RequestIdGenerator) : List (γ × Int) → List String
  | [] => []
  | (g, now) :: calls =>
      let (id, generator) := (generators g).generate now
      id :: requestIds (Function.update generators g generator) calls

/-- The number that a generator gives out at a place in the calls. -/
def callsBefore (calls : List (γ × Int)) (i : Nat) (g : γ) : Nat :=
  (calls.take i).countP fun call => call.1 = g

theorem length_requestIds (generators : γ → RequestIdGenerator) (calls : List (γ × Int)) :
    (requestIds generators calls).length = calls.length := by
  induction calls generalizing generators with
  | nil => rfl
  | cons call calls ih => exact congrArg (· + 1) (ih _)

/-- The induction is on the calls; a call leaves its generator one number further. -/
theorem getElem?_requestIds (generators : γ → RequestIdGenerator) (calls : List (γ × Int))
    (i : Nat) :
    (requestIds generators calls)[i]? = calls[i]?.map fun call =>
      (((generators call.1).after (callsBefore calls i call.1)).generate call.2).1 := by
  induction calls generalizing generators i with
  | nil => rfl
  | cons call calls ih =>
      obtain ⟨g, now⟩ := call
      cases i with
      | zero =>
          rw [requestIds, List.getElem?_cons_zero, List.getElem?_cons_zero, Option.map_some,
            callsBefore, List.take_zero, List.countP_nil, RequestIdGenerator.after_zero]
      | succ i =>
          rw [requestIds, List.getElem?_cons_succ, List.getElem?_cons_succ, ih]
          refine congrArg (Option.map · _) (funext fun later => ?_)
          by_cases heq : g = later.1
          · subst heq
            rw [Function.update_self, RequestIdGenerator.after_succ, callsBefore, callsBefore,
              List.take_succ_cons, List.countP_cons_of_pos (by simp)]
          · rw [Function.update_of_ne (Ne.symm heq), callsBefore, callsBefore,
              List.take_succ_cons, List.countP_cons_of_neg (by simpa using heq)]

/-- Two calls on generators of the same node read the same millisecond and take the same number. -/
def Clashes (nodeId : γ → UInt16) (calls : List (γ × Int)) (i j : Nat) : Prop :=
  ∃ first later, calls[i]? = some first ∧ calls[j]? = some later ∧
    millisSinceEpoch first.2 = millisSinceEpoch later.2 ∧ nodeId first.1 = nodeId later.1 ∧
    callsBefore calls i first.1 ≡ callsBefore calls j later.1 [MOD 2 ^ 64]

variable {nodeId : γ → UInt16} {calls : List (γ × Int)}

theorem Clashes.lt_length {i j : Nat} (h : Clashes nodeId calls i j) :
    i < calls.length ∧ j < calls.length := by
  obtain ⟨first, later, hfirst, hlater, -⟩ := h
  exact ⟨(List.getElem?_eq_some_iff.mp hfirst).1, (List.getElem?_eq_some_iff.mp hlater).1⟩

theorem getElem?_requestIds_eq_iff {i j : Nat} (hi : i < calls.length) (hj : j < calls.length) :
    (requestIds (fun g => .withNodeId (nodeId g)) calls)[i]? =
        (requestIds (fun g => .withNodeId (nodeId g)) calls)[j]? ↔ Clashes nodeId calls i j := by
  have hcounter : ∀ m n : Nat, UInt64.ofNat m = UInt64.ofNat n ↔ m ≡ n [MOD 2 ^ 64] := by
    intro m n
    rw [← UInt64.toNat_inj, UInt64.toNat_ofNat', UInt64.toNat_ofNat']
    rfl
  rw [getElem?_requestIds, getElem?_requestIds, List.getElem?_eq_getElem hi,
    List.getElem?_eq_getElem hj, Option.map_some, Option.map_some, Option.some_inj,
    RequestIdGenerator.generate_eq_iff]
  simp only [RequestIdGenerator.after, RequestIdGenerator.withNodeId, UInt64.zero_add, hcounter]
  constructor
  · intro h
    exact ⟨_, _, List.getElem?_eq_getElem hi, List.getElem?_eq_getElem hj, h⟩
  · rintro ⟨first, later, hfirst, hlater, h⟩
    rw [List.getElem?_eq_getElem hi, Option.some_inj] at hfirst
    rw [List.getElem?_eq_getElem hj, Option.some_inj] at hlater
    rw [hfirst, hlater]
    exact h

/-- Generators of different nodes that give out no more numbers than there are do not clash,
whatever the clocks show. -/
theorem not_clashes_of_injective (hnodes : Function.Injective nodeId)
    (hcalls : ∀ g, callsBefore calls calls.length g ≤ 2 ^ 64) {i j : Nat} (hij : i < j) :
    ¬ Clashes nodeId calls i j := by
  intro hclash
  obtain ⟨hi, hj⟩ := hclash.lt_length
  obtain ⟨first, later, hfirst, hlater, -, hnode, hnumber⟩ := hclash
  rw [hnodes hnode] at hnumber
  have hnext : ∀ {k : Nat} {call : γ × Int}, calls[k]? = some call →
      callsBefore calls (k + 1) call.1 = callsBefore calls k call.1 + 1 := by
    intro k call hcall
    rw [callsBefore, callsBefore, List.take_add_one, hcall, List.countP_append]
    simp
  have hmono : ∀ {k l : Nat}, k ≤ l → callsBefore calls k later.1 ≤ callsBefore calls l later.1 :=
    fun hkl => List.Sublist.countP_le (List.take_sublist_take_left hkl)
  have hfirst' := hnext hfirst
  rw [hnodes hnode] at hfirst'
  have hbefore : callsBefore calls (i + 1) later.1 ≤ callsBefore calls j later.1 := hmono hij
  have hwithin : callsBefore calls (j + 1) later.1 ≤ 2 ^ 64 := (hmono hj).trans (hcalls later.1)
  have hlast := hnext hlater
  have heq := hnumber.eq_of_lt_of_lt (by omega) (by omega)
  omega

/-- Ids are distinct exactly if no two calls agree in the node, the millisecond and the number. -/
theorem requestIds_nodup_iff (nodeId : γ → UInt16) (calls : List (γ × Int)) :
    (requestIds (fun g => .withNodeId (nodeId g)) calls).Nodup ↔
      ∀ i j, i < j → ¬ Clashes nodeId calls i j := by
  rw [List.nodup_iff_getElem?_ne_getElem?, length_requestIds]
  constructor
  · intro h i j hij hclash
    obtain ⟨hi, hj⟩ := hclash.lt_length
    exact h i j hij hj ((getElem?_requestIds_eq_iff hi hj).mpr hclash)
  · intro h i j hij hj heq
    exact h i j hij ((getElem?_requestIds_eq_iff (hij.trans hj) hj).mp heq)

end Calls

/-- Two generators made without a node id are of the same node. -/
example : ¬ (requestIds (fun _ : Bool => .new) [(false, 5), (true, 5)]).Nodup := by decide +kernel

end Dcp.Observability
