import Dcp.Library.Accounting
import Dcp.Library.Run
import Dcp.Library.Table

/-!
Objects that are made when their key is first asked for, found under a lock and updated without it.
A party looks a key up, makes the object if nobody has yet, and then applies its updates one by one;
parties go on in any order. Each update is applied once, to the one object of its key, so that when
all parties are done the objects are those of the updates in any order, if updates commute.
-/

namespace Library
variable {κ υ α : Type*}

/-- Updates of one key, of which there is at least one. -/
structure CellJob (κ υ : Type*) where
  key : κ
  first : υ
  more : List υ

namespace CellJob

def updates (job : CellJob κ υ) : List υ := job.first :: job.more

def entries (job : CellJob κ υ) : List (κ × υ) := job.updates.map (Prod.mk job.key)

end CellJob

/-- The objects that were made, by reference, and the reference of each key. -/
structure Cells (κ α : Type*) where
  refs : Table κ Nat
  objects : List α

/-- Where a party is, with the jobs that come after. -/
inductive CellPoint (κ υ : Type*)
  | find (job : CellJob κ υ) (rest : List (CellJob κ υ))
  | create (job : CellJob κ υ) (rest : List (CellJob κ υ))
  | update (key : κ) (ref : Nat) (updates : List υ) (rest : List (CellJob κ υ))
  | done

namespace CellPoint

def next : List (CellJob κ υ) → CellPoint κ υ
  | [] => .done
  | job :: rest => .find job rest

/-- What a party still has to apply. -/
def pending : CellPoint κ υ → List (κ × υ)
  | find job rest | create job rest => job.entries ++ rest.flatMap CellJob.entries
  | update key _ updates rest => updates.map (Prod.mk key) ++ rest.flatMap CellJob.entries
  | done => []

/-- What the next step of a party applies. -/
def applies : CellPoint κ υ → List (κ × υ)
  | update key _ (first :: _) _ => [(key, first)]
  | _ => []

theorem pending_next (jobs : List (CellJob κ υ)) :
    (next jobs).pending = jobs.flatMap CellJob.entries := by
  cases jobs <;> rfl

end CellPoint

namespace Cells
variable [DecidableEq κ] (fresh : κ → α) (apply : υ → α → α)

def empty : Cells κ α := ⟨∅, []⟩

def value (cells : Cells κ α) (key : κ) : Option α :=
  (cells.refs.lookup key).bind fun ref => cells.objects[ref]?

def create (cells : Cells κ α) (key : κ) : Cells κ α :=
  ⟨cells.refs.insert key cells.objects.length, cells.objects ++ [fresh key]⟩

/-- One step of a party. -/
def step (cells : Cells κ α) (point : CellPoint κ υ) : Cells κ α × CellPoint κ υ :=
  match point with
  | .find job rest =>
      (cells, match cells.refs.lookup job.key with
        | some ref => .update job.key ref job.updates rest
        | none => .create job rest)
  | .create job rest =>
      match cells.refs.lookup job.key with
      | some ref => (cells, .update job.key ref job.updates rest)
      | none =>
          (cells.create fresh job.key, .update job.key cells.objects.length job.updates rest)
  | .update key ref (first :: updates) rest =>
      ({ cells with objects := cells.objects.modify ref (apply first) },
        .update key ref updates rest)
  | .update _ _ [] rest => (cells, .next rest)
  | .done => (cells, .done)

/-- The object of a key after these updates. -/
def folded (entries : List (κ × υ)) (key : κ) : α :=
  ((entries.filter fun entry => entry.1 = key).map Prod.snd).foldl (fun a u => apply u a)
    (fresh key)

theorem folded_concat (entries : List (κ × υ)) (entry : κ × υ) (key : κ) :
    folded fresh apply (entries ++ [entry]) key =
      if entry.1 = key then apply entry.2 (folded fresh apply entries key)
      else folded fresh apply entries key := by
  rw [folded, folded, List.filter_append, List.map_append, List.foldl_append]
  by_cases heq : entry.1 = key <;> simp [heq]

theorem folded_of_notMem {entries : List (κ × υ)} {key : κ} (h : key ∉ entries.map Prod.fst) :
    folded fresh apply entries key = fresh key := by
  have hnone : entries.filter (fun entry => entry.1 = key) = [] := by
    rw [List.filter_eq_nil_iff]
    intro entry hentry heq
    exact h (of_decide_eq_true heq ▸ List.mem_map_of_mem hentry)
  rw [folded, hnone]
  rfl

/-- What a key shows after these updates: an object, if one of them is for the key. -/
def shown (entries : List (κ × υ)) (key : κ) : Option α :=
  if key ∈ entries.map Prod.fst then some (folded fresh apply entries key) else none

theorem getD_shown (entries : List (κ × υ)) (key : κ) :
    (shown fresh apply entries key).getD (fresh key) = folded fresh apply entries key := by
  rw [shown]
  split
  · rfl
  · next hmem => exact (folded_of_notMem fresh apply hmem).symm

theorem shown_concat (entries : List (κ × υ)) (entry : κ × υ) (key : κ) :
    shown fresh apply (entries ++ [entry]) key =
      if entry.1 = key then some (apply entry.2 ((shown fresh apply entries key).getD (fresh key)))
      else shown fresh apply entries key := by
  have hmem : key ∈ (entries ++ [entry]).map Prod.fst ↔
      key ∈ entries.map Prod.fst ∨ key = entry.1 := by
    rw [List.map_append, List.mem_append, List.map_singleton, List.mem_singleton]
  rw [getD_shown, shown, shown, folded_concat]
  by_cases heq : entry.1 = key
  · rw [if_pos heq, if_pos heq, if_pos (hmem.mpr (.inr heq.symm))]
  · rw [if_neg heq, if_neg heq]
    exact if_congr (hmem.trans (or_iff_left (Ne.symm heq))) rfl rfl

/-- The updates of a job come one after the other, all for its key. -/
theorem shown_job (entries : List (κ × υ)) (job : CellJob κ υ) (key : κ) :
    shown fresh apply (entries ++ job.entries) key =
      if job.key = key then some (job.updates.foldl (fun a u => apply u a)
        ((shown fresh apply entries key).getD (fresh key)))
      else shown fresh apply entries key := by
  obtain ⟨jobKey, first, more⟩ := job
  induction more generalizing entries first with
  | nil => exact shown_concat fresh apply entries (jobKey, first) key
  | cons second more ih =>
      have hnext := ih (entries ++ [(jobKey, first)]) second
      simp only [CellJob.entries, CellJob.updates, List.map_cons, List.append_assoc,
        List.singleton_append, shown_concat] at hnext
      simp only [CellJob.entries, CellJob.updates, List.map_cons, hnext]
      by_cases heq : jobKey = key
      · simp [heq]
      · simp [heq]

theorem folded_perm {apply : υ → α → α} (hcomm : ∀ u v a, apply u (apply v a) = apply v (apply u a))
    {entries entries' : List (κ × υ)} (h : entries.Perm entries') (key : κ) :
    folded fresh apply entries key = folded fresh apply entries' key :=
  ((h.filter _).map _).foldl_eq' (fun u _ v _ a => hcomm v u a) _

end Cells

/-- The objects, the parties that work on them, what they were asked to apply, and what was applied,
in order. -/
structure CellRun (κ υ α : Type*) where
  cells : Cells κ α
  calls : List (CellPoint κ υ)
  requested : List (κ × υ)
  applied : List (κ × υ)

inductive CellStep (κ υ : Type*)
  | call (jobs : List (CellJob κ υ))
  | advance (index : Nat)

/-- What a step asks for. -/
def CellStep.requests : CellStep κ υ → List (κ × υ)
  | call jobs => jobs.flatMap CellJob.entries
  | advance _ => []

namespace CellRun
variable [DecidableEq κ] (fresh : κ → α) (apply : υ → α → α)

def start : CellRun κ υ α := ⟨.empty, [], [], []⟩

def advance (s : CellRun κ υ α) (index : Nat) (point : CellPoint κ υ) : CellRun κ υ α :=
  ⟨(s.cells.step fresh apply point).1, s.calls.set index (s.cells.step fresh apply point).2,
    s.requested, s.applied ++ point.applies⟩

def step (s : CellRun κ υ α) : CellStep κ υ → CellRun κ υ α
  | .call jobs =>
      { s with
        calls := s.calls ++ [.next jobs]
        requested := s.requested ++ jobs.flatMap CellJob.entries }
  | .advance index =>
      match s.calls[index]? with
      | none => s
      | some point => s.advance fresh apply index point

def run (steps : List (CellStep κ υ)) : CellRun κ υ α := steps.foldl (step fresh apply) start

variable {fresh apply} {s : CellRun κ υ α} {point : CellPoint κ υ} {index : Nat}

/-- Each key has an object of its own, which shows what was applied to the key; who updates has
found the object of the key; and what was asked for is applied or pending. -/
structure Sound (fresh : κ → α) (apply : υ → α → α) (s : CellRun κ υ α) : Prop where
  shown : ∀ key ref, s.cells.refs.lookup key = some ref →
    s.cells.objects[ref]? = some (Cells.folded fresh apply s.applied key)
  own : ∀ key key' ref, s.cells.refs.lookup key = some ref → s.cells.refs.lookup key' = some ref →
    key = key'
  found : ∀ key ref updates rest, .update key ref updates rest ∈ s.calls →
    s.cells.refs.lookup key = some ref
  made : ∀ key, (s.cells.refs.lookup key).isSome →
    key ∈ s.requested.map Prod.fst
  applied : ∀ entry ∈ s.applied, (s.cells.refs.lookup entry.1).isSome
  balance : (s.applied : Multiset (κ × υ)) +
    (s.calls.map fun point => (point.pending : Multiset (κ × υ))).sum = s.requested

theorem sound_start : Sound fresh apply (start : CellRun κ υ α) := by
  refine ⟨?_, ?_, ?_, ?_, ?_, rfl⟩
  · intro key ref hlookup
    cases hlookup
  · intro key key' ref hlookup
    cases hlookup
  · intro key ref updates rest hmem
    cases hmem
  · intro key hsome
    cases hsome
  · intro entry hentry
    cases hentry

/-- What a party has to do was asked for. -/
theorem Sound.mem_requested (h : Sound fresh apply s) (hpoint : point ∈ s.calls) {entry : κ × υ}
    (hentry : entry ∈ point.pending) : entry ∈ s.requested := by
  have hle : (point.pending : Multiset (κ × υ)) ≤
      (s.calls.map fun point => (point.pending : Multiset (κ × υ))).sum :=
    List.le_sum_of_mem (List.mem_map_of_mem hpoint)
  rw [← Multiset.mem_coe, ← h.balance]
  exact Multiset.mem_add.mpr (.inr (Multiset.mem_of_le hle hentry))

variable (fresh apply) in
theorem pending_step (cells : Cells κ α) (point : CellPoint κ υ) :
    point.applies ++ (cells.step fresh apply point).2.pending = point.pending := by
  fun_cases Cells.step fresh apply cells point with
  | case1 job rest => cases cells.refs.lookup job.key <;> rfl
  | case5 => exact CellPoint.pending_next _
  | case2 | case3 | case4 | case6 => rfl

section Advance
variable (h : Sound fresh apply s) (hpoint : s.calls[index]? = some point)
include h hpoint

theorem Sound.balance_advance :
    ((s.advance fresh apply index point).applied : Multiset (κ × υ)) +
        ((s.advance fresh apply index point).calls.map fun point =>
          (point.pending : Multiset (κ × υ))).sum =
      (s.advance fresh apply index point).requested := by
  have hsum := sum_map_set (fun point : CellPoint κ υ => (point.pending : Multiset (κ × υ)))
    (s.cells.step fresh apply point).2 hpoint
  have hstep := pending_step fresh apply s.cells point
  change ((s.applied ++ point.applies : List (κ × υ)) : Multiset (κ × υ)) + _ = _
  refine add_right_cancel (b := (point.pending : Multiset (κ × υ))) ?_
  rw [add_assoc, show (s.advance fresh apply index point).calls =
    s.calls.set index (s.cells.step fresh apply point).2 from rfl, hsum, ← hstep,
    ← Multiset.coe_add, ← Multiset.coe_add]
  change _ = (s.requested : Multiset (κ × υ)) + _
  rw [← h.balance]
  ac_rfl

/-- A step that leaves the objects alone. -/
theorem Sound.goOn (happlies : point.applies = [])
    (hcells : (s.cells.step fresh apply point).1 = s.cells)
    (hfound : ∀ key ref updates rest,
      (s.cells.step fresh apply point).2 = .update key ref updates rest →
        s.cells.refs.lookup key = some ref) :
    Sound fresh apply (s.advance fresh apply index point) := by
  have happlied : (s.advance fresh apply index point).applied = s.applied := by
    rw [advance, happlies, List.append_nil]
  have hsame : (s.advance fresh apply index point).cells = s.cells := hcells
  refine ⟨?_, ?_, ?_, ?_, ?_, h.balance_advance hpoint⟩
  · rw [hsame, happlied]
    exact h.shown
  · rw [hsame]
    exact h.own
  · intro key ref updates rest hmem
    rw [hsame]
    obtain hnew | hold := eq_or_mem_of_mem_set hmem
    · exact hfound key ref updates rest hnew.symm
    · exact h.found key ref updates rest hold
  · rw [hsame]
    exact h.made
  · rw [hsame, happlied]
    exact h.applied

/-- Nothing was applied to a key that has no object. -/
theorem Sound.create {job : CellJob κ υ} {rest : List (CellJob κ υ)}
    (heq : point = .create job rest) (hnone : s.cells.refs.lookup job.key = none) :
    Sound fresh apply (s.advance fresh apply index point) := by
  subst heq
  have hstep : s.cells.step fresh apply (.create job rest) = (s.cells.create fresh job.key,
      .update job.key s.cells.objects.length job.updates rest) := by
    simp only [Cells.step, hnone]
  have happlied : (s.advance fresh apply index (.create job rest)).applied = s.applied :=
    List.append_nil _
  have hcells : (s.advance fresh apply index (.create job rest)).cells =
      s.cells.create fresh job.key := by
    rw [CellRun.advance, hstep]
  have hlookup : ∀ key, (s.cells.create fresh job.key).refs.lookup key =
      if key = job.key then some s.cells.objects.length else s.cells.refs.lookup key :=
    fun key => Table.lookup_insert_eq job.key key _ _
  have hlt : ∀ {key ref}, s.cells.refs.lookup key = some ref → ref < s.cells.objects.length :=
    fun hold => (List.getElem?_eq_some_iff.mp (h.shown _ _ hold)).1
  refine ⟨?_, ?_, ?_, ?_, ?_, h.balance_advance hpoint⟩
  · intro key ref hshown
    rw [hcells, hlookup] at hshown
    rw [hcells, happlied, Cells.create]
    split at hshown
    · next heq =>
        obtain rfl := Option.some.inj hshown
        rw [heq, List.getElem?_concat_length, Cells.folded_of_notMem]
        intro hmem
        obtain ⟨entry, hentry, hkey⟩ := List.mem_map.mp hmem
        have hsome := h.applied entry hentry
        rw [hkey, hnone] at hsome
        cases hsome
    · rw [List.getElem?_append_left (hlt hshown)]
      exact h.shown key ref hshown
  · intro key key' ref hshown hshown'
    rw [hcells, hlookup] at hshown hshown'
    split at hshown
    · next heq =>
        obtain rfl := Option.some.inj hshown
        split at hshown'
        · next heq' => exact heq.trans heq'.symm
        · exact absurd (hlt hshown') (Nat.lt_irrefl _)
    · split at hshown'
      · obtain rfl := Option.some.inj hshown'
        exact absurd (hlt hshown) (Nat.lt_irrefl _)
      · exact h.own key key' ref hshown hshown'
  · intro key ref updates rest' hmem
    rw [hcells, hlookup]
    obtain hnew | hold := eq_or_mem_of_mem_set hmem
    · rw [hstep] at hnew
      obtain ⟨rfl, rfl, -⟩ := CellPoint.update.inj hnew
      rw [if_pos rfl]
    · have hbefore := h.found key ref updates rest' hold
      rw [if_neg, hbefore]
      rintro rfl
      rw [hnone] at hbefore
      cases hbefore
  · intro key hsome
    rw [hcells, hlookup] at hsome
    split at hsome
    · next heq =>
        have hfirst : (job.key, job.first) ∈ s.requested :=
          h.mem_requested (List.mem_of_getElem? hpoint) List.mem_cons_self
        exact heq ▸ List.mem_map_of_mem hfirst
    · exact h.made key hsome
  · intro entry hentry
    rw [happlied] at hentry
    rw [hcells, hlookup]
    split
    · rfl
    · exact h.applied entry hentry

theorem Sound.update {key : κ} {ref : Nat} {first : υ} {updates : List υ}
    {rest : List (CellJob κ υ)} (heq : point = .update key ref (first :: updates) rest) :
    Sound fresh apply (s.advance fresh apply index point) := by
  subst heq
  have hfound := h.found key ref _ rest (List.mem_of_getElem? hpoint)
  refine ⟨?_, h.own, ?_, h.made, ?_, h.balance_advance hpoint⟩
  · intro key' ref' hshown
    have hbefore := h.shown key' ref' hshown
    change (s.cells.objects.modify ref (apply first))[ref']? =
      some (Cells.folded fresh apply (s.applied ++ [(key, first)]) key')
    rw [List.getElem?_modify, hbefore, Cells.folded_concat]
    by_cases heq : ref = ref'
    · subst heq
      have hkey : key = key' := h.own key key' ref hfound hshown
      simp [hkey]
    · have hkey : key ≠ key' := by
        rintro rfl
        exact heq (Option.some.inj (hfound.symm.trans hshown))
      simp [heq, hkey]
  · intro key' ref' updates' rest' hmem
    obtain hnew | hold := eq_or_mem_of_mem_set hmem
    · obtain ⟨rfl, rfl, -⟩ := CellPoint.update.inj hnew
      exact hfound
    · exact h.found key' ref' updates' rest' hold
  · intro entry hentry
    obtain hold | hnew := List.mem_append.mp hentry
    · exact h.applied entry hold
    · rw [List.mem_singleton.mp hnew]
      exact Option.isSome_of_eq_some hfound

theorem Sound.advance : Sound fresh apply (s.advance fresh apply index point) := by
  cases point with
  | find job rest =>
      refine h.goOn hpoint rfl rfl fun key ref updates rest' hnext => ?_
      cases hlookup : s.cells.refs.lookup job.key with
      | none => simp [Cells.step, hlookup] at hnext
      | some ref' =>
          simp only [Cells.step, hlookup, CellPoint.update.injEq] at hnext
          obtain ⟨rfl, rfl, -⟩ := hnext
          exact hlookup
  | create job rest =>
      cases hlookup : s.cells.refs.lookup job.key with
      | none => exact h.create hpoint rfl hlookup
      | some ref' =>
          have hstep : s.cells.step fresh apply (.create job rest) =
              (s.cells, .update job.key ref' job.updates rest) := by
            simp only [Cells.step, hlookup]
          refine h.goOn hpoint rfl (by rw [hstep]) fun key ref updates rest' hnext => ?_
          rw [hstep] at hnext
          obtain ⟨rfl, rfl, -⟩ := CellPoint.update.inj hnext
          exact hlookup
  | update key ref updates rest =>
      cases updates with
      | cons first updates => exact h.update hpoint rfl
      | nil =>
          refine h.goOn hpoint rfl rfl fun key ref updates rest' hnext => ?_
          cases rest <;> cases hnext
  | done => exact h.goOn hpoint rfl rfl fun key ref updates rest' hnext => nomatch hnext

end Advance

theorem Sound.call (h : Sound fresh apply s) (jobs : List (CellJob κ υ)) :
    Sound fresh apply (s.step fresh apply (.call jobs)) := by
  refine ⟨h.shown, h.own, ?_, ?_, h.applied, ?_⟩
  · intro key ref updates rest hmem
    obtain hold | hnew := List.mem_append.mp hmem
    · exact h.found key ref updates rest hold
    · cases jobs <;> cases List.mem_singleton.mp hnew
  · intro key hsome
    change key ∈ (s.requested ++ _).map Prod.fst
    rw [List.map_append]
    exact List.mem_append_left _ (h.made key hsome)
  · change (s.applied : Multiset (κ × υ)) + ((s.calls ++ [CellPoint.next jobs]).map fun point =>
      (point.pending : Multiset (κ × υ))).sum = ((s.requested ++ _ : List (κ × υ)) : Multiset _)
    rw [List.map_append, List.sum_append, ← add_assoc, h.balance, ← Multiset.coe_add]
    simp [CellPoint.pending_next]

theorem sound_run (steps : List (CellStep κ υ)) : Sound fresh apply (run fresh apply steps) := by
  refine invariant_foldl (fun s input (hs : Sound fresh apply s) => ?_) sound_start steps
  cases input with
  | call jobs => exact hs.call jobs
  | advance index =>
      cases hpoint : s.calls[index]? with
      | none =>
          simp only [step, hpoint]
          exact hs
      | some point =>
          simp only [step, hpoint]
          exact hs.advance hpoint

variable (fresh apply) in
theorem requested_run (steps : List (CellStep κ υ)) :
    (run fresh apply steps).requested = steps.flatMap CellStep.requests := by
  induction steps using List.reverseRecOn with
  | nil => rfl
  | append_singleton steps input ih =>
      rw [run, List.foldl_append, List.flatMap_append, ← ih, List.flatMap_singleton]
      cases input with
      | call jobs => rfl
      | advance index =>
          change (step fresh apply (run fresh apply steps) (.advance index)).requested = _
          rw [step, CellStep.requests, List.append_nil]
          split <;> rfl

/-- Once nothing is pending, the objects are those of the keys that were asked for, updated in the
order of the requests. -/
theorem Sound.settled (h : Sound fresh apply s)
    (hcomm : ∀ u v a, apply u (apply v a) = apply v (apply u a))
    (hdone : ∀ point ∈ s.calls, point.pending = []) (key : κ) :
    s.cells.value key = Cells.shown fresh apply s.requested key := by
  have hperm : s.applied.Perm s.requested := by
    have hnone : (s.calls.map fun point => (point.pending : Multiset (κ × υ))).sum = 0 := by
      refine List.sum_eq_zero fun pending hpending => ?_
      obtain ⟨point, hpoint, rfl⟩ := List.mem_map.mp hpending
      rw [hdone point hpoint]
      rfl
    have hbalance := h.balance
    rw [hnone, add_zero] at hbalance
    exact Multiset.coe_eq_coe.mp hbalance
  rw [Cells.value, Cells.shown]
  split
  · next hmem =>
      obtain ⟨entry, hentry, rfl⟩ := List.mem_map.mp hmem
      obtain ⟨ref, hlookup⟩ :=
        Option.isSome_iff_exists.mp (h.applied entry (hperm.mem_iff.mpr hentry))
      rw [hlookup, Option.bind_some, h.shown entry.1 ref hlookup,
        Cells.folded_perm fresh hcomm hperm]
  · next hmem =>
      cases hlookup : s.cells.refs.lookup key with
      | none => rfl
      | some ref => exact absurd (h.made key (Option.isSome_of_eq_some hlookup)) hmem

end CellRun
end Library
