import Dcp.Library.Recent
import Dcp.Security.Audit

/-!
Which receipts an audit log keeps. With the times of the receipts added, the log holds the sanitized
copies of the newest ones since it was cleared last and counts the others, and no text in it is
longer than the bound.
-/

namespace Dcp
open Library

/-- A receipt and the time at which it was made. -/
structure TimedEvent extends SecurityAuditEvent where
  timestamp : UInt64
  deriving DecidableEq

def TimedEvent.sanitizedCopy (event : TimedEvent) : TimedEvent :=
  { event.toSecurityAuditEvent.sanitizedCopy with timestamp := event.timestamp }

/-- What stands behind the lock of a log. -/
structure SecurityAuditState where
  events : List TimedEvent
  droppedCount : UInt64

inductive AuditCall
  | record (event : TimedEvent)
  | clear

namespace SecurityAuditState

def new : SecurityAuditState := ⟨[], 0⟩

def record (maxEvents : Nat) (state : SecurityAuditState) (event : TimedEvent) :
    SecurityAuditState :=
  let event := event.sanitizedCopy
  if maxEvents = 0 then
    { state with droppedCount := SecurityAuditLog.bumpDropped state.droppedCount }
  else if state.events.length ≥ maxEvents then
    ⟨state.events.tail ++ [event], SecurityAuditLog.bumpDropped state.droppedCount⟩
  else { state with events := state.events ++ [event] }

def step (maxEvents : Nat) (state : SecurityAuditState) : AuditCall → SecurityAuditState
  | .record event => state.record maxEvents event
  | .clear => ⟨[], 0⟩

def run (maxEvents : Nat) (calls : List AuditCall) : SecurityAuditState :=
  calls.foldl (step maxEvents) new

end SecurityAuditState

/-- The receipts recorded since the last time the log was cleared. -/
def recordedSince (recorded : List TimedEvent) : AuditCall → List TimedEvent
  | .record event => recorded ++ [event]
  | .clear => []

def AuditCall.isRecord : AuditCall → Bool
  | record _ => true
  | clear => false

section Texts

theorem utf8ByteSize_takeUtf8_le (budget : Nat) (text : List Char) :
    (String.ofList (takeUtf8 budget text)).utf8ByteSize ≤ budget := by
  induction text generalizing budget with
  | nil => exact Nat.zero_le _
  | cons c text ih =>
      rw [takeUtf8]
      split
      · exact Nat.zero_le _
      · next hfits =>
          have hrest := ih (budget - c.utf8Size)
          rw [String.ofList_cons, String.utf8ByteSize_append, String.utf8ByteSize_singleton]
          omega

theorem utf8ByteSize_truncateAuditText_le (value : String) :
    (truncateAuditText value).utf8ByteSize ≤ maxSecurityAuditTextLen := by
  rw [truncateAuditText]
  split
  · assumption
  · exact utf8ByteSize_takeUtf8_le _ _

/-- What a receipt may hold as a text. -/
def FitsAudit (text : String) : Prop :=
  text.toByteArray.IsValidUTF8 ∧ text.utf8ByteSize ≤ maxSecurityAuditTextLen

theorem fitsAudit_truncateAuditText (value : String) : FitsAudit (truncateAuditText value) :=
  ⟨(truncateAuditText value).isValidUTF8, utf8ByteSize_truncateAuditText_le value⟩

/-- Every text of the receipt fits. -/
structure SecurityAuditEvent.Fits (event : SecurityAuditEvent) : Prop where
  reason : FitsAudit event.reason
  method : ∀ method ∈ event.method, FitsAudit method
  requestId : ∀ requestId ∈ event.requestId, FitsAudit requestId
  fields : ∀ key value, event.fields.lookup key = some value → FitsAudit key ∧ FitsAudit value

theorem fits_sanitizeAuditText (value : String) : FitsAudit (sanitizeAuditText value) :=
  fitsAudit_truncateAuditText (sanitizeText value)

/-- The fields that are inserted one by one into those before them. -/
theorem fits_insertFields {fields : Table String String}
    (h : ∀ key value, fields.lookup key = some value → FitsAudit key ∧ FitsAudit value)
    (entries : List (Sigma fun _ : String => String)) {key value : String}
    (hlookup : (entries.foldl (fun fields e => AList.insert (sanitizeAuditFieldKey e.1)
      (sanitizeAuditFieldValue e.1 e.2) fields) fields).lookup key = some value) :
    FitsAudit key ∧ FitsAudit value := by
  induction entries generalizing fields with
  | nil => exact h key value hlookup
  | cons e rest ih =>
      refine ih (fun k v hkv => ?_) hlookup
      rw [Table.lookup_insert_eq] at hkv
      split at hkv
      · next hkey =>
          rw [hkey, ← Option.some.inj hkv]
          exact ⟨fitsAudit_truncateAuditText (sanitizeFieldKey e.1),
            fitsAudit_truncateAuditText (sanitizeFieldValue e.1 e.2)⟩
      · exact h k v hkv

theorem SecurityAuditEvent.fits_sanitizedCopy (event : SecurityAuditEvent) :
    event.sanitizedCopy.Fits := by
  have hsome : ∀ (text : Option String), ∀ t ∈ text.map sanitizeAuditText, FitsAudit t := by
    intro text t ht
    obtain ⟨s, -, rfl⟩ := Option.mem_map.mp ht
    exact fits_sanitizeAuditText s
  have hempty : ∀ key value, (∅ : Table String String).lookup key = some value →
      FitsAudit key ∧ FitsAudit value := by
    intro key value h
    rw [AList.lookup_empty] at h
    cases h
  -- the copy is taken apart by its equation: its texts are not to be evaluated
  have hreason : event.sanitizedCopy.reason = sanitizeAuditText event.reason := by
    rw [sanitizedCopy]
  have hmethod : event.sanitizedCopy.method = event.method.map sanitizeAuditText := by
    rw [sanitizedCopy]
  have hid : event.sanitizedCopy.requestId = event.requestId.map sanitizeAuditText := by
    rw [sanitizedCopy]
  refine ⟨?_, ?_, ?_, ?_⟩
  · rw [hreason]
    exact fits_sanitizeAuditText event.reason
  · rw [hmethod]
    exact hsome event.method
  · rw [hid]
    exact hsome event.requestId
  · rw [sanitizedCopy]
    exact fun key value => fits_insertFields hempty event.fields.entries

end Texts

theorem toNat_bumpDropped {dropped : UInt64} (h : dropped.toNat + 1 < 18446744073709551616) :
    (SecurityAuditLog.bumpDropped dropped).toNat = dropped.toNat + 1 := by
  have hsum : (dropped + 1).toNat = dropped.toNat + 1 := by
    rw [UInt64.toNat_add]
    exact Nat.mod_eq_of_lt h
  rw [SecurityAuditLog.bumpDropped, if_neg, hsum]
  intro hzero
  rw [hzero] at hsum
  exact Nat.succ_ne_zero _ hsum.symm

/-- The log holds the newest of the recorded receipts and has counted the others. -/
structure Retains (maxEvents : Nat) (recorded : List TimedEvent) (state : SecurityAuditState) :
    Prop where
  events : state.events = (recorded.rtake maxEvents).map TimedEvent.sanitizedCopy
  count : state.droppedCount.toNat + state.events.length = recorded.length

theorem retains_nil (maxEvents : Nat) : Retains maxEvents [] .new :=
  ⟨by rw [List.rtake_nil]; rfl, rfl⟩

theorem retains_record {maxEvents : Nat} {recorded : List TimedEvent} {state : SecurityAuditState}
    (h : Retains maxEvents recorded state) (event : TimedEvent)
    (hroom : recorded.length + 1 < 18446744073709551616) :
    Retains maxEvents (recorded ++ [event]) (state.record maxEvents event) := by
  have hlen : state.events.length = min maxEvents recorded.length := by
    rw [h.events, List.length_map, Recent.length_rtake]
  have hcount := h.count
  have hbump := @toNat_bumpDropped state.droppedCount (by omega)
  rw [SecurityAuditState.record]
  split
  · next hzero =>
      subst hzero
      refine ⟨?_, ?_⟩
      · rw [List.rtake_zero]
        exact h.events.trans (by rw [List.rtake_zero])
      · dsimp only
        rw [hbump, List.length_append, List.length_singleton]
        omega
  · next hpos =>
      obtain ⟨n, rfl⟩ := Nat.exists_eq_succ_of_ne_zero hpos
      split
      · next hfull =>
          have hmany : n + 1 ≤ recorded.length := by omega
          refine ⟨?_, ?_⟩
          · rw [List.rtake_concat_succ, List.map_append, ← Recent.tail_rtake hmany, List.map_tail,
              ← h.events]
            rfl
          · dsimp only
            rw [hbump, List.length_append, List.length_append, List.length_tail,
              List.length_singleton, List.length_singleton]
            omega
      · next hfree =>
          have hall : recorded.length ≤ n := by omega
          have hevents := h.events
          rw [Recent.rtake_of_length_le (by omega)] at hevents
          refine ⟨?_, ?_⟩
          · rw [Recent.rtake_of_length_le (by simpa using hall), List.map_append, ← hevents]
            rfl
          · dsimp only
            rw [List.length_append, List.length_append, List.length_singleton,
              List.length_singleton]
            omega

/-- Along a run with fewer records than the counter can count. -/
theorem retains_foldl {maxEvents : Nat} {recorded : List TimedEvent} {state : SecurityAuditState}
    (h : Retains maxEvents recorded state) (calls : List AuditCall)
    (hroom : recorded.length + calls.countP AuditCall.isRecord < 18446744073709551616) :
    Retains maxEvents (calls.foldl recordedSince recorded)
      (calls.foldl (SecurityAuditState.step maxEvents) state) := by
  induction calls generalizing recorded state with
  | nil => exact h
  | cons call rest ih =>
      rw [List.countP_cons] at hroom
      cases call with
      | record event =>
          rw [AuditCall.isRecord, if_pos rfl] at hroom
          apply ih (retains_record h event (by omega))
          rw [List.length_append, List.length_singleton]
          omega
      | clear =>
          exact ih (retains_nil maxEvents) (by rw [recordedSince, List.length_nil]; omega)

/-- The log keeps exactly the newest receipts. -/
theorem SecurityAuditState.keeps_newest (capacity : Nat) (calls : List AuditCall)
    (hroom : calls.countP AuditCall.isRecord < 18446744073709551616) :
    let state := run capacity calls
    let recorded := calls.foldl recordedSince []
    state.events = (recorded.rtake capacity).map TimedEvent.sanitizedCopy ∧
      state.droppedCount.toNat + state.events.length = recorded.length ∧
      ∀ event ∈ state.events, event.Fits := by
  intro state recorded
  have hretains : Retains capacity recorded state :=
    retains_foldl (retains_nil capacity) calls (by rwa [List.length_nil, Nat.zero_add])
  refine ⟨hretains.events, hretains.count, fun event hevent => ?_⟩
  rw [hretains.events] at hevent
  obtain ⟨original, -, rfl⟩ := List.mem_map.mp hevent
  exact original.toSecurityAuditEvent.fits_sanitizedCopy

def lateReceipt (timestamp : UInt64) : TimedEvent :=
  ⟨⟨.requestRejected, "late", none, none, ∅⟩, timestamp⟩

/-- A log of one receipt that is given three, the first of them before it is cleared. -/
theorem SecurityAuditState.keeps_newest_last :
    (run 1 [.record (lateReceipt 1), .clear, .record (lateReceipt 2),
      .record (lateReceipt 3)]).events = [(lateReceipt 3).sanitizedCopy] :=
  (keeps_newest 1 [.record (lateReceipt 1), .clear, .record (lateReceipt 2),
    .record (lateReceipt 3)] (by decide)).1

end Dcp
