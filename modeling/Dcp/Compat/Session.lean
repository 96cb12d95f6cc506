import Dcp.Compat.Replies

/-!
Sessions with the complete adapter: the state that its requests share together with the audit
log, and requests that are handled one after the other.
-/

namespace Dcp
open Library

namespace SecurityAuditLog

/-- The receipts that the log has been given: those it retains and those it dropped. -/
def recorded (log : SecurityAuditLog) : Nat := log.events.length + log.droppedCount.toNat

/-- The log after the receipts among the events. -/
def recordAll (log : SecurityAuditLog) (events : List AdapterEvent) : SecurityAuditLog :=
  events.foldl (fun log event => match event with
    | .audit receipt => log.record receipt
    | _ => log) log

theorem toNat_bumpDropped (dropped : UInt64) :
    (bumpDropped dropped).toNat = min (dropped.toNat + 1) (2 ^ 64 - 1) := by
  have hlt := dropped.toNat_lt
  unfold bumpDropped
  split
  · next h =>
      have hzero := congrArg UInt64.toNat h
      simp only [UInt64.toNat_add, UInt64.toNat_one, UInt64.toNat_zero] at hzero
      omega
  · next h =>
      have hne : (dropped + 1).toNat ≠ 0 := fun hzero => h (UInt64.toNat_inj.mp hzero)
      simp only [UInt64.toNat_add, UInt64.toNat_one] at hne ⊢
      omega

/-- Until its counter of dropped receipts saturates, the log counts every receipt. -/
theorem recorded_record {log : SecurityAuditLog} (h : log.droppedCount.toNat < 2 ^ 64 - 1)
    (receipt : SecurityAuditEvent) : (log.record receipt).recorded = log.recorded + 1 := by
  have hbump := toNat_bumpDropped log.droppedCount
  unfold record recorded
  dsimp only
  split
  · simp only
    omega
  · split
    · next hmax hfull =>
        have hpos : 0 < log.events.length := by omega
        simp only [List.length_append, List.length_tail, List.length_singleton]
        omega
    · simp only [List.length_append, List.length_singleton]
      omega

theorem droppedCount_record_le (log : SecurityAuditLog) (receipt : SecurityAuditEvent) :
    (log.record receipt).droppedCount.toNat ≤ log.droppedCount.toNat + 1 := by
  have hbump := toNat_bumpDropped log.droppedCount
  unfold record
  dsimp only
  split
  · simp only
    omega
  · split
    · simp only
      omega
    · simp

/-- The receipts of a run are all counted when the counter has room for them. -/
theorem recorded_recordAll {log : SecurityAuditLog} {events : List AdapterEvent}
    (h : log.droppedCount.toNat + receipts events < 2 ^ 64) :
    (log.recordAll events).recorded = log.recorded + receipts events := by
  induction events generalizing log with
  | nil => rfl
  | cons event rest ih =>
      cases event with
      | audit receipt =>
          have hcount : receipts (.audit receipt :: rest) = receipts rest + 1 :=
            List.countP_cons_of_pos rfl
          have hdropped := log.droppedCount_record_le receipt
          have hone : (log.record receipt).recorded = log.recorded + 1 :=
            recorded_record (by omega) receipt
          have hrest : ((log.record receipt).recordAll rest).recorded =
              (log.record receipt).recorded + receipts rest := ih (by omega)
          rw [hcount]
          exact hrest.trans (by omega)
      | initializePassed | negotiated _ | initializedAccepted | toolRun _ => exact ih h

end SecurityAuditLog

/-- A call of handle_request: the text, the router it is given, and the order in which the maps
of this call are iterated. -/
structure RequestCall where
  json : String
  router : BinaryTrieRouter
  order : MapOrder

structure AdapterSession where
  state : AdapterState
  securityAudit : SecurityAuditLog

namespace AdapterSession

/-- A session of a fresh adapter. -/
def start (resources : ResourceRegistry) (roots : List Root)
    (resourceTemplates : List ResourceTemplate) : AdapterSession :=
  ⟨.new resources roots resourceTemplates, .new⟩

def handle (codec : JsonCodec) (adapter : CompleteMcpAdapter) (session : AdapterSession)
    (call : RequestCall) : Except CompleteAdapterError (Option String) × AdapterSession :=
  let (result, state, events) :=
    (adapter.handleRequest codec call.order call.router call.json).run session.state
  (result, ⟨state, session.securityAudit.recordAll events⟩)

/-- The session after a call. -/
def serve (codec : JsonCodec) (adapter : CompleteMcpAdapter) (session : AdapterSession)
    (call : RequestCall) : AdapterSession :=
  (session.handle codec adapter call).2

def echo : ToolHandler where
  schema := ⟨"echo", 1, "", ⟨0, []⟩⟩
  execute := fun _ _ => .ok .empty

def echoRouter : BinaryTrieRouter :=
  match BinaryTrieRouter.new.register echo with
  | .ok (_, router) => router
  | .error _ => .new

def echoAdapter : CompleteMcpAdapter :=
  match CompleteMcpAdapter.new.registerTool "echo" 1 with
  | .ok (_, adapter) => adapter
  | .error _ => .new

def echoRequest (json : String) : RequestCall := ⟨json, echoRouter, ⟨id, MapOrder.perm_id⟩⟩

/-- A call of the tool whose id is given as JSON text. -/
def echoCall (requestId : String) : RequestCall :=
  echoRequest ("\x7b\"jsonrpc\":\"2.0\",\"id\":" ++ requestId ++
    ",\"method\":\"tools/call\",\"params\":\x7b\"name\":\"echo\"\x7d\x7d")

/-- An initialize that lists the tool. -/
def initializeEcho (requestId : String) : RequestCall :=
  echoRequest ("\x7b\"jsonrpc\":\"2.0\",\"id\":" ++ requestId ++
    ",\"method\":\"initialize\",\"params\":\x7b\"dcpCapabilities\":\x7b\"tools\":[1]\x7d\x7d\x7d")

def initializedEcho : RequestCall :=
  echoRequest "\x7b\"jsonrpc\":\"2.0\",\"method\":\"notifications/initialized\"\x7d"

/-- The handshake that negotiates the tool, and a call of the tool with the number 1 as its id. -/
def numberedCalls : List RequestCall := [initializeEcho "0", initializedEcho, echoCall "1"]

end AdapterSession
end Dcp
