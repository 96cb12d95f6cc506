import Dcp.Dispatch.Router
import Dcp.Dispatch.Validation
import Dcp.Security.Replay
import Dcp.Security.Signing

/-!
The execution paths of the router. Each returns its result together with the record of
handler runs, so that "no handler runs" is the statement that the record is unchanged.
-/

namespace Dcp
open Library

namespace BinaryTrieRouter

/-- Raw tool execution is deny-by-default. -/
def execute (_router : BinaryTrieRouter) (_toolId : UInt16) (_args : SharedArgs)
    (calls : List Call) : Except DCPError ToolResult × List Call :=
  (.error .capabilityDenied, calls)

def validateAuthorizedTool (router : BinaryTrieRouter) (capabilities : CapabilityManifest)
    (toolId : UInt16) (args : SharedArgs) : Except SecurityError ToolHandler := do
  capabilities.requireTool toolId
  match router.dispatch toolId with
  | none => .error .insufficientCapabilities
  | some handler => do
      (SchemaValidator.validateSharedArgs handler.schema.input args).mapError
        fun _ => .validationFailed
      .ok handler

/-- Execute a tool only if it is present in the negotiated capability set. -/
def executeAuthorized (router : BinaryTrieRouter) (capabilities : CapabilityManifest)
    (toolId : UInt16) (args : SharedArgs) (calls : List Call) :
    Except SecurityError ToolResult × List Call :=
  match router.validateAuthorizedTool capabilities toolId args with
  | .error e => (.error e, calls)
  | .ok handler =>
      let (result, calls) := handler.invoke args calls
      (result.mapError fun _ => .insufficientCapabilities, calls)

/-- The checks of the signed path that come before the nonce store is consulted. -/
def checkSigned (crypto : Crypto) (invocation : SignedInvocation) (publicKey : PublicKey)
    (args : SharedArgs) : Except SecurityError UInt16 := do
  Verifier.verifyInvocation crypto invocation publicKey
  if ¬ Verifier.verifyArgsHash crypto invocation args.data then .error .argsHashMismatch
  else if invocation.toolId.toNat < 65536 then .ok invocation.toolId.toUInt16
  else .error .insufficientCapabilities

/-- Execute a signed invocation only after signature, args hash, negotiated capability,
schema and replay checks all pass. -/
def executeSignedAuthorized (crypto : Crypto) (router : BinaryTrieRouter)
    (capabilities : CapabilityManifest) (invocation : SignedInvocation) (publicKey : PublicKey)
    (args : SharedArgs) (now now' : UInt64) (store : NonceStore) (calls : List Call) :
    Except SecurityError ToolResult × NonceStore × List Call :=
  match checkSigned crypto invocation publicKey args with
  | .error e => (.error e, store, calls)
  | .ok toolId =>
      match store.checkNonce now now' invocation.nonce invocation.timestamp with
      | (.error e, store) => (.error e, store, calls)
      | (.ok _, store) =>
          let (result, calls) := router.executeAuthorized capabilities toolId args calls
          (result, store, calls)

theorem validateAuthorizedTool_ok_iff (router : BinaryTrieRouter)
    (capabilities : CapabilityManifest) (toolId : UInt16) (args : SharedArgs)
    (handler : ToolHandler) :
    router.validateAuthorizedTool capabilities toolId args = .ok handler ↔
      capabilities.hasTool toolId ∧ router.dispatch toolId = some handler ∧
        SchemaValidator.validateSharedArgs handler.schema.input args = .ok () := by
  unfold validateAuthorizedTool CapabilityManifest.requireTool
  cases capabilities.hasTool toolId with
  | false => simp
  | true =>
      cases router.dispatch toolId with
      | none => simp
      | some found =>
          simp only [ite_true, bind_eq_ok_iff, mapError_eq_ok_iff, Unique.exists_iff,
            Except.ok.injEq, Option.some.injEq, true_and]
          constructor
          · rintro ⟨hv, rfl⟩
            exact ⟨rfl, hv⟩
          · rintro ⟨rfl, hv⟩
            exact ⟨hv, rfl⟩

/-- An authorized execution either runs no handler, or runs the one dispatched for a
granted id on arguments its schema accepts. -/
theorem executeAuthorized_cases (router : BinaryTrieRouter) (capabilities : CapabilityManifest)
    (toolId : UInt16) (args : SharedArgs) (calls : List Call) :
    (∃ e, router.validateAuthorizedTool capabilities toolId args = .error e ∧
      router.executeAuthorized capabilities toolId args calls = (.error e, calls)) ∨
    (∃ handler, router.validateAuthorizedTool capabilities toolId args = .ok handler ∧
      router.executeAuthorized capabilities toolId args calls =
        ((handler.execute calls args).mapError fun _ => .insufficientCapabilities,
          calls ++ [⟨handler.toolId, args⟩])) := by
  unfold executeAuthorized
  cases router.validateAuthorizedTool capabilities toolId args with
  | error e => exact .inl ⟨e, rfl, rfl⟩
  | ok handler => exact .inr ⟨handler, rfl, rfl⟩

theorem checkSigned_ok_iff (crypto : Crypto) (invocation : SignedInvocation)
    (publicKey : PublicKey) (args : SharedArgs) (toolId : UInt16) :
    checkSigned crypto invocation publicKey args = .ok toolId ↔
      Verifier.verifyInvocation crypto invocation publicKey = .ok () ∧
        crypto.blake3 args.data = invocation.argsHash ∧
        invocation.toolId.toNat < 65536 ∧ invocation.toolId.toUInt16 = toolId := by
  simp only [checkSigned, bind_eq_ok_iff, Unique.exists_iff, guard_error_eq_ok_iff,
    Verifier.verifyArgsHash, decide_eq_true_eq, not_not]
  refine and_congr_right fun _ => and_congr_right fun _ => ?_
  split <;> simp_all

theorem executeSignedAuthorized_cases (crypto : Crypto) (router : BinaryTrieRouter)
    (capabilities : CapabilityManifest) (invocation : SignedInvocation) (publicKey : PublicKey)
    (args : SharedArgs) (now now' : UInt64) (store : NonceStore) (calls : List Call) :
    (∃ e, checkSigned crypto invocation publicKey args = .error e ∧
      executeSignedAuthorized crypto router capabilities invocation publicKey args now now'
        store calls = (.error e, store, calls)) ∨
    (∃ toolId e store', checkSigned crypto invocation publicKey args = .ok toolId ∧
      store.checkNonce now now' invocation.nonce invocation.timestamp = (.error e, store') ∧
      executeSignedAuthorized crypto router capabilities invocation publicKey args now now'
        store calls = (.error e, store', calls)) ∨
    (∃ toolId store', checkSigned crypto invocation publicKey args = .ok toolId ∧
      store.checkNonce now now' invocation.nonce invocation.timestamp = (.ok (), store') ∧
      executeSignedAuthorized crypto router capabilities invocation publicKey args now now'
        store calls =
          ((router.executeAuthorized capabilities toolId args calls).1, store',
            (router.executeAuthorized capabilities toolId args calls).2)) := by
  unfold executeSignedAuthorized
  cases checkSigned crypto invocation publicKey args with
  | error e => exact .inl ⟨e, rfl, rfl⟩
  | ok toolId =>
      rcases hcheck : store.checkNonce now now' invocation.nonce invocation.timestamp with
        ⟨result, store'⟩
      cases result with
      | error e => exact .inr (.inl ⟨toolId, e, store', rfl, rfl, rfl⟩)
      | ok u => exact .inr (.inr ⟨toolId, store', rfl, rfl, rfl⟩)

end BinaryTrieRouter

theorem executeAuthorized_denied {ra rb : BinaryTrieRouter} {capabilities : CapabilityManifest}
    {ida idb : UInt16} (ha : capabilities.hasTool ida = false)
    (hb : capabilities.hasTool idb = false) (args : SharedArgs) (calls : List Call) :
    ra.executeAuthorized capabilities ida args calls =
      rb.executeAuthorized capabilities idb args calls := by
  simp [BinaryTrieRouter.executeAuthorized, BinaryTrieRouter.validateAuthorizedTool,
    CapabilityManifest.requireTool, ha, hb, bind, Except.bind]

theorem executeAuthorized_congr {ra rb : BinaryTrieRouter} {capabilities : CapabilityManifest}
    {toolId : UInt16} (h : capabilities.hasTool toolId → ra.dispatch toolId = rb.dispatch toolId)
    (args : SharedArgs) (calls : List Call) :
    ra.executeAuthorized capabilities toolId args calls =
      rb.executeAuthorized capabilities toolId args calls := by
  have hvalid : ra.validateAuthorizedTool capabilities toolId args =
      rb.validateAuthorizedTool capabilities toolId args := by
    unfold BinaryTrieRouter.validateAuthorizedTool CapabilityManifest.requireTool
    cases hgranted : capabilities.hasTool toolId with
    | false => simp [bind, Except.bind]
    | true => rw [h hgranted]
  simp only [BinaryTrieRouter.executeAuthorized, hvalid]

end Dcp
