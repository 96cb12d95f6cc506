import Dcp.Dispatch.Execution
import Dcp.Security.Audit

/-!
The invocation entry points of the server: the router's paths plus metrics and audit
receipts. Sessions and the shared context take no part in an invocation.
-/

namespace Dcp
open Library

/-- The parts of a server that an invocation reads or writes. The two counters are those
of the metrics that invocations touch. -/
structure DcpServer where
  router : BinaryTrieRouter
  enableMetrics : Bool
  toolInvocations : UInt64
  errors : UInt64
  securityAudit : SecurityAuditLog

namespace DcpServer

def recordInvocation (server : DcpServer) : DcpServer :=
  if server.enableMetrics then { server with toolInvocations := server.toolInvocations + 1 }
  else server

def recordError (server : DcpServer) : DcpServer :=
  if server.enableMetrics then { server with errors := server.errors + 1 } else server

def audit (server : DcpServer) (event : SecurityAuditEvent) : DcpServer :=
  { server with securityAudit := server.securityAudit.record event }

def auditRawInvokeDenial (server : DcpServer) (toolId : UInt16) : DcpServer :=
  server.audit ((SecurityAuditEvent.new .capabilityDenied "raw_invoke_denied").withMethod
    "dcp.tool.invoke" |>.withField "tool_id" (toString toolId.toNat))

def auditRawInvokeByNameDenial (server : DcpServer) (name : String) : DcpServer :=
  server.audit ((SecurityAuditEvent.new .capabilityDenied "raw_invoke_by_name_denied").withMethod
    "dcp.tool.invoke_by_name" |>.withField "tool_name" name)

/-- Invoke a tool by id: raw invocation is deny-by-default. -/
def invoke (server : DcpServer) (toolId : UInt16) (_args : SharedArgs) (calls : List Call) :
    Except DCPError ToolResult × DcpServer × List Call :=
  (.error .capabilityDenied, server.recordError.auditRawInvokeDenial toolId, calls)

/-- Invoke a tool by name: raw invocation is deny-by-default. -/
def invokeByName (server : DcpServer) (name : String) (_args : SharedArgs)
    (calls : List Call) : Except DCPError ToolResult × DcpServer × List Call :=
  (.error .capabilityDenied, server.recordError.auditRawInvokeByNameDenial name, calls)

/-- Invoke a tool only when the negotiated capabilities allow it. -/
def invokeAuthorized (server : DcpServer) (capabilities : CapabilityManifest)
    (toolId : UInt16) (args : SharedArgs) (calls : List Call) :
    Except SecurityError ToolResult × DcpServer × List Call :=
  let (result, calls) := server.router.executeAuthorized capabilities toolId args calls
  (result, server.recordInvocation, calls)

/-- Invoke a named tool only when negotiated capabilities allow it. -/
def invokeByNameAuthorized (server : DcpServer) (capabilities : CapabilityManifest)
    (name : String) (args : SharedArgs) (calls : List Call) :
    Except SecurityError ToolResult × DcpServer × List Call :=
  match server.router.resolveName name with
  | none => (.error .insufficientCapabilities, server, calls)
  | some toolId => server.invokeAuthorized capabilities toolId args calls

/-- The action and reason of the receipt for a failed signed invocation. -/
def signedInvocationErrorDetails : SecurityError → SecurityAuditAction × String
  | .invalidSignature => (.signatureRejected, "invalid_signature")
  | .argsHashMismatch => (.signatureRejected, "args_hash_mismatch")
  | .replayAttack => (.replayRejected, "replay_attack")
  | .expiredTimestamp => (.replayRejected, "expired_timestamp")
  | .capacityExceeded => (.replayRejected, "replay_capacity_exceeded")
  | .insufficientCapabilities => (.capabilityDenied, "capability_denied")
  | .validationFailed => (.validationRejected, "validation_failed")

def auditSignedInvocationError (server : DcpServer) (error : SecurityError)
    (invocation : SignedInvocation) : DcpServer :=
  let (action, reason) := signedInvocationErrorDetails error
  server.audit ((SecurityAuditEvent.new action reason).withMethod
    "dcp.tool.invoke_signed_authorized" |>.withField "tool_id" (toString invocation.toolId.toNat))

/-- Invoke a signed tool call only when signature, args hash, negotiated capabilities,
schema validation and replay protection all pass. -/
def invokeSignedAuthorized (crypto : Crypto) (server : DcpServer)
    (capabilities : CapabilityManifest) (invocation : SignedInvocation) (publicKey : PublicKey)
    (args : SharedArgs) (now now' : UInt64) (store : NonceStore) (calls : List Call) :
    Except SecurityError ToolResult × DcpServer × NonceStore × List Call :=
  let (result, store, calls) := BinaryTrieRouter.executeSignedAuthorized crypto server.router
    capabilities invocation publicKey args now now' store calls
  match result with
  | .ok _ => (result, server.recordInvocation, store, calls)
  | .error error =>
      (result, server.recordError.auditSignedInvocationError error invocation, store, calls)

end DcpServer
end Dcp
