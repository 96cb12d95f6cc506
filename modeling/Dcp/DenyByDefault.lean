import Dcp.Server

/-!
Deny by default. The eight entry points that accept a tool invocation are collected in
one type, so that a statement about every execution path is a statement about every
value of it. A handler run is an entry appended to the record of calls.
-/

namespace Dcp

inductive EntryPoint
  | execute (toolId : UInt16)
  | executeAuthorized (capabilities : CapabilityManifest) (toolId : UInt16)
  | executeSignedAuthorized (capabilities : CapabilityManifest) (invocation : SignedInvocation)
      (publicKey : PublicKey) (now now' : UInt64) (store : NonceStore)
  | invoke (toolId : UInt16)
  | invokeByName (name : String)
  | invokeAuthorized (capabilities : CapabilityManifest) (toolId : UInt16)
  | invokeByNameAuthorized (capabilities : CapabilityManifest) (name : String)
  | invokeSignedAuthorized (capabilities : CapabilityManifest) (invocation : SignedInvocation)
      (publicKey : PublicKey) (now now' : UInt64) (store : NonceStore)

namespace EntryPoint

/-- The record of handler runs after a request has come in at the entry point. -/
def callsAfter (crypto : Crypto) (server : DcpServer) (args : SharedArgs) (calls : List Call) :
    EntryPoint → List Call
  | execute toolId => (server.router.execute toolId args calls).2
  | executeAuthorized capabilities toolId =>
      (server.router.executeAuthorized capabilities toolId args calls).2
  | executeSignedAuthorized capabilities invocation publicKey now now' store =>
      (BinaryTrieRouter.executeSignedAuthorized crypto server.router capabilities invocation
        publicKey args now now' store calls).2.2
  | invoke toolId => (server.invoke toolId args calls).2.2
  | invokeByName name => (server.invokeByName name args calls).2.2
  | invokeAuthorized capabilities toolId =>
      (server.invokeAuthorized capabilities toolId args calls).2.2
  | invokeByNameAuthorized capabilities name =>
      (server.invokeByNameAuthorized capabilities name args calls).2.2
  | invokeSignedAuthorized capabilities invocation publicKey now now' store =>
      (DcpServer.invokeSignedAuthorized crypto server capabilities invocation publicKey args
        now now' store calls).2.2.2

/-- The manifest presented at an authorized entry point; the raw ones have none. -/
def capabilities : EntryPoint → Option CapabilityManifest
  | execute _ | invoke _ | invokeByName _ => none
  | executeAuthorized capabilities _ | invokeAuthorized capabilities _
  | invokeByNameAuthorized capabilities _ => some capabilities
  | executeSignedAuthorized capabilities _ _ _ _ _
  | invokeSignedAuthorized capabilities _ _ _ _ _ => some capabilities

/-- On the signed paths the signature, the argument hash and the nonce were accepted. -/
def SignedChecksPassed (crypto : Crypto) (args : SharedArgs) : EntryPoint → Prop
  | executeSignedAuthorized _ invocation publicKey now now' store
  | invokeSignedAuthorized _ invocation publicKey now now' store =>
      Verifier.verifyInvocation crypto invocation publicKey = .ok () ∧
        crypto.blake3 args.data = invocation.argsHash ∧
        (store.checkNonce now now' invocation.nonce invocation.timestamp).1 = .ok ()
  | _ => True

/-- At most one handler ran, and only one that the manifest grants by its own id and
whose schema accepted the very arguments it was given. -/
def RanOnlyGranted (server : DcpServer) (granted : Option CapabilityManifest)
    (args : SharedArgs) (calls after : List Call) : Prop :=
  after = calls ∨ ∃ manifest handler toolId, granted = some manifest ∧
    server.router.dispatch toolId = some handler ∧ manifest.hasTool handler.toolId ∧
    SchemaValidator.validateSharedArgs handler.schema.input args = .ok () ∧
    after = calls ++ [⟨handler.toolId, args⟩]

theorem ranOnlyGranted_executeAuthorized (server : DcpServer) (manifest : CapabilityManifest)
    (toolId : UInt16) (args : SharedArgs) (calls : List Call) :
    RanOnlyGranted server (some manifest) args calls
      (server.router.executeAuthorized manifest toolId args calls).2 := by
  rcases server.router.executeAuthorized_cases manifest toolId args calls with
    ⟨e, _, hrun⟩ | ⟨handler, hvalid, hrun⟩
  · exact .inl (by rw [hrun])
  · obtain ⟨hgranted, hdispatch, haccepted⟩ :=
      (server.router.validateAuthorizedTool_ok_iff manifest toolId args handler).mp hvalid
    refine .inr ⟨manifest, handler, toolId, rfl, hdispatch, ?_, haccepted, by rw [hrun]⟩
    rwa [BinaryTrieRouter.dispatch_toolId hdispatch]

theorem signedChecks_of_run (crypto : Crypto) (router : BinaryTrieRouter)
    (manifest : CapabilityManifest) (invocation : SignedInvocation) (publicKey : PublicKey)
    (args : SharedArgs) (now now' : UInt64) (store : NonceStore) (calls : List Call)
    (hran : (BinaryTrieRouter.executeSignedAuthorized crypto router manifest invocation publicKey
      args now now' store calls).2.2 ≠ calls) :
    Verifier.verifyInvocation crypto invocation publicKey = .ok () ∧
      crypto.blake3 args.data = invocation.argsHash ∧
      (store.checkNonce now now' invocation.nonce invocation.timestamp).1 = .ok () := by
  rcases BinaryTrieRouter.executeSignedAuthorized_cases crypto router manifest invocation
      publicKey args now now' store calls with
    ⟨e, _, hrun⟩ | ⟨toolId, e, store', _, _, hrun⟩ | ⟨toolId, store', hchecks, hnonce, _⟩
  · exact absurd (by rw [hrun]) hran
  · exact absurd (by rw [hrun]) hran
  · obtain ⟨hsig, hhash, _⟩ :=
      (BinaryTrieRouter.checkSigned_ok_iff crypto invocation publicKey args toolId).mp hchecks
    exact ⟨hsig, hhash, by rw [hnonce]⟩

theorem ranOnlyGranted_executeSigned (crypto : Crypto) (server : DcpServer)
    (manifest : CapabilityManifest) (invocation : SignedInvocation) (publicKey : PublicKey)
    (args : SharedArgs) (now now' : UInt64) (store : NonceStore) (calls : List Call) :
    RanOnlyGranted server (some manifest) args calls
      (BinaryTrieRouter.executeSignedAuthorized crypto server.router manifest invocation
        publicKey args now now' store calls).2.2 := by
  rcases BinaryTrieRouter.executeSignedAuthorized_cases crypto server.router manifest invocation
      publicKey args now now' store calls with
    ⟨e, _, hrun⟩ | ⟨toolId, e, store', _, _, hrun⟩ | ⟨toolId, store', _, _, hrun⟩
  · exact .inl (by rw [hrun])
  · exact .inl (by rw [hrun])
  · rw [hrun]
    exact ranOnlyGranted_executeAuthorized server manifest toolId args calls

/-- The server's signed path adds metrics and a receipt, and no handler run. -/
theorem invokeSignedAuthorized_calls (crypto : Crypto) (server : DcpServer)
    (manifest : CapabilityManifest) (invocation : SignedInvocation) (publicKey : PublicKey)
    (args : SharedArgs) (now now' : UInt64) (store : NonceStore) (calls : List Call) :
    (DcpServer.invokeSignedAuthorized crypto server manifest invocation publicKey args now now'
      store calls).2.2.2 =
    (BinaryTrieRouter.executeSignedAuthorized crypto server.router manifest invocation publicKey
      args now now' store calls).2.2 := by
  unfold DcpServer.invokeSignedAuthorized
  rcases BinaryTrieRouter.executeSignedAuthorized crypto server.router manifest invocation
      publicKey args now now' store calls with ⟨result, store', calls'⟩
  cases result <;> rfl

/-- Every execution path denies by default. -/
theorem runs_only_granted (crypto : Crypto) (server : DcpServer) (entry : EntryPoint)
    (args : SharedArgs) (calls : List Call) :
    RanOnlyGranted server entry.capabilities args calls
        (entry.callsAfter crypto server args calls) ∧
      (entry.callsAfter crypto server args calls ≠ calls →
        entry.SignedChecksPassed crypto args) := by
  cases entry with
  | execute toolId => exact ⟨.inl rfl, fun _ => trivial⟩
  | invoke toolId => exact ⟨.inl rfl, fun _ => trivial⟩
  | invokeByName name => exact ⟨.inl rfl, fun _ => trivial⟩
  | executeAuthorized manifest toolId =>
      exact ⟨ranOnlyGranted_executeAuthorized server manifest toolId args calls, fun _ => trivial⟩
  | invokeAuthorized manifest toolId =>
      exact ⟨ranOnlyGranted_executeAuthorized server manifest toolId args calls, fun _ => trivial⟩
  | invokeByNameAuthorized manifest name =>
      refine ⟨?_, fun _ => trivial⟩
      simp only [callsAfter, capabilities, DcpServer.invokeByNameAuthorized]
      cases server.router.resolveName name with
      | none => exact .inl rfl
      | some toolId => exact ranOnlyGranted_executeAuthorized server manifest toolId args calls
  | executeSignedAuthorized manifest invocation publicKey now now' store =>
      exact ⟨ranOnlyGranted_executeSigned crypto server manifest invocation publicKey args now
          now' store calls,
        signedChecks_of_run crypto server.router manifest invocation publicKey args now now'
          store calls⟩
  | invokeSignedAuthorized manifest invocation publicKey now now' store =>
      simp only [callsAfter, invokeSignedAuthorized_calls]
      exact ⟨ranOnlyGranted_executeSigned crypto server manifest invocation publicKey args now
          now' store calls,
        signedChecks_of_run crypto server.router manifest invocation publicKey args now now'
          store calls⟩

end EntryPoint
end Dcp
