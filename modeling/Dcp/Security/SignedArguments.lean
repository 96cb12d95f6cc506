import Dcp.Dispatch.Execution

/-!
What a signature says about the arguments a handler sees. The signed message binds the
bytes through their hash. The layout word is not part of the message: it is bound only as
far as the schema validator binds it, which leaves the presence of optional fields open.
-/

namespace Dcp
open Library

/-- At index `i` the layouts agree, or `i` is a declared optional field that one of them
marks absent and the other present with its type. -/
def LayoutsAgreeAt (schema : InputSchema) (a b : UInt64) (i : Nat) : Prop :=
  layoutNibble a i = layoutNibble b i ∨
    ∃ field, schema.fields[i]? = some field ∧ schema.isRequired i = false ∧
      (argTypeFromLayout a i = .ok .null ∧ argTypeFromLayout b i = .ok field.fieldType ∨
        argTypeFromLayout a i = .ok field.fieldType ∧ argTypeFromLayout b i = .ok .null)

theorem layoutsAgreeAt_of_accepts {schema : InputSchema} {a b : SharedArgs}
    (ha : Accepts schema a) (hb : Accepts schema b) {i : Nat} (hi : i < 16) :
    LayoutsAgreeAt schema a.layout b.layout i := by
  by_cases hdecl : i < schema.fields.length
  · have hfield : schema.fields[i]? = some schema.fields[i] := List.getElem?_eq_getElem hdecl
    have hoptional : ∀ args, Accepts schema args → argTypeFromLayout args.layout i = .ok .null →
        schema.isRequired i = false := by
      intro args hargs hnull
      by_contra hreq
      have hpresent := (hargs.required i (by omega) (by simpa using hreq)).2
      simp [SharedArgs.present, hnull] at hpresent
    rcases ha.fields i _ hfield with hna | ⟨hta, _⟩ <;>
      rcases hb.fields i _ hfield with hnb | ⟨htb, _⟩
    · exact .inl (layoutNibble_eq_of_argType hna hnb)
    · exact .inr ⟨_, hfield, hoptional a ha hna, .inl ⟨hna, htb⟩⟩
    · exact .inr ⟨_, hfield, hoptional b hb hnb, .inr ⟨hta, hnb⟩⟩
    · exact .inl (layoutNibble_eq_of_argType hta htb)
  · exact .inl (layoutNibble_eq_of_argType (ha.undeclared i (by omega) hi)
      (hb.undeclared i (by omega) hi))

namespace BinaryTrieRouter

/-- Some signed run of the invocation reaches the handler's `execute` with `args`. -/
def SignedReaches (crypto : Crypto) (router : BinaryTrieRouter)
    (capabilities : CapabilityManifest) (invocation : SignedInvocation) (publicKey : PublicKey)
    (store : NonceStore) (args : SharedArgs) : Prop :=
  ∃ now now' calls, (executeSignedAuthorized crypto router capabilities invocation publicKey
    args now now' store calls).2.2 ≠ calls

/-- A run that reaches the handler has passed the hash check and the validator. -/
theorem of_signedReaches {crypto : Crypto} {router : BinaryTrieRouter}
    {capabilities : CapabilityManifest} {invocation : SignedInvocation} {publicKey : PublicKey}
    {store : NonceStore} {args : SharedArgs}
    (h : SignedReaches crypto router capabilities invocation publicKey store args) :
    crypto.blake3 args.data = invocation.argsHash ∧
      ∃ handler, router.dispatch invocation.toolId.toUInt16 = some handler ∧
        Accepts handler.schema.input args := by
  obtain ⟨now, now', calls, hran⟩ := h
  rcases executeSignedAuthorized_cases crypto router capabilities invocation publicKey args now
      now' store calls with
    ⟨e, _, hrun⟩ | ⟨toolId, e, store', _, _, hrun⟩ | ⟨toolId, store', hchecks, _, hrun⟩
  · exact absurd (by rw [hrun]) hran
  · exact absurd (by rw [hrun]) hran
  · rw [hrun] at hran
    obtain ⟨_, hhash, _, rfl⟩ := (checkSigned_ok_iff _ _ _ _ _).mp hchecks
    rcases router.executeAuthorized_cases capabilities invocation.toolId.toUInt16 args calls with
      ⟨e, _, hexec⟩ | ⟨handler, hvalid, _⟩
    · exact absurd (by rw [hexec]) hran
    · obtain ⟨_, hdispatch, haccepted⟩ := (validateAuthorizedTool_ok_iff _ _ _ _ _).mp hvalid
      exact ⟨hhash, handler, hdispatch,
        (SchemaValidator.validateSharedArgs_ok_iff _ _).mp haccepted⟩

/-- Two runs of one signed invocation give the handler the same bytes, and layouts that
differ at most in the presence of optional fields. -/
theorem signed_arguments_agree (crypto : Crypto) (router : BinaryTrieRouter)
    (capabilities : CapabilityManifest) (invocation : SignedInvocation) (publicKey : PublicKey)
    (storeA storeB : NonceStore) (a b : SharedArgs)
    (hfree : crypto.CollisionFreeOn {a.data, b.data})
    (ha : SignedReaches crypto router capabilities invocation publicKey storeA a)
    (hb : SignedReaches crypto router capabilities invocation publicKey storeB b) :
    a.data = b.data ∧ ∃ handler, router.dispatch invocation.toolId.toUInt16 = some handler ∧
      (∀ i < 16, LayoutsAgreeAt handler.schema.input a.layout b.layout i) ∧
      ((∀ i < handler.schema.input.fields.length, handler.schema.input.isRequired i) →
        a.layout = b.layout) := by
  obtain ⟨hhashA, handler, hdispatch, hacceptsA⟩ := of_signedReaches ha
  obtain ⟨hhashB, handler', hdispatch', hacceptsB⟩ := of_signedReaches hb
  rw [hdispatch] at hdispatch'
  cases hdispatch'
  have hagree : ∀ i < 16, LayoutsAgreeAt handler.schema.input a.layout b.layout i :=
    fun i hi => layoutsAgreeAt_of_accepts hacceptsA hacceptsB hi
  refine ⟨hfree (by simp) (by simp) (hhashA.trans hhashB.symm), handler, hdispatch, hagree, ?_⟩
  intro hrequired
  apply layout_ext
  intro i hi
  rcases hagree i hi with heq | ⟨field, hfield, hopt, _⟩
  · exact heq
  · have hreq := hrequired i (List.getElem?_eq_some_iff.mp hfield).1
    rw [hopt] at hreq
    contradiction

/-- Two optional flags, one byte each. -/
def flagsHandler : ToolHandler where
  schema := ⟨"set_flags", 1, "Set two flags", ⟨0, [⟨"first", .bool, 0, 1, none⟩,
    ⟨"second", .bool, 1, 1, none⟩]⟩⟩
  execute _ _ := .ok .empty

def flagsRouter : BinaryTrieRouter where
  toRouterTables := new.toRouterTables.insert flagsHandler
  wellFormed := new.wellFormed.insert (by decide) rfl rfl

def flagsManifest : CapabilityManifest := (CapabilityManifest.new 1).setTool 1

theorem signedReaches_flags (layout : UInt64) (h : layout = 17 ∨ layout = 16) :
    SignedReaches .recorded flagsRouter flagsManifest recordedInvocation recordedKey
      (.withConfig 10 300) ⟨[1, 1], layout⟩ := by
  obtain rfl | rfl := h
  · exact ⟨1000, 1000, [], by decide⟩
  · exact ⟨1000, 1000, [], by decide⟩

/-- The layout word is not authenticated: a recorded signature lets the handler see the
first flag as present or as absent. -/
theorem signed_layout_not_unique :
    ¬ ∀ (crypto : Crypto) (router : BinaryTrieRouter) (capabilities : CapabilityManifest)
      (invocation : SignedInvocation) (publicKey : PublicKey) (storeA storeB : NonceStore)
      (a b : SharedArgs), crypto.CollisionFreeOn {a.data, b.data} →
      SignedReaches crypto router capabilities invocation publicKey storeA a →
      SignedReaches crypto router capabilities invocation publicKey storeB b →
      a.data = b.data ∧ a.layout = b.layout := by
  intro h
  have hlayout := (h .recorded flagsRouter flagsManifest recordedInvocation recordedKey
    (.withConfig 10 300) (.withConfig 10 300) ⟨[1, 1], 17⟩ ⟨[1, 1], 16⟩ (by
      simp [Crypto.CollisionFreeOn]) (signedReaches_flags 17 (.inl rfl))
    (signedReaches_flags 16 (.inr rfl))).2
  exact absurd hlayout (by decide)

theorem signed_arguments_agree_flags :
    ∃ handler, flagsRouter.dispatch 1 = some handler ∧
      ∀ i < 16, LayoutsAgreeAt handler.schema.input 17 16 i := by
  obtain ⟨_, handler, hdispatch, hagree, _⟩ := signed_arguments_agree .recorded flagsRouter
    flagsManifest recordedInvocation recordedKey (.withConfig 10 300) (.withConfig 10 300)
    ⟨[1, 1], 17⟩ ⟨[1, 1], 16⟩ (by simp [Crypto.CollisionFreeOn])
    (signedReaches_flags 17 (.inl rfl)) (signedReaches_flags 16 (.inr rfl))
  exact ⟨handler, hdispatch, hagree⟩

end BinaryTrieRouter
end Dcp
