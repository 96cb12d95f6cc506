import Dcp.Binary.Formats
import Dcp.Library.Result

/-!
The binary formats are exact: what is decoded is what was encoded, nothing else is accepted, and
the messages that are signed and verified are the bytes that the records say are signed.
-/

namespace Dcp
open Library

theorem checkRecord_ok_iff {size start stop : Nat} {bytes : List UInt8} :
    checkRecord size start stop bytes = .ok () ↔
      bytes.length = size ∧ ∀ byte ∈ slice bytes start stop, byte = 0 := by
  unfold checkRecord
  rw [guard_error_eq_ok_iff, guard_error_eq_ok_iff, guard_error_eq_ok_iff]
  simp only [List.any_eq_true, decide_eq_true_eq, not_exists, not_and, not_not, and_true]
  constructor
  · rintro ⟨_, hlen, hzero⟩
    exact ⟨hlen, hzero⟩
  · rintro ⟨hlen, hzero⟩
    exact ⟨by omega, hlen, hzero⟩

section Record
variable {α : Type} {size start stop : Nat} {fields : α → Writes} {read : List UInt8 → α}

/-- A record is exact if its fields and the reserved bytes make up its layout, and reading takes
the fields from where they are written. -/
theorem exact_record (hstop : stop ≤ size) (hinside : ∀ a, WritesInside size (fields a))
    (hcover : ∀ a i, i < size →
      (∀ field ∈ fields a, field.1 + field.2.length ≤ i ∨ i < field.1) → start ≤ i ∧ i < stop)
    (hreserved : ∀ a, ∀ field ∈ fields a, field.1 + field.2.length ≤ start ∨ stop ≤ field.1)
    (hread : ∀ a, read (layOut size (fields a)) = a)
    (hfields : ∀ bytes, bytes.length = size → ∀ field ∈ fields (read bytes),
      field.2 = slice bytes field.1 (field.1 + field.2.length)) :
    ExactCodec (fun bytes => do checkRecord size start stop bytes; pure (read bytes))
      fun a => layOut size (fields a) := by
  constructor
  · intro a
    have hcheck : checkRecord size start stop (layOut size (fields a)) = .ok () :=
      checkRecord_ok_iff.mpr ⟨length_layOut (hinside a),
        slice_layOut_gap (hinside a) hstop (hreserved a)⟩
    rw [bind_eq_ok_iff]
    exact ⟨(), hcheck, congrArg Except.ok (hread a)⟩
  · intro bytes a h
    simp only [bind_eq_ok_iff, pure_eq_ok_iff] at h
    obtain ⟨_, hcheck, rfl⟩ := h
    obtain ⟨hlen, hzero⟩ := checkRecord_ok_iff.mp hcheck
    subst hlen
    refine layOut_slices (hinside _) (hfields bytes rfl) ?_
    intro i byte hbyte hgap
    have hlt := (List.getElem?_eq_some_iff.mp hbyte).1
    obtain ⟨hlo, hhi⟩ := hcover (read bytes) i hlt hgap
    have hslice : (slice bytes start stop)[i - start]? = bytes[start + (i - start)]? :=
      getElem?_slice bytes start (by omega)
    rw [Nat.add_sub_cancel' hlo, hbyte] at hslice
    exact hzero byte (List.mem_of_getElem? hslice)

end Record

theorem ToolInvocation.exact : ExactCodec fromBytes asBytes := by
  have hinside : ∀ inv : ToolInvocation, WritesInside size inv.fields := by
    intro inv
    simp [WritesInside, fields, size]
  have hapart : ∀ inv : ToolInvocation, Apart inv.fields := by
    intro inv
    simp [Apart, fields]
  apply exact_record
  · decide
  · exact hinside
  · intro inv i hi
    simp only [fields, size, List.forall_mem_cons, length_leBytes] at hi ⊢
    omega
  · intro inv
    simp [fields]
  · intro inv
    rw [u32At_layOut (n := inv.toolId) (hinside inv) (hapart inv) (by simp [fields]),
      u64At_layOut (n := inv.argLayout) (hinside inv) (hapart inv) (by simp [fields]),
      u32At_layOut (n := inv.argsOffset) (hinside inv) (hapart inv) (by simp [fields]),
      u32At_layOut (n := inv.argsLen) (hinside inv) (hapart inv) (by simp [fields])]
  · intro bytes hlen
    rw [size] at hlen
    simp only [fields, List.forall_mem_cons, length_leBytes]
    exact ⟨leBytes_u32At (by omega), leBytes_u64At (by omega), leBytes_u32At (by omega),
      leBytes_u32At (by omega), List.forall_mem_nil _⟩

theorem SignedToolDef.exact : ExactCodec fromBytes asBytes := by
  have hinside : ∀ tool : SignedToolDef, WritesInside size tool.fields := by
    intro tool
    simp [WritesInside, fields, size]
  have hapart : ∀ tool : SignedToolDef, Apart tool.fields := by
    intro tool
    simp [Apart, fields]
  apply exact_record
  · decide
  · exact hinside
  · intro tool i hi
    simp only [fields, size, List.forall_mem_cons, length_leBytes, Vector.length_toList] at hi ⊢
    omega
  · intro tool
    simp [fields]
  · intro tool
    rw [u32At_layOut (n := tool.toolId) (hinside tool) (hapart tool) (by simp [fields]),
      arrayAt_layOut (v := tool.schemaHash) (hinside tool) (hapart tool) (by simp [fields]),
      u64At_layOut (n := tool.capabilities) (hinside tool) (hapart tool) (by simp [fields]),
      arrayAt_layOut (v := tool.signature) (hinside tool) (hapart tool) (by simp [fields]),
      arrayAt_layOut (v := tool.publicKey) (hinside tool) (hapart tool) (by simp [fields])]
  · intro bytes hlen
    rw [size] at hlen
    simp only [fields, List.forall_mem_cons, length_leBytes, Vector.length_toList]
    exact ⟨leBytes_u32At (by omega), toList_arrayAt (by omega), leBytes_u64At (by omega),
      toList_arrayAt (by omega), toList_arrayAt (by omega), List.forall_mem_nil _⟩

theorem SignedInvocation.exact : ExactCodec fromBytes asBytes := by
  have hinside : ∀ inv : SignedInvocation, WritesInside size inv.fields := by
    intro inv
    simp [WritesInside, fields, size]
  have hapart : ∀ inv : SignedInvocation, Apart inv.fields := by
    intro inv
    simp [Apart, fields]
  apply exact_record
  · decide
  · exact hinside
  · intro inv i hi
    simp only [fields, size, List.forall_mem_cons, length_leBytes, Vector.length_toList] at hi ⊢
    omega
  · intro inv
    simp [fields]
  · intro inv
    rw [u32At_layOut (n := inv.toolId) (hinside inv) (hapart inv) (by simp [fields]),
      u64At_layOut (n := inv.nonce) (hinside inv) (hapart inv) (by simp [fields]),
      u64At_layOut (n := inv.timestamp) (hinside inv) (hapart inv) (by simp [fields]),
      arrayAt_layOut (v := inv.argsHash) (hinside inv) (hapart inv) (by simp [fields]),
      arrayAt_layOut (v := inv.signature) (hinside inv) (hapart inv) (by simp [fields])]
  · intro bytes hlen
    rw [size] at hlen
    simp only [fields, List.forall_mem_cons, length_leBytes, Vector.length_toList]
    exact ⟨leBytes_u32At (by omega), leBytes_u64At (by omega), leBytes_u64At (by omega),
      toList_arrayAt (by omega), toList_arrayAt (by omega), List.forall_mem_nil _⟩

theorem SignedToolDef.signedBytes_eq (tool : SignedToolDef) : tool.signedBytes = tool.message := by
  rw [signedBytes, layOut_tiles (by simp [Tiles]) (by simp [signedBytesSize])]
  simp [message]

theorem SignedInvocation.signedBytes_eq (inv : SignedInvocation) :
    inv.signedBytes = inv.message := by
  rw [signedBytes, layOut_tiles (by simp [Tiles]) (by simp [signedBytesSize])]
  simp [message]

theorem Verifier.verifyToolDef_ok_iff (crypto : Crypto) (tool : SignedToolDef) :
    verifyToolDef crypto tool = .ok () ↔ crypto.verifyingKeyFromBytes tool.publicKey = true ∧
      crypto.verify tool.publicKey tool.signedBytes tool.signature = true := by
  rw [verifyToolDef, tool.signedBytes_eq]
  simp

theorem Verifier.verifyInvocation_ok_iff (crypto : Crypto) (inv : SignedInvocation)
    (publicKey : PublicKey) :
    verifyInvocation crypto inv publicKey = .ok () ↔
      crypto.verifyingKeyFromBytes publicKey = true ∧
        crypto.verify publicKey inv.signedBytes inv.signature = true := by
  rw [verifyInvocation, inv.signedBytes_eq]
  simp

/-- An envelope is read from its bytes, whatever follows them. -/
theorem BinaryMessageEnvelope.exists_header (bytes : List UInt8) (h : size ≤ bytes.length) :
    ∃ b₀ b₁ b₂ b₃ b₄ b₅ b₆ b₇ rest,
      bytes = b₀ :: b₁ :: b₂ :: b₃ :: b₄ :: b₅ :: b₆ :: b₇ :: rest :=
  match bytes, h with
  | _ :: _ :: _ :: _ :: _ :: _ :: _ :: _ :: rest, _ => ⟨_, _, _, _, _, _, _, _, rest, rfl⟩

theorem BinaryMessageEnvelope.fromBytes_ok_iff {bytes : List UInt8}
    {envelope : BinaryMessageEnvelope} :
    fromBytes bytes = .ok envelope ↔
      envelope.magic = dcpMagic ∧ ∃ rest, bytes = envelope.asBytes ++ rest := by
  constructor
  · intro h
    simp only [fromBytes, guard_error_eq_ok_iff, not_lt, not_not] at h
    obtain ⟨hlen, hmagic, henvelope⟩ := h
    cases henvelope
    refine ⟨hmagic, bytes.drop size, ?_⟩
    obtain ⟨b₀, b₁, b₂, b₃, b₄, b₅, b₆, b₇, rest, rfl⟩ := exists_header bytes hlen
    have hmagicBytes : leBytes 2 (u16At (b₀ :: b₁ :: b₂ :: b₃ :: b₄ :: b₅ :: b₆ :: b₇ :: rest)
        0).toNat = [b₀, b₁] := leBytes_u16At (by simp)
    have hlenBytes : leBytes 4 (u32At (b₀ :: b₁ :: b₂ :: b₃ :: b₄ :: b₅ :: b₆ :: b₇ :: rest)
        4).toNat = [b₄, b₅, b₆, b₇] := leBytes_u32At (by simp)
    unfold asBytes
    rw [hmagicBytes, hlenBytes]
    rfl
  · rintro ⟨hmagic, rest, rfl⟩
    have hmagicAt : u16At (envelope.asBytes ++ rest) 0 = envelope.magic := u16At_eq rfl
    have htype : ((envelope.asBytes ++ rest)[2]?).getD 0 = envelope.messageType := rfl
    have hflags : ((envelope.asBytes ++ rest)[3]?).getD 0 = envelope.flags := rfl
    have hpayload : u32At (envelope.asBytes ++ rest) 4 = envelope.payloadLen := u32At_eq rfl
    have hlen : size ≤ (envelope.asBytes ++ rest).length := by
      simp only [asBytes, size, List.length_append, length_leBytes, List.length_cons]
      omega
    simp only [fromBytes, hmagicAt, htype, hflags, hpayload]
    rw [if_neg (not_lt.mpr hlen), if_neg (not_not.mpr hmagic)]

theorem BinaryMessageEnvelope.length_asBytes (envelope : BinaryMessageEnvelope) :
    envelope.asBytes.length = size := by
  simp [asBytes, size]

namespace MessageParser

/-- The flags of an envelope are the three that are known. -/
theorem validateFlags_ok_iff (flags : UInt8) : validateFlags flags = .ok () ↔ flags < 8 := by
  have hall : ∀ n < 256, UInt8.ofNat n &&& ~~~knownFlagBits = 0 ↔ UInt8.ofNat n < 8 := by
    decide +kernel
  have hflags := hall flags.toNat flags.toNat_lt
  rw [UInt8.ofNat_toNat] at hflags
  unfold validateFlags
  rw [← hflags]
  split <;> simp_all

theorem validateMessageType_ok_iff (msgType : UInt8) :
    (∃ messageType, validateMessageType msgType = .ok messageType) ↔ 1 ≤ msgType ∧ msgType ≤ 6 := by
  have hall : ∀ n < 256, (MessageType.fromU8 (UInt8.ofNat n)).isSome = true ↔
      1 ≤ UInt8.ofNat n ∧ UInt8.ofNat n ≤ 6 := by
    decide +kernel
  have htype := hall msgType.toNat msgType.toNat_lt
  rw [UInt8.ofNat_toNat] at htype
  rw [← htype]
  unfold validateMessageType
  cases MessageType.fromU8 msgType <;> simp

/-- What each step of the parser demands. -/
theorem parse_ok_iff_steps {bytes : List UInt8} {message : ParsedMessage} :
    parse bytes = .ok message ↔
      BinaryMessageEnvelope.fromBytes bytes = .ok message.envelope ∧
      (∃ messageType, validateMessageType message.envelope.messageType = .ok messageType) ∧
      validateFlags message.envelope.flags = .ok () ∧
      bytes.length = BinaryMessageEnvelope.size + message.envelope.payloadLen.toNat ∧
      message.payload = slice bytes BinaryMessageEnvelope.size bytes.length := by
  obtain ⟨envelope, payload⟩ := message
  have hroom : ∀ n : UInt32, ¬ BinaryMessageEnvelope.size + n.toNat > usizeMax := by
    intro n
    have hn := n.toNat_lt
    simp only [BinaryMessageEnvelope.size, usizeMax]
    omega
  simp only [parse, bind_eq_ok_iff]
  constructor
  · rintro ⟨envelope', henvelope, h⟩
    rw [if_neg (hroom _)] at h
    simp only [bind_eq_ok_iff, throw_bind, guard_error_eq_ok_iff, pure_eq_ok_iff, not_lt,
      not_not] at h
    obtain ⟨messageType, htype, flags, hflags, -, hlen, hmessage⟩ := h
    cases hmessage
    exact ⟨henvelope, ⟨messageType, htype⟩, hflags, hlen, by rw [hlen]⟩
  · rintro ⟨henvelope, ⟨messageType, htype⟩, hflags, hlen, rfl⟩
    refine ⟨envelope, henvelope, ?_⟩
    rw [if_neg (hroom _)]
    simp only [bind_eq_ok_iff, throw_bind, guard_error_eq_ok_iff, pure_eq_ok_iff, not_lt, not_not]
    exact ⟨messageType, htype, (), hflags, hlen.ge, hlen, by rw [hlen]⟩

/-- What is parsed is an envelope with a known type and known flags, and its payload. -/
theorem parse_ok_iff {bytes : List UInt8} {message : ParsedMessage} :
    parse bytes = .ok message ↔
      bytes = message.envelope.asBytes ++ message.payload ∧ message.envelope.magic = 0xDC01 ∧
      (1 ≤ message.envelope.messageType ∧ message.envelope.messageType ≤ 6) ∧
      message.envelope.flags < 8 ∧
      message.payload.length = message.envelope.payloadLen.toNat := by
  rw [parse_ok_iff_steps, BinaryMessageEnvelope.fromBytes_ok_iff, validateMessageType_ok_iff,
    validateFlags_ok_iff]
  have hsize := message.envelope.length_asBytes
  have hpayload : ∀ rest, slice (message.envelope.asBytes ++ rest) BinaryMessageEnvelope.size
      (message.envelope.asBytes ++ rest).length = rest := by
    intro rest
    rw [slice, ← hsize, List.drop_left, List.length_append, Nat.add_sub_cancel_left,
      List.take_length]
  constructor
  · rintro ⟨⟨hmagic, rest, rfl⟩, htype, hflags, hlen, hrest⟩
    rw [hpayload] at hrest
    subst hrest
    rw [List.length_append, hsize] at hlen
    exact ⟨rfl, hmagic, htype, hflags, Nat.add_left_cancel hlen⟩
  · rintro ⟨rfl, hmagic, htype, hflags, hlen⟩
    refine ⟨⟨hmagic, message.payload, rfl⟩, htype, hflags, ?_, (hpayload _).symm⟩
    rw [List.length_append, hsize, hlen]

end MessageParser

/-- The binary formats decode exactly what they encode. -/
theorem binary_formats_exact :
    ExactCodec ToolInvocation.fromBytes ToolInvocation.asBytes ∧
    ExactCodec SignedToolDef.fromBytes SignedToolDef.asBytes ∧
    ExactCodec SignedInvocation.fromBytes SignedInvocation.asBytes ∧
    (∀ (signer : Signer) toolId schemaHash capabilities,
      (signer.signToolDef toolId schemaHash capabilities).signature =
        signer.signingKey.sign (signer.signToolDef toolId schemaHash capabilities).signedBytes) ∧
    (∀ crypto (signer : Signer) toolId nonce timestamp args,
      (signer.signInvocation crypto toolId nonce timestamp args).signature =
        signer.signingKey.sign
          (signer.signInvocation crypto toolId nonce timestamp args).signedBytes) ∧
    (∀ crypto tool, Verifier.verifyToolDef crypto tool = .ok () ↔
      crypto.verifyingKeyFromBytes tool.publicKey = true ∧
        crypto.verify tool.publicKey tool.signedBytes tool.signature = true) ∧
    (∀ crypto inv publicKey, Verifier.verifyInvocation crypto inv publicKey = .ok () ↔
      crypto.verifyingKeyFromBytes publicKey = true ∧
        crypto.verify publicKey inv.signedBytes inv.signature = true) ∧
    ∀ bytes (message : ParsedMessage), MessageParser.parse bytes = .ok message ↔
      bytes = message.envelope.asBytes ++ message.payload ∧ message.envelope.magic = 0xDC01 ∧
      (1 ≤ message.envelope.messageType ∧ message.envelope.messageType ≤ 6) ∧
      message.envelope.flags < 8 ∧
      message.payload.length = message.envelope.payloadLen.toNat := by
  refine ⟨ToolInvocation.exact, SignedToolDef.exact, SignedInvocation.exact, ?_, ?_,
    Verifier.verifyToolDef_ok_iff, Verifier.verifyInvocation_ok_iff,
    fun _ _ => MessageParser.parse_ok_iff⟩
  · intro signer toolId schemaHash capabilities
    rw [SignedToolDef.signedBytes_eq]
    rfl
  · intro crypto signer toolId nonce timestamp args
    rw [SignedInvocation.signedBytes_eq]
    rfl

end Dcp
