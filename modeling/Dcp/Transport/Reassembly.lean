import Dcp.Library.Run
import Dcp.Transport.FrameCodec

/-!
What the codec makes of the frames of messages that arrive in pieces: the messages, in their
order, wherever the pieces end and whenever a decode is tried.
-/

namespace Dcp
open Library

namespace FrameCodec

def framing (maxSize : UInt32) : Framing FrameError (List UInt8) UInt8 where
  encode msg := (FrameHeader.new (.ofNat msg.length)).encode ++ msg
  next buffer :=
    let (result, rest) := (withMaxSize maxSize).decodeFrom buffer
    result.map fun found => found.map fun bytes => (bytes, rest)

variable {maxSize : UInt32}

theorem toNat_length {msg : List UInt8} (h : msg.length ≤ maxSize.toNat) :
    (UInt32.ofNat msg.length).toNat = msg.length := by
  rw [UInt32.toNat_ofNat', Nat.mod_eq_of_lt]
  exact Nat.lt_of_le_of_lt h maxSize.toNat_lt

theorem decodeFrom_header {msg : List UInt8} (h : msg.length ≤ maxSize.toNat) (rest : List UInt8) :
    (withMaxSize maxSize).decodeFrom ((FrameHeader.new (.ofNat msg.length)).encode ++ rest) =
      if rest.length < msg.length then
        (.ok none, (FrameHeader.new (.ofNat msg.length)).encode ++ rest)
      else (.ok (some (rest.take msg.length)), rest.drop msg.length) := by
  have hlength := toNat_length h
  have hsize : ¬ UInt32.ofNat msg.length > (withMaxSize maxSize).maxSize := by
    rw [GT.gt, UInt32.lt_iff_toNat_lt, hlength]
    exact Nat.not_lt.mpr h
  have hheader : ((FrameHeader.new (.ofNat msg.length)).encode ++ rest).length =
      frameHeaderSize + rest.length := by simp
  have hframe : (FrameHeader.new (.ofNat msg.length)).frameSize = frameHeaderSize + msg.length := by
    rw [FrameHeader.frameSize, FrameHeader.new, hlength]
  have hdrop : ((FrameHeader.new (.ofNat msg.length)).encode ++ rest).drop frameHeaderSize = rest :=
    List.drop_left' (by simp)
  rw [decodeFrom, if_neg (by omega), FrameHeader.decode_encode]
  simp only [hheader, hframe, hdrop]
  rw [if_neg (by simp [FrameHeader.new]), if_neg (by simpa [FrameHeader.new] using hsize)]
  simp only [FrameHeader.new, hlength, Nat.add_lt_add_iff_left]

theorem lawful_framing : (framing maxSize).Lawful fun msg => msg.length ≤ maxSize.toNat where
  nothing := rfl
  complete := by
    intro msg h rest
    simp only [framing, List.append_assoc, decodeFrom_header h]
    rw [if_neg (by simp), List.take_left, List.drop_left]
    rfl
  incomplete := by
    intro msg h front hfront hne
    simp only [framing] at hfront hne ⊢
    by_cases hshort : front.length < frameHeaderSize
    · rw [decodeFrom, if_pos hshort]
      rfl
    · -- The header has arrived, and not all of what it announces.
      have hheader : (FrameHeader.new (.ofNat msg.length)).encode <+: front :=
        List.prefix_of_prefix_length_le (List.prefix_append _ _) hfront
          (by rw [FrameHeader.length_encode]; omega)
      obtain ⟨rest, rfl⟩ := hheader
      have hrest : rest <+: msg := (List.prefix_append_right_inj _).mp hfront
      have hlt : rest.length < msg.length := by
        refine Nat.lt_of_le_of_ne hrest.length_le ?_
        intro heq
        exact hne (by rw [hrest.eq_of_length heq])
      rw [decodeFrom_header h, if_pos hlt]
      rfl

/-- A frame that was taken from a buffer has as many bytes as the message and its header. -/
theorem decodeFrom_rest {codec : FrameCodec} {src bytes : List UInt8}
    (h : (codec.decodeFrom src).1 = .ok (some bytes)) :
    (codec.decodeFrom src).2 = src.drop (frameHeaderSize + bytes.length) := by
  revert h
  rw [decodeFrom]
  split
  · simp
  cases FrameHeader.decode src with
  | none => simp
  | some header =>
      simp only
      split
      · simp
      split
      · simp
      split
      · simp
      · next hsize =>
          rw [FrameHeader.frameSize] at hsize
          intro htaken
          have hbytes := congrArg List.length (Option.some.inj (Except.ok.inj htaken))
          rw [List.length_take, List.length_drop] at hbytes
          rw [List.drop_drop, ← hbytes, Nat.min_eq_left (by omega)]

theorem decode_of_next {codec : FrameCodec} {found : Option (List UInt8 × List UInt8)}
    (h : (framing codec.maxSize).next codec.readBuffer = .ok found) :
    codec.decode = (.ok (found.map Prod.fst),
      { codec with readBuffer := (found.map Prod.snd).getD codec.readBuffer }) := by
  have hrest := @decodeFrom_rest codec codec.readBuffer
  have hnext : (framing codec.maxSize).next codec.readBuffer =
      (codec.decodeFrom codec.readBuffer).1.map fun found =>
        found.map fun bytes => (bytes, (codec.decodeFrom codec.readBuffer).2) := rfl
  rw [hnext] at h
  rw [decode]
  cases hresult : (codec.decodeFrom codec.readBuffer).1 with
  | error e =>
      rw [hresult] at h
      cases h
  | ok result =>
      rw [hresult] at h
      cases h
      cases result with
      | none => rfl
      | some bytes => simp [hrest hresult]

theorem encodeAll_eq {messages : List (List UInt8)}
    (h : ∀ msg ∈ messages, msg.length ≤ maxSize.toNat) :
    (withMaxSize maxSize).encodeAll messages = .ok ((framing maxSize).encodeAll messages) := by
  have hfrom : ∀ dst, messages.foldlM (fun dst msg => (withMaxSize maxSize).encode msg dst) dst =
      .ok (dst ++ (framing maxSize).encodeAll messages) := by
    induction messages with
    | nil =>
        intro dst
        rw [Framing.encodeAll_nil, List.append_nil, List.foldlM_nil]
        rfl
    | cons msg rest ih =>
        intro dst
        have hmsg := h msg List.mem_cons_self
        have hencode : (withMaxSize maxSize).encode msg dst =
            .ok (dst ++ (framing maxSize).encode msg) := by
          have hsize : ¬ UInt32.ofNat msg.length > (withMaxSize maxSize).maxSize := by
            rw [GT.gt, UInt32.lt_iff_toNat_lt, toNat_length hmsg]
            exact Nat.not_lt.mpr hmsg
          rw [encode, if_neg hsize, List.append_assoc]
          rfl
        rw [List.foldlM_cons, hencode]
        refine (ih (fun msg hmsg => h msg (List.mem_cons_of_mem _ hmsg)) _).trans ?_
        rw [Framing.encodeAll_cons, List.append_assoc]
  exact hfrom []

/-- A complete frame is announced when the next decode does not wait for more. -/
theorem hasCompleteFrame_iff (codec : FrameCodec) :
    codec.hasCompleteFrame = true ↔ codec.decode.1 ≠ .ok none := by
  have hdecode : codec.decode.1 = (codec.decodeFrom codec.readBuffer).1 := by
    rw [decode]
    split <;> simp_all
  rw [hdecode, hasCompleteFrame, decodeFrom]
  by_cases hheader : codec.readBuffer.length < frameHeaderSize
  · simp [hheader]
  obtain ⟨header, hdecoded⟩ := FrameHeader.isSome_decode (Nat.not_lt.mp hheader)
  simp only [hdecoded, if_neg hheader]
  by_cases hversion : header.version = protocolVersion
  · by_cases hsize : header.length > codec.maxSize
    · simp [hversion, hsize]
    · by_cases hframe : codec.readBuffer.length < header.frameSize
      · simp [hversion, hsize, hframe]
      · simp [hversion, hsize, hframe, Nat.not_lt.mp hframe]
  · simp [hversion]

end FrameCodec

inductive FrameAction
  | feed (data : List UInt8)
  | decode

namespace FrameAction

def fed (actions : List FrameAction) : List UInt8 :=
  actions.flatMap fun action => match action with
    | .feed data => data
    | .decode => []

end FrameAction

/-- A codec and what its decodes returned. -/
structure FrameReader where
  codec : FrameCodec
  results : List (Except FrameError (Option (List UInt8)))

namespace FrameReader

def start (maxSize : UInt32) : FrameReader := ⟨.withMaxSize maxSize, []⟩

def step (reader : FrameReader) : FrameAction → FrameReader
  | .feed data => { reader with codec := reader.codec.feed data }
  | .decode => ⟨reader.codec.decode.2, reader.results ++ [reader.codec.decode.1]⟩

def run (maxSize : UInt32) (actions : List FrameAction) : FrameReader :=
  actions.foldl step (start maxSize)

def messages (reader : FrameReader) : List (List UInt8) :=
  reader.results.filterMap fun result => match result with
    | .ok found => found
    | .error _ => none

/-- What has been taken and what is in the buffer are the messages up to some point and the
front of the frames of the others. -/
structure Sound (maxSize : UInt32) (messages : List (List UInt8)) (fed : List UInt8)
    (reader : FrameReader) : Prop where
  limit : reader.codec.maxSize = maxSize
  ok : ∀ result ∈ reader.results, ∃ found, result = .ok found
  taken : ∃ rest, messages = reader.messages ++ rest ∧
    fed = (FrameCodec.framing maxSize).encodeAll reader.messages ++ reader.codec.readBuffer

theorem sound_start (maxSize : UInt32) (messages : List (List UInt8)) :
    Sound maxSize messages [] (start maxSize) :=
  ⟨rfl, by simp [start], messages, rfl, rfl⟩

section
variable {maxSize : UInt32} {messages : List (List UInt8)} {fed : List UInt8}
  {reader : FrameReader}

theorem Sound.feed (h : Sound maxSize messages fed reader) (data : List UInt8) :
    Sound maxSize messages (fed ++ data) (reader.step (.feed data)) := by
  obtain ⟨rest, hmessages, hfed⟩ := h.taken
  refine ⟨h.limit, h.ok, rest, hmessages, ?_⟩
  rw [hfed, List.append_assoc]
  rfl

/-- What the next decode finds. -/
theorem Sound.next (h : Sound maxSize messages fed reader)
    (hsize : ∀ msg ∈ messages, msg.length ≤ maxSize.toNat)
    (hfed : fed <+: (FrameCodec.framing maxSize).encodeAll messages) :
    (reader.codec.decode = (.ok none, reader.codec) ∧
        (fed = (FrameCodec.framing maxSize).encodeAll messages → reader.messages = messages ∧
          reader.codec.readBuffer = [])) ∨
      ∃ msg rest left, messages = reader.messages ++ msg :: rest ∧
        reader.codec.decode = (.ok (some msg), { reader.codec with readBuffer := left }) ∧
        reader.codec.readBuffer = (FrameCodec.framing maxSize).encode msg ++ left := by
  obtain ⟨rest, hmessages, htaken⟩ := h.taken
  rw [hmessages, htaken, Framing.encodeAll_append] at hfed
  have hbuffer := (List.prefix_append_right_inj _).mp hfed
  have hrest : ∀ msg ∈ rest, msg.length ≤ maxSize.toNat :=
    fun msg hmsg => hsize msg (hmessages ▸ List.mem_append_right _ hmsg)
  obtain ⟨hnone, hall⟩ | ⟨msg, rest', left, rfl, hread, -, hsome⟩ :=
    FrameCodec.lawful_framing.next_cases hrest hbuffer
  · rw [← h.limit] at hnone
    refine .inl ⟨FrameCodec.decode_of_next hnone, ?_⟩
    intro hwhole
    rw [hmessages, htaken, Framing.encodeAll_append] at hwhole
    have hleft := List.append_cancel_left hwhole
    have hdone := hall hleft
    subst hdone
    exact ⟨by rw [hmessages, List.append_nil], hleft⟩
  · rw [← h.limit] at hsome
    exact .inr ⟨msg, rest', left, hmessages, FrameCodec.decode_of_next hsome, hread⟩

theorem Sound.decode (h : Sound maxSize messages fed reader)
    (hsize : ∀ msg ∈ messages, msg.length ≤ maxSize.toNat)
    (hfed : fed <+: (FrameCodec.framing maxSize).encodeAll messages) :
    Sound maxSize messages fed (reader.step .decode) := by
  have hok : ∀ found, ∀ result ∈ reader.results ++ [.ok found], ∃ found', result = .ok found' := by
    intro found result hresult
    obtain hold | hnew := List.mem_append.mp hresult
    · exact h.ok result hold
    · exact ⟨found, List.mem_singleton.mp hnew⟩
  obtain ⟨hnone, -⟩ | ⟨msg, rest, left, hmessages, hsome, hread⟩ := h.next hsize hfed
  · obtain ⟨rest, hmessages, htaken⟩ := h.taken
    simp only [step, hnone]
    refine ⟨h.limit, hok none, rest, ?_, ?_⟩
    · simpa [FrameReader.messages] using hmessages
    · simpa [FrameReader.messages] using htaken
  · obtain ⟨-, -, htaken⟩ := h.taken
    simp only [step, hsome]
    refine ⟨h.limit, hok (some msg), rest, ?_, ?_⟩
    · simpa [FrameReader.messages] using hmessages
    · rw [htaken, hread]
      simp [FrameReader.messages, Framing.encodeAll_append]

theorem sound_run (maxSize : UInt32) (hsize : ∀ msg ∈ messages, msg.length ≤ maxSize.toNat)
    {actions : List FrameAction}
    (hfed : FrameAction.fed actions <+: (FrameCodec.framing maxSize).encodeAll messages) :
    Sound maxSize messages (FrameAction.fed actions) (run maxSize actions) := by
  induction actions using List.reverseRecOn with
  | nil => exact sound_start maxSize messages
  | append_singleton actions action ih =>
      rw [run, List.foldl_append]
      rw [FrameAction.fed, List.flatMap_append, List.flatMap_singleton] at hfed ⊢
      have hbefore := ih ((List.prefix_append _ _).trans hfed)
      cases action with
      | feed data => exact hbefore.feed data
      | decode =>
          rw [List.append_nil] at hfed ⊢
          exact hbefore.decode hsize hfed

end

/-- However the frames of messages are cut up and fed, and whenever a decode is tried: no decode
fails, the messages come out in their order, a complete frame is announced exactly when the next
decode finds one, and when everything was fed and a decode waits for more, all messages have come
out and the buffer is empty. -/
theorem reassembled (maxSize : UInt32) {messages : List (List UInt8)}
    (hsize : ∀ msg ∈ messages, msg.length ≤ maxSize.toNat) :
    ∃ wire, (FrameCodec.withMaxSize maxSize).encodeAll messages = .ok wire ∧
      ∀ actions, FrameAction.fed actions <+: wire →
        let reader := run maxSize actions
        (∀ result ∈ reader.results, ∃ found, result = .ok found) ∧
        reader.messages <+: messages ∧
        (reader.codec.hasCompleteFrame = true ↔ reader.codec.decode.1 ≠ .ok none) ∧
        (FrameAction.fed actions = wire → reader.codec.decode.1 = .ok none →
          reader.messages = messages ∧ reader.codec.readBuffer = []) := by
  refine ⟨_, FrameCodec.encodeAll_eq hsize, ?_⟩
  intro actions hfed
  have hsound := sound_run maxSize hsize hfed
  obtain ⟨rest, hmessages, -⟩ := hsound.taken
  refine ⟨hsound.ok, ⟨rest, hmessages.symm⟩, FrameCodec.hasCompleteFrame_iff _, ?_⟩
  intro hall hnone
  obtain ⟨-, hdone⟩ | ⟨msg, _, _, _, hsome, -⟩ := hsound.next hsize hfed
  · exact hdone hall
  · rw [hsome] at hnone
    cases hnone

/-- Two messages, the second of them empty. -/
theorem reassembled_two :
    ∃ wire, (FrameCodec.withMaxSize 8).encodeAll [[1, 2], []] = .ok wire ∧
      ∀ actions, FrameAction.fed actions <+: wire →
        let reader := run 8 actions
        (∀ result ∈ reader.results, ∃ found, result = .ok found) ∧
        reader.messages <+: [[1, 2], []] ∧
        (reader.codec.hasCompleteFrame = true ↔ reader.codec.decode.1 ≠ .ok none) ∧
        (FrameAction.fed actions = wire → reader.codec.decode.1 = .ok none →
          reader.messages = [[1, 2], []] ∧ reader.codec.readBuffer = []) :=
  reassembled 8 (by decide)

end FrameReader
end Dcp
