import Dcp.Library.Layout
import Dcp.Library.Run
import Dcp.Multiplex.Connection
import Dcp.Multiplex.Intake
import Dcp.Multiplex.Isolation

/-!
The bytes of a frame, and what two endpoints that only talk to each other exchange. A header takes
eight bytes and is read back from any buffer that starts with them; it announces the length of its
payload. Every frame one of the endpoints queues has the length its header says and one of the
shapes that the other accepts, so that no run ends in a protocol error; and the frames on their way
can be read back from the bytes they are written as.
-/

namespace Dcp
open Library

namespace StreamHeader

def encode (header : StreamHeader) : List UInt8 :=
  beBytes 2 header.streamId.toNat ++ header.flags.asByte :: header.reserved ::
    beBytes 4 header.length.toNat

def decode : List UInt8 → Option StreamHeader
  | b₀ :: b₁ :: b₂ :: b₃ :: b₄ :: b₅ :: b₆ :: b₇ :: _ =>
      some ⟨.ofNat (ofBeBytes [b₀, b₁]), ⟨b₂⟩, b₃, .ofNat (ofBeBytes [b₄, b₅, b₆, b₇])⟩
  | _ => none

/-- Decode a header; what is left of the buffer comes with it. -/
def decodeFrom (src : List UInt8) : Option StreamHeader × List UInt8 :=
  if src.length < streamHeaderSize then (none, src)
  else
    match decode src with
    | none => (none, src)
    | some header => (some header, src.drop streamHeaderSize)

/-- The size of the whole frame. -/
def frameSize (header : StreamHeader) : Nat := streamHeaderSize + header.length.toNat

@[simp] theorem length_encode (header : StreamHeader) :
    header.encode.length = streamHeaderSize := by
  simp [encode, streamHeaderSize]

/-- A header is read back, whatever follows it. -/
theorem decode_encode (header : StreamHeader) (rest : List UInt8) :
    decode (header.encode ++ rest) = some header := by
  have hid : ofBeBytes (beBytes 2 header.streamId.toNat) = header.streamId.toNat :=
    ofBeBytes_beBytes 2 header.streamId.toNat_lt
  have hlength : ofBeBytes (beBytes 4 header.length.toNat) = header.length.toNat :=
    ofBeBytes_beBytes 4 header.length.toNat_lt
  have hdecode : decode (header.encode ++ rest) =
      some ⟨.ofNat (ofBeBytes (beBytes 2 header.streamId.toNat)), header.flags, header.reserved,
        .ofNat (ofBeBytes (beBytes 4 header.length.toNat))⟩ := rfl
  rw [hdecode, hid, hlength, UInt16.ofNat_toNat, UInt32.ofNat_toNat]

theorem decodeFrom_encode (header : StreamHeader) (rest : List UInt8) :
    decodeFrom (header.encode ++ rest) = (some header, rest) := by
  have hlength : ¬ (header.encode ++ rest).length < streamHeaderSize := by simp
  rw [decodeFrom, if_neg hlength, decode_encode]
  exact congrArg (Prod.mk _) (List.drop_left' header.length_encode)

end StreamHeader

namespace Frame

/-- The bytes that a frame is sent as. -/
def encodeFrame (frame : Frame) : List UInt8 := frame.1.encode ++ frame.2

/-- The header announces the length of the payload. -/
def Fits (frame : Frame) : Prop := frame.1.length.toNat = frame.2.length

theorem length_encodeFrame {frame : Frame} (h : Fits frame) :
    (encodeFrame frame).length = frame.1.frameSize := by
  rw [encodeFrame, List.length_append, StreamHeader.length_encode, StreamHeader.frameSize, h]

/-- The header is taken from the front of a frame, and its payload comes next. -/
theorem decodeFrom_encodeFrame (frame : Frame) (rest : List UInt8) :
    StreamHeader.decodeFrom (encodeFrame frame ++ rest) = (some frame.1, frame.2 ++ rest) := by
  rw [encodeFrame, List.append_assoc, StreamHeader.decodeFrom_encode]

/-- Frames whose headers announce their payloads can be told apart in the bytes they are
written as. -/
theorem flatMap_encodeFrame_injective {frames frames' : List Frame}
    (h : ∀ frame ∈ frames, Fits frame) (h' : ∀ frame ∈ frames', Fits frame)
    (hbytes : frames.flatMap encodeFrame = frames'.flatMap encodeFrame) : frames = frames' := by
  have hne : ∀ (frame : Frame) (rest : List UInt8), encodeFrame frame ++ rest ≠ [] := by
    intro frame rest hnil
    have hdecode := decodeFrom_encodeFrame frame rest
    rw [hnil] at hdecode
    cases hdecode
  induction frames generalizing frames' with
  | nil =>
      cases frames' with
      | nil => rfl
      | cons frame' rest' => exact absurd hbytes.symm (hne frame' _)
  | cons frame rest ih =>
      cases frames' with
      | nil => exact absurd hbytes (hne frame _)
      | cons frame' rest' =>
          rw [List.flatMap_cons, List.flatMap_cons] at hbytes
          have hread := congrArg StreamHeader.decodeFrom hbytes
          rw [decodeFrom_encodeFrame, decodeFrom_encodeFrame, Prod.mk.injEq] at hread
          obtain ⟨hheader, hpayload⟩ := hread
          have hheader : frame.1 = frame'.1 := Option.some.inj hheader
          have hlength : frame.2.length = frame'.2.length := by
            rw [← h frame List.mem_cons_self, ← h' frame' List.mem_cons_self, hheader]
          obtain ⟨hsame, hrest⟩ := List.append_inj hpayload hlength
          rw [Prod.ext hheader hsame, ih (fun f hf => h f (List.mem_cons_of_mem _ hf))
            (fun f hf => h' f (List.mem_cons_of_mem _ hf)) hrest]

end Frame

namespace Frame
open MultiplexedConnection
variable {frame : Frame}

theorem Regular.fits (h : Frame.Regular frame) : Frame.Fits frame := by
  cases h with
  | data id payload hid hsize => exact Nat.mod_eq_of_lt hsize
  | signal id flags hid hflags => rfl

theorem Regular.nonzero (h : Frame.Regular frame) : frame.1.streamId ≠ 0 := by
  cases h with
  | data id payload hid hsize => exact hid
  | signal id flags hid hflags => exact hid

theorem Regular.not_control (h : Frame.Regular frame) : frame.1.isControl = false :=
  decide_eq_false h.nonzero

/-- A SYN carries no payload. -/
theorem Regular.payload_of_syn (h : Frame.Regular frame) (hsyn : frame.1.flags.isSyn = true) :
    frame.2 = [] := by
  cases h with
  | data id payload hid hsize => simp at hsyn
  | signal id flags hid hflags => rfl

/-- A frame with a payload has no flags. -/
theorem Regular.flags_of_payload (h : Frame.Regular frame) (hpayload : frame.2 ≠ []) :
    frame.1.flags = .none := by
  cases h with
  | data id payload hid hsize => rfl
  | signal id flags hid hflags => exact absurd rfl hpayload

theorem Regular.shape (h : Frame.Regular frame) :
    validateFrameShape frame.1 frame.2.length = .ok () := by
  have hcontrol := h.not_control
  cases h with
  | data id payload hid hsize =>
      have hreserved : (StreamHeader.data id (.ofNat payload.length)).reserved = 0 := rfl
      have hflags : (StreamHeader.data id (.ofNat payload.length)).flags = .none := rfl
      have hplain : StreamFlags.none.hasUnknownBits = false ∧ StreamFlags.none.isSyn = false ∧
          StreamFlags.none.isFin = false ∧ StreamFlags.none.isRst = false ∧
          StreamFlags.none.isAck = false := by decide
      obtain ⟨hknown, hsyn, hfin, hrst, hack⟩ := hplain
      simp only at hcontrol
      simp [validateFrameShape, hcontrol, hreserved, hflags, hknown, hsyn, hfin, hrst, hack]
  | signal id flags hid hflags =>
      have hreserved : (StreamHeader.new id flags 0).reserved = 0 := rfl
      have hsame : (StreamHeader.new id flags 0).flags = flags := rfl
      have hplain : ∀ flags ∈ [StreamFlags.fin, .rst, .ack, .syn],
          flags.hasUnknownBits = false ∧ (flags.isFin = false ∨ flags.isRst = false) ∧
            (flags.isSyn = false ∨ flags.asByte = StreamFlags.syn.asByte) := by decide
      obtain ⟨hknown, hfin, hsyn⟩ := hplain flags hflags
      simp only at hcontrol
      simp only [validateFrameShape, hcontrol, hreserved, hsame, hknown, List.length_nil]
      obtain hfin | hrst := hfin <;> obtain hsyn | hsyn := hsyn <;> simp_all

end Frame

namespace MultiplexedConnection
variable {c c' : MultiplexedConnection} {id : UInt16} {header : StreamHeader}
  {payload : List UInt8}

/-- The connection that has counted the bytes of a frame. -/
def counted (c : MultiplexedConnection) (payload : List UInt8) : MultiplexedConnection :=
  { c with bytesReceived := c.bytesReceived + .ofNat (streamHeaderSize + payload.length) }

/-- A regular frame passes every check on its way to the streams. -/
theorem processFrame_of_regular (hframe : Frame.Regular (header, payload))
    (hopen : c.closed = false) :
    c.processFrame header payload =
      if header.flags.isSyn then (c.counted payload).acceptStream header.streamId
      else
        match c.streams.lookup header.streamId with
        | none => (c.counted payload).queueFrame (.rst header.streamId) []
        | some state => (c.counted payload).processStreamFrame header payload state := by
  have hfits : header.length.toNat = payload.length := hframe.fits
  have hshape : validateFrameShape header payload.length = .ok () := hframe.shape
  have hcontrol : header.isControl = false := hframe.not_control
  unfold processFrame
  rw [if_neg (by simp [hopen])]
  dsimp only
  rw [if_neg (by simp [hfits]), hshape]
  dsimp only
  rw [if_neg (by simp [hcontrol])]
  rfl

/-- A payload is taken in, does not fit, or comes too late. -/
theorem queueRecv_effect (state : StreamState) (payload : List UInt8) (limit : Nat) :
    (∃ state' buffer, state.queueRecv payload limit = .ok state' ∧
        intakeOf state = .receiving buffer ∧ intakeOf state' = .receiving (buffer ++ [payload])) ∨
      state.queueRecv payload limit = .error .receiveBufferFull ∨
      (state.queueRecv payload limit = .error (.streamClosed state.id) ∧
        ¬ (intakeOf state).IsReceiving) := by
  unfold StreamState.queueRecv
  by_cases hstatus : state.status.canReceive = true
  · have hbefore : intakeOf state = .receiving state.recvBuffer := if_pos hstatus
    rw [if_neg (by simp [hstatus])]
    split
    · exact .inr (.inl rfl)
    · exact .inl ⟨_, state.recvBuffer, rfl, hbefore, if_pos hstatus⟩
  · rw [if_pos hstatus, intakeOf, if_neg hstatus]
    exact .inr (.inr ⟨rfl, not_false⟩)

section
variable {state : StreamState} (hlookup : c.streams.lookup header.streamId = some state)
include hlookup

theorem wanes_setStream {state' : StreamState} (h : (intakeOf state).Wanes (intakeOf state')) :
    Wanes c (c.setStream header.streamId state') :=
  .of_streams rfl ((SameStreams.refl _).wanes_setStream hlookup h) rfl

theorem wanes_reset (error : Option String) :
    Wanes c (c.setStream header.streamId (state.reset error)) :=
  wanes_setStream hlookup (intakeOf_wanes rfl (fun h => by cases h))

/-- What a stream makes of a frame without payload. -/
theorem processStreamFrame_signal : Wanes c (c.processStreamFrame header [] state).2 := by
  have hclose : Wanes c (c.setStream header.streamId state.closeRemote) := by
    refine wanes_setStream hlookup (intakeOf_wanes rfl ?_)
    unfold StreamState.closeRemote
    cases hstatus : state.status <;> simp [StreamStatus.canReceive]
  unfold processStreamFrame
  split
  · exact wanes_reset hlookup _
  split
  · dsimp only
    split
    · obtain ⟨-, hsame⟩ | ⟨found, hfound, hsame⟩ :=
        removeStream_moves (c.setStream header.streamId state.closeRemote) header.streamId
      · rw [hsame]
        exact hclose
      · rw [hsame]
        refine .of_streams rfl (fun a => ?_) rfl
        have hgone := (SameStreams.refl ((c.setStream header.streamId
          state.closeRemote).withoutStream header.streamId)).lookup_withoutStream a
        by_cases ha : a = header.streamId
        · rw [intake_of_lookup_none (hgone.trans (if_pos ha))]
          exact .leaves _
        · rw [intake_congr (hgone.trans (if_neg ha))]
          exact hclose.streams a
    · exact hclose
  · exact .refl c

/-- What a stream makes of a payload. -/
theorem processStreamFrame_payload (hflags : header.flags = .none) (hpayload : payload ≠ []) :
    TakesPayload c header.streamId payload (c.processStreamFrame header payload state).2 ∨
      (Wanes c (c.processStreamFrame header payload state).2 ∧
        ¬ ((c.processStreamFrame header payload state).2.intake header.streamId).IsReceiving) := by
  have hafter := fun state' a =>
    (SameStreams.refl (c.setStream header.streamId state')).intake_setStream a
  have hplain : StreamFlags.none.isRst = false ∧ StreamFlags.none.isFin = false := by decide
  unfold processStreamFrame
  rw [hflags, if_neg (by simp [hplain]), if_neg (by simp [hplain]), if_pos hpayload]
  obtain ⟨state', buffer, htaken, hbefore, hthen⟩ | hfull | ⟨hlate, hstopped⟩ :=
    queueRecv_effect state payload c.maxRecvBufferBytes
  · rw [htaken]
    left
    refine ⟨rfl, ⟨buffer, ?_, ?_⟩, ?_, rfl⟩
    · rw [intake_of_lookup hlookup, hbefore]
    · rw [hafter, if_pos rfl, hthen]
    · intro a ha
      rw [hafter, if_neg ha]
  · rw [hfull]
    right
    refine ⟨wanes_reset hlookup _, ?_⟩
    dsimp only
    rw [if_pos rfl, hafter, if_pos rfl]
    exact not_false
  · rw [hlate]
    right
    dsimp only
    rw [if_neg (by simp)]
    refine ⟨.refl c, ?_⟩
    rw [intake_of_lookup hlookup]
    exact hstopped

end

/-- A regular frame starts a stream, brings it a payload, or lets the streams wane; a payload
that is not taken in finds a stream that takes none in afterwards. -/
theorem processFrame_effect (hframe : Frame.Regular (header, payload)) (h : c.Regular) :
    (header.flags.isSyn = true ∧ (c.processFrame header payload).1 = .ok () ∧
        Starts c header.streamId .ack (c.processFrame header payload).2) ∨
      (header.flags.isSyn = false ∧ payload ≠ [] ∧
        TakesPayload c header.streamId payload (c.processFrame header payload).2) ∨
      ((header.flags.isSyn = true → ∃ e, (c.processFrame header payload).1 = .error e) ∧
        Wanes c (c.processFrame header payload).2 ∧ (payload ≠ [] →
          ¬ ((c.processFrame header payload).2.intake header.streamId).IsReceiving)) := by
  have habsent : ∀ {c : MultiplexedConnection} {id}, c.streams.lookup id = none →
      ¬ (c.intake id).IsReceiving := by
    intro c id hnone
    rw [intake_of_lookup_none hnone]
    exact not_false
  by_cases hclosed : c.closed = true
  · have hcall : c.processFrame header payload = (.error .connectionClosed, c) := by
      unfold processFrame
      rw [if_pos hclosed]
    rw [hcall]
    refine .inr (.inr ⟨fun _ => ⟨_, rfl⟩, .refl c, fun _ => ?_⟩)
    exact habsent (lookup_of_not_hasStream (h.emptied hclosed header.streamId))
  · have hopen : c.closed = false := by simpa using hclosed
    rw [processFrame_of_regular hframe hopen]
    cases hsyn : header.flags.isSyn with
    | true =>
        rw [if_pos rfl]
        obtain ⟨hok, hstarts⟩ | ⟨herror, hwanes⟩ :=
          acceptStream_effect (c.counted payload) header.streamId
        · exact .inl ⟨rfl, hok, hstarts.nonzero, hstarts.opened, hstarts.closed, hstarts.absent,
            hstarts.started, hstarts.others, hstarts.queue⟩
        · refine .inr (.inr ⟨fun _ => herror, ⟨hwanes.closed, hwanes.streams, hwanes.queue⟩, ?_⟩)
          exact fun hpayload => absurd (hframe.payload_of_syn hsyn) hpayload
    | false =>
        rw [if_neg (by simp)]
        right
        cases hlookup : c.streams.lookup header.streamId with
        | none =>
            have hsame := (queueFrame_moves (c.counted payload) (.rst header.streamId) []).2
            have hqueues := queueFrame_queues (c.counted payload) (.rst header.streamId) []
            refine .inr ⟨fun hsyn => absurd hsyn (by simp), ?_, fun _ => ?_⟩
            · exact .of_queues hsame.closed hsame.wanes hqueues
                ⟨show StreamFlags.rst.isSyn = false by decide, rfl⟩
                (.signal _ _ hframe.nonzero (by simp))
            · exact habsent ((hsame.lookup _).trans hlookup)
        | some state =>
            have hfound : (c.counted payload).streams.lookup header.streamId = some state := hlookup
            by_cases hpayload : payload = []
            · subst hpayload
              have hwanes := processStreamFrame_signal hfound
              exact .inr ⟨fun hsyn => absurd hsyn (by simp),
                ⟨hwanes.closed, hwanes.streams, hwanes.queue⟩, fun h => absurd rfl h⟩
            obtain htakes | ⟨hwanes, hstopped⟩ := processStreamFrame_payload hfound
              (hframe.flags_of_payload hpayload) hpayload
            · exact .inl ⟨rfl, hpayload, htakes.closed, htakes.taken, htakes.others, htakes.queue⟩
            · exact .inr ⟨fun hsyn => absurd hsyn (by simp),
                ⟨hwanes.closed, hwanes.streams, hwanes.queue⟩, fun _ => hstopped⟩

theorem absent_of_wanes (h : (c.intake id).Wanes (c'.intake id)) (hnone : ¬ c.hasStream id) :
    ¬ c'.hasStream id := by
  rw [← intake_eq_absent_iff] at hnone ⊢
  rw [hnone] at h
  generalize hafter : c'.intake id = after at h
  cases h <;> rfl

theorem Regular.wanes (h : c.Regular) (hwanes : Wanes c c') : c'.Regular where
  nonzero := absent_of_wanes (hwanes.streams 0) h.nonzero
  emptied hclosed a :=
    absent_of_wanes (hwanes.streams a) (h.emptied (hwanes.closed.symm.trans hclosed) a)
  queue frame hframe := by
    obtain ⟨signals, hqueue, hsignals⟩ := hwanes.queue
    rw [hqueue] at hframe
    exact (List.mem_append.mp hframe).elim (h.queue frame) fun hnew => (hsignals frame hnew).2

theorem Regular.starts {flags : StreamFlags} (h : c.Regular) (hstarts : Starts c id flags c')
    (hflags : flags ∈ [.fin, .rst, .ack, .syn]) : c'.Regular where
  nonzero := by
    rw [← intake_eq_absent_iff, hstarts.others 0 hstarts.nonzero.symm, intake_eq_absent_iff]
    exact h.nonzero
  emptied hclosed := by
    rw [hstarts.closed, hstarts.opened] at hclosed
    cases hclosed
  queue frame hframe := by
    rw [hstarts.queue] at hframe
    obtain hold | hnew := List.mem_append.mp hframe
    · exact h.queue frame hold
    · rw [List.mem_singleton.mp hnew]
      exact .signal id flags hstarts.nonzero hflags

theorem Regular.sends {data : List UInt8} (h : c.Regular) (hsends : SendsPayload c id data c')
    (hsize : data.length < 2 ^ 32) : c'.Regular where
  nonzero := absent_of_wanes (hsends.streams 0) h.nonzero
  emptied hclosed := by
    rw [hsends.closed, hsends.opened] at hclosed
    cases hclosed
  queue frame hframe := by
    rw [hsends.queue] at hframe
    obtain hold | hnew := List.mem_append.mp hframe
    · exact h.queue frame hold
    · rw [List.mem_singleton.mp hnew]
      refine .data id data ?_ hsize
      rintro rfl
      exact h.nonzero hsends.held

/-- The stream of a payload is not a new one. -/
theorem Regular.of_others (h : c.Regular) (hclosed : c'.closed = c.closed)
    (hheld : c.intake id ≠ .absent) (hothers : ∀ a, a ≠ id → c'.intake a = c.intake a)
    (hqueue : c'.sendQueue = c.sendQueue) : c'.Regular := by
  have hstreams : ∀ a, ¬ c.hasStream a → ¬ c'.hasStream a := by
    intro a hnone
    have ha : a ≠ id := fun ha => hheld (ha ▸ intake_eq_absent_iff.mpr hnone)
    rw [← intake_eq_absent_iff, hothers a ha]
    exact intake_eq_absent_iff.mpr hnone
  refine ⟨hstreams 0 h.nonzero, ?_, hqueue ▸ h.queue⟩
  exact fun hafter a => hstreams a (h.emptied (hclosed.symm.trans hafter) a)

theorem Regular.reads {data : List UInt8} (h : c.Regular) (hreads : ReadsPayload c id data c') :
    c'.Regular := by
  refine h.of_others hreads.closed ?_ hreads.others hreads.queue
  intro habsent
  have hread := hreads.read
  rw [habsent] at hread
  cases hread

theorem Regular.takes (h : c.Regular) (htakes : TakesPayload c id payload c') : c'.Regular := by
  obtain ⟨buffer, hbefore, -⟩ := htakes.taken
  exact h.of_others htakes.closed (by simp [hbefore]) htakes.others htakes.queue

theorem regular_close (c : MultiplexedConnection) : c.close.Regular where
  nonzero := by simp [close, hasStream]
  emptied _ a := by simp [close, hasStream]
  queue frame h := by cases h

theorem Regular.processFrame (h : c.Regular) (hframe : Frame.Regular (header, payload)) :
    (c.processFrame header payload).2.Regular := by
  obtain ⟨-, -, hstarts⟩ | ⟨-, -, htakes⟩ | ⟨-, hwanes, -⟩ := processFrame_effect hframe h
  · exact h.starts hstarts (by simp)
  · exact h.takes htakes
  · exact h.wanes hwanes

/-- No check of the protocol fails for a regular frame. -/
theorem processFrame_accepted (hframe : Frame.Regular (header, payload)) :
    (c.processFrame header payload).1 ≠ .error .invalidStreamId ∧
      ∀ text, (c.processFrame header payload).1 ≠ .error (.protocolError text) := by
  have hqueue : ∀ (c : MultiplexedConnection) (header : StreamHeader),
      (c.queueFrame header []).1 ≠ .error .invalidStreamId ∧
        ∀ text, (c.queueFrame header []).1 ≠ .error (.protocolError text) := by
    intro c header
    unfold queueFrame
    split
    · simp
    split <;> simp
  have hregister : ∀ (c : MultiplexedConnection) (header : StreamHeader),
      (c.registerStream header.streamId header).1 ≠ .error .invalidStreamId ∧
        ∀ text, (c.registerStream header.streamId header).1 ≠ .error (.protocolError text) := by
    intro c header
    unfold registerStream
    split
    · simp
    dsimp only
    have hframe := hqueue { c with
      streams := c.streams.insert header.streamId (.new header.streamId)
      streamCount := c.streamCount + 1 } header
    split
    · simp
    · next heq =>
        rw [heq] at hframe
        exact hframe
  by_cases hclosed : c.closed = true
  · unfold processFrame
    rw [if_pos hclosed]
    simp
  rw [processFrame_of_regular hframe (by simpa using hclosed)]
  have hnonzero : ¬ header.streamId = StreamHeader.controlStream := hframe.nonzero
  split
  · unfold acceptStream
    rw [if_neg (by simpa [counted] using hclosed), if_neg hnonzero]
    split
    · simp
    · exact hregister (c.counted payload) (.ack header.streamId)
  split
  · exact hqueue _ _
  · unfold processStreamFrame StreamState.queueRecv
    split
    · simp
    split
    · simp
    split
    · split
      · simp
      · next heq =>
          split at heq
          · cases heq
            simp
          split at heq
          · cases heq
            simp
          · cases heq
    · simp

end MultiplexedConnection

namespace Endpoint
variable {e : Endpoint}

/-- The connection of an endpoint and the frames that were taken from it are regular. -/
structure Regular (e : Endpoint) : Prop where
  conn : e.conn.Regular
  wire : ∀ frame ∈ e.wire, Frame.Regular frame

/-- The payload of a call fits the length field of a header. -/
def SmallPayload : ApiCall → Prop
  | .send _ data => data.length < 2 ^ 32
  | _ => True

instance : DecidablePred SmallPayload := fun call =>
  match call with
  | .send _ data => inferInstanceAs (Decidable (data.length < 2 ^ 32))
  | .openStream | .recv _ | .closeStream _ | .resetStream .. | .close => .isTrue trivial

theorem conn_call (e : Endpoint) (opening : Opening) (api : ApiCall) :
    (e.call opening api).wire = e.wire ∧ (e.call opening api).conn = match api with
      | .openStream => e.conn.openStream.2
      | .send id data => (e.conn.send id data).2
      | .recv id => (e.conn.recv id).2
      | .closeStream id => (e.conn.closeStream id).2
      | .resetStream id error => (e.conn.resetStream id error).2
      | .close => e.conn.close := by
  cases api with
  | openStream =>
      simp only [call, Endpoint.openStream]
      split <;> exact ⟨rfl, rfl⟩
  | send | recv | closeStream | resetStream | close => exact ⟨rfl, rfl⟩

theorem Regular.call (h : e.Regular) (opening : Opening) {api : ApiCall}
    (hsmall : SmallPayload api) : (e.call opening api).Regular := by
  obtain ⟨hwire, hconn⟩ := e.conn_call opening api
  refine ⟨hconn ▸ ?_, hwire ▸ h.wire⟩
  cases api with
  | openStream =>
      obtain ⟨id, -, hstarts⟩ | ⟨-, hwanes⟩ := e.conn.openStream_effect
      · exact h.conn.starts hstarts (by simp)
      · exact h.conn.wanes hwanes
  | send id data =>
      obtain ⟨-, hsends⟩ | ⟨-, hwanes⟩ := e.conn.send_effect id data
      · exact h.conn.sends hsends hsmall
      · exact h.conn.wanes hwanes
  | recv id =>
      obtain ⟨data, -, hreads⟩ | ⟨-, hwanes⟩ := e.conn.recv_effect id
      · exact h.conn.reads hreads
      · exact h.conn.wanes hwanes
  | closeStream id => exact h.conn.wanes (MultiplexedConnection.closeStream_effect h.conn id)
  | resetStream id error =>
      exact h.conn.wanes (MultiplexedConnection.resetStream_effect h.conn id error)
  | close => exact MultiplexedConnection.regular_close e.conn

theorem Regular.processFrame (h : e.Regular) {frame : Frame} (hframe : Frame.Regular frame)
    (opening : Opening) : (e.processFrame frame opening).Regular := by
  obtain ⟨hconn, hwire⟩ := e.conn_processFrame frame opening
  exact ⟨hconn ▸ h.conn.processFrame hframe, hwire ▸ h.wire⟩

theorem Regular.takeFrame (h : e.Regular) : e.takeFrame.Regular := by
  unfold Endpoint.takeFrame MultiplexedConnection.takeFrame
  cases hqueue : e.conn.sendQueue with
  | nil => exact h
  | cons frame queue =>
      have hrest : ∀ f ∈ queue, Frame.Regular f :=
        fun f hf => h.conn.queue f (hqueue ▸ List.mem_cons_of_mem _ hf)
      refine ⟨⟨h.conn.nonzero, h.conn.emptied, hrest⟩, ?_⟩
      intro f hf
      obtain hold | hnew := List.mem_append.mp hf
      · exact h.wire f hold
      · rw [List.mem_singleton.mp hnew]
        exact h.conn.queue frame (hqueue ▸ List.mem_cons_self)

theorem Regular.inFlight (h : e.Regular) {frame : Frame} (hframe : frame ∈ e.inFlight) :
    Frame.Regular frame :=
  (List.mem_append.mp hframe).elim (h.wire frame) (h.conn.queue frame)

end Endpoint

namespace Network
variable {net : Network}

def Regular (net : Network) : Prop := ∀ side, (net.endpoint side).Regular

theorem regular_new (maxSendQueueLen maxRecvBufferBytes : Side → Nat) :
    (new maxSendQueueLen maxRecvBufferBytes).Regular :=
  fun _ => ⟨MultiplexedConnection.regular_withLimits _ _, fun _ h => by cases h⟩

theorem Regular.update {e : Endpoint} (h : net.Regular) (side : Side) (he : e.Regular) :
    (net.update side e).Regular := by
  intro other
  by_cases hother : other = side
  · subst hother
    rw [endpoint_update]
    exact he
  · rw [endpoint_update_of_ne hother]
    exact h other

/-- The payloads sent are smaller than the length field of a header can say. -/
def SendsSmall (_ : Network) : Action → Prop
  | .call _ api => Endpoint.SmallPayload api
  | _ => True

instance (net : Network) (action : Action) : Decidable (net.SendsSmall action) :=
  match action with
  | .call _ api => inferInstanceAs (Decidable (Endpoint.SmallPayload api))
  | .takeFrame _ | .deliver _ => .isTrue trivial

theorem Regular.deliver {side : Side} (h : net.Regular) : (net.deliver side).Regular := by
  cases hwire : (net.endpoint side).wire with
  | nil =>
      simp only [Network.deliver, hwire]
      exact h
  | cons frame wire =>
      have hframe : Frame.Regular frame := (h side).wire frame (hwire ▸ List.mem_cons_self)
      have hrest : ∀ f ∈ wire, Frame.Regular f :=
        fun f hf => (h side).wire f (hwire ▸ List.mem_cons_of_mem _ hf)
      simp only [Network.deliver, hwire]
      have hsender : ({ net.endpoint side with
          wire, pending := (net.endpoint side).pending.tail } : Endpoint).Regular :=
        ⟨(h side).conn, hrest⟩
      have hboth := (h.update side hsender).update side.peer ((h side.peer).processFrame hframe
        (((net.endpoint side).pending.head?.map Prod.snd).getD ⟨side, 0⟩))
      split
      · exact hboth
      · exact hboth

theorem Regular.step {action : Action} (h : net.Regular) (hok : net.SendsSmall action) :
    (net.step action).Regular := by
  cases action with
  | call side api => exact h.update side ((h side).call _ hok)
  | takeFrame side => exact h.update side (h side).takeFrame
  | deliver side => exact h.deliver

/-- In every run whose payloads are smaller than `2 ^ 32` bytes, no frame on its way breaks a
rule of the protocol at its receiver, and the frames can be read back one by one, and in one way
only, from the bytes they are written as. -/
theorem frames_understood (maxSendQueueLen maxRecvBufferBytes : Side → Nat)
    (actions : List Action)
    (hrun : EveryStep step SendsSmall (new maxSendQueueLen maxRecvBufferBytes) actions)
    (side : Side) :
    let net := (new maxSendQueueLen maxRecvBufferBytes).run actions
    let frames := (net.endpoint side).inFlight
    (∀ frame ∈ frames, ∀ receiver : MultiplexedConnection,
      (receiver.processFrame frame.1 frame.2).1 ≠ .error .invalidStreamId ∧
        ∀ text, (receiver.processFrame frame.1 frame.2).1 ≠ .error (.protocolError text)) ∧
      (∀ frame ∈ frames, ∀ rest,
        StreamHeader.decodeFrom (Frame.encodeFrame frame ++ rest) =
            (some frame.1, frame.2 ++ rest) ∧
          frame.1.frameSize = (Frame.encodeFrame frame).length) ∧
      ∀ frames', (∀ frame ∈ frames', Frame.Fits frame) →
        frames'.flatMap Frame.encodeFrame = frames.flatMap Frame.encodeFrame →
          frames' = frames := by
  intro net frames
  have hregular : net.Regular :=
    hrun.invariant (fun _ _ h hok => Regular.step h hok) (regular_new _ _)
  have hframes : ∀ frame ∈ frames, Frame.Regular frame := fun _ => (hregular side).inFlight
  refine ⟨?_, ?_, ?_⟩
  · intro frame hframe receiver
    exact MultiplexedConnection.processFrame_accepted (hframes frame hframe)
  · intro frame hframe rest
    exact ⟨Frame.decodeFrom_encodeFrame frame rest,
      (Frame.length_encodeFrame (hframes frame hframe).fits).symm⟩
  · intro frames' hfits hbytes
    exact Frame.flatMap_encodeFrame_injective hfits
      (fun frame hframe => (hframes frame hframe).fits) hbytes

theorem frames_understood_alternatingOpens :
    let net := defaultEndpoints.run (alternatingOpens.take 7)
    (net.endpoint .b).inFlight.flatMap Frame.encodeFrame =
        [0, 1, 4, 0, 0, 0, 0, 0, 0, 2, 8, 0, 0, 0, 0, 0, 0, 1, 0, 0, 0, 0, 0, 1, 7,
          0, 2, 0, 0, 0, 0, 0, 1, 8] ∧
      ∀ frame ∈ (net.endpoint .b).inFlight, ∀ receiver : MultiplexedConnection,
        (receiver.processFrame frame.1 frame.2).1 ≠ .error .invalidStreamId ∧
          ∀ text, (receiver.processFrame frame.1 frame.2).1 ≠ .error (.protocolError text) :=
  ⟨by decide +kernel, (frames_understood _ _ (alternatingOpens.take 7) (by decide +kernel) .b).1⟩

end Network
end Dcp
