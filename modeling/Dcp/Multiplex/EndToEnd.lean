import Dcp.Multiplex.StreamFlow

/-!
What is read from a stream is what was sent on it. In every run whose openings draw unused ids,
the payloads read at one end of a stream are, in order and each once, a front of those sent at
the other; and while the reading end still receives and the sending end is not closed, what was
read, what waits to be read and what is on its way are together everything that was sent.
-/

namespace Dcp
open Library

namespace Endpoint
open MultiplexedConnection
variable {e e' : Endpoint} {opening o : Opening} {api : ApiCall} {a : UInt16}

/-- What a call does to the streams of an endpoint, to its trails and to the transcripts. -/
inductive Moves (e : Endpoint) (opening : Opening) (api : ApiCall) (e' : Endpoint) : Prop
  | wanes (hsent : e.sentBy api = none) (hread : e.readBy api = none)
      (hclosed : e'.conn.closed = e.conn.closed) (htrail : ∀ o a, e'.trail o a = e.trail o a)
      (hintake : ∀ o a, (e.intake o a).Wanes (e'.intake o a))
  | starts (id : UInt16) (hsent : e.sentBy api = none) (hread : e.readBy api = none)
      (hclosed : e'.conn.closed = e.conn.closed)
      (htrail : ∀ o a, e'.trail o a =
        e.trail o a ++ if o = opening ∧ a = id then [.announcement] else [])
      (hintake : ∀ o a, e'.intake o a =
        if o = opening ∧ a = id then .receiving [] else e.intake o a)
  | sends (id : UInt16) (data : List UInt8)
      (hsent : e.sentBy api = some ((e.origin id).opening, id, data))
      (hread : e.readBy api = none) (hopen : e.conn.closed = false)
      (hheld : e.conn.hasStream id) (hclosed : e'.conn.closed = e.conn.closed)
      (htrail : ∀ o a, e'.trail o a =
        e.trail o a ++ if o = (e.origin id).opening ∧ a = id then [.value data] else [])
      (hintake : ∀ o a, (e.intake o a).Wanes (e'.intake o a))
  | reads (id : UInt16) (data : List UInt8) (hsent : e.sentBy api = none)
      (hread : e.readBy api = some ((e.origin id).opening, id, data))
      (hclosed : e'.conn.closed = e.conn.closed) (htrail : ∀ o a, e'.trail o a = e.trail o a)
      (hhere : (e.intake (e.origin id).opening id).Reads data
        (e'.intake (e.origin id).opening id))
      (hothers : ∀ o a, ¬ (o = (e.origin id).opening ∧ a = id) → e'.intake o a = e.intake o a)
  | closes (hsent : e.sentBy api = none) (hread : e.readBy api = none)
      (hclosed : e'.conn.closed = true) (htrail : ∀ o a, e'.trail o a <+: e.trail o a)
      (hintake : ∀ o a, (e.intake o a).Wanes (e'.intake o a))

theorem Moves.of_wanes {conn : MultiplexedConnection} (h : Wanes e.conn conn) (owner : Opening)
    (hsent : e.sentBy api = none) (hread : e.readBy api = none) :
    Moves e opening api (e.advance conn owner) :=
  .wanes hsent hread h.closed (fun _ _ => trail_wanes h)
    fun _ a => intake_wanes rfl (h.streams a)

theorem trailOf_singleton (frame : Frame) (owner : Opening) :
    trailOf ([frame].map (·, owner)) o a =
      if o = owner ∧ a = frame.1.streamId then (parcel frame).toList else [] := by
  rw [List.map_singleton, trailOf_cons]
  by_cases h : owner = o ∧ frame.1.streamId = a
  · rw [if_pos h, if_pos ⟨h.1.symm, h.2.symm⟩]
    exact List.append_nil _
  · rw [if_neg h, if_neg fun h' => h ⟨h'.1.symm, h'.2.symm⟩]
    rfl

theorem openStream_moves (e : Endpoint) (opening : Opening) :
    Moves e opening .openStream (e.openStream opening) := by
  unfold Endpoint.openStream
  obtain ⟨id, hok, hstarts⟩ | ⟨⟨error, herror⟩, hwanes⟩ := e.conn.openStream_effect
  · simp only [hok]
    refine .starts id rfl rfl hstarts.closed ?_ ?_
    · intro o a
      refine (trail_advance hstarts.queue).trans ?_
      rw [trailOf_singleton, parcel_syn (StreamHeader.isSyn_syn id)]
      rfl
    · intro o a
      exact intake_started rfl hstarts.absent hstarts.started hstarts.others
  · simp only [herror]
    exact .of_wanes hwanes opening rfl rfl

theorem send_moves (e : Endpoint) (opening : Opening) (id : UInt16) (data : List UInt8) :
    Moves e opening (.send id data)
      (e.advance (e.conn.send id data).2 (e.origin id).opening) := by
  obtain ⟨hok, hsends⟩ | ⟨⟨error, herror⟩, hwanes⟩ := e.conn.send_effect id data
  · have htrail : ∀ o a, (e.advance (e.conn.send id data).2 (e.origin id).opening).trail o a =
        e.trail o a ++ if o = (e.origin id).opening ∧ a = id then
          (parcel (.data id (.ofNat data.length), data)).toList else [] := by
      intro o a
      rw [trail_advance hsends.queue, trailOf_singleton]
      rfl
    have hintake : ∀ o a, (e.intake o a).Wanes
        ((e.advance (e.conn.send id data).2 (e.origin id).opening).intake o a) :=
      fun _ a => intake_wanes rfl (hsends.streams a)
    by_cases hdata : data = []
    · refine .wanes ?_ rfl hsends.closed ?_ hintake
      · simp only [sentBy, hok, if_pos hdata]
      · intro o a
        rw [htrail, parcel_idle ⟨StreamHeader.isSyn_data .., hdata⟩]
        simp
    · refine .sends id data ?_ rfl hsends.opened hsends.held hsends.closed ?_ hintake
      · simp only [sentBy, hok, if_neg hdata]
      · intro o a
        rw [htrail, parcel_payload (StreamHeader.isSyn_data ..) hdata]
        rfl
  · exact .of_wanes hwanes _ (by simp only [sentBy, herror]) rfl

theorem recv_moves (e : Endpoint) (opening : Opening) (id : UInt16) :
    Moves e opening (.recv id) (e.advance (e.conn.recv id).2 (e.origin id).opening) := by
  obtain ⟨data, hok, hreads⟩ | ⟨hnone, hwanes⟩ := e.conn.recv_effect id
  · refine .reads id data rfl (by simp only [readBy, hok]) hreads.closed ?_ ?_ ?_
    · intro o a
      have hqueue : (e.conn.recv id).2.sendQueue = e.conn.sendQueue ++ [] := by
        rw [hreads.queue, List.append_nil]
      exact (trail_advance hqueue).trans (List.append_nil _)
    · rw [intake_of_opening rfl]
      exact (intake_of_opening (e := e.advance _ _) rfl).symm ▸ hreads.read
    · intro o a hne
      by_cases ha : a = id
      · subst ha
        have ho : (e.origin a).opening ≠ o := fun ho => hne ⟨ho.symm, rfl⟩
        rw [intake_of_opening_ne ho]
        exact intake_of_opening_ne ho
      · exact intake_congr rfl (hreads.others a ha)
  · refine .of_wanes hwanes _ rfl ?_
    simp only [readBy]

theorem call_moves (hregular : e.Regular) (opening : Opening) (api : ApiCall) :
    Moves e opening api (e.call opening api) := by
  cases api with
  | openStream => exact e.openStream_moves opening
  | send id data => exact e.send_moves opening id data
  | recv id => exact e.recv_moves opening id
  | closeStream id => exact .of_wanes (closeStream_effect hregular.conn id) _ rfl rfl
  | resetStream id error => exact .of_wanes (resetStream_effect hregular.conn id error) _ rfl rfl
  | close =>
      refine .closes rfl rfl rfl ?_ ?_
      · intro o a
        exact trailOf_prefix (List.take_prefix _ _)
      · intro o a
        exact intake_wanes rfl (close_effect e.conn a)

/-- What a delivered frame does to the streams of its receiver. The sender's trail is still as it
was before the frame was taken from it. -/
inductive Absorbs (e : Endpoint) (frame : Frame) (opening : Opening) (e' : Endpoint) : Prop
  | accepts (hsyn : parcel frame = some .announcement)
      (habsent : e.conn.intake frame.1.streamId = .absent)
      (hintake : ∀ o a, e'.intake o a =
        if o = opening ∧ a = frame.1.streamId then .receiving [] else e.intake o a)
  | takes (hpayload : parcel frame = some (.value frame.2))
      (hreaches : Frame.reaches frame frame.1.streamId)
      (hheld : e.conn.hasStream frame.1.streamId)
      (htaken : ∃ buffer, e.conn.intake frame.1.streamId = .receiving buffer ∧
        e'.conn.intake frame.1.streamId = .receiving (buffer ++ [frame.2]))
      (horigin : e'.origin = e.origin)
      (hothers : ∀ a, a ≠ frame.1.streamId → e'.conn.intake a = e.conn.intake a)
  | wanes (hintake : ∀ o a, (e.intake o a).Wanes (e'.intake o a))
      (hstopped : ∀ data, parcel frame = some (.value data) →
        ∀ o, ¬ (e'.intake o frame.1.streamId).IsReceiving)

/-- A receiver answers with frames that carry nothing, and takes in what it can. -/
theorem processFrame_absorbs (hregular : e.Regular) {frame : Frame}
    (hframe : Frame.Regular frame) (opening : Opening) :
    (e.processFrame frame opening).conn.closed = e.conn.closed ∧
      (∀ o a, (e.processFrame frame opening).trail o a = e.trail o a) ∧
      Absorbs e frame opening (e.processFrame frame opening) := by
  unfold Endpoint.processFrame
  obtain ⟨header, payload⟩ := frame
  obtain ⟨hsyn, hok, hstarts⟩ | ⟨hsyn, hpayload, htakes⟩ | ⟨herror, hwanes, hstopped⟩ :=
    processFrame_effect hframe hregular.conn
  · simp only [hsyn, hok]
    refine ⟨hstarts.closed, ?_, .accepts (parcel_syn hsyn) hstarts.absent ?_⟩
    · intro o a
      refine (trail_advance hstarts.queue).trans ?_
      rw [trailOf_singleton, parcel_idle ⟨StreamHeader.isSyn_ack _, rfl⟩]
      simp
    · intro o a
      exact intake_started rfl hstarts.absent hstarts.started hstarts.others
  · simp only [hsyn]
    have hqueue : (e.conn.processFrame header payload).2.sendQueue = e.conn.sendQueue ++ [] := by
      rw [htakes.queue, List.append_nil]
    obtain ⟨buffer, hbefore, hafter⟩ := htakes.taken
    refine ⟨htakes.closed, ?_, .takes (parcel_payload hsyn hpayload) ⟨rfl, .inr hpayload⟩ ?_
      ⟨buffer, hbefore, hafter⟩ rfl htakes.others⟩
    · intro o a
      exact (trail_advance hqueue).trans (List.append_nil _)
    · by_contra hnot
      rw [intake_eq_absent_iff.mpr hnot] at hbefore
      cases hbefore
  · have hquiet : ∀ e' : Endpoint, e' = e.advance (e.conn.processFrame header payload).2 opening →
        e'.conn.closed = e.conn.closed ∧ (∀ o a, e'.trail o a = e.trail o a) ∧
          Absorbs e (header, payload) opening e' := by
      rintro e' rfl
      refine ⟨hwanes.closed, fun o a => trail_wanes hwanes, .wanes ?_ ?_⟩
      · intro o a
        exact intake_wanes rfl (hwanes.streams a)
      · intro data hdata o
        have hpayload : payload ≠ [] := by
          intro hnil
          unfold parcel at hdata
          rw [if_pos hnil] at hdata
          split at hdata <;> cases hdata
        unfold Endpoint.intake
        split
        · exact hstopped hpayload
        · exact not_false
    dsimp only
    split
    · next hsyn hok =>
        obtain ⟨error, herror⟩ := herror hsyn
        rw [herror] at hok
        cases hok
    · exact hquiet _ rfl

end Endpoint

namespace Network
variable {net : Network} {side : Side}

/-- The endpoints after a delivery. -/
theorem endpoint_deliver_eq {frame : Frame} {wire : List Frame} {opening : Opening}
    {rest : List (Frame × Opening)} (hwire : (net.endpoint side).wire = frame :: wire)
    (hpending : (net.endpoint side).pending = (frame, opening) :: rest) :
    (net.deliver side).endpoint side = { net.endpoint side with wire, pending := rest } ∧
      (net.deliver side).endpoint side.peer =
        (net.endpoint side.peer).processFrame frame opening ∧
      (net.deliver side).openings = net.openings := by
  have hendpoint : ∀ other, (net.deliver side).endpoint other =
      ((net.update side { net.endpoint side with wire, pending := rest }).update side.peer
        ((net.endpoint side.peer).processFrame frame opening)).endpoint other ∧
      (net.deliver side).openings = net.openings := by
    intro other
    simp only [Network.deliver, hwire, hpending, List.head?_cons, Option.map_some,
      Option.getD_some, List.tail_cons]
    split <;> exact ⟨rfl, rfl⟩
  refine ⟨?_, ?_, (hendpoint side).2⟩
  · rw [(hendpoint side).1, endpoint_update_of_ne side.peer_ne.symm, endpoint_update]
  · rw [(hendpoint side.peer).1, endpoint_update]

theorem openings_deliver (net : Network) (side : Side) :
    (net.deliver side).openings = net.openings := by
  unfold Network.deliver
  dsimp only
  split
  · rfl
  split <;> rfl

end Network
namespace Recorded
open Endpoint
variable {r : Recorded} {side : Side} {o : Opening} {a : UInt16} {api : ApiCall}

/-- The streams are isolated, what is carried belongs to calls that were made, and every flow is
in order. -/
structure Sound (r : Recorded) : Prop where
  consistent : r.net.Consistent
  regular : r.net.Regular
  dated : ∀ side id o, (r.net.endpoint side).Carries id o → o.number < r.net.openings
  sent : ∀ side o a, r.net.openings ≤ o.number → r.sent side o a = []
  read : ∀ side o a, r.net.openings ≤ o.number → r.read side o a = []
  flows : ∀ side o a, (r.flow side o a).InOrder

/-- What an action may ask for: openings of unused ids, and payloads that a header can announce. -/
def Proper (r : Recorded) (action : Action) : Prop :=
  r.net.OpensUnusedId action ∧ r.net.SendsSmall action

instance (r : Recorded) (action : Action) : Decidable (r.Proper action) :=
  inferInstanceAs (Decidable (_ ∧ _))

theorem Sound.flow_unused (h : r.Sound) (ho : r.net.openings ≤ o.number) :
    (r.flow side o a).Unused where
  sent := h.sent side o a ho
  read := h.read side.peer o a ho
  trail := by
    by_contra hne
    exact absurd (h.dated side a o (carries_of_trail hne)) (Nat.not_lt.mpr ho)
  intake := by
    by_contra hne
    exact absurd (h.dated side.peer a o (carries_of_intake hne)) (Nat.not_lt.mpr ho)

/-- The flow that leaves from the side of a call. -/
theorem flow_call_own (r : Recorded) (side : Side) (api : ApiCall) (o : Opening) (a : UInt16) :
    let e := (r.net.endpoint side).call ⟨side, r.net.openings⟩ api
    (r.step (.call side api)).flow side o a = { r.flow side o a with
      sent := r.sent.note side ((r.net.endpoint side).sentBy api) side o a
      trail := e.trail o a
      ended := e.conn.closed } := by
  have hown : (r.net.step (.call side api)).endpoint side =
      (r.net.endpoint side).call ⟨side, r.net.openings⟩ api := Function.update_self ..
  have hpeer : (r.net.step (.call side api)).endpoint side.peer = r.net.endpoint side.peer :=
    Function.update_of_ne side.peer_ne ..
  simp only [flow, hown, hpeer, step, Transcript.note_of_side side.peer_ne]

/-- The flow that arrives at the side of a call. -/
theorem flow_call_peer (r : Recorded) (side : Side) (api : ApiCall) (o : Opening) (a : UInt16) :
    let e := (r.net.endpoint side).call ⟨side, r.net.openings⟩ api
    (r.step (.call side api)).flow side.peer o a = { r.flow side.peer o a with
      intake := e.intake o a
      read := r.read.note side ((r.net.endpoint side).readBy api) side o a } := by
  have hown : (r.net.step (.call side api)).endpoint side =
      (r.net.endpoint side).call ⟨side, r.net.openings⟩ api := Function.update_self ..
  have hpeer : (r.net.step (.call side api)).endpoint side.peer = r.net.endpoint side.peer :=
    Function.update_of_ne side.peer_ne ..
  simp only [flow, hown, hpeer, step, Transcript.note_of_side side.peer_ne, Side.peer_peer]

theorem Sound.call_own (h : r.Sound) (side : Side) (api : ApiCall) (o : Opening) (a : UInt16) :
    ((r.step (.call side api)).flow side o a).InOrder := by
  have hflow := h.flows side o a
  have hmoves := call_moves (h.regular side) ⟨side, r.net.openings⟩ api
  rw [flow_call_own]
  dsimp only
  generalize (r.net.endpoint side).call ⟨side, r.net.openings⟩ api = e at hmoves ⊢
  cases hmoves with
  | wanes hsent hread hclosed htrail hintake =>
      rw [hsent, hclosed, htrail]
      exact hflow
  | starts id hsent hread hclosed htrail hintake =>
      rw [hsent, hclosed, htrail]
      by_cases hnew : o = ⟨side, r.net.openings⟩ ∧ a = id
      · rw [if_pos hnew]
        have hunused : (r.flow side o a).Unused := h.flow_unused (by rw [hnew.1])
        have hnone : (r.net.endpoint side).trail o a = [] := hunused.trail
        rw [hnone]
        exact hflow.step (.announces hunused)
      · rw [if_neg hnew, List.append_nil]
        exact hflow
  | sends id data hsent hread hopen hheld hclosed htrail hintake =>
      rw [hsent, hclosed, htrail]
      by_cases hhere : o = ((r.net.endpoint side).origin id).opening ∧ a = id
      · rw [if_pos hhere]
        obtain ⟨rfl, rfl⟩ := hhere
        rw [Transcript.note_self]
        exact hflow.step (.sends data hopen)
      · rw [if_neg hhere, List.append_nil, Transcript.note_of_ne fun heq => hhere heq.2]
        exact hflow
  | reads id data hsent hread hclosed htrail hhere hothers =>
      rw [hsent, hclosed, htrail]
      exact hflow
  | closes hsent hread hclosed htrail hintake =>
      rw [hsent, hclosed]
      exact hflow.step (.ends (htrail o a))

theorem Sound.call_peer (h : r.Sound) (side : Side) (api : ApiCall) (o : Opening) (a : UInt16) :
    ((r.step (.call side api)).flow side.peer o a).InOrder := by
  have hflow := h.flows side.peer o a
  have hmoves := call_moves (h.regular side) ⟨side, r.net.openings⟩ api
  have hintake' : (r.flow side.peer o a).intake = (r.net.endpoint side).intake o a := by
    rw [flow, Side.peer_peer]
  have hread' : (r.flow side.peer o a).read = r.read side o a := by
    rw [flow, Side.peer_peer]
  rw [flow_call_peer]
  dsimp only
  generalize (r.net.endpoint side).call ⟨side, r.net.openings⟩ api = e at hmoves ⊢
  have hwanes : ((r.net.endpoint side).intake o a).Wanes (e.intake o a) →
      ({ r.flow side.peer o a with
        intake := e.intake o a, read := r.read side o a } : Flow (List UInt8)).InOrder := by
    intro hwanes
    rw [← hread']
    exact hflow.step (.wanes (hintake' ▸ hwanes))
  cases hmoves with
  | wanes hsent hread hclosed htrail hintake =>
      rw [hread]
      exact hwanes (hintake o a)
  | starts id hsent hread hclosed htrail hintake =>
      rw [hread]
      by_cases hnew : o = ⟨side, r.net.openings⟩ ∧ a = id
      · have hunused : (r.flow side.peer o a).Unused := h.flow_unused (by rw [hnew.1])
        rw [hintake, if_pos hnew, Transcript.note_none, ← hread']
        exact hflow.step (.starts hunused)
      · refine hwanes ?_
        rw [hintake, if_neg hnew]
        exact .same _
  | sends id data hsent hread hopen hheld hclosed htrail hintake =>
      rw [hread]
      exact hwanes (hintake o a)
  | reads id data hsent hread hclosed htrail hhere hothers =>
      rw [hread]
      by_cases hstream : o = ((r.net.endpoint side).origin id).opening ∧ a = id
      · obtain ⟨rfl, rfl⟩ := hstream
        rw [Transcript.note_self, ← hread']
        exact hflow.step (.reads (hintake' ▸ hhere))
      · rw [Transcript.note_of_ne fun heq => hstream heq.2]
        refine hwanes ?_
        rw [hothers o a hstream]
        exact .same _
  | closes hsent hread hclosed htrail hintake =>
      rw [hread]
      exact hwanes (hintake o a)

/-- The flow of the side whose frame is delivered. -/
theorem Sound.deliver_own (h : r.Sound) (side : Side) (o : Opening) (a : UInt16) :
    ((r.step (.deliver side)).flow side o a).InOrder := by
  have hflow := h.flows side o a
  cases hwire : (r.net.endpoint side).wire with
  | nil =>
      have hsame : r.net.deliver side = r.net := by simp only [Network.deliver, hwire]
      change (flow { r with net := r.net.deliver side } side o a).InOrder
      rw [hsame]
      exact hflow
  | cons frame wire =>
      obtain ⟨opening, rest, hpending, -⟩ := deliver_sound (h.consistent.sound side) hwire
      obtain ⟨hown, hpeer, -⟩ := Network.endpoint_deliver_eq hwire hpending
      have hframe := (h.regular side).wire frame (hwire ▸ List.mem_cons_self)
      obtain ⟨-, -, habsorbs⟩ := processFrame_absorbs (h.regular side.peer) hframe opening
      have hafter : (r.step (.deliver side)).flow side o a = { r.flow side o a with
          trail := trailOf rest o a
          intake := ((r.net.endpoint side.peer).processFrame frame opening).intake o a } := by
        simp only [flow, step, Network.step, hown, hpeer]
        rfl
      have htrail : (r.flow side o a).trail =
          (if opening = o ∧ frame.1.streamId = a then parcel frame else none).toList ++
            trailOf rest o a := by
        rw [← trailOf_cons, ← hpending]
        rfl
      rw [hafter]
      generalize (r.net.endpoint side.peer).processFrame frame opening = e at habsorbs ⊢
      by_cases hhere : opening = o ∧ frame.1.streamId = a
      · rw [if_pos hhere] at htrail
        obtain ⟨rfl, rfl⟩ := hhere
        cases habsorbs with
        | accepts hsyn habsent hintake =>
            rw [hsyn] at htrail
            rw [hintake, if_pos ⟨rfl, rfl⟩]
            exact hflow.step (.accepts htrail (intake_of_absent habsent))
        | takes hpayload hreaches hheld htaken horigin hothers =>
            rw [hpayload] at htrail
            obtain ⟨buffer, hbefore, hthen⟩ := htaken
            have hsame : ((r.net.endpoint side.peer).origin frame.1.streamId).opening = opening :=
              h.consistent.agree _ side.peer side _ _ (.inl ⟨hheld, rfl⟩)
                (.inr ⟨frame, hpending ▸ List.mem_cons_self, hreaches⟩)
            have hintake : e.intake opening frame.1.streamId =
                .receiving (buffer ++ [frame.2]) := by
              rw [intake_of_opening (horigin ▸ hsame), hthen]
            rw [hintake]
            exact hflow.step (.takes htrail ((intake_of_opening hsame).trans hbefore))
        | wanes hintake hstopped =>
            cases hparcel : parcel frame with
            | none =>
                rw [hparcel] at htrail
                have hrest : trailOf rest opening frame.1.streamId =
                    (r.flow side opening frame.1.streamId).trail := htrail.symm
                rw [hrest]
                exact hflow.step (.wanes (hintake _ _))
            | some first =>
                rw [hparcel] at htrail
                cases first with
                | announcement => exact hflow.step (.refuses htrail (hintake _ _))
                | value data =>
                    exact hflow.step (.drops htrail (hintake _ _) (hstopped data hparcel _))
      · rw [if_neg hhere] at htrail
        have hrest : trailOf rest o a = (r.flow side o a).trail := htrail.symm
        rw [hrest]
        refine hflow.step (.wanes ?_)
        cases habsorbs with
        | accepts hsyn habsent hintake =>
            rw [hintake, if_neg fun heq => hhere ⟨heq.1.symm, heq.2.symm⟩]
            exact .same _
        | takes hpayload hreaches hheld htaken horigin hothers =>
            by_cases ha : a = frame.1.streamId
            · have hsame : ((r.net.endpoint side.peer).origin frame.1.streamId).opening = opening :=
                h.consistent.agree _ side.peer side _ _ (.inl ⟨hheld, rfl⟩)
                  (.inr ⟨frame, hpending ▸ List.mem_cons_self, hreaches⟩)
              subst ha
              have ho : opening ≠ o := fun ho => hhere ⟨ho, rfl⟩
              rw [intake_of_opening_ne (horigin ▸ hsame.symm ▸ ho)]
              exact .leaves _
            · rw [intake_congr (congrFun horigin a) (hothers a ha)]
              exact .same _
        | wanes hintake hstopped => exact hintake o a

/-- The flow back to that side is not touched by what the receiver answers. -/
theorem Sound.deliver_peer (h : r.Sound) (side : Side) (o : Opening) (a : UInt16) :
    (r.step (.deliver side)).flow side.peer o a = r.flow side.peer o a := by
  cases hwire : (r.net.endpoint side).wire with
  | nil =>
      have hsame : r.net.deliver side = r.net := by simp only [Network.deliver, hwire]
      change flow { r with net := r.net.deliver side } side.peer o a = _
      rw [hsame]
  | cons frame wire =>
      obtain ⟨opening, rest, hpending, -⟩ := deliver_sound (h.consistent.sound side) hwire
      obtain ⟨hown, hpeer, -⟩ := Network.endpoint_deliver_eq hwire hpending
      have hframe := (h.regular side).wire frame (hwire ▸ List.mem_cons_self)
      obtain ⟨hclosed, htrail, -⟩ := processFrame_absorbs (h.regular side.peer) hframe opening
      simp only [flow, step, Network.step, Side.peer_peer, hown, hpeer, hclosed, htrail]
      rfl

theorem flow_takeFrame (r : Recorded) (side other : Side) (o : Opening) (a : UInt16) :
    (r.step (.takeFrame side)).flow other o a = r.flow other o a := by
  have htaken : ∀ e : Endpoint, e.takeFrame.trail o a = e.trail o a ∧
      e.takeFrame.intake o a = e.intake o a ∧ e.takeFrame.conn.closed = e.conn.closed := by
    intro e
    unfold Endpoint.takeFrame MultiplexedConnection.takeFrame
    cases e.conn.sendQueue with
    | nil => exact ⟨rfl, rfl, rfl⟩
    | cons frame queue => exact ⟨rfl, rfl, rfl⟩
  have hendpoint : ∀ x, ((r.net.step (.takeFrame side)).endpoint x).trail o a =
        (r.net.endpoint x).trail o a ∧
      ((r.net.step (.takeFrame side)).endpoint x).intake o a = (r.net.endpoint x).intake o a ∧
      ((r.net.step (.takeFrame side)).endpoint x).conn.closed =
        (r.net.endpoint x).conn.closed := by
    intro x
    change ((r.net.update side (r.net.endpoint side).takeFrame).endpoint x).trail o a = _ ∧
      ((r.net.update side (r.net.endpoint side).takeFrame).endpoint x).intake o a = _ ∧
      ((r.net.update side (r.net.endpoint side).takeFrame).endpoint x).conn.closed = _
    by_cases hx : x = side
    · subst hx
      rw [Network.endpoint_update]
      exact htaken _
    · rw [Network.endpoint_update_of_ne hx]
      exact ⟨rfl, rfl, rfl⟩
  obtain ⟨htrail, -, hclosed⟩ := hendpoint other
  obtain ⟨-, hintake, -⟩ := hendpoint other.peer
  simp only [flow, step, htrail, hintake, hclosed]

theorem Sound.call (h : r.Sound) (side : Side) (api : ApiCall)
    (hok : r.Proper (.call side api)) : (r.step (.call side api)).Sound := by
  have hregular := Network.Regular.step h.regular hok.2
  obtain ⟨-, hcarries⟩ :=
    call_sound (h.consistent.sound side) ⟨side, r.net.openings⟩ rfl api
  have hmoves := call_moves (h.regular side) ⟨side, r.net.openings⟩ api
  refine ⟨h.consistent.step hok.1, hregular, ?_, ?_, ?_, ?_⟩
  · intro other id o hnew
    change o.number < r.net.openings + 1
    refine Nat.lt_succ_iff.mpr ?_
    by_cases hother : other = side
    · subst hother
      have hnew' : ((r.net.endpoint other).call ⟨other, r.net.openings⟩ api).Carries id o := by
        rwa [net_step, Network.step, Network.endpoint_update] at hnew
      obtain hold | ⟨-, -, -, rfl⟩ := hcarries id o hnew'
      · exact Nat.le_of_lt (h.dated other id o hold)
      · exact Nat.le_refl _
    · have hold : (r.net.endpoint other).Carries id o := by
        rwa [net_step, Network.step, Network.endpoint_update_of_ne hother] at hnew
      exact Nat.le_of_lt (h.dated other id o hold)
  · intro other o a ho
    have hbefore : r.net.openings < o.number := ho
    change r.sent.note side _ other o a = []
    cases hmoves with
    | sends id data hsent hread hopen hheld hclosed htrail hintake =>
        have hdated := h.dated side id _ (.inl ⟨hheld, rfl⟩)
        rw [hsent, Transcript.note_of_ne]
        · exact h.sent other o a (Nat.le_of_lt hbefore)
        · rintro ⟨-, rfl, -⟩
          omega
    | wanes hsent | starts _ hsent | reads _ _ hsent | closes hsent =>
        rw [hsent]
        exact h.sent other o a (Nat.le_of_lt hbefore)
  · intro other o a ho
    have hbefore : r.net.openings < o.number := ho
    change r.read.note side _ other o a = []
    cases hmoves with
    | reads id data hsent hread hclosed htrail hhere hothers =>
        have hheld : (r.net.endpoint side).intake ((r.net.endpoint side).origin id).opening id ≠
            .absent := by
          intro habsent
          rw [habsent] at hhere
          cases hhere
        have hdated := h.dated side id _ (carries_of_intake hheld)
        rw [hread, Transcript.note_of_ne]
        · exact h.read other o a (Nat.le_of_lt hbefore)
        · rintro ⟨-, rfl, -⟩
          omega
    | wanes _ hread | starts _ _ hread | sends _ _ _ hread | closes _ hread =>
        rw [hread]
        exact h.read other o a (Nat.le_of_lt hbefore)
  · intro other o a
    obtain rfl | rfl := Side.eq_or_eq_peer side other
    · exact h.call_own other api o a
    · exact h.call_peer side api o a

theorem Sound.takeFrame (h : r.Sound) (side : Side) : (r.step (.takeFrame side)).Sound := by
  obtain ⟨-, hcarries⟩ := takeFrame_sound (h.consistent.sound side)
  refine ⟨h.consistent.takeFrame, h.regular.update side (h.regular side).takeFrame, ?_, h.sent,
    h.read, ?_⟩
  · intro other id o hnew
    by_cases hother : other = side
    · subst hother
      have hnew' : (r.net.endpoint other).takeFrame.Carries id o := by
        rwa [net_step, Network.step, Network.endpoint_update] at hnew
      exact h.dated other id o (hcarries id o hnew')
    · have hold : (r.net.endpoint other).Carries id o := by
        rwa [net_step, Network.step, Network.endpoint_update_of_ne hother] at hnew
      exact h.dated other id o hold
  · intro other o a
    rw [flow_takeFrame]
    exact h.flows other o a

theorem Sound.deliver (h : r.Sound) (side : Side) : (r.step (.deliver side)).Sound := by
  refine ⟨h.consistent.deliver, h.regular.deliver, ?_, ?_, ?_, ?_⟩
  · cases hwire : (r.net.endpoint side).wire with
    | nil =>
        have hsame : r.net.deliver side = r.net := by simp only [Network.deliver, hwire]
        change ∀ other id o, ((r.net.deliver side).endpoint other).Carries id o →
          o.number < (r.net.deliver side).openings
        rw [hsame]
        exact h.dated
    | cons frame wire =>
        obtain ⟨opening, rest, hpending, -⟩ := deliver_sound (h.consistent.sound side) hwire
        obtain ⟨hown, hpeer, hopenings⟩ := Network.endpoint_deliver_eq hwire hpending
        have hfirst : (frame, opening) ∈ (r.net.endpoint side).pending := by simp [hpending]
        obtain ⟨-, hcarries, -⟩ := processFrame_sound frame opening
          (h.consistent.sound side.peer) (fun hsyn => by
            rw [Side.peer_peer]
            exact (h.consistent.sound side).syn frame opening hfirst hsyn)
        intro other id o hnew
        change o.number < (r.net.deliver side).openings
        change ((r.net.deliver side).endpoint other).Carries id o at hnew
        rw [hopenings]
        obtain rfl | rfl := Side.eq_or_eq_peer side other
        · rw [hown] at hnew
          refine h.dated other id o (hnew.imp_right ?_)
          rintro ⟨f, hf, hreaches⟩
          exact ⟨f, hpending ▸ List.mem_cons_of_mem _ hf, hreaches⟩
        · rw [hpeer] at hnew
          obtain hold | ⟨hreaches, rfl⟩ := hcarries id o hnew
          · exact h.dated side.peer id o hold
          · exact h.dated side id o (.inr ⟨frame, hfirst, hreaches⟩)
  · intro other o a ho
    refine h.sent other o a (Nat.le_trans ?_ ho)
    exact (Network.openings_deliver r.net side).ge
  · intro other o a ho
    refine h.read other o a (Nat.le_trans ?_ ho)
    exact (Network.openings_deliver r.net side).ge
  · intro other o a
    obtain rfl | rfl := Side.eq_or_eq_peer side other
    · exact h.deliver_own other o a
    · rw [h.deliver_peer]
      exact h.flows side.peer o a

theorem Sound.step {action : Action} (h : r.Sound) (hok : r.Proper action) :
    (r.step action).Sound := by
  cases action with
  | call side api => exact h.call side api hok
  | takeFrame side => exact h.takeFrame side
  | deliver side => exact h.deliver side

theorem sound_new (maxSendQueueLen maxRecvBufferBytes : Side → Nat) :
    (new maxSendQueueLen maxRecvBufferBytes).Sound where
  consistent := Network.consistent_new _ _
  regular := Network.regular_new _ _
  dated side id o h := by
    obtain ⟨hheld, -⟩ | ⟨_, hframe, -⟩ := h
    · cases hheld
    · cases hframe
  sent _ _ _ _ := rfl
  read _ _ _ _ := rfl
  flows side o a := by
    refine Flow.Unused.inOrder ⟨rfl, rfl, ?_, rfl⟩
    exact intake_of_absent rfl

/-- In every run of two fresh endpoints whose openings draw unused ids, what was read of a
stream at one end is a front of what was sent on it at the other, and while the reading end
receives and the sending end is not closed, nothing of it is lost. -/
theorem delivered_in_order (maxSendQueueLen maxRecvBufferBytes : Side → Nat)
    (actions : List Action)
    (hrun : EveryStep step Proper (new maxSendQueueLen maxRecvBufferBytes) actions)
    (side : Side) (o : Opening) (id : UInt16) :
    let r := (new maxSendQueueLen maxRecvBufferBytes).run actions
    r.read side.peer o id <+: r.sent side o id ∧
      ∀ state, (r.net.endpoint side.peer).conn.streams.lookup id = some state →
        ((r.net.endpoint side.peer).origin id).opening = o → state.status.canReceive = true →
          (r.net.endpoint side).conn.closed = false →
            ∃ values, (r.net.endpoint side).trail o id = values.map .value ∧
              r.read side.peer o id ++ state.recvBuffer ++ values = r.sent side o id := by
  intro r
  have hsound : r.Sound := hrun.invariant (fun _ _ h hok => Sound.step h hok) (sound_new _ _)
  have hflow := hsound.flows side o id
  refine ⟨hflow.read_prefix, ?_⟩
  intro state hlookup horigin hstatus hopen
  refine hflow.complete ?_ hopen
  refine (intake_of_opening horigin).trans ?_
  rw [MultiplexedConnection.intake_of_lookup hlookup]
  exact if_pos hstatus

/-- One side opens a stream and sends on it twice; the other has read the first payload, has
the second, and the third is on its way. -/
def threePayloads : List Action :=
  [.call .a .openStream, .call .a (.send 1 [7]), .call .a (.send 1 [8, 9]), .takeFrame .a,
    .takeFrame .a, .takeFrame .a, .deliver .a, .deliver .a, .deliver .a, .call .b (.recv 1),
    .call .a (.send 1 [10])]

theorem delivered_in_order_threePayloads :
    let r := (new (fun _ => 1024) fun _ => 65536).run threePayloads
    r.sent .a ⟨.a, 0⟩ 1 = [[7], [8, 9], [10]] ∧ r.read .b ⟨.a, 0⟩ 1 = [[7]] ∧
      r.read .b ⟨.a, 0⟩ 1 <+: r.sent .a ⟨.a, 0⟩ 1 :=
  ⟨by decide +kernel, by decide +kernel,
    (delivered_in_order _ _ threePayloads (by decide +kernel) .a ⟨.a, 0⟩ 1).1⟩

end Recorded
end Dcp
