import Dcp.Library.Run
import Dcp.Multiplex.Network

/-!
Streams of two endpoints are isolated in every run whose openings draw unused ids. At any
time all entries, SYN frames and data frames of one id go back to one opening: a call that is
not an opening only copies an opening that is already there, and an opening of an unused id
is the only one. Both endpoints draw ids from the same numbers, so without that condition two
openings can meet under one id.
-/

namespace Dcp
open Library

namespace Endpoint
variable {e : Endpoint} {conn : MultiplexedConnection} {opening : Opening} {side : Side}

/-- An entry or an undelivered SYN or data frame of the id goes back to the opening. -/
def Carries (e : Endpoint) (id : UInt16) (opening : Opening) : Prop :=
  (e.conn.hasStream id ∧ (e.origin id).opening = opening) ∨
    ∃ frame, (frame, opening) ∈ e.pending ∧ Frame.reaches frame id

/-- The record of an endpoint fits its connection. -/
structure Sound (side : Side) (e : Endpoint) : Prop where
  pending : e.pending.map Prod.fst = e.inFlight
  opened : ∀ id opening, e.conn.hasStream id → e.origin id = .opened opening → opening.side = side
  accepted : ∀ id opening, e.conn.hasStream id → e.origin id = .accepted opening →
    opening.side = side.peer
  syn : ∀ frame opening, (frame, opening) ∈ e.pending → frame.1.flags.isSyn = true →
    opening.side = side

theorem mem_pending_advance {queued : List Frame} (h : conn.sendQueue = e.conn.sendQueue ++ queued)
    (frame : Frame) (o : Opening) :
    (frame, o) ∈ (e.advance conn opening).pending ↔
      (frame, o) ∈ e.pending ∨ (frame ∈ queued ∧ o = opening) := by
  simp only [advance, h, List.drop_left, List.mem_append, List.mem_map, Prod.mk.injEq]
  constructor
  · rintro (hold | ⟨f, hf, rfl, rfl⟩)
    · exact .inl hold
    · exact .inr ⟨hf, rfl⟩
  · rintro (hold | ⟨hf, rfl⟩)
    · exact .inl hold
    · exact .inr ⟨frame, hf, rfl, rfl⟩

theorem pending_advance {queued : List Frame} (h : conn.sendQueue = e.conn.sendQueue ++ queued)
    (hpending : e.pending.map Prod.fst = e.inFlight) :
    (e.advance conn opening).pending.map Prod.fst = (e.advance conn opening).inFlight := by
  have hqueued : (queued.map (·, opening)).map Prod.fst = queued := by
    simp [Function.comp_def]
  simp only [inFlight] at hpending
  simp only [advance, inFlight, h, List.drop_left, List.map_append, hqueued, hpending,
    List.append_assoc]

/-- A call that adds no stream and queues no SYN keeps the record sound. -/
theorem Sound.advance {queued : List Frame} (hsound : e.Sound side)
    (hstreams : ∀ id, conn.hasStream id → e.conn.hasStream id)
    (hqueue : conn.sendQueue = e.conn.sendQueue ++ queued)
    (hsyn : ∀ frame ∈ queued, frame.1.flags.isSyn = true → opening.side = side) :
    (e.advance conn opening).Sound side where
  pending := pending_advance hqueue hsound.pending
  opened id o hid := hsound.opened id o (hstreams id hid)
  accepted id o hid := hsound.accepted id o (hstreams id hid)
  syn frame o hframe hflag := by
    obtain hold | ⟨hnew, rfl⟩ := (mem_pending_advance hqueue frame o).mp hframe
    · exact hsound.syn frame o hold hflag
    · exact hsyn frame hnew hflag

/-- A call that adds no stream carries what was carried and the frames it queued. -/
theorem Carries.of_advance {queued : List Frame} {id : UInt16} {o : Opening}
    (hstreams : ∀ id, conn.hasStream id → e.conn.hasStream id)
    (hqueue : conn.sendQueue = e.conn.sendQueue ++ queued)
    (h : (e.advance conn opening).Carries id o) :
    e.Carries id o ∨ (o = opening ∧ ∃ frame ∈ queued, Frame.reaches frame id) := by
  obtain ⟨hheld, horigin⟩ | ⟨frame, hframe, hreaches⟩ := h
  · exact .inl (.inl ⟨hstreams id hheld, horigin⟩)
  · obtain hold | ⟨hnew, rfl⟩ := (mem_pending_advance hqueue frame o).mp hframe
    · exact .inl (.inr ⟨frame, hold, hreaches⟩)
    · exact .inr ⟨rfl, frame, hnew, hreaches⟩

section
variable (h : e.conn.Quiet conn)
include h

theorem Sound.quiet (hsound : e.Sound side) : (e.advance conn opening).Sound side := by
  obtain ⟨queued, hqueue, hquiet⟩ := h.queue
  refine hsound.advance h.streams hqueue ?_
  intro frame hframe hflag
  exact absurd ⟨rfl, .inl hflag⟩ (hquiet frame hframe frame.1.streamId)

theorem Carries.of_quiet {id : UInt16} {o : Opening}
    (hcarries : (e.advance conn opening).Carries id o) : e.Carries id o := by
  obtain ⟨queued, hqueue, hquiet⟩ := h.queue
  obtain hold | ⟨-, frame, hframe, hreaches⟩ := hcarries.of_advance h.streams hqueue
  · exact hold
  · exact absurd hreaches (hquiet frame hframe id)

end

section
variable {id : UInt16} {data : List UInt8} (h : e.conn.Sends id data conn)
include h

theorem Sound.sends (hsound : e.Sound side) : (e.advance conn opening).Sound side := by
  refine hsound.advance h.streams h.queue ?_
  intro frame hframe hflag
  rw [List.mem_singleton] at hframe
  subst hframe
  simp at hflag

/-- The data of a stream goes back to the opening of its entry. -/
theorem Carries.of_sends {a : UInt16} {o : Opening}
    (hcarries : (e.advance conn (e.origin id).opening).Carries a o) : e.Carries a o := by
  obtain hold | ⟨rfl, frame, hframe, hreaches⟩ := hcarries.of_advance h.streams h.queue
  · exact hold
  · rw [List.mem_singleton] at hframe
    subst hframe
    have ha : id = a := hreaches.1
    subst ha
    exact .inl ⟨h.held, rfl⟩

end

section
variable {id : UInt16} {flags : StreamFlags} {origin : Origin} (h : e.conn.Creates id flags conn)
include h

theorem Sound.creates (hsound : e.Sound side)
    (hopened : ∀ o, origin = .opened o → o.side = side)
    (haccepted : ∀ o, origin = .accepted o → o.side = side.peer)
    (hsyn : flags.isSyn = true → opening.side = side) :
    ((e.advance conn opening).setOrigin id origin).Sound side where
  pending := pending_advance h.queue hsound.pending
  opened a o ha ho := by
    simp only [setOrigin, Function.update_apply] at ho
    split at ho
    · exact hopened o ho
    · next hne => exact hsound.opened a o (((h.streams a).mp ha).resolve_left hne) ho
  accepted a o ha ho := by
    simp only [setOrigin, Function.update_apply] at ho
    split at ho
    · exact haccepted o ho
    · next hne => exact hsound.accepted a o (((h.streams a).mp ha).resolve_left hne) ho
  syn frame o hframe hflag := by
    obtain hold | ⟨hnew, rfl⟩ := (mem_pending_advance h.queue frame o).mp hframe
    · exact hsound.syn frame o hold hflag
    · rw [List.mem_singleton] at hnew
      subst hnew
      exact hsyn hflag

/-- A new entry and the frame that announces it go back to the opening of the entry. -/
theorem Carries.of_creates {a : UInt16} {o : Opening} (horigin : origin.opening = opening)
    (hcarries : ((e.advance conn opening).setOrigin id origin).Carries a o) :
    e.Carries a o ∨ (a = id ∧ o = opening) := by
  obtain ⟨hheld, ho⟩ | ⟨frame, hframe, hreaches⟩ := hcarries
  · simp only [setOrigin, Function.update_apply] at ho
    split at ho
    · next he => exact .inr ⟨he, ho ▸ horigin⟩
    · next hne => exact .inl (.inl ⟨((h.streams a).mp hheld).resolve_left hne, ho⟩)
  · obtain hold | ⟨hnew, rfl⟩ := (mem_pending_advance h.queue frame o).mp hframe
    · exact .inl (.inr ⟨frame, hold, hreaches⟩)
    · rw [List.mem_singleton] at hnew
      subst hnew
      exact .inr ⟨hreaches.1.symm, rfl⟩

end
theorem Sound.close (hsound : e.Sound side) : (e.call opening .close).Sound side where
  pending := by
    have h := congrArg (List.take e.wire.length) hsound.pending
    simpa [call, inFlight, MultiplexedConnection.close, List.map_take] using h
  opened id o hid := by simp [call, MultiplexedConnection.close,
    MultiplexedConnection.hasStream] at hid
  accepted id o hid := by simp [call, MultiplexedConnection.close,
    MultiplexedConnection.hasStream] at hid
  syn frame o hframe := hsound.syn frame o (List.mem_of_mem_take hframe)

theorem Carries.of_close {id : UInt16} {o : Opening}
    (hcarries : (e.call opening .close).Carries id o) : e.Carries id o := by
  obtain ⟨hheld, -⟩ | ⟨frame, hframe, hreaches⟩ := hcarries
  · simp [call, MultiplexedConnection.close, MultiplexedConnection.hasStream] at hheld
  · exact .inr ⟨frame, List.mem_of_mem_take hframe, hreaches⟩

/-- A call keeps the record sound, and what it carries was carried before or goes back to
the call itself, which then is a successful opening of the id it draws. -/
theorem call_sound (hsound : e.Sound side) (opening : Opening) (hside : opening.side = side)
    (api : ApiCall) :
    (e.call opening api).Sound side ∧
      ∀ id o, (e.call opening api).Carries id o → e.Carries id o ∨
        (api = .openStream ∧ id = e.conn.nextFreeId ∧ ¬ e.conn.hasStream id ∧ o = opening) := by
  cases api with
  | openStream =>
      simp only [call, Endpoint.openStream]
      obtain ⟨hok, h⟩ | ⟨⟨_, herror⟩, h⟩ := e.conn.openStream_cases
      · simp only [hok]
        refine ⟨hsound.creates h ?_ (by simp) fun _ => hside, ?_⟩
        · intro o ho
          cases ho
          exact hside
        · intro id o hcarries
          refine (hcarries.of_creates h rfl).imp_right ?_
          rintro ⟨rfl, ho⟩
          exact ⟨trivial, rfl, h.fresh, ho⟩
      · simp only [herror]
        exact ⟨hsound.quiet h, fun _ _ hcarries => .inl (hcarries.of_quiet h)⟩
  | send id data =>
      obtain h | h := e.conn.send_cases id data
      · exact ⟨hsound.sends h, fun _ _ hcarries => .inl (hcarries.of_sends h)⟩
      · exact ⟨hsound.quiet h, fun _ _ hcarries => .inl (hcarries.of_quiet h)⟩
  | recv id =>
      have h := e.conn.recv_quiet id
      exact ⟨hsound.quiet h, fun _ _ hcarries => .inl (hcarries.of_quiet h)⟩
  | closeStream id =>
      have h := e.conn.closeStream_quiet id
      exact ⟨hsound.quiet h, fun _ _ hcarries => .inl (hcarries.of_quiet h)⟩
  | resetStream id error =>
      have h := e.conn.resetStream_quiet id error
      exact ⟨hsound.quiet h, fun _ _ hcarries => .inl (hcarries.of_quiet h)⟩
  | close => exact ⟨hsound.close, fun _ _ hcarries => .inl hcarries.of_close⟩

theorem takeFrame_sound (hsound : e.Sound side) :
    e.takeFrame.Sound side ∧ ∀ id o, e.takeFrame.Carries id o → e.Carries id o := by
  unfold Endpoint.takeFrame MultiplexedConnection.takeFrame
  split
  · next frame conn heq =>
      split at heq
      · cases heq
      · next first queue hqueue =>
          cases heq
          refine ⟨⟨?_, hsound.opened, hsound.accepted, hsound.syn⟩, fun _ _ h => h⟩
          simpa [inFlight, hqueue] using hsound.pending
  · next conn heq =>
      split at heq
      · cases heq
        exact ⟨hsound, fun _ _ h => h⟩
      · cases heq

/-- Delivering the oldest frame takes it from the channel. -/
theorem deliver_sound {frame : Frame} {wire : List Frame} (hsound : e.Sound side)
    (hwire : e.wire = frame :: wire) :
    ∃ opening rest, e.pending = (frame, opening) :: rest ∧
      ({ e with wire, pending := rest } : Endpoint).Sound side := by
  have hpending := hsound.pending
  rw [inFlight, hwire] at hpending
  cases hlist : e.pending with
  | nil => simp [hlist] at hpending
  | cons first rest =>
      obtain ⟨first, opening⟩ := first
      rw [hlist, List.map_cons, List.cons_append, List.cons.injEq] at hpending
      obtain ⟨rfl, hrest⟩ := hpending
      refine ⟨opening, rest, rfl, hrest, hsound.opened, hsound.accepted, ?_⟩
      intro f o hf
      exact hsound.syn f o (hlist ▸ List.mem_cons_of_mem _ hf)

/-- A processed frame keeps the record sound, and what is carried was carried before or goes
back to the opening of the frame, which is for the same stream. Data is taken in only by a
stream that the table holds. -/
theorem processFrame_sound (frame : Frame) (opening : Opening) (hsound : e.Sound side)
    (hsyn : frame.1.flags.isSyn = true → opening.side = side.peer) :
    (e.processFrame frame opening).Sound side ∧
      (∀ id o, (e.processFrame frame opening).Carries id o →
        e.Carries id o ∨ (Frame.reaches frame id ∧ o = opening)) ∧
      (e.conn.waiting frame.1.streamId < (e.processFrame frame opening).conn.waiting
          frame.1.streamId → Frame.reaches frame frame.1.streamId ∧
            e.conn.hasStream frame.1.streamId) := by
  unfold Endpoint.processFrame
  obtain ⟨hflag, hok, h⟩ | ⟨hflag, h⟩ | ⟨herror, h⟩ :=
    e.conn.processFrame_cases frame.1 frame.2
  · simp only [hflag, hok]
    refine ⟨hsound.creates h (by simp) ?_ fun hack => absurd hack (by decide), ?_, ?_⟩
    · intro o ho
      cases ho
      exact hsyn hflag
    · intro id o hcarries
      refine (hcarries.of_creates h rfl).imp_right ?_
      rintro ⟨hid, ho⟩
      exact ⟨⟨hid.symm, .inl hflag⟩, ho⟩
    · intro hmore
      exact absurd (h.waiting frame.1.streamId) (Nat.not_le_of_lt hmore)
  · simp only [hflag]
    have hqueue : (e.conn.processFrame frame.1 frame.2).2.sendQueue = e.conn.sendQueue ++ [] := by
      rw [h.queue, List.append_nil]
    refine ⟨hsound.advance h.streams hqueue (by simp), ?_, ?_⟩
    · intro id o hcarries
      obtain hold | ⟨-, f, hf, -⟩ := hcarries.of_advance h.streams hqueue
      · exact .inl hold
      · simp at hf
    · intro _
      exact ⟨⟨rfl, .inr h.payload⟩, h.held⟩
  · have hquiet : (e.advance (e.conn.processFrame frame.1 frame.2).2 opening).Sound side ∧
        (∀ id o, (e.advance (e.conn.processFrame frame.1 frame.2).2 opening).Carries id o →
          e.Carries id o ∨ (Frame.reaches frame id ∧ o = opening)) ∧
        (e.conn.waiting frame.1.streamId < (e.advance (e.conn.processFrame frame.1
          frame.2).2 opening).conn.waiting frame.1.streamId →
            Frame.reaches frame frame.1.streamId ∧ e.conn.hasStream frame.1.streamId) := by
      refine ⟨hsound.quiet h, fun id o hcarries => .inl (hcarries.of_quiet h), ?_⟩
      intro hmore
      exact absurd (h.waiting frame.1.streamId) (Nat.not_le_of_lt hmore)
    cases hflag : frame.1.flags.isSyn with
    | false => exact hquiet
    | true =>
        obtain ⟨error, he⟩ := herror hflag
        simp only [he]
        exact hquiet

end Endpoint

namespace Network
variable {net : Network}

@[simp] theorem endpoint_update (net : Network) (side : Side) (e : Endpoint) :
    (net.update side e).endpoint side = e :=
  Function.update_self ..

theorem update_comm {side other : Side} (h : side ≠ other) (e e' : Endpoint) :
    (net.update side e).update other e' = (net.update other e').update side e :=
  congrArg (fun endpoint => { net with endpoint }) (Function.update_comm h ..)

theorem endpoint_update_of_ne {side other : Side} (h : other ≠ side) (e : Endpoint) :
    (net.update side e).endpoint other = net.endpoint other :=
  Function.update_of_ne h ..

/-- All that is carried for one id goes back to one opening. -/
structure Consistent (net : Network) : Prop where
  sound : ∀ side, (net.endpoint side).Sound side
  agree : ∀ id side side' opening opening', (net.endpoint side).Carries id opening →
    (net.endpoint side').Carries id opening' → opening = opening'
  received : ∀ pair ∈ net.received, pair.1 = pair.2

theorem consistent_new (maxSendQueueLen maxRecvBufferBytes : Side → Nat) :
    (new maxSendQueueLen maxRecvBufferBytes).Consistent where
  sound side := ⟨rfl, (fun _ _ h => by cases h), (fun _ _ h => by cases h),
    (fun _ _ h => by cases h)⟩
  agree id side side' o o' h := by
    obtain ⟨hheld, -⟩ | ⟨_, hframe, -⟩ := h
    · cases hheld
    · cases hframe
  received pair h := by cases h

/-- A change of one endpoint that carries nothing new. -/
theorem Consistent.update {side : Side} {e : Endpoint} (h : net.Consistent)
    (hsound : e.Sound side)
    (hcarries : ∀ id o, e.Carries id o → ∃ side, (net.endpoint side).Carries id o) :
    (net.update side e).Consistent where
  sound other := by
    by_cases hother : other = side
    · subst hother
      simpa using hsound
    · rw [endpoint_update_of_ne hother]
      exact h.sound other
  agree := by
    have hback : ∀ id other o, ((net.update side e).endpoint other).Carries id o →
        ∃ side, (net.endpoint side).Carries id o := by
      intro id other o hnew
      by_cases hother : other = side
      · subst hother
        rw [endpoint_update] at hnew
        exact hcarries id o hnew
      · rw [endpoint_update_of_ne hother] at hnew
        exact ⟨other, hnew⟩
    intro id one other o o' ho ho'
    obtain ⟨_, hone⟩ := hback id one o ho
    obtain ⟨_, hother⟩ := hback id other o' ho'
    exact h.agree id _ _ o o' hone hother
  received := h.received

/-- An opening is the only one of an id that nothing was carried for. -/
theorem Consistent.update_open {side : Side} {e : Endpoint} {id : UInt16} (opening : Opening)
    (h : net.Consistent) (hsound : e.Sound side)
    (hunused : ∀ side o, ¬ (net.endpoint side).Carries id o)
    (hcarries : ∀ a o, e.Carries a o → (net.endpoint side).Carries a o ∨ (a = id ∧ o = opening)) :
    (net.update side e).Consistent where
  sound other := by
    by_cases hother : other = side
    · subst hother
      simpa using hsound
    · rw [endpoint_update_of_ne hother]
      exact h.sound other
  agree := by
    have hback : ∀ a other o, ((net.update side e).endpoint other).Carries a o →
        (∃ side, (net.endpoint side).Carries a o) ∨ (a = id ∧ o = opening) := by
      intro a other o hnew
      by_cases hother : other = side
      · subst hother
        rw [endpoint_update] at hnew
        exact (hcarries a o hnew).imp_left fun hold => ⟨_, hold⟩
      · rw [endpoint_update_of_ne hother] at hnew
        exact .inl ⟨other, hnew⟩
    intro a one other o o' ho ho'
    obtain ⟨_, hone⟩ | ⟨rfl, rfl⟩ := hback a one o ho
    · obtain ⟨_, hother⟩ | ⟨rfl, rfl⟩ := hback a other o' ho'
      · exact h.agree a _ _ o o' hone hother
      · exact absurd hone (hunused _ o)
    · obtain ⟨_, hother⟩ | ⟨-, rfl⟩ := hback a other o' ho'
      · exact absurd hother (hunused _ o')
      · rfl
  received := h.received

/-- An id that no table holds and no SYN or data frame is on its way for carries nothing. -/
theorem Consistent.not_carries {side : Side} {id : UInt16} (h : net.Consistent)
    (hheld : ¬ (net.endpoint side).conn.hasStream id)
    (hpeer : ¬ (net.endpoint side.peer).conn.hasStream id)
    (hflight : ∀ frame ∈ (net.endpoint side).inFlight ++ (net.endpoint side.peer).inFlight,
      ¬ Frame.reaches frame id) (other : Side) (o : Opening) :
    ¬ (net.endpoint other).Carries id o := by
  rintro (⟨hstream, -⟩ | ⟨frame, hframe, hreaches⟩)
  · obtain rfl | rfl := Side.eq_or_eq_peer side other
    · exact hheld hstream
    · exact hpeer hstream
  · have hmem : frame ∈ (net.endpoint other).inFlight := by
      rw [← (h.sound other).pending]
      exact List.mem_map.mpr ⟨_, hframe, rfl⟩
    refine hflight frame (List.mem_append.mpr ?_) hreaches
    obtain rfl | rfl := Side.eq_or_eq_peer side other
    · exact .inl hmem
    · exact .inr hmem

theorem Consistent.call {side : Side} {api : ApiCall} (h : net.Consistent)
    (hok : net.OpensUnusedId (.call side api)) : (net.step (.call side api)).Consistent := by
  obtain ⟨hsound, hcarries⟩ :=
    Endpoint.call_sound (h.sound side) ⟨side, net.openings⟩ rfl api
  suffices hupdate :
      (net.update side ((net.endpoint side).call ⟨side, net.openings⟩ api)).Consistent from
     ⟨hupdate.sound, hupdate.agree, hupdate.received⟩
  by_cases hopens : api = .openStream ∧
      ¬ (net.endpoint side).conn.hasStream (net.endpoint side).conn.nextFreeId
  · obtain ⟨rfl, hheld⟩ := hopens
    obtain ⟨hpeer, hflight⟩ := hok.resolve_left hheld
    refine h.update_open ⟨side, net.openings⟩ hsound (h.not_carries hheld hpeer hflight) ?_
    intro a o hnew
    exact (hcarries a o hnew).imp_right fun hopen => ⟨hopen.2.1, hopen.2.2.2⟩
  · refine h.update hsound ?_
    intro id o hnew
    obtain hold | ⟨rfl, rfl, hheld, -⟩ := hcarries id o hnew
    · exact ⟨side, hold⟩
    · exact absurd ⟨rfl, hheld⟩ hopens

theorem Consistent.takeFrame {side : Side} (h : net.Consistent) :
    (net.step (.takeFrame side)).Consistent := by
  obtain ⟨hsound, hcarries⟩ := Endpoint.takeFrame_sound (h.sound side)
  exact h.update hsound fun id o hnew => ⟨side, hcarries id o hnew⟩

theorem Consistent.deliver {side : Side} (h : net.Consistent) : (net.deliver side).Consistent := by
  cases hwire : (net.endpoint side).wire with
  | nil =>
      simp only [Network.deliver, hwire]
      exact h
  | cons frame wire =>
      obtain ⟨opening, rest, hpending, hsender⟩ := Endpoint.deliver_sound (h.sound side) hwire
      have hfirst : (frame, opening) ∈ (net.endpoint side).pending := by simp [hpending]
      have hreached : ∀ id, Frame.reaches frame id → (net.endpoint side).Carries id opening :=
        fun id hreaches => .inr ⟨frame, hfirst, hreaches⟩
      obtain ⟨hsound, hcarries, hmore⟩ :=
        Endpoint.processFrame_sound frame opening (h.sound side.peer) (fun hsyn => by
          rw [Side.peer_peer]
          exact (h.sound side).syn frame opening hfirst hsyn)
      -- The receiver's change first: the frame it copies an opening from is still there.
      have hreceiver : (net.update side.peer
          ((net.endpoint side.peer).processFrame frame opening)).Consistent := by
        refine h.update hsound ?_
        intro id o hnew
        obtain hold | ⟨hreaches, rfl⟩ := hcarries id o hnew
        · exact ⟨side.peer, hold⟩
        · exact ⟨side, hreached id hreaches⟩
      have hboth := hreceiver.update hsender (by
        rintro id o (hheld | ⟨f, hf, hreaches⟩)
        · refine ⟨side, ?_⟩
          rw [endpoint_update_of_ne side.peer_ne.symm]
          exact .inl hheld
        · refine ⟨side, ?_⟩
          rw [endpoint_update_of_ne side.peer_ne.symm]
          exact .inr ⟨f, hpending ▸ List.mem_cons_of_mem _ hf, hreaches⟩)
      rw [update_comm side.peer_ne] at hboth
      simp only [Network.deliver, hwire, hpending, List.head?_cons, Option.map_some,
        Option.getD_some, List.tail_cons]
      split
      · next htaken =>
          refine ⟨hboth.sound, hboth.agree, ?_⟩
          intro pair hpair
          obtain hold | hnew := List.mem_append.mp hpair
          · exact hboth.received pair hold
          · rw [List.mem_singleton] at hnew
            subst hnew
            obtain ⟨hreaches, hheld⟩ := hmore htaken
            exact h.agree _ side.peer side _ _ (.inl ⟨hheld, rfl⟩) (hreached _ hreaches)
      · exact hboth

theorem Consistent.isolated (h : net.Consistent) : net.Isolated := by
  refine ⟨?_, h.received⟩
  intro id ha hb
  have hagree := h.agree id .a .b _ _ (.inl ⟨ha, rfl⟩) (.inl ⟨hb, rfl⟩)
  cases hoa : (net.endpoint .a).origin id with
  | opened o =>
      have hside := (h.sound .a).opened id o ha hoa
      cases hob : (net.endpoint .b).origin id with
      | opened o' =>
          have hside' := (h.sound .b).opened id o' hb hob
          rw [hoa, hob] at hagree
          cases hagree
          exact absurd (hside.symm.trans hside') (by decide)
      | accepted o' =>
          rw [hoa, hob] at hagree
          cases hagree
          exact ⟨.a, o, hside, hoa, hob⟩
  | accepted o =>
      have hside := (h.sound .a).accepted id o ha hoa
      cases hob : (net.endpoint .b).origin id with
      | opened o' =>
          rw [hoa, hob] at hagree
          cases hagree
          exact ⟨.b, o, hside, hob, hoa⟩
      | accepted o' =>
          have hside' := (h.sound .b).accepted id o' hb hob
          rw [hoa, hob] at hagree
          cases hagree
          exact absurd (hside.symm.trans hside') (by decide)

theorem Consistent.step {action : Action} (h : net.Consistent) (hok : net.OpensUnusedId action) :
    (net.step action).Consistent := by
  cases action with
  | call side api => exact h.call hok
  | takeFrame side => exact h.takeFrame
  | deliver side => exact h.deliver

/-- In a run from two fresh endpoints whose openings all draw unused ids, streams are
isolated at any time. -/
theorem isolated_of_unused_ids (maxSendQueueLen maxRecvBufferBytes : Side → Nat)
    (actions : List Action) {front : List Action}
    (hrun : EveryStep step OpensUnusedId (new maxSendQueueLen maxRecvBufferBytes) actions)
    (hfront : front <+: actions) :
    ((new maxSendQueueLen maxRecvBufferBytes).run front).Isolated := by
  obtain ⟨_, rfl⟩ := hfront
  have hend := hrun.append_left.invariant (fun _ _ h hok => Consistent.step h hok)
    (consistent_new maxSendQueueLen maxRecvBufferBytes)
  exact hend.isolated

/-- Two limits that leave room for everything. -/
def defaultEndpoints : Network :=
  new (fun _ => defaultMaxSendQueueLen) fun _ => defaultMaxRecvBufferBytes

/-- One side opens, the other accepts, fails to open under the same id and opens under the
next one; data goes over both streams. -/
def alternatingOpens : List Action :=
  [.call .a .openStream, .takeFrame .a, .deliver .a, .call .b .openStream, .call .b .openStream,
    .call .b (.send 1 [7]), .call .b (.send 2 [8]), .takeFrame .b, .takeFrame .b, .takeFrame .b,
    .takeFrame .b, .deliver .b, .deliver .b, .deliver .b, .deliver .b]

theorem isolated_alternatingOpens :
    (defaultEndpoints.run alternatingOpens).received =
        [(⟨.a, 0⟩, ⟨.a, 0⟩), (⟨.b, 2⟩, ⟨.b, 2⟩)] ∧
      (defaultEndpoints.run alternatingOpens).Isolated :=
  ⟨by decide +kernel,
    isolated_of_unused_ids _ _ alternatingOpens (by decide +kernel) List.prefix_rfl⟩

/-- Both sides open before any frame is delivered. -/
def independentOpens : List Action :=
  [.call .a .openStream, .call .b .openStream, .call .a (.send 1 [7]), .takeFrame .a,
    .takeFrame .a, .deliver .a, .deliver .a]

/-- Two independent openings share the id 1, and data of the one is read from the other. -/
theorem independentOpens_collide :
    let net := defaultEndpoints.run independentOpens
    ¬ net.Isolated ∧ net.received = [(⟨.b, 1⟩, ⟨.a, 0⟩)] ∧
      ((net.endpoint .b).conn.recv 1).1.toOption = some (some [7]) := by
  refine ⟨?_, by decide +kernel, by decide +kernel⟩
  intro hisolated
  have hreceived : (defaultEndpoints.run independentOpens).received = [(⟨.b, 1⟩, ⟨.a, 0⟩)] := by
    decide +kernel
  have hpair := hisolated.2 (⟨.b, 1⟩, ⟨.a, 0⟩) (by rw [hreceived]; exact List.mem_singleton_self _)
  exact absurd hpair (by decide)

end Network
end Dcp
