import Dcp.Multiplex.PeerFrames

/-!
The streams of two endpoints seen as flows. What one side sent on a stream, what of it is on its
way, and what the other side has taken in and read are recorded beside the network; each action
of the network is at most one step of each flow.
-/

namespace Dcp
open Library

/-- The payloads of each stream, by the side and by the opening of the stream and its id. -/
abbrev Transcript := Side → Opening → UInt16 → List (List UInt8)

namespace Transcript

def note (t : Transcript) (side : Side) : Option (Opening × UInt16 × List UInt8) → Transcript
  | none => t
  | some (opening, id, data) => fun other o a =>
      if other = side ∧ o = opening ∧ a = id then t other o a ++ [data] else t other o a

variable {t : Transcript} {side other : Side} {opening o : Opening} {id a : UInt16}
  {data : List UInt8}

@[simp] theorem note_none (t : Transcript) (side : Side) : t.note side none = t := rfl

theorem note_self : t.note side (some (o, a, data)) side o a = t side o a ++ [data] :=
  if_pos ⟨rfl, rfl, rfl⟩

theorem note_of_ne (h : ¬ (other = side ∧ o = opening ∧ a = id)) :
    t.note side (some (opening, id, data)) other o a = t other o a :=
  if_neg h

theorem note_of_side (h : other ≠ side) (entry : Option (Opening × UInt16 × List UInt8)) :
    t.note side entry other o a = t other o a := by
  cases entry with
  | none => rfl
  | some entry => exact note_of_ne fun heq => h heq.1

end Transcript

namespace Endpoint
open MultiplexedConnection
variable {e : Endpoint} {conn : MultiplexedConnection} {opening o : Opening} {id a : UInt16}

/-- What a frame brings to its stream. -/
def parcel (frame : Frame) : Option (Parcel (List UInt8)) :=
  if frame.1.flags.isSyn then some .announcement
  else if frame.2 = [] then none
  else some (.value frame.2)

def trailOf (pending : List (Frame × Opening)) (o : Opening) (a : UInt16) :
    List (Parcel (List UInt8)) :=
  pending.filterMap fun entry =>
    if entry.2 = o ∧ entry.1.1.streamId = a then parcel entry.1 else none

/-- What is on its way to the other end of a stream. -/
def trail (e : Endpoint) (o : Opening) (a : UInt16) : List (Parcel (List UInt8)) :=
  trailOf e.pending o a

/-- What the stream of an opening has taken in. -/
def intake (e : Endpoint) (o : Opening) (a : UInt16) : Intake (List UInt8) :=
  if (e.origin a).opening = o then e.conn.intake a else .absent

/-- The payload that a call sends, with its stream. -/
def sentBy (e : Endpoint) : ApiCall → Option (Opening × UInt16 × List UInt8)
  | .send id data =>
      match (e.conn.send id data).1 with
      | .ok () => if data = [] then none else some ((e.origin id).opening, id, data)
      | .error _ => none
  | _ => none

/-- The payload that a call reads, with its stream. -/
def readBy (e : Endpoint) : ApiCall → Option (Opening × UInt16 × List UInt8)
  | .recv id =>
      match (e.conn.recv id).1 with
      | .ok (some data) => some ((e.origin id).opening, id, data)
      | _ => none
  | _ => none

theorem parcel_idle {frame : Frame} (h : Frame.Idle frame) : parcel frame = none := by
  simp [parcel, h.1, h.2]

theorem parcel_syn {frame : Frame} (h : frame.1.flags.isSyn = true) :
    parcel frame = some .announcement := by
  simp [parcel, h]

theorem parcel_payload {frame : Frame} (h : frame.1.flags.isSyn = false) (hpayload : frame.2 ≠ []) :
    parcel frame = some (.value frame.2) := by
  simp [parcel, h, hpayload]

theorem reaches_of_parcel {frame : Frame} (h : parcel frame ≠ none) :
    Frame.reaches frame frame.1.streamId := by
  refine ⟨rfl, ?_⟩
  by_contra hnot
  rw [not_or] at hnot
  exact h (parcel_idle ⟨by simpa using hnot.1, not_not.mp hnot.2⟩)

theorem trailOf_append (front back : List (Frame × Opening)) :
    trailOf (front ++ back) o a = trailOf front o a ++ trailOf back o a :=
  List.filterMap_append

theorem trailOf_cons (frame : Frame) (rest : List (Frame × Opening)) :
    trailOf ((frame, opening) :: rest) o a =
      (if opening = o ∧ frame.1.streamId = a then parcel frame else none).toList ++
        trailOf rest o a := by
  unfold trailOf
  rw [List.filterMap_cons]
  dsimp only
  split <;> simp_all

/-- Frames that carry nothing leave no trail. -/
theorem trailOf_idle {frames : List Frame} (h : ∀ frame ∈ frames, Frame.Idle frame) :
    trailOf (frames.map (·, opening)) o a = [] := by
  unfold trailOf
  rw [List.filterMap_eq_nil_iff]
  intro entry hentry
  obtain ⟨frame, hframe, rfl⟩ := List.mem_map.mp hentry
  dsimp only
  rw [parcel_idle (h frame hframe), ite_self]

theorem trailOf_prefix {front pending : List (Frame × Opening)} (h : front <+: pending) :
    trailOf front o a <+: trailOf pending o a :=
  h.filterMap _

theorem trail_advance {queued : List Frame} (h : conn.sendQueue = e.conn.sendQueue ++ queued) :
    (e.advance conn opening).trail o a =
      e.trail o a ++ trailOf (queued.map (·, opening)) o a := by
  simp only [trail, advance, h, List.drop_left, trailOf_append]

theorem trail_wanes (h : Wanes e.conn conn) :
    (e.advance conn opening).trail o a = e.trail o a := by
  obtain ⟨signals, hqueue, hsignals⟩ := h.queue
  rw [trail_advance hqueue, trailOf_idle fun frame hframe => (hsignals frame hframe).1,
    List.append_nil]

/-- A frame on its way belongs to an opening that is carried. -/
theorem carries_of_trail (h : e.trail o a ≠ []) : e.Carries a o := by
  obtain ⟨first, hfirst⟩ := List.exists_mem_of_ne_nil _ h
  obtain ⟨⟨frame, opening⟩, hmem, hparcel⟩ := List.mem_filterMap.mp hfirst
  dsimp only at hparcel
  split at hparcel
  · next heq =>
      obtain ⟨rfl, rfl⟩ := heq
      exact .inr ⟨frame, hmem, reaches_of_parcel (by simp [hparcel])⟩
  · cases hparcel

theorem carries_of_intake (h : e.intake o a ≠ .absent) : e.Carries a o := by
  unfold intake at h
  split at h
  · next heq => exact .inl ⟨by simpa [intake_eq_absent_iff] using h, heq⟩
  · exact absurd rfl h

/-- An entry that stays from the same opening wanes with its stream. -/
theorem intake_wanes {e' : Endpoint} (horigin : e'.origin = e.origin)
    (hstreams : (e.conn.intake a).Wanes (e'.conn.intake a)) :
    (e.intake o a).Wanes (e'.intake o a) := by
  unfold intake
  rw [horigin]
  split
  · exact hstreams
  · exact .same _

theorem intake_congr {e' : Endpoint} (horigin : e'.origin a = e.origin a)
    (hstreams : e'.conn.intake a = e.conn.intake a) : e'.intake o a = e.intake o a := by
  unfold intake
  rw [horigin, hstreams]

theorem intake_of_opening (h : (e.origin a).opening = o) : e.intake o a = e.conn.intake a :=
  if_pos h

theorem intake_of_opening_ne (h : (e.origin a).opening ≠ o) : e.intake o a = .absent :=
  if_neg h

theorem intake_of_absent (h : e.conn.intake a = .absent) : e.intake o a = .absent := by
  unfold intake
  rw [h, ite_self]

/-- The entry of a stream that was just started. -/
theorem intake_started {origin : Origin} (horigin : origin.opening = opening)
    (habsent : e.conn.intake id = .absent) (hstarted : conn.intake id = .receiving [])
    (hothers : ∀ a, a ≠ id → conn.intake a = e.conn.intake a) :
    ((e.advance conn opening).setOrigin id origin).intake o a =
      if o = opening ∧ a = id then .receiving [] else e.intake o a := by
  by_cases ha : a = id
  · subst ha
    have hentry : ((e.advance conn opening).setOrigin a origin).origin a = origin :=
      Function.update_self ..
    by_cases ho : o = opening
    · subst ho
      rw [intake_of_opening (by rw [hentry, horigin]), if_pos ⟨rfl, rfl⟩]
      exact hstarted
    · rw [if_neg fun h => ho h.1, intake_of_absent habsent]
      refine intake_of_opening_ne ?_
      rw [hentry, horigin]
      exact fun h => ho h.symm
  · rw [if_neg fun h => ha h.2]
    exact intake_congr (Function.update_of_ne ha ..) (hothers a ha)

end Endpoint

/-- A network with the payloads that were sent and read on each stream. -/
structure Recorded where
  net : Network
  sent : Transcript
  read : Transcript

namespace Recorded

def new (maxSendQueueLen maxRecvBufferBytes : Side → Nat) : Recorded :=
  ⟨.new maxSendQueueLen maxRecvBufferBytes, fun _ _ _ => [], fun _ _ _ => []⟩

def step (r : Recorded) (action : Action) : Recorded :=
  match action with
  | .call side api =>
      { net := r.net.step action
        sent := r.sent.note side ((r.net.endpoint side).sentBy api)
        read := r.read.note side ((r.net.endpoint side).readBy api) }
  | _ => { r with net := r.net.step action }

def run (r : Recorded) (actions : List Action) : Recorded := actions.foldl step r

@[simp] theorem net_step (r : Recorded) (action : Action) :
    (r.step action).net = r.net.step action := by
  cases action <;> rfl

/-- The direction of a stream that leaves from a side. -/
def flow (r : Recorded) (side : Side) (o : Opening) (a : UInt16) : Flow (List UInt8) where
  sent := r.sent side o a
  trail := (r.net.endpoint side).trail o a
  intake := (r.net.endpoint side.peer).intake o a
  read := r.read side.peer o a
  ended := (r.net.endpoint side).conn.closed

end Recorded
end Dcp
