import Dcp.Library.Accounting
import Dcp.Multiplex.Concurrent

/-!
The counter of streams under overlapping calls. A call changes the table and the counter in two
steps, and in between it owes the counter one step up or down. The counter, with what is owed,
is the size of the table modulo its width, as long as a failed opening finds the entry it takes
back and `close` overwrites the counter while nothing is owed.
-/

namespace Dcp
open Library

namespace Point

/-- What the call will add to the counter for its last change of the table. -/
def owed : Point → Int
  | .countUp .. => 1
  | .countDown _ | .countRemoved .. => -1
  | _ => 0

/-- Whether the call keeps the table locked between two of its points. -/
def holds : Point → Nat
  | .countRemoved .. | .closeReset _ | .closeCount => 1
  | _ => 0

@[simp] theorem holds_countRemoved (id : UInt16) (rollback : Bool) :
    (countRemoved id rollback).holds = 1 := rfl

@[simp] theorem holds_closeReset (handles : List Nat) : (closeReset handles).holds = 1 := rfl

@[simp] theorem holds_closeCount : closeCount.holds = 1 := rfl

/-- A stream that is about to be registered is not that of control frames. -/
def NonZero : Point → Prop
  | .register id _ | .acceptLimit id => id ≠ 0
  | _ => True

end Point

namespace SharedConnection

/-- The parts of the connection that the count of streams depends on stay. -/
structure SameTable (c c' : SharedConnection) : Prop where
  streams : c'.streams = c.streams
  streamCount : c'.streamCount = c.streamCount
  locked : c'.locked = c.locked

/-- A point at which nothing is owed and no lock is held. -/
structure Plain (point : Point) : Prop where
  owed : point.owed = 0
  holds : point.holds = 0
  nonzero : point.NonZero

/-- What a step of a call does to the table and the counter. -/
inductive Advances (c : SharedConnection) : Point → SharedConnection → Point → Prop
  | plain {point point' : Point} {c' : SharedConnection} (h : SameTable c c')
      (hpoint : point.owed = 0) (hholds : point.holds = 0) (hplain : Plain point') :
      Advances c point c' point'
  | waits (point : Point) : Advances c point c point
  | registers {c' : SharedConnection} (id : UInt16) (header : StreamHeader) (handle : Nat)
      (hfree : c.streams.lookup id = none) (hlocked : c.locked = false)
      (hstreams : c'.streams = c.streams.insert id handle)
      (hcount : c'.streamCount = c.streamCount) (hlock : c'.locked = c.locked) :
      Advances c (.register id header) c' (.countUp id header)
  | countsUp {c' : SharedConnection} (id : UInt16) (header : StreamHeader) {point' : Point}
      (hstreams : c'.streams = c.streams) (hcount : c'.streamCount = c.streamCount + 1)
      (hlock : c'.locked = c.locked) (hplain : Plain point') :
      Advances c (.countUp id header) c' point'
  | takesBack {c' : SharedConnection} (id : UInt16) (error : MultiplexError)
      (hlocked : c.locked = false) (hstreams : c'.streams = c.streams.erase id)
      (hcount : c'.streamCount = c.streamCount) (hlock : c'.locked = c.locked) :
      Advances c (.takeBack id error) c' (.countDown error)
  | countsDown {c' : SharedConnection} (error : MultiplexError) {point' : Point}
      (hstreams : c'.streams = c.streams) (hcount : c'.streamCount = c.streamCount - 1)
      (hlock : c'.locked = c.locked) (hplain : Plain point') :
      Advances c (.countDown error) c' point'
  | removes {c' : SharedConnection} (id : UInt16) (rollback : Bool) (handle : Nat)
      (hfound : c.streams.lookup id = some handle) (hlocked : c.locked = false)
      (hstreams : c'.streams = c.streams.erase id) (hcount : c'.streamCount = c.streamCount)
      (hlock : c'.locked = true) :
      Advances c (.removeStream id rollback) c' (.countRemoved id rollback)
  | countsRemoved {c' : SharedConnection} (id : UInt16) (rollback : Bool) {point' : Point}
      (hstreams : c'.streams = c.streams) (hcount : c'.streamCount = c.streamCount - 1)
      (hlock : c'.locked = false) (hplain : Plain point') :
      Advances c (.countRemoved id rollback) c' point'
  | locks {c' : SharedConnection} (handles : List Nat) (hlocked : c.locked = false)
      (hstreams : c'.streams = c.streams) (hcount : c'.streamCount = c.streamCount)
      (hlock : c'.locked = true) : Advances c .closeStreams c' (.closeReset handles)
  | resets {c' : SharedConnection} (handles handles' : List Nat) (h : SameTable c c') :
      Advances c (.closeReset handles) c' (.closeReset handles')
  | clears {c' : SharedConnection} (handles : List Nat) (hstreams : c'.streams = ∅)
      (hcount : c'.streamCount = c.streamCount) (hlock : c'.locked = c.locked) :
      Advances c (.closeReset handles) c' .closeCount
  | closes {c' : SharedConnection} {point' : Point} (hstreams : c'.streams = c.streams)
      (hcount : c'.streamCount = 0) (hlock : c'.locked = false) (hplain : Plain point') :
      Advances c .closeCount c' point'

theorem SameTable.refl (c : SharedConnection) : SameTable c c := ⟨rfl, rfl, rfl⟩

theorem plain_returned (result : Except MultiplexError Unit) : Plain (.returned result) :=
  ⟨rfl, rfl, trivial⟩

theorem plain_drawn (id : UInt16) {zero : Point} (h : Plain zero) : Plain (drawn id zero) := by
  unfold drawn
  split
  · exact h
  · next hid => exact ⟨rfl, rfl, hid⟩

theorem plain_failed (use : QueueFor) (error : MultiplexError) : Plain (use.failed error) := by
  cases use <;> exact ⟨rfl, rfl, trivial⟩

theorem plain_afterRemove (id : UInt16) (rollback : Bool) :
    Plain (.afterRemove id rollback) := by
  cases rollback <;> exact ⟨rfl, rfl, trivial⟩

theorem plain_admitFrame (c : SharedConnection) (header : StreamHeader) (payload : List UInt8) :
    Plain (c.admitFrame header payload) := by
  unfold admitFrame
  split
  · exact plain_returned _
  split
  · exact plain_returned _
  split
  · exact plain_returned _
  split
  · split <;> exact plain_returned _
  split
  · exact ⟨rfl, rfl, trivial⟩
  · exact ⟨rfl, rfl, trivial⟩

theorem plain_streamFrame (c : SharedConnection) (handle : Nat) (header : StreamHeader)
    (payload : List UInt8) (state : StreamState) :
    SameTable c (c.streamFrame handle header payload state).1 ∧
      Plain (c.streamFrame handle header payload state).2 := by
  have hset : ∀ state, SameTable c (c.setState handle state) := fun _ => ⟨rfl, rfl, rfl⟩
  unfold streamFrame
  split
  · exact ⟨hset _, plain_returned _⟩
  split
  · refine ⟨hset _, ?_⟩
    dsimp only
    split
    · exact ⟨rfl, rfl, trivial⟩
    · exact plain_returned _
  split
  · split
    · exact ⟨hset _, plain_returned _⟩
    · refine ⟨?_, plain_returned _⟩
      dsimp only
      split
      · exact hset _
      · exact .refl c
  · exact ⟨.refl c, plain_returned _⟩

theorem step_advances (c : SharedConnection) (point : Point) (hpoint : point.NonZero) :
    Advances c point (c.step point).1 (c.step point).2 := by
  have hsame : ∀ c' : SharedConnection, c'.streams = c.streams →
      c'.streamCount = c.streamCount → c'.locked = c.locked → SameTable c c' :=
    fun _ h h' h'' => ⟨h, h', h''⟩
  cases point with
  | openStream =>
      refine .plain (.refl c) rfl rfl ?_
      dsimp only [step]
      split
      · exact plain_returned _
      · exact ⟨rfl, rfl, trivial⟩
  | openLimit =>
      refine .plain (.refl c) rfl rfl ?_
      dsimp only [step]
      split
      · exact plain_returned _
      · exact ⟨rfl, rfl, trivial⟩
  | openId =>
      exact .plain (hsame _ rfl rfl rfl) rfl rfl (plain_drawn _ ⟨rfl, rfl, trivial⟩)
  | openIdAgain =>
      exact .plain (hsame _ rfl rfl rfl) rfl rfl (plain_drawn _ (plain_returned _))
  | acceptStream id =>
      refine .plain (.refl c) rfl rfl ?_
      dsimp only [step]
      split
      · exact plain_returned _
      split
      · exact plain_returned _
      · next hid => exact ⟨rfl, rfl, hid⟩
  | acceptLimit id =>
      refine .plain (.refl c) rfl rfl ?_
      dsimp only [step]
      split
      · exact plain_returned _
      · exact ⟨rfl, rfl, hpoint⟩
  | register id header =>
      dsimp only [step]
      split
      · exact .waits _
      next hlocked =>
      split
      · exact .plain (.refl c) rfl rfl (plain_returned _)
      · next hfree =>
          exact .registers id header _ hfree (by simpa using hlocked) rfl rfl rfl
  | countUp id header => exact .countsUp id header rfl rfl rfl ⟨rfl, rfl, trivial⟩
  | queueFrame header use =>
      refine .plain (.refl c) rfl rfl ?_
      dsimp only [step]
      split
      · exact plain_failed _ _
      · exact ⟨rfl, rfl, trivial⟩
  | queuePush header use =>
      dsimp only [step]
      split
      · exact .plain (.refl c) rfl rfl (plain_failed _ _)
      · exact .plain (hsame _ rfl rfl rfl) rfl rfl (plain_returned _)
  | takeBack id error =>
      dsimp only [step]
      split
      · exact .waits _
      · next hlocked => exact .takesBack id error (by simpa using hlocked) rfl rfl rfl
  | countDown error => exact .countsDown error rfl rfl rfl (plain_returned _)
  | processFrame header payload =>
      exact .plain (.refl c) rfl rfl (plain_admitFrame c header payload)
  | findStream header payload =>
      dsimp only [step]
      split
      · exact .waits _
      · refine .plain (.refl c) rfl rfl ?_
        dsimp only
        split
        · exact ⟨rfl, rfl, trivial⟩
        · exact ⟨rfl, rfl, trivial⟩
  | streamFrame handle header payload =>
      dsimp only [step]
      split
      · exact .plain (.refl c) rfl rfl (plain_returned _)
      · next state _ =>
          obtain ⟨htable, hplain⟩ := plain_streamFrame c handle header payload state
          exact .plain htable rfl rfl hplain
  | removeStream id rollback =>
      dsimp only [step]
      split
      · exact .waits _
      next hlocked =>
      split
      · exact .plain (.refl c) rfl rfl (plain_afterRemove id rollback)
      · next handle hfound =>
          exact .removes id rollback handle hfound (by simpa using hlocked) rfl rfl rfl
  | countRemoved id rollback =>
      exact .countsRemoved id rollback rfl rfl rfl (plain_afterRemove id rollback)
  | retainFrames id => exact .plain (hsame _ rfl rfl rfl) rfl rfl (plain_returned _)
  | close => exact .plain (hsame _ rfl rfl rfl) rfl rfl ⟨rfl, rfl, trivial⟩
  | closeQueue => exact .plain (hsame _ rfl rfl rfl) rfl rfl ⟨rfl, rfl, trivial⟩
  | closeStreams =>
      dsimp only [step]
      split
      · exact .waits _
      · next hlocked => exact .locks _ (by simpa using hlocked) rfl rfl rfl
  | closeReset handles =>
      cases handles with
      | nil => exact .clears [] rfl rfl rfl
      | cons handle handles => exact .resets _ handles (hsame _ rfl rfl rfl)
  | closeCount => exact .closes rfl rfl rfl (plain_returned _)
  | returned result => exact .waits _

end SharedConnection

namespace Overlap
open SharedConnection
variable {w : Overlap} {index : Nat} {point point' : Point} {conn : SharedConnection}

/-- What the calls that are under way owe the counter. -/
def owed (w : Overlap) : Int := (w.calls.map Point.owed).sum

/-- The counter with what is owed is the size of the table, modulo the width of the counter;
while `close` is about to overwrite the counter, the table is empty. At most one call holds the
lock. -/
structure Sound (w : Overlap) : Prop where
  lock : (w.calls.map Point.holds).sum = w.conn.locked.toNat
  keys : ∀ id handle, w.conn.streams.lookup id = some handle → id ≠ 0
  nonzero : ∀ point ∈ w.calls, point.NonZero
  cleared : .closeCount ∈ w.calls → w.conn.streams = ∅
  balanced : .closeCount ∉ w.calls →
    ((w.conn.streamCount.toNat : Int) + w.owed - w.conn.streams.size) % 65536 = 0

/-- A failed opening takes back an entry that is still there, and `close` overwrites the counter
while no other call is between its change of the table and its change of the counter. -/
def CountsAgree (w : Overlap) : OverlapStep → Prop
  | .call _ => True
  | .advance index =>
      match w.calls[index]? with
      | some (.takeBack id _) => w.conn.locked = false → (w.conn.streams.lookup id).isSome
      | some .closeCount => ∀ point ∈ w.calls, point.owed = 0
      | _ => True

theorem sound_start (maxSendQueueLen maxRecvBufferBytes : Nat) :
    Sound (start maxSendQueueLen maxRecvBufferBytes) where
  lock := rfl
  keys id handle h := by cases h
  nonzero point h := by cases h
  cleared _ := rfl
  balanced _ := rfl

theorem Sound.call (h : Sound w) (call : TableCall) : Sound (w.step (.call call)) := by
  have hplain : Plain call.start := by cases call <;> exact ⟨rfl, rfl, trivial⟩
  have hnot : call.start ≠ .closeCount := by
    intro hstart
    have hholds := hplain.holds
    rw [hstart] at hholds
    cases hholds
  have hmem : ∀ point, point ∈ (w.step (.call call)).calls ↔ point ∈ w.calls ∨ point = call.start :=
    fun point => by simp [step]
  have howed : (w.step (.call call)).owed = w.owed := by
    simp [owed, step, hplain.owed]
  refine ⟨?_, h.keys, ?_, ?_, ?_⟩
  · have hsum : ((w.step (.call call)).calls.map Point.holds).sum =
        (w.calls.map Point.holds).sum := by
      simp [step, hplain.holds]
    exact hsum.trans h.lock
  · intro point hpoint
    obtain hold | rfl := (hmem point).mp hpoint
    · exact h.nonzero point hold
    · exact hplain.nonzero
  · intro hclose
    exact h.cleared (((hmem _).mp hclose).resolve_right hnot.symm)
  · intro hclose
    rw [howed]
    exact h.balanced fun hold => hclose ((hmem _).mpr (.inl hold))

/-- While a call is about to overwrite the counter, the table is locked. -/
theorem Sound.not_closing (h : Sound w) (hlocked : w.conn.locked = false) :
    .closeCount ∉ w.calls := by
  intro hclose
  have hone := le_sum_map Point.holds hclose
  rw [h.lock, hlocked] at hone
  exact absurd hone (by decide)

section
variable (h : Sound w) (hindex : w.calls[index]? = some point)
include h hindex

/-- A step that is not part of the end of `close`. -/
theorem Sound.advance (hpoint : point ≠ .closeCount) (hpoint' : point' ≠ .closeCount)
    (hlock : conn.locked.toNat + point.holds = w.conn.locked.toNat + point'.holds)
    (hkeys : ∀ id handle, conn.streams.lookup id = some handle → id ≠ 0)
    (hnonzero : point'.NonZero) (hcleared : .closeCount ∈ w.calls → conn.streams = ∅)
    (hbalance : ((conn.streamCount.toNat : Int) + point'.owed - conn.streams.size -
      (w.conn.streamCount.toNat + point.owed - w.conn.streams.size)) % 65536 = 0) :
    Sound ⟨conn, w.calls.set index point'⟩ := by
  have hholds := sum_map_set Point.holds point' hindex
  have howed := sum_map_set Point.owed point' hindex
  have hold := h.lock
  refine ⟨?_, hkeys, ?_, ?_, ?_⟩
  · change ((w.calls.set index point').map Point.holds).sum = conn.locked.toNat
    omega
  · intro q hq
    obtain rfl | hq := eq_or_mem_of_mem_set hq
    · exact hnonzero
    · exact h.nonzero q hq
  · intro hclose
    exact hcleared ((eq_or_mem_of_mem_set hclose).resolve_left hpoint'.symm)
  · intro hclose
    have hbefore := h.balanced fun hmem =>
      hclose (mem_set_of_ne hindex hmem hpoint.symm)
    unfold owed at hbefore ⊢
    dsimp only
    omega

/-- A step that leaves the table as it is. -/
theorem Sound.advance_same (hpoint : point ≠ .closeCount) (hplain : Plain point')
    (hlock : conn.locked.toNat + point.holds = w.conn.locked.toNat)
    (hstreams : conn.streams = w.conn.streams)
    (hbalance : ((conn.streamCount.toNat : Int) -
      (w.conn.streamCount.toNat + point.owed)) % 65536 = 0) :
    Sound ⟨conn, w.calls.set index point'⟩ := by
  have hpoint' : point' ≠ .closeCount := by
    rintro rfl
    cases hplain.holds
  refine h.advance hindex hpoint hpoint' ?_ ?_ hplain.nonzero ?_ ?_
  · rw [hplain.holds]
    exact hlock
  · rw [hstreams]
    exact h.keys
  · rw [hstreams]
    exact h.cleared
  · rw [hplain.owed, hstreams]
    omega

theorem Sound.advances (hmove : Advances w.conn point conn point')
    (hagree : w.CountsAgree (.advance index)) : Sound ⟨conn, w.calls.set index point'⟩ := by
  cases hmove with
  | plain htable hpoint hholds hplain =>
      refine h.advance_same hindex ?_ hplain ?_ htable.streams ?_
      · rintro rfl
        cases hholds
      · rw [hholds, htable.locked]
        rfl
      · rw [hpoint, htable.streamCount]
        omega
  | waits point =>
      rw [set_of_getElem? hindex]
      exact h
  | registers id header handle hfree hlocked hstreams hcount hlock =>
      have hid : id ≠ 0 := h.nonzero _ (List.mem_of_getElem? hindex)
      have hsize : conn.streams.size = w.conn.streams.size + 1 := by
        rw [hstreams]
        exact Table.size_insert_of_lookup_none handle hfree
      refine h.advance hindex (by simp) (by simp) ?_ ?_ trivial ?_ ?_
      · rw [hlock]
        rfl
      · intro id' handle' hlookup
        rw [hstreams, Table.lookup_insert_eq] at hlookup
        split at hlookup
        · next hsame => rw [hsame]; exact hid
        · exact h.keys id' handle' hlookup
      · intro hclose
        exact absurd hclose (h.not_closing hlocked)
      · rw [hcount, hsize]
        simp only [Point.owed]
        omega
  | countsUp id header hstreams hcount hlock hplain =>
      refine h.advance_same hindex (by simp) hplain (by rw [hlock]; rfl) hstreams ?_
      rw [hcount, UInt16.toNat_add, UInt16.toNat_one]
      simp only [Point.owed]
      omega
  | takesBack id error hlocked hstreams hcount hlock =>
      have hfound : (w.conn.streams.lookup id).isSome := by
        simp only [CountsAgree, hindex] at hagree
        exact hagree hlocked
      obtain ⟨handle, hlookup⟩ := Option.isSome_iff_exists.mp hfound
      have hsize : conn.streams.size + 1 = w.conn.streams.size := by
        rw [hstreams]
        exact Table.size_erase_of_lookup_some hlookup
      refine h.advance hindex (by simp) (by simp) ?_ ?_ trivial ?_ ?_
      · rw [hlock]
        rfl
      · intro id' handle' hlookup'
        rw [hstreams] at hlookup'
        exact h.keys id' handle' (Table.lookup_of_lookup_erase hlookup')
      · intro hclose
        exact absurd hclose (h.not_closing hlocked)
      · rw [hcount]
        simp only [Point.owed]
        omega
  | countsDown error hstreams hcount hlock hplain =>
      refine h.advance_same hindex (by simp) hplain (by rw [hlock]; rfl) hstreams ?_
      rw [hcount, UInt16.toNat_sub, UInt16.toNat_one]
      simp only [Point.owed]
      omega
  | removes id rollback handle hlookup hlocked hstreams hcount hlock =>
      have hsize : conn.streams.size + 1 = w.conn.streams.size := by
        rw [hstreams]
        exact Table.size_erase_of_lookup_some hlookup
      refine h.advance hindex (by simp) (by simp) ?_ ?_ trivial ?_ ?_
      · rw [hlock, hlocked]
        rfl
      · intro id' handle' hlookup'
        rw [hstreams] at hlookup'
        exact h.keys id' handle' (Table.lookup_of_lookup_erase hlookup')
      · intro hclose
        exact absurd hclose (h.not_closing hlocked)
      · rw [hcount]
        simp only [Point.owed]
        omega
  | countsRemoved id rollback hstreams hcount hlock hplain =>
      have hone := le_sum_map Point.holds (List.mem_of_getElem? hindex)
      rw [h.lock] at hone
      refine h.advance_same hindex (by simp) hplain ?_ hstreams ?_
      · rw [hlock]
        cases hlocked : w.conn.locked with
        | true => rfl
        | false =>
            rw [hlocked] at hone
            exact absurd hone (by simp)
      · rw [hcount, UInt16.toNat_sub, UInt16.toNat_one]
        simp only [Point.owed]
        omega
  | locks handles hlocked hstreams hcount hlock =>
      refine h.advance hindex (by simp) (by simp) ?_ ?_ trivial ?_ ?_
      · rw [hlock, hlocked]
        rfl
      · rw [hstreams]
        exact h.keys
      · intro hclose
        exact absurd hclose (h.not_closing hlocked)
      · rw [hcount, hstreams]
        simp only [Point.owed]
        omega
  | resets handles handles' htable =>
      refine h.advance hindex (by simp) (by simp) ?_ ?_ trivial ?_ ?_
      · rw [htable.locked]
        rfl
      · rw [htable.streams]
        exact h.keys
      · rw [htable.streams]
        exact h.cleared
      · rw [htable.streamCount, htable.streams]
        simp only [Point.owed]
        omega
  | clears handles hstreams hcount hlock =>
      -- The table is empty from here on, and the counter is not looked at until it is overwritten.
      have hholds := sum_map_set Point.holds .closeCount hindex
      refine ⟨?_, ?_, ?_, fun _ => hstreams, ?_⟩
      · rw [hlock, ← h.lock]
        simpa using hholds
      · intro id handle hlookup
        rw [hstreams] at hlookup
        cases hlookup
      · intro q hq
        obtain rfl | hq := eq_or_mem_of_mem_set hq
        · trivial
        · exact h.nonzero q hq
      · intro hclose
        obtain ⟨hlt, -⟩ := List.getElem?_eq_some_iff.mp hindex
        exact absurd (List.mem_set hlt _) hclose
  | closes hstreams hcount hlock hplain =>
      simp only [CountsAgree, hindex] at hagree
      have hempty : conn.streams = ∅ :=
        hstreams.trans (h.cleared (List.mem_of_getElem? hindex))
      have howed : (w.calls.map Point.owed).sum = 0 := by
        refine List.sum_eq_zero fun x hx => ?_
        obtain ⟨q, hq, rfl⟩ := List.mem_map.mp hx
        exact hagree q hq
      have howed' := sum_map_set Point.owed point' hindex
      have hholds := sum_map_set Point.holds point' hindex
      rw [h.lock, hplain.holds] at hholds
      refine ⟨?_, ?_, ?_, fun _ => hempty, ?_⟩
      · rw [hlock]
        have hle := Bool.toNat_le w.conn.locked
        simp only [Point.holds_closeCount] at hholds
        change ((w.calls.set index point').map Point.holds).sum = 0
        omega
      · intro id handle hlookup
        rw [hempty] at hlookup
        cases hlookup
      · intro q hq
        obtain rfl | hq := eq_or_mem_of_mem_set hq
        · exact hplain.nonzero
        · exact h.nonzero q hq
      · intro _
        rw [howed, hplain.owed] at howed'
        have hzero : ((w.calls.set index point').map Point.owed).sum = 0 := by
          simpa [Point.owed] using howed'
        unfold owed
        rw [hcount, hempty, hzero]
        rfl

end

theorem sound_step (h : Sound w) {action : OverlapStep} (hagree : w.CountsAgree action) :
    Sound (w.step action) := by
  cases action with
  | call call => exact h.call call
  | advance index =>
      cases hindex : w.calls[index]? with
      | none =>
          simp only [step, hindex]
          exact h
      | some point =>
          have hmove := step_advances w.conn point (h.nonzero point (List.mem_of_getElem? hindex))
          simp only [step, hindex]
          exact h.advances hindex hmove hagree

/-- A table without the key 0 has fewer entries than there are ids. -/
theorem size_le_of_keys {streams : Table UInt16 Nat}
    (h : ∀ id handle, streams.lookup id = some handle → id ≠ 0) : streams.size ≤ 65535 := by
  have hnodup : (streams.keys.map UInt16.toNat).Nodup :=
    streams.keys_nodup.map fun a b hab => UInt16.toNat_inj.mp hab
  have hsubset : streams.keys.map UInt16.toNat ⊆ List.range' 1 65535 := by
    intro n hn
    obtain ⟨id, hid, rfl⟩ := List.mem_map.mp hn
    obtain ⟨handle, hlookup⟩ := Option.isSome_iff_exists.mp (AList.lookup_isSome.mpr hid)
    have hne : id.toNat ≠ 0 := fun hzero => h id handle hlookup (UInt16.toNat_inj.mp hzero)
    have hlt := id.toNat_lt
    rw [List.mem_range'_1]
    omega
  have hlength := (hnodup.subperm hsubset).length_le
  rw [List.length_map, List.length_range'] at hlength
  rw [Table.size_eq_keys]
  exact hlength

/-- Whenever no call is under way, the counter is the size of the table, in every run whose
failed openings find their entries and whose `close` meets no call between its two changes. -/
theorem streamCount_eq_size (maxSendQueueLen maxRecvBufferBytes : Nat) (steps : List OverlapStep)
    (hrun : EveryStep step CountsAgree (start maxSendQueueLen maxRecvBufferBytes) steps)
    (hidle : (steps.foldl step (start maxSendQueueLen maxRecvBufferBytes)).Idle) :
    let conn := (steps.foldl step (start maxSendQueueLen maxRecvBufferBytes)).conn
    conn.streamCount.toNat = conn.streams.size := by
  have hsound : Sound (steps.foldl step (start maxSendQueueLen maxRecvBufferBytes)) :=
    hrun.invariant (fun _ _ h hagree => sound_step h hagree) (sound_start _ _)
  generalize steps.foldl step (start maxSendQueueLen maxRecvBufferBytes) = w at hidle hsound
  have howed : w.owed = 0 := by
    refine List.sum_eq_zero fun x hx => ?_
    obtain ⟨point, hpoint, rfl⟩ := List.mem_map.mp hx
    obtain ⟨result, rfl⟩ := hidle point hpoint
    rfl
  have hclose : .closeCount ∉ w.calls := by
    intro hmem
    obtain ⟨result, hresult⟩ := hidle _ hmem
    cases hresult
  have hbalanced := hsound.balanced hclose
  have hsize := size_le_of_keys hsound.keys
  have hlt := w.conn.streamCount.toNat_lt
  rw [howed] at hbalanced
  dsimp only
  omega

/-- Two openings at once, of which the second finds the queue full and takes its entry back. -/
def twoOpenings : List OverlapStep :=
  [.call .openStream, .call .openStream] ++ (List.replicate 9 [.advance 0, .advance 1]).flatten

theorem streamCount_eq_size_twoOpenings :
    let w := twoOpenings.foldl step (start 1 65536)
    w.calls = [.returned (.ok 1), .returned (.error .sendBufferFull)] ∧
      w.conn.streamCount.toNat = w.conn.streams.size := by
  have hcalls : (twoOpenings.foldl step (start 1 65536)).calls =
      [.returned (.ok 1), .returned (.error .sendBufferFull)] := by decide +kernel
  have hagree : EveryStep step CountsAgree (start 1 65536) twoOpenings :=
    ⟨trivial, trivial, trivial, trivial, trivial, trivial, trivial, trivial, trivial, trivial,
      trivial, trivial, trivial, trivial, trivial, trivial, trivial, fun _ => rfl, trivial,
      trivial, trivial⟩
  refine ⟨hcalls, streamCount_eq_size 1 65536 twoOpenings hagree ?_⟩
  intro point hpoint
  rw [hcalls, List.mem_cons, List.mem_singleton] at hpoint
  obtain rfl | rfl := hpoint
  · exact ⟨_, rfl⟩
  · exact ⟨_, rfl⟩

/-- `close` runs while `openStream` is between its `fetch_add` and `queue_frame`. -/
def closedWhileOpening : List OverlapStep :=
  .call .openStream :: List.replicate 5 (.advance 0) ++
    .call .close :: List.replicate 6 (.advance 1) ++ List.replicate 3 (.advance 0)

theorem streamCount_wraps :
    let w := closedWhileOpening.foldl step (start 1024 65536)
    w.calls = [.returned (.error .connectionClosed), .returned (.ok ())] ∧
      w.conn.streams.size = 0 ∧ w.conn.streamCount = 65535 := by
  decide +kernel

end Overlap
end Dcp
