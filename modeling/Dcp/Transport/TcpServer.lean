import Dcp.Library.Accounting
import Dcp.Library.Run
import Dcp.SessionLimit
import Dcp.Transport.Detection

/-!
The connections of a TCP server. An accept loop takes a permit for each connection, draws an id for
it, lists it in a table and hands it with its permit to a task of its own; callers list and remove
connections themselves, hold permits, or shut the server down. Their steps may come in any order,
and the handler of a connection may panic, which frees the permit but leaves the connection listed.
-/

namespace Dcp
open Library

structure TcpConfig where
  maxConnections : Nat
  /-- Whether TLS is configured. -/
  tls : Bool

structure Connection where
  id : UInt64
  peerAddr : String
  protocol : ProtocolMode
  deriving DecidableEq

def Connection.new (id : UInt64) (peerAddr : String) : Connection := ⟨id, peerAddr, .mcpJson⟩

/-- The server: its table, the permits that its semaphore has left, and the signals that were sent
to shut it down. -/
structure TcpServer where
  config : TcpConfig
  connections : Table UInt64 Connection
  connectionCounter : UInt64
  permits : Nat
  shutdownTx : Nat
  running : Bool

/-- Where a task is: what it does next. An accept loop knows the signals that were sent before it
subscribed. -/
inductive TcpPoint
  | run
  | bind
  | subscribe
  | accept (shutdownRx : Nat)
  | drawId (shutdownRx : Nat) (peerAddr : String)
  | list (shutdownRx : Nat) (conn : Connection)
  | stop
  | ran
  | bindFailed
  | tlsRefused
  | handle (conn : Connection)
  | cleanUp (conn : Connection)
  | release (conn : Connection)
  | closed (conn : Connection)
  | unwind (conn : Connection)
  | panicked (conn : Connection)
  | register (peerAddr : String)
  | insert (conn : Connection)
  | registered (conn : Connection)
  | tryAcquire
  | holding
  | refused
  | dropped
  | remove (id : UInt64)
  | removed (id : UInt64) (found : Option Connection)
  | shutdown
  | count
  | clear
  | drained
  | forced
  deriving DecidableEq

/-- What a task finds when it goes on: nothing special, a connection that came in, an error, the
signal to shut down, a panic, or that its deadline has passed. -/
inductive TcpEvent
  | goesOn
  | accepted (peerAddr : String)
  | failed
  | signalled
  | panics
  | late

inductive TcpCall
  | run
  | registerConnection (peerAddr : String)
  | removeConnection (id : UInt64)
  | tryAcquireConnection
  | shutdown

def TcpCall.start : TcpCall → TcpPoint
  | run => .run
  | registerConnection peerAddr => .register peerAddr
  | removeConnection id => .remove id
  | tryAcquireConnection => .tryAcquire
  | shutdown => .shutdown

namespace TcpServer

def new (config : TcpConfig) : TcpServer := ⟨config, ∅, 1, config.maxConnections, 0, false⟩

def connectionCount (s : TcpServer) : Nat := s.connections.size

def getConnection (s : TcpServer) (id : UInt64) : Option Connection := s.connections.lookup id

/-- One step of a task, and the tasks that it spawns. -/
def step (s : TcpServer) (point : TcpPoint) (event : TcpEvent) :
    TcpServer × TcpPoint × List TcpPoint :=
  match point with
  | .run =>
      if s.config.tls then ({ s with running := false }, .tlsRefused, []) else (s, .bind, [])
  | .bind =>
      match event with
      | .failed => (s, .bindFailed, [])
      | _ => ({ s with running := true }, .subscribe, [])
  | .subscribe => (s, .accept s.shutdownTx, [])
  | .accept shutdownRx =>
      match event with
      | .accepted peerAddr =>
          if s.permits = 0 then (s, .accept shutdownRx, [])
          else ({ s with permits := s.permits - 1 }, .drawId shutdownRx peerAddr, [])
      | .signalled =>
          if shutdownRx < s.shutdownTx then (s, .stop, []) else (s, .accept shutdownRx, [])
      | _ => (s, .accept shutdownRx, [])
  | .drawId shutdownRx peerAddr =>
      ({ s with connectionCounter := s.connectionCounter + 1 },
        .list shutdownRx (.new s.connectionCounter peerAddr), [])
  | .list shutdownRx conn =>
      -- the permit goes with the connection
      ({ s with connections := s.connections.insert conn.id conn }, .accept shutdownRx,
        [.handle conn])
  | .stop => ({ s with running := false }, .ran, [])
  | .handle conn =>
      match event with
      | .panics => (s, .unwind conn, [])
      | _ => (s, .cleanUp conn, [])
  | .cleanUp conn => ({ s with connections := s.connections.erase conn.id }, .release conn, [])
  | .release conn => ({ s with permits := s.permits + 1 }, .closed conn, [])
  | .unwind conn => ({ s with permits := s.permits + 1 }, .panicked conn, [])
  | .register peerAddr =>
      ({ s with connectionCounter := s.connectionCounter + 1 },
        .insert (.new s.connectionCounter peerAddr), [])
  | .insert conn =>
      ({ s with connections := s.connections.insert conn.id conn }, .registered conn, [])
  | .tryAcquire =>
      if s.permits = 0 then (s, .refused, [])
      else ({ s with permits := s.permits - 1 }, .holding, [])
  | .holding => ({ s with permits := s.permits + 1 }, .dropped, [])
  | .remove id =>
      ({ s with connections := s.connections.erase id }, .removed id (s.getConnection id), [])
  | .shutdown => ({ s with shutdownTx := s.shutdownTx + 1 }, .count, [])
  | .count =>
      if s.connectionCount = 0 then (s, .drained, [])
      else
        match event with
        | .late => (s, .clear, [])
        | _ => (s, .count, [])
  | .clear => ({ s with connections := ∅ }, .forced, [])
  | .ran | .bindFailed | .tlsRefused | .closed _ | .panicked _ | .registered _ | .refused
  | .dropped | .removed _ _ | .drained | .forced => (s, point, [])

end TcpServer

namespace TcpPoint

/-- The permits that a task holds. -/
def permits : TcpPoint → Nat
  | drawId _ _ | list _ _ | handle _ | cleanUp _ | release _ | unwind _ | holding => 1
  | _ => 0

/-- The connection that a task has made or was given. -/
def conn : TcpPoint → Option Connection
  | list _ conn | handle conn | cleanUp conn | release conn | closed conn | unwind conn
  | panicked conn | insert conn | registered conn => some conn
  | _ => none

/-- The task has listed its connection and has not taken it out. -/
def lists : TcpPoint → Option Connection
  | handle conn | cleanUp conn | unwind conn | panicked conn | registered conn => some conn
  | _ => none

/-- A connection that is listed without a permit. -/
def unpermitted : TcpPoint → Bool
  | panicked _ | registered _ => true
  | _ => false

/-- The task is an accept loop, or it serves a connection that one has accepted. -/
def serves : TcpPoint → Bool
  | bind | subscribe | accept _ | drawId _ _ | list _ _ | stop | handle _ | cleanUp _ | release _
  | unwind _ => true
  | _ => false

/-- The id that a task has drawn. -/
def drawn (point : TcpPoint) : Multiset UInt64 :=
  match point.conn with
  | some conn => {conn.id}
  | none => 0

theorem conn_of_lists {point : TcpPoint} {conn : Connection} (h : point.lists = some conn) :
    point.conn = some conn := by
  cases point <;> first | exact h | cases h

theorem mem_drawn {point : TcpPoint} {conn : Connection} (h : point.conn = some conn) :
    conn.id ∈ point.drawn := by
  rw [drawn, h]
  exact Multiset.mem_singleton_self conn.id

/-- The id that the next step of a task draws. -/
def draws (s : TcpServer) : TcpPoint → List UInt64
  | drawId _ _ | register _ => [s.connectionCounter]
  | _ => []

end TcpPoint

/-- A server, the tasks that were started on it and the ids that were drawn. -/
structure TcpTasks where
  server : TcpServer
  tasks : List TcpPoint
  issued : List UInt64

inductive TcpStep
  | call (call : TcpCall)
  | advance (index : Nat) (event : TcpEvent)

namespace TcpTasks

def start (config : TcpConfig) : TcpTasks := ⟨.new config, [], []⟩

def advance (s : TcpTasks) (index : Nat) (point : TcpPoint) (event : TcpEvent) : TcpTasks :=
  let next := s.server.step point event
  ⟨next.1, s.tasks.set index next.2.1 ++ next.2.2, s.issued ++ point.draws s.server⟩

def step (s : TcpTasks) : TcpStep → TcpTasks
  | .call call => { s with tasks := s.tasks ++ [call.start] }
  | .advance index event =>
      match s.tasks[index]? with
      | none => s
      | some point => s.advance index point event

def run (config : TcpConfig) (steps : List TcpStep) : TcpTasks := steps.foldl step (start config)

end TcpTasks

namespace TcpServer
variable (s : TcpServer) (point : TcpPoint) (event : TcpEvent)

theorem config_step : (s.step point event).1.config = s.config := by
  fun_cases step s point event <;> rfl

/-- A permit is free or with one task, also when a connection goes over to a task of its own. -/
theorem permits_step :
    (s.step point event).1.permits + (s.step point event).2.1.permits +
      ((s.step point event).2.2.map TcpPoint.permits).sum = s.permits + point.permits := by
  fun_cases step s point event <;> simp [TcpPoint.permits] <;> omega

/-- What a step draws is what the counter shows. -/
theorem counter_step :
    (s.step point event).1.connectionCounter =
      s.connectionCounter + UInt64.ofNat (point.draws s).length := by
  fun_cases step s point event <;> simp [TcpPoint.draws]

theorem drawn_step :
    (s.step point event).2.1.drawn + ((s.step point event).2.2.map TcpPoint.drawn).sum =
      point.drawn + (point.draws s : Multiset UInt64) := by
  fun_cases step s point event <;>
    simp [TcpPoint.drawn, TcpPoint.conn, TcpPoint.draws, Connection.new]

/-- Where TLS is configured no task serves, and none begins to. -/
theorem serves_step {s : TcpServer} {point : TcpPoint} (htls : s.config.tls = true)
    (hrunning : s.running = false) (hserves : point.serves = false) :
    (s.step point event).1.running = false ∧ (s.step point event).2.1.serves = false ∧
      (s.step point event).2.2 = [] := by
  fun_cases step s point event <;> simp_all [TcpPoint.serves]

/-- What a step does to the table: nothing, or it lists one connection, or takes one out, or all. -/
inductive TableMove (s : TcpServer) (point : TcpPoint) (s' : TcpServer) (point' : TcpPoint)
    (spawned : List TcpPoint) : Prop
  | same (hafter : (point' :: spawned).filterMap TcpPoint.lists = point.lists.toList)
      (htable : s'.connections = s.connections)
  | list (conn : Connection) (hconn : point.conn = some conn) (hbefore : point.lists = none)
      (hafter : (point' :: spawned).filterMap TcpPoint.lists = [conn])
      (htable : s'.connections = s.connections.insert conn.id conn)
  | cleanUp (conn : Connection) (hbefore : point.lists = some conn)
      (hafter : (point' :: spawned).filterMap TcpPoint.lists = [])
      (htable : s'.connections = s.connections.erase conn.id)
  | remove (id : UInt64) (hbefore : point.lists = none)
      (hafter : (point' :: spawned).filterMap TcpPoint.lists = [])
      (hpoint' : point' = .removed id (s.getConnection id))
      (htable : s'.connections = s.connections.erase id)
  | clear (hbefore : point.lists = none)
      (hafter : (point' :: spawned).filterMap TcpPoint.lists = [])
      (hpoint' : point' = .forced) (htable : s'.connections = ∅)

theorem tableMove_step :
    TableMove s point (s.step point event).1 (s.step point event).2.1
      (s.step point event).2.2 := by
  fun_cases step s point event <;> first
    | exact .same rfl rfl
    | exact .list _ rfl rfl rfl rfl
    | exact .cleanUp _ rfl rfl rfl
    | exact .remove _ rfl rfl rfl rfl
    | exact .clear rfl rfl rfl rfl

end TcpServer

namespace TcpTasks
variable {config : TcpConfig} {s : TcpTasks} {point : TcpPoint} {index : Nat}

/-- The connection is found, or the call that took it out returned it, or a shutdown that did not
wait longer has emptied the table. -/
def Accounted (s : TcpTasks) (conn : Connection) : Prop :=
  s.server.getConnection conn.id = some conn ∨ .removed conn.id (some conn) ∈ s.tasks ∨
    .forced ∈ s.tasks

/-- The permits are with the server and its tasks, what the table shows is listed by a task, every
id that was drawn is with one task, and with TLS nothing serves. -/
structure Sound (config : TcpConfig) (s : TcpTasks) : Prop where
  config_eq : s.server.config = config
  permits : s.server.permits + (s.tasks.map TcpPoint.permits).sum = config.maxConnections
  shown : ∀ id conn, s.server.getConnection id = some conn →
    conn.id = id ∧ ∃ task ∈ s.tasks, task.lists = some conn
  issued : s.issued = idsFrom1 s.issued.length
  counter : s.server.connectionCounter = UInt64.ofNat (s.issued.length + 1)
  drawn : (s.tasks.map TcpPoint.drawn).sum = (s.issued : Multiset UInt64)
  accounted : s.issued.length ≤ 2 ^ 64 →
    ∀ task ∈ s.tasks, ∀ conn, task.lists = some conn → s.Accounted conn
  tls : config.tls = true → s.server.running = false ∧ ∀ task ∈ s.tasks, task.serves = false

theorem sound_start (config : TcpConfig) : Sound config (start config) := by
  refine ⟨rfl, rfl, ?_, rfl, rfl, rfl, fun _ => ?_, fun _ => ⟨rfl, ?_⟩⟩
  · intro id conn hshown
    cases hshown
  · intro task htask
    cases htask
  · intro task htask
    cases htask

theorem Accounted.of_tasks {conn : Connection} {tasks : List TcpPoint} (h : s.Accounted conn)
    (htasks : ∀ task ∈ s.tasks, task ∈ tasks) : Accounted { s with tasks } conn := by
  obtain hfound | hremoved | hforced := h
  · exact .inl hfound
  · exact .inr (.inl (htasks _ hremoved))
  · exact .inr (.inr (htasks _ hforced))

theorem Sound.call (h : s.Sound config) (call : TcpCall) :
    Sound config { s with tasks := s.tasks ++ [call.start] } := by
  have hnew : call.start.permits = 0 ∧ call.start.drawn = 0 ∧ call.start.lists = none ∧
      call.start.serves = false := by
    cases call <;> exact ⟨rfl, rfl, rfl, rfl⟩
  refine ⟨h.config_eq, ?_, ?_, h.issued, h.counter, ?_, ?_, fun htls => ⟨(h.tls htls).1, ?_⟩⟩
  · simpa [hnew.1] using h.permits
  · intro id conn hshown
    obtain ⟨hid, task, htask, hlists⟩ := h.shown id conn hshown
    exact ⟨hid, task, List.mem_append_left _ htask, hlists⟩
  · simpa [hnew.2.1] using h.drawn
  · intro hfew task htask conn hlists
    obtain htask | htask := List.mem_append.mp htask
    · exact (h.accounted hfew task htask conn hlists).of_tasks
        fun _ hold => List.mem_append_left _ hold
    · rw [List.mem_singleton.mp htask, hnew.2.2.1] at hlists
      cases hlists
  · intro task htask
    obtain htask | htask := List.mem_append.mp htask
    · exact (h.tls htls).2 task htask
    · rw [List.mem_singleton.mp htask]
      exact hnew.2.2.2

/-- No two tasks have one id, unless the counter has gone round. -/
theorem Sound.apart (h : s.Sound config) (hfew : s.issued.length ≤ 2 ^ 64) {i j : Nat}
    {a b : TcpPoint} {id : UInt64} (hi : s.tasks[i]? = some a) (hj : s.tasks[j]? = some b)
    (ha : id ∈ a.drawn) (hb : id ∈ b.drawn) : i = j := by
  have hnodup : (s.tasks.map TcpPoint.drawn).sum.Nodup := by
    rw [h.drawn, h.issued]
    exact (nodup_idsFrom1_iff _).mpr hfew
  exact index_eq_of_nodup_sum hnodup hi hj ha hb

section Advance
variable {event : TcpEvent}

/-- A task that is new after the step, or one that did not take it. -/
theorem mem_advance {task : TcpPoint} (hpoint : s.tasks[index]? = some point)
    (htask : task ∈ (s.advance index point event).tasks) :
    task ∈ (s.server.step point event).2.1 :: (s.server.step point event).2.2 ∨
      ∃ j, j ≠ index ∧ s.tasks[j]? = some task := by
  obtain htask | htask := List.mem_append.mp htask
  · obtain ⟨j, hj⟩ := List.mem_iff_getElem?.mp htask
    by_cases heq : index = j
    · subst heq
      rw [List.getElem?_set_self (List.getElem?_eq_some_iff.mp hpoint).1] at hj
      rw [← Option.some.inj hj]
      exact .inl List.mem_cons_self
    · rw [List.getElem?_set_ne heq] at hj
      exact .inr ⟨j, Ne.symm heq, hj⟩
  · exact .inl (List.mem_cons_of_mem _ htask)

theorem mem_advance_of_new {task : TcpPoint} (hpoint : s.tasks[index]? = some point)
    (htask : task ∈ (s.server.step point event).2.1 :: (s.server.step point event).2.2) :
    task ∈ (s.advance index point event).tasks := by
  obtain rfl | htask := List.mem_cons.mp htask
  · exact List.mem_append_left _
      (List.mem_set (List.getElem?_eq_some_iff.mp hpoint).1 _)
  · exact List.mem_append_right _ htask

/-- A task stays, unless it takes the step, and also then if it has nothing left to do. -/
theorem mem_advance_of_mem {task : TcpPoint} (hpoint : s.tasks[index]? = some point)
    (htask : task ∈ s.tasks)
    (hdone : task = point → (s.server.step point event).2.1 = task) :
    task ∈ (s.advance index point event).tasks := by
  by_cases heq : task = point
  · refine mem_advance_of_new hpoint ?_
    rw [hdone heq]
    exact List.mem_cons_self
  · exact List.mem_append_left _ (mem_set_of_ne hpoint htask heq)

variable (h : s.Sound config) (hpoint : s.tasks[index]? = some point)
include h hpoint

theorem Sound.permits_advance :
    (s.advance index point event).server.permits +
      ((s.advance index point event).tasks.map TcpPoint.permits).sum = config.maxConnections := by
  have hsum := sum_map_set TcpPoint.permits (s.server.step point event).2.1 hpoint
  have hstep := TcpServer.permits_step s.server point event
  have hbefore := h.permits
  simp only [advance, List.map_append, List.sum_append]
  omega

theorem Sound.drawn_advance :
    ((s.advance index point event).tasks.map TcpPoint.drawn).sum =
      ((s.advance index point event).issued : Multiset UInt64) := by
  have hsum := sum_map_set TcpPoint.drawn (s.server.step point event).2.1 hpoint
  have hstep := TcpServer.drawn_step s.server point event
  simp only [advance, List.map_append, List.sum_append, ← Multiset.coe_add, ← h.drawn]
  refine add_right_cancel (b := point.drawn) ?_
  rw [add_right_comm, hsum, add_assoc, hstep, add_right_comm, add_assoc]

theorem Sound.shown_advance (id : UInt64) (conn : Connection)
    (hshown : (s.advance index point event).server.getConnection id = some conn) :
    conn.id = id ∧ ∃ task ∈ (s.advance index point event).tasks, task.lists = some conn := by
  change (s.server.step point event).1.connections.lookup id = some conn at hshown
  have hnew : conn ∈ ((s.server.step point event).2.1 :: (s.server.step point event).2.2).filterMap
      TcpPoint.lists → ∃ task ∈ (s.advance index point event).tasks, task.lists = some conn := by
    intro hmem
    obtain ⟨task, htask, hlists⟩ := List.mem_filterMap.mp hmem
    exact ⟨task, mem_advance_of_new hpoint htask, hlists⟩
  -- what was shown before is still listed, if the step does not take it out
  have hold (hbefore : s.server.getConnection id = some conn)
      (hkept : point.lists = some conn →
        ∃ task ∈ (s.advance index point event).tasks, task.lists = some conn) :
      conn.id = id ∧ ∃ task ∈ (s.advance index point event).tasks, task.lists = some conn := by
    obtain ⟨hid, task, htask, hlists⟩ := h.shown id conn hbefore
    refine ⟨hid, ?_⟩
    by_cases heq : task = point
    · exact hkept (heq ▸ hlists)
    · exact ⟨task, mem_advance_of_mem hpoint htask fun hsame => absurd hsame heq, hlists⟩
  cases s.server.tableMove_step point event with
  | same hafter htable =>
      rw [htable] at hshown
      refine hold hshown fun hlists => hnew ?_
      rw [hafter, hlists]
      exact List.mem_singleton_self conn
  | list conn' _ hbefore hafter htable =>
      rw [htable, Table.lookup_insert_eq] at hshown
      split at hshown
      · next heq =>
          obtain rfl := Option.some.inj hshown
          refine ⟨heq.symm, hnew ?_⟩
          rw [hafter]
          exact List.mem_singleton_self conn'
      · exact hold hshown fun hlists => nomatch hbefore.symm.trans hlists
  | cleanUp conn' hbefore _ htable =>
      rw [htable, Table.lookup_erase_eq] at hshown
      split at hshown
      · cases hshown
      · next hne =>
          refine hold hshown fun hlists => ?_
          obtain rfl := Option.some.inj (hbefore.symm.trans hlists)
          exact absurd (h.shown id conn' hshown).1.symm hne
  | remove id' hbefore _ _ htable =>
      rw [htable] at hshown
      exact hold (Table.lookup_of_lookup_erase hshown) fun hlists =>
        nomatch hbefore.symm.trans hlists
  | clear _ _ _ htable =>
      rw [htable] at hshown
      cases hshown

theorem Sound.accounted_advance (hfew : s.issued.length ≤ 2 ^ 64) (task : TcpPoint)
    (htask : task ∈ (s.advance index point event).tasks) (conn : Connection)
    (hlists : task.lists = some conn) : (s.advance index point event).Accounted conn := by
  have hmarks : ∀ mark ∈ s.tasks, mark = .removed conn.id (some conn) ∨ mark = .forced →
      mark ∈ (s.advance index point event).tasks := by
    intro mark hmem hmark
    refine mem_advance_of_mem hpoint hmem ?_
    obtain rfl | rfl := hmark
    · rintro rfl
      rfl
    · rintro rfl
      rfl
  have hkept (hbefore : s.Accounted conn)
      (hfound : s.server.getConnection conn.id = some conn →
        (s.advance index point event).Accounted conn) :
      (s.advance index point event).Accounted conn := by
    obtain hthere | hremoved | hforced := hbefore
    · exact hfound hthere
    · exact .inr (.inl (hmarks _ hremoved (.inl rfl)))
    · exact .inr (.inr (hmarks _ hforced (.inr rfl)))
  have hmove := s.server.tableMove_step point event
  obtain hnew | ⟨j, hne, hj⟩ := mem_advance hpoint htask
  · -- the connection of the task that took the step, or of one that it spawned
    have hmem := List.mem_filterMap.mpr ⟨task, hnew, hlists⟩
    cases hmove with
    | same hafter htable =>
        rw [hafter, Option.mem_toList] at hmem
        refine hkept (h.accounted hfew point (List.mem_of_getElem? hpoint) conn hmem) ?_
        exact fun hthere => .inl ((congrArg (AList.lookup conn.id) htable).trans hthere)
    | list conn' _ _ hafter htable =>
        rw [hafter] at hmem
        obtain rfl := List.mem_singleton.mp hmem
        exact .inl ((congrArg (AList.lookup conn.id) htable).trans (AList.lookup_insert _))
    | cleanUp _ _ hafter | remove _ _ hafter | clear _ hafter =>
        rw [hafter] at hmem
        cases hmem
  · have hother {conn' : Connection} (hconn : point.conn = some conn') : conn.id ≠ conn'.id := by
      intro heq
      refine hne (h.apart hfew hj hpoint (TcpPoint.mem_drawn (TcpPoint.conn_of_lists hlists)) ?_)
      rw [heq]
      exact TcpPoint.mem_drawn hconn
    refine hkept (h.accounted hfew task (List.mem_of_getElem? hj) conn hlists) fun hthere => ?_
    cases hmove with
    | same _ htable => exact .inl ((congrArg (AList.lookup conn.id) htable).trans hthere)
    | list conn' hconn _ _ htable =>
        refine .inl ((congrArg (AList.lookup conn.id) htable).trans ?_)
        rw [Table.lookup_insert_eq, if_neg (hother hconn)]
        exact hthere
    | cleanUp conn' hbefore _ htable =>
        refine .inl ((congrArg (AList.lookup conn.id) htable).trans ?_)
        rw [Table.lookup_erase_eq, if_neg (hother (TcpPoint.conn_of_lists hbefore))]
        exact hthere
    | remove id _ _ hpoint' htable =>
        by_cases heq : conn.id = id
        · refine .inr (.inl (mem_advance_of_new hpoint ?_))
          rw [hpoint', ← heq, hthere]
          exact List.mem_cons_self
        · refine .inl ((congrArg (AList.lookup conn.id) htable).trans ?_)
          rw [Table.lookup_erase_eq, if_neg heq]
          exact hthere
    | clear _ _ hpoint' =>
        refine .inr (.inr (mem_advance_of_new hpoint ?_))
        rw [hpoint']
        exact List.mem_cons_self

theorem Sound.advance : Sound config (s.advance index point event) := by
  have hdraws : point.draws s.server = [] ∨
      point.draws s.server = [s.server.connectionCounter] := by
    cases point <;> first | exact .inl rfl | exact .inr rfl
  obtain ⟨hissued, hcounter⟩ := idsFrom1_draw h.issued h.counter hdraws
  refine ⟨(s.server.config_step point event).trans h.config_eq, h.permits_advance hpoint,
    h.shown_advance hpoint, hissued, (s.server.counter_step point event).trans hcounter,
    h.drawn_advance hpoint, ?_, ?_⟩
  · intro hfew
    refine h.accounted_advance hpoint (Nat.le_trans ?_ hfew)
    change s.issued.length ≤ (s.issued ++ point.draws s.server).length
    rw [List.length_append]
    exact Nat.le_add_right _ _
  · intro htls
    obtain ⟨hrunning, hserves⟩ := h.tls htls
    obtain ⟨hstays, hpoint', hspawned⟩ := TcpServer.serves_step event (h.config_eq ▸ htls) hrunning
      (hserves point (List.mem_of_getElem? hpoint))
    refine ⟨hstays, fun task htask => ?_⟩
    obtain hnew | ⟨_, -, hj⟩ := mem_advance hpoint htask
    · rw [hspawned] at hnew
      rw [List.mem_singleton.mp hnew]
      exact hpoint'
    · exact hserves task (List.mem_of_getElem? hj)

end Advance

theorem sound_run (config : TcpConfig) (steps : List TcpStep) :
    Sound config (run config steps) := by
  refine invariant_foldl (fun s input hs => ?_) (sound_start config) steps
  cases input with
  | call call => exact hs.call call
  | advance index event =>
      cases hpoint : s.tasks[index]? with
      | none =>
          simp only [step, hpoint]
          exact hs
      | some point =>
          simp only [step, hpoint]
          exact hs.advance hpoint

theorem length_lists_le (tasks : List TcpPoint) :
    (tasks.filterMap TcpPoint.lists).length ≤
      (tasks.map TcpPoint.permits).sum + tasks.countP TcpPoint.unpermitted := by
  induction tasks with
  | nil => exact Nat.le_refl 0
  | cons task rest ih =>
      have htask : task.lists.toList.length ≤
          task.permits + if task.unpermitted then 1 else 0 := by
        cases task <;> exact Nat.le_of_ble_eq_true rfl
      have hsplit : ((task :: rest).filterMap TcpPoint.lists).length =
          task.lists.toList.length + (rest.filterMap TcpPoint.lists).length := by
        cases hlists : task.lists <;> simp [hlists, Nat.add_comm]
      rw [hsplit, List.map_cons, List.sum_cons, List.countP_cons]
      omega

/-- What the table shows has a task of its own each. -/
theorem Sound.connectionCount_le (h : s.Sound config) :
    s.server.connectionCount ≤ (s.tasks.filterMap TcpPoint.lists).length := by
  have hsub : s.server.connections.keys ⊆
      (s.tasks.filterMap TcpPoint.lists).map Connection.id := by
    intro id hid
    obtain ⟨conn, hshown⟩ := Option.isSome_iff_exists.mp (AList.lookup_isSome.mpr hid)
    obtain ⟨rfl, task, htask, hlists⟩ := h.shown id conn hshown
    exact List.mem_map_of_mem (List.mem_filterMap.mpr ⟨task, htask, hlists⟩)
  have hle := (s.server.connections.keys_nodup.subperm hsub).length_le
  rw [List.length_map] at hle
  rw [TcpServer.connectionCount, Table.size_eq_keys]
  exact hle

/-- However the tasks overlap, each permit is free or with one task, so that no more connections are
served at a time than the server may have; no more are listed than are served, have panicked or were
registered by callers; and a server that is to use TLS, which it cannot, never accepts. -/
theorem connections_bounded (config : TcpConfig) (steps : List TcpStep) :
    let s := run config steps
    s.server.permits + (s.tasks.map TcpPoint.permits).sum = config.maxConnections ∧
      s.server.connectionCount + s.server.permits ≤
        config.maxConnections + s.tasks.countP TcpPoint.unpermitted ∧
      (config.tls = true → s.server.running = false ∧ ∀ task ∈ s.tasks, task.serves = false) := by
  have h := sound_run config steps
  refine ⟨h.permits, ?_, h.tls⟩
  have hcount := h.connectionCount_le
  have hlists := length_lists_le (run config steps).tasks
  have hpermits := h.permits
  omega

/-- A shutdown that need not force its end has seen an empty table. -/
theorem empty_of_drained {event : TcpEvent} (hpoint : s.tasks[index]? = some .count)
    (hdrained : (s.step (.advance index event)).tasks[index]? = some .drained) (id : UInt64) :
    s.server.getConnection id = none := by
  by_cases hzero : s.server.connectionCount = 0
  · have hentries := List.length_eq_zero_iff.mp hzero
    rw [TcpServer.getConnection, AList.lookup, hentries]
    rfl
  · have hlt := (List.getElem?_eq_some_iff.mp hpoint).1
    have hnext : (s.server.step .count event).2.1 ≠ .drained := by
      cases event <;> simp [TcpServer.step, hzero]
    simp only [step, hpoint, advance] at hdrained
    rw [List.getElem?_append_left (by rw [List.length_set]; exact hlt),
      List.getElem?_set_self hlt] at hdrained
    exact absurd (Option.some.inj hdrained) hnext

/-- While ids are not used up, connections have ids of their own, and one that is served, has
panicked or was registered by a caller is found under its id until a call takes it out, which
returns it, or a shutdown out of time empties the table. So a shutdown that returns in time leaves
none that was not taken out. -/
theorem connections_found (config : TcpConfig) (steps : List TcpStep)
    (hfew : (run config steps).issued.length ≤ 2 ^ 64) :
    let s := run config steps
    (∀ (i j : Nat) (a b : TcpPoint) (conn conn' : Connection), s.tasks[i]? = some a →
      s.tasks[j]? = some b → a.conn = some conn → b.conn = some conn' → conn.id = conn'.id →
        i = j) ∧
      (∀ task ∈ s.tasks, ∀ conn, task.lists = some conn →
        s.server.getConnection conn.id = some conn ∨
          .removed conn.id (some conn) ∈ s.tasks ∨ .forced ∈ s.tasks) ∧
      ∀ index event, s.tasks[index]? = some .count →
        (s.step (.advance index event)).tasks[index]? = some .drained →
        ∀ task ∈ s.tasks, ∀ conn, task.lists = some conn →
          .removed conn.id (some conn) ∈ s.tasks ∨ .forced ∈ s.tasks := by
  have h := sound_run config steps
  refine ⟨?_, h.accounted hfew, ?_⟩
  · intro i j a b conn conn' hi hj ha hb heq
    refine h.apart hfew hi hj (TcpPoint.mem_drawn ha) ?_
    rw [heq]
    exact TcpPoint.mem_drawn hb
  · intro index event hpoint hdrained task htask conn hlists
    refine (h.accounted hfew task htask conn hlists).resolve_left fun hthere => ?_
    rw [empty_of_drained hpoint hdrained] at hthere
    cases hthere

/-- A connection is accepted and served while a shutdown waits for it. -/
theorem connections_found_served :
    let s := run ⟨1, false⟩ [.call .run, .advance 0 .goesOn, .advance 0 .goesOn, .advance 0 .goesOn,
      .advance 0 (.accepted "127.0.0.1:50000"), .advance 0 .goesOn, .advance 0 .goesOn,
      .call .shutdown, .advance 2 .goesOn, .advance 2 .goesOn]
    s.tasks[2]? = some .count ∧
      (s.server.getConnection 1 = some (.new 1 "127.0.0.1:50000") ∨
        .removed 1 (some (.new 1 "127.0.0.1:50000")) ∈ s.tasks ∨ .forced ∈ s.tasks) := by
  intro s
  have hfew : s.issued.length ≤ 2 ^ 64 := by decide
  refine ⟨by decide, ?_⟩
  exact (connections_found ⟨1, false⟩ _ hfew).2.1 (.handle (.new 1 "127.0.0.1:50000")) (by decide) _
    rfl

end TcpTasks
end Dcp
