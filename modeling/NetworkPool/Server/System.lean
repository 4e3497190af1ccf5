import NetworkPool.Pool.Trace
import NetworkPool.Server.State
import NetworkPool.WorkQueue.Queue

/-!
# The server as a transition system

Four kinds of threads act: the network thread, which runs the pool and the callbacks the pool
makes; the threads of the work queue; the one that constructs and destroys it; and the callers of
the pool. They share what the locks protect (the work queue, `m_tasks` and the pending queues of
the pool) and the cancel flags, so a step ends where a lock is released or a flag was read. The
callbacks of one function of the pool are made one by one (`callbacks`), and so are the calls of
one `message` (`acts`); the next function starts when both are through.
-/

namespace NetworkPool

/-! ## State -/

/-- Where a thread stands in `ChttpTask::run`. -/
inductive Run
  /-- Before the test of the flag. -/
  | start
  /-- The flag was seen unset. -/
  | checked
  /-- The response is sent. -/
  | sent
  /-- Through. -/
  | done
deriving DecidableEq, Repr

/-- The calls of `ChttpTask::run` to the pool. `base` is the number of the block with the
response. -/
inductive Reply
  | send (task : ℕ) (base : ℕ)
  | close (task : ℕ)
deriving DecidableEq, Repr

/-- The pool, the server with its work queue, and the network thread. `runs` tells where each
thread of the work queue stands in `ChttpTask::run` while it is in it. `built` is the task that
`message` has constructed and not yet pushed. `replies` records the calls of `ChttpTask::run` in
order; `reader` is the connection of the last read. `ended`: a fault in a thread has ended the
process. -/
structure System where
  pool : Pool := {}
  server : ChttpServer := {}
  workQueue : WorkQueue.State ℕ Unit := {}
  runs : ℕ → Run := fun _ => .start
  callbacks : List Callback := []
  acts : List (CnetworkNode × HttpAct) := []
  built : Option ℕ := none
  reader : ℕ := 0
  replies : List Reply := []
  ended : Bool := false

/-- Events of the system. -/
inductive SystemEvent
  | setNetworkPool
  /-- A function of the pool, or a call to it from another thread. -/
  | pool (e : Event)
  /-- The next callback. `newTask n` says whether the `n`-th task of a `message` is allocated. -/
  | callback (garbage : ℕ → UInt8) (newTask : ℕ → Bool)
  /-- The next call of the running `message`; `woken` is the thread a `notify_one` wakes. -/
  | act (woken : Option ℕ)
  /-- The next step of a thread of the work queue. -/
  | worker (i : ℕ)
  /-- A step of the work queue that neither pushes a task nor is one of `worker`. -/
  | workQueue (e : WorkQueue.Event ℕ Unit)

/-! ## Steps -/

/-- The connection whose read callback the event is. -/
def Event.reads : Event → Option ℕ
  | .uv (.tcpRead t _ _ _) => some t
  | _ => none

namespace System

/-- The network thread is in `uv_run`. -/
def Idle (σ : System) : Prop :=
  σ.callbacks = [] ∧ σ.acts.isEmpty = true

instance (σ : System) : Decidable σ.Idle :=
  inferInstanceAs (Decidable (_ ∧ _))

/-- `ChttpTask::run` after the test of the flag. `getInfo` comes first: it reads `m_lines[0]`, and
the `std::length_error` of a string up to a null pointer is caught nowhere. What it returns is only
printed. Then the response is sent if a pool is set. -/
def reply (i task : ℕ) (σ : System) : System :=
  match (σ.server.heap task).context.getInfo with
  | .error _ => { σ with ended := true }
  | .ok _ =>
    if σ.server.pool then
      { σ with
        pool := { σ.pool with
          exchanged := σ.pool.exchanged.send (σ.server.heap task).node resp false }
        runs := Function.update σ.runs i .sent
        replies := σ.replies ++ [.send task σ.pool.exchanged.accepted.length] }
    else { σ with runs := Function.update σ.runs i .done }

/-- The end of `ChttpTask::run`. -/
def replyClose (i task : ℕ) (σ : System) : System :=
  if !(σ.server.heap task).context.isKeepAlive then
    { σ with
      pool := { σ.pool with
        exchanged := σ.pool.exchanged.close (σ.server.heap task).node false }
      runs := Function.update σ.runs i .done
      replies := σ.replies ++ [.close task] }
  else { σ with runs := Function.update σ.runs i .done }

/-- One step of a thread of the work queue. Its calls of `task->run()` and `deleter(task)` are the
ones of the server's tasks. -/
def worker (i : ℕ) (σ : System) : Option System :=
  match σ.workQueue.threads i with
  | .taken _ => (σ.workQueue.thread i).map fun q => { σ with
      workQueue := q
      runs := Function.update σ.runs i .start }
  | .running entry =>
    match σ.runs i with
    | .start =>
      if (σ.server.heap entry.task).canceled then
        some { σ with runs := Function.update σ.runs i .done }
      else some { σ with runs := Function.update σ.runs i .checked }
    | .checked => some (σ.reply i entry.task)
    | .sent => some (σ.replyClose i entry.task)
    | .done => (σ.workQueue.thread i).map fun q => { σ with workQueue := q }
  | .ran entry => (σ.workQueue.thread i).map fun q => { σ with
      workQueue := q
      server := σ.server.deleteTask entry.task }
  | _ => (σ.workQueue.thread i).map fun q => { σ with workQueue := q }

/-- The next call of the running `message`. A task is constructed in one step and pushed in the
next. -/
def act (woken : Option ℕ) (σ : System) : Option System :=
  match σ.acts with
  | (node, .pushTask context) :: acts =>
    match σ.built with
    | none => some { σ with
        server := σ.server.newTask node context σ.reader
        built := some σ.server.nextTask }
    | some task =>
      if σ.workQueue.owner.accepts then
        ((σ.workQueue.pushTask task ()).notifyOne woken).map fun q => { σ with
          workQueue := q
          built := none
          acts := acts }
      else none
  | (node, .close) :: acts => some { σ with
      pool := { σ.pool with exchanged := σ.pool.exchanged.close node false }
      acts := acts }
  | [] => none

/-- A step of the threads that construct and destroy the work queue, or a spurious wakeup. The
destructor deletes the tasks that are left. -/
def workQueueStep (nThread : ℕ) (σ : System) (e : WorkQueue.Event ℕ Unit) : Option System :=
  match e with
  | .pushTask _ _ _ | .thread _ => none
  | .sweep =>
    match σ.workQueue.owner with
    | .sweeping (entry :: _) => (σ.workQueue.step nThread .sweep).map fun q => { σ with
        workQueue := q
        server := σ.server.deleteTask entry.task }
    | _ => (σ.workQueue.step nThread .sweep).map fun q => { σ with workQueue := q }
  | e => (σ.workQueue.step nThread e).map fun q => { σ with workQueue := q }

/-- One step of the process with `nThread` threads in the work queue. -/
def advance (nThread : ℕ) (σ : System) : SystemEvent → Option System
  | .setNetworkPool => some { σ with server := { σ.server with pool := true } }
  | .pool e =>
    if e.outside ∨ σ.Idle then
      match σ.pool.step e with
      | some p => some { σ with
          pool := p
          callbacks := σ.callbacks ++
            calls (p.internal.trace.drop σ.pool.internal.trace.length)
          reader := e.reads.getD σ.reader }
      | none => none
    else none
  | .callback garbage newTask =>
    match σ.acts, σ.callbacks with
    | [], c :: callbacks =>
      match σ.server.callback garbage newTask c with
      | some (acts, server) => some { σ with
          server := server
          callbacks := callbacks
          acts := acts }
      | none => none
    | _, _ => none
  | .act woken => σ.act woken
  | .worker i => σ.worker i
  | .workQueue e => σ.workQueueStep nThread e

/-- One step of the system; a process that has ended makes none. -/
def step (nThread : ℕ) (σ : System) (e : SystemEvent) : Option System :=
  if σ.ended then none else σ.advance nThread e

end System

/-- The server from its construction on, with `nThread` threads. -/
def serverSystem (nThread : ℕ) : Lib.Lts System SystemEvent where
  init := {}
  step := System.step nThread

end NetworkPool
