import NetworkPool.Http.Server
import NetworkPool.Pool.System

/-!
# The server and its tasks

`ChttpServer` of `http_server.h`: the contexts of the connections and the tasks made of their
requests. A task is named by a number that is never used again; a destroyed task stays in the heap
with the memory it had.
-/

namespace NetworkPool

open Lib.CString

/-! ## Tasks -/

/-- `ChttpTask`. The source does not keep `reader`: the connection whose read completed the
request. -/
structure ChttpTask where
  node : CnetworkNode := {}
  context : ChttpContext := .ofTask
  canceled : Bool := false
  reader : ℕ := 0

/-- The `resp` of `ChttpTask::run`. -/
def resp : List UInt8 :=
  lit "HTTP/1.1 200 OK\r\nConnection:Keep-Alive\r\nContent-Length: 600\r\n\r\n" ++
    (List.replicate 60 (lit "0123456789")).flatten

/-! ## The server -/

/-- `ChttpServer`, but for `m_workQueue`. `pool` says that `m_pool` is not null, `tasks` is the
multimap `m_tasks`, `destroyed` records the tasks that were destroyed. -/
structure ChttpServer where
  context : NodeMap ChttpContext := ∅
  pool : Bool := false
  tasks : List (CnetworkNode × ℕ) := []
  heap : ℕ → ChttpTask := fun _ => {}
  nextTask : ℕ := 0
  destroyed : List ℕ := []

namespace ChttpServer

variable (s : ChttpServer)

/-- `addReferenceTask`. -/
def addReferenceTask (task : ℕ) : ChttpServer :=
  { s with tasks := s.tasks ++ [((s.heap task).node, task)] }

/-- `deleteReferenceTask`. -/
def deleteReferenceTask (task : ℕ) : ChttpServer :=
  { s with tasks := s.tasks.erase ((s.heap task).node, task) }

/-- `cancelTask`. -/
def cancelTask (node : CnetworkNode) : ChttpServer :=
  { s with heap := fun task =>
      if (node, task) ∈ s.tasks then { s.heap task with canceled := true } else s.heap task }

/-- `allocateMemoryForMessage`; `none` is the `std::bad_alloc` of `prepareBuffer`. -/
def allocateMemoryForMessage (node : CnetworkNode) (garbage : ℕ → UInt8) : Option ChttpServer :=
  match s.context.lookup node with
  | some ctx =>
    (ctx.prepareBuffer garbage).map fun r => { s with context := s.context.insert node r.1 }
  | none => some s

/-- `message`, with the calls it makes left to the caller; `none` when libuv cannot have put
`data` into the window. -/
def message (node : CnetworkNode) (data : List UInt8) (newTask : ℕ → Bool) :
    Option (List HttpAct × ChttpServer) :=
  match s.context.lookup node with
  | some ctx =>
    if data.length ≤ ctx.buffer.getLength - ctx.nowIndex then
      let r := (ctx.fill data).message s.pool newTask data.length
      some (r.1, { s with context := s.context.insert node r.2 })
    else none
  | none => some ([], s)

/-- `connectionStatus`. -/
def connectionStatus (node : CnetworkNode) (bSuccess : Bool) : ChttpServer :=
  if bSuccess then
    if node ∈ s.context then s
    else { s with context := s.context.insert node (.new 0x1000000) }
  else cancelTask { s with context := s.context.erase node } node

/-- `new ChttpTask`, which registers the task, and `reinitForNext`, which moves a request into
it. -/
def newTask (node : CnetworkNode) (context : ChttpContext) (reader : ℕ) : ChttpServer :=
  let task := s.nextTask
  let s := { s with
    heap := Function.update s.heap task { node := node, context := context, reader := reader }
    nextTask := task + 1 }
  s.addReferenceTask task

/-- `delete task`. -/
def deleteTask (task : ℕ) : ChttpServer :=
  let s := s.deleteReferenceTask task
  { s with destroyed := s.destroyed ++ [task] }

/-- A call of the interface: the calls that `message` goes on to make, and the server. -/
def callback (garbage : ℕ → UInt8) (newTask : ℕ → Bool) :
    Callback → Option (List (CnetworkNode × HttpAct) × ChttpServer)
  | .allocateMemoryForMessage node => (s.allocateMemoryForMessage node garbage).map fun s => ([], s)
  | .message node data =>
    (s.message node data newTask).map fun r => (r.1.map fun a => (node, a), r.2)
  | .connectionStatus node bSuccess => some ([], s.connectionStatus node bSuccess)
  | _ => some ([], s)

end ChttpServer

end NetworkPool
