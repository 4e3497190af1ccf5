import NetworkPool.Http.Context

/-!
# The HTTP server's reads

What `ChttpServer` does with the bytes of one connection: libuv asks for a window, fills it, and
`message` analyses what has come and hands out the messages that are complete.
-/

namespace NetworkPool

/-- What `message` does beside changing the context of the connection. -/
inductive HttpAct where
  /-- `m_workQueue.pushTask` of a task with this context. -/
  | pushTask (context : ChttpContext)
  /-- `m_pool->close(node)`. -/
  | close

namespace ChttpContext

/-- The context of a new `ChttpTask`. -/
def ofTask : ChttpContext :=
  new 0x1000000

/-- `message` from `_again` on, `fuel` rounds at most. `pool` says whether a pool is set,
`newTask n` whether the allocation of the `n`-th task succeeds. -/
def messageLoop (pool : Bool) (newTask : ℕ → Bool) :
    ℕ → ℕ → ChttpContext → List HttpAct × ChttpContext
  | 0, _, ctx => ([], ctx)
  | fuel + 1, n, ctx =>
    match ctx.analysis with
    | (false, ctx) => ([], ctx)
    | (true, ctx) =>
      if ctx.isGood && pool then
        if newTask n then
          match ctx.reinitForNext ofTask with
          | some (ctx, former) =>
            let r := messageLoop pool newTask fuel (n + 1) ctx
            (.pushTask former :: r.1, r.2)
          | none => ([], ctx)
        else ([.close], ctx)
      else if pool then ([.close], ctx)
      else ([], ctx)

/-- `message`. The fuel suffices (`messageLoop_passed`). -/
def message (pool : Bool) (newTask : ℕ → Bool) (ctx : ChttpContext) (length : ℕ) :
    List HttpAct × ChttpContext :=
  let ctx := ctx.recvPush length
  messageLoop pool newTask (ctx.work + 1) 0 ctx

/-- A read of a connection: the bytes that come, and what a block that is allocated for them
held before. -/
structure Read where
  garbage : ℕ → UInt8
  bytes : List UInt8

/-- The bytes of the reads. -/
def stream (reads : List Read) : List UInt8 :=
  reads.flatMap Read.bytes

/-- The window is prepared and the bytes are put into it; `none` when they do not fit. -/
def receive (ctx : ChttpContext) (r : Read) : Option ChttpContext :=
  (ctx.prepareBuffer r.garbage).bind fun (ctx, window) =>
    if r.bytes.length ≤ window.length then some (ctx.fill r.bytes) else none

/-- Reads analysed one after the other, as a client would. -/
def feed (ctx : ChttpContext) : List Read → Option ChttpContext
  | [] => some ctx
  | r :: reads =>
    (ctx.receive r).bind fun ctx => feed (ctx.recvPush r.bytes.length).analysis.2 reads

/-- Reads of a connection of the server, with a pool set and tasks that can be allocated. -/
def serve (ctx : ChttpContext) : List Read → Option (List HttpAct × ChttpContext)
  | [] => some ([], ctx)
  | r :: reads =>
    (ctx.receive r).bind fun ctx =>
      let m := ctx.message true (fun _ => true) r.bytes.length
      (serve m.2 reads).map fun (acts, ctx) => (m.1 ++ acts, ctx)

end ChttpContext

end NetworkPool
