import NetworkPool.Pool.Trace

/-!
# The connection table

What the pool is for, without its requests, its UDP side and its memory: a table of
connections, the queues of messages that wait for a connect, and the visible trace. `Act` lists
everything one callback can do to it, each action with its guard and its whole effect. A callback
is a sequence of actions (`Acts`); the invariants of the pool are proved once for each action.
-/

namespace NetworkPool

/-! ## Objects -/

namespace Ctcp

/-- The object after `close_set_nullptr`. -/
def afterClose (c : Ctcp) : Ctcp :=
  if (c.tcpInited || c.timerInited) && !c.closing then
    { c with
      tcp := if c.tcpInited then
        { c.tcp with closing := true, reading := false, listening := false } else c.tcp
      timer := if c.timerInited then { c.timer with closing := true, armed := none } else c.timer
      closing := true }
  else c

/-- The object after `shutdown_and_close_set_nullptr` with the request `req`. -/
def afterShutdown (env : Env) (req : ℕ) (c : Ctcp) : Ctcp :=
  if !c.tcpInited then c.afterClose
  else if !c.closing && !c.shutdown then
    if env.mallocShutdown && env.uvShutdown then
      { c with tcp := { c.tcp with shutdownReq := some req }, shutdown := true }
    else c.afterClose
  else c

/-- The object after a successful `uv_timer_start`. -/
def arm (timeout : Timeout) (c : Ctcp) : Ctcp :=
  { c with timer := { c.timer with armed := some timeout } }

/-- The object after a successful `uv_read_start`. -/
def startRead (c : Ctcp) : Ctcp :=
  { c with tcp := { c.tcp with reading := true } }

/-- The object once its connect callback has run. -/
def connectDone (c : Ctcp) : Ctcp :=
  { c with tcp := { c.tcp with connectReq := none } }

/-- The object after a successful `uv_write`. -/
def queueWrite (w : WriteWithInfo) (c : Ctcp) : Ctcp :=
  { c with tcp := { c.tcp with
    writes := c.tcp.writes ++ [w], writeQueueSize := c.tcp.writeQueueSize + w.size } }

/-- The object once libuv has taken the request `w` off. -/
def takeWrite (w : WriteWithInfo) (c : Ctcp) : Ctcp :=
  { c with tcp := { c.tcp with writes := c.tcp.writes.erase w } }

/-- A newly allocated object. -/
def fresh (timerInited : Bool) (node : CnetworkNode) : Ctcp :=
  { tcpInited := true, timerInited := timerInited, node := node }

/-- Changes of an object that leave its place in the table alone. -/
inductive Touch (c : Ctcp) : Ctcp → Prop
  | arm (timeout : Timeout) (hclosing : c.closing = false) (hshutdown : c.shutdown = false)
      (hinited : c.timerInited = true) (hlistening : c.tcp.listening = false) :
      Touch c (c.arm timeout)
  | fired : Touch c { c with timer := { c.timer with armed := none } }
  | drained (n : ℕ) (hn : n ≤ c.tcp.writeQueueSize) :
      Touch c { c with tcp := { c.tcp with writeQueueSize := n } }
  | tcpClosed (hclosing : c.tcp.closing = true) (hconnect : c.tcp.connectReq = none)
      (hshutdown : c.tcp.shutdownReq = none) (hwrites : c.tcp.writes = []) :
      Touch c { c with tcp := { c.tcp with closed := true }, tcpInited := false }
  | timerClosed (hclosing : c.timer.closing = true) :
      Touch c { c with timer := { c.timer with closed := true }, timerInited := false }

/-- An object whose set-up failed and that was closed or deleted. -/
structure Dead (c : Ctcp) : Prop where
  connectReq : c.tcp.connectReq = none
  shutdownReq : c.tcp.shutdownReq = none
  writes : c.tcp.writes = []
  reading : c.tcp.reading = false
  listening : c.tcp.listening = false
  shutdown : c.shutdown = false
  armed : c.timer.armed = none
  tcpClosing : c.tcp.closing = true → c.closing = true
  timerClosing : c.timer.closing = true → c.closing = true
  inited : c.closing = false → c.tcpInited = false ∧ c.timerInited = false

end Ctcp

/-! ## The table -/

/-- The table. `trace` holds visible entries only. -/
structure Table where
  tcpServers : NodeMap ℕ
  node2stream : NodeMap ℕ
  connecting : Finset ℕ
  waitingSend : NodeMap (List UvBuf)
  tcps : ℕ → Ctcp
  nextTcp : ℕ
  trace : List Obs

/-- The table of the pool. -/
def Internal.table (s : Internal) : Table where
  tcpServers := s.tcpServers
  node2stream := s.node2stream
  connecting := s.connecting
  waitingSend := s.waitingSend
  tcps := s.tcps
  nextTcp := s.nextTcp
  trace := visible s.trace

namespace Table

/-- The messages waiting for `node`. -/
def waiting (v : Table) (node : CnetworkNode) : List UvBuf :=
  (v.waitingSend.lookup node).getD []

/-- `t` is a pending connect, a connection or a listener of the pool. -/
def InRegistry (v : Table) (t : ℕ) : Prop :=
  t ∈ v.connecting ∨ (∃ node, v.node2stream.lookup node = some t) ∨
    ∃ node, v.tcpServers.lookup node = some t

/-- Stores the object `c` at `t`. -/
def setTcp (v : Table) (t : ℕ) (c : Ctcp) : Table :=
  { v with tcps := Function.update v.tcps t c }

/-- Appends visible entries. -/
def emit (v : Table) (obs : List Obs) : Table :=
  { v with trace := v.trace ++ obs }

/-- Allocates the object `c`. -/
def add (v : Table) (c : Ctcp) : Table :=
  { v.setTcp v.nextTcp c with nextTcp := v.nextTcp + 1 }

/-- `shutdownTcpConnection_set_nullptr` on `t`, which becomes `c`. -/
def teardown (v : Table) (t : ℕ) (bAlwaysNotify : Bool) (c : Ctcp) : Table :=
  let node := (v.tcps t).node
  { v with
    node2stream := v.node2stream.erase node
    waitingSend := v.waitingSend.erase node
    tcps := Function.update v.tcps t c
    trace := v.trace ++
      (if (v.node2stream.lookup node).isSome || bAlwaysNotify then
        [.callback (.connectionStatus node false)] else []) ++
      dropCalls node (v.waiting node) }

/-- `t` is entered for its node and reported. -/
def register (v : Table) (t : ℕ) : Table :=
  let node := (v.tcps t).node
  { v with
    node2stream := v.node2stream.insert node t
    waitingSend := v.waitingSend.erase node
    trace := v.trace ++ [.registered t node, .callback (.connectionStatus node true)] }

/-- `startupTcpConnection_may_set_nullptr` on `t`, whose node has a family. `ok` says that what
waits for the node, if anything, can be handed to `uv_write`. -/
inductive Startup (ok : Bool) (v : Table) (t : ℕ) : Table → Prop
  /-- The node is taken. -/
  | taken (hlookup : v.node2stream.lookup (v.tcps t).node ≠ none) :
      Startup ok v t (v.setTcp t (v.tcps t).afterClose)
  /-- Nothing waits, or there is no memory for what waits. -/
  | up (hlookup : v.node2stream.lookup (v.tcps t).node = none)
      (hwaiting : ok = true → v.waitingSend.lookup (v.tcps t).node = none) :
      Startup ok v t ((v.register t).emit
        (dropCalls (v.tcps t).node (v.waiting (v.tcps t).node)))
  /-- The waiting messages are handed to `uv_write`. -/
  | flush (req : ℕ) (hlookup : v.node2stream.lookup (v.tcps t).node = none) :
      Startup ok v t (((v.register t).setTcp t (((v.tcps t).arm .send).queueWrite
        ⟨req, v.waiting (v.tcps t).node⟩)).emit
          [.uvWrite t (v.tcps t).node (v.waiting (v.tcps t).node)])
  /-- The write, or the timer before it, fails. -/
  | down (passed : Bool) (hlookup : v.node2stream.lookup (v.tcps t).node = none)
      (hok : ok = false) :
      Startup ok v t
        (((((v.register t).setTcp t
          (if passed then (v.tcps t).arm .send else v.tcps t)).emit
            (if passed then [.uvWrite t (v.tcps t).node (v.waiting (v.tcps t).node)] else [])).emit
            (dropCalls (v.tcps t).node (v.waiting (v.tcps t).node))).teardown t false
            (if passed then (v.tcps t).arm .send else v.tcps t).afterClose)

end Table

/-! ## Actions -/

/-- Names of the actions. Those that take a message from the batch name it. -/
inductive Label
  | touch (t : ℕ)
  | message (t : ℕ)
  | written (t : ℕ)
  | lost (t : ℕ)
  | teardown (t : ℕ)
  | close (t : ℕ)
  | connectFail (t : ℕ)
  | connectUp (t : ℕ) (ok : Bool)
  | acceptUp (peer : Csockaddr) (ok : Bool)
  | shutdownDone (t : ℕ)
  | dead
  | park (node : CnetworkNode) (b : UvBuf)
  | connect (node : CnetworkNode) (b : UvBuf)
  | refuse (node : CnetworkNode) (b : UvBuf)
  | discard (node : CnetworkNode) (b : UvBuf)
  | write (node : CnetworkNode) (b : UvBuf)
  | writeFail (node : CnetworkNode) (b : UvBuf)
  | listen
  | unlisten
  | notice
  | exit (batch : List (CnetworkNode × UvBuf))

namespace Label

/-- The messages an action takes from the batch. -/
def taken : Label → List (CnetworkNode × UvBuf)
  | .park node b | .connect node b | .refuse node b | .discard node b | .write node b
  | .writeFail node b => [(node, b)]
  | .exit batch => batch
  | _ => []

/-- The object an action of a libuv callback tears down. -/
def torn : Label → Option ℕ
  | .teardown t | .connectFail t => some t
  | _ => none

/-- Actions that leave the registries and the waiting queues alone. -/
def Quiet : Label → Prop
  | .touch _ | .message _ | .written _ | .lost _ => True
  | _ => False

/-- Actions of the loops of `on_wakeup`. -/
def InLoop : Label → Prop
  | .touch _ | .close _ | .dead | .park _ _ | .connect _ _ | .refuse _ _ | .discard _ _ | .write _ _
  | .writeFail _ _ | .listen | .unlisten | .notice => True
  | _ => False

theorem Quiet.torn {l : Label} (h : l.Quiet) : l.torn = none := by
  cases l <;> simp_all [Quiet, Label.torn]

theorem InLoop.torn {l : Label} (h : l.InLoop) : l.torn = none := by
  cases l <;> simp_all [InLoop, Label.torn]

end Label

/-- The messages for TCP nodes. -/
def tcpOnly (l : List (CnetworkNode × UvBuf)) : List (CnetworkNode × UvBuf) :=
  l.filter fun m => m.1.IsTcp

open Table in
/-- The actions on the table. -/
inductive Act (v : Table) : Label → Table → Prop
  | touch (t : ℕ) (c : Ctcp) (hc : (v.tcps t).Touch c) : Act v (.touch t) (v.setTcp t c)
  | message (t : ℕ) (data : List UInt8) (hreading : (v.tcps t).tcp.reading = true) :
      Act v (.message t) (v.emit (visible [.callback (.message (v.tcps t).node data)]))
  | written (t : ℕ) (w : WriteWithInfo) (hw : w ∈ (v.tcps t).tcp.writes) :
      Act v (.written t)
        ((v.setTcp t ((v.tcps t).takeWrite w)).emit [.written (v.tcps t).node w.buf])
  | lost (t : ℕ) (w : WriteWithInfo) (hw : w ∈ (v.tcps t).tcp.writes) :
      Act v (.lost t)
        ((v.setTcp t ((v.tcps t).takeWrite w)).emit (dropCalls (v.tcps t).node w.buf))
  | teardown (t : ℕ) (hlistening : (v.tcps t).tcp.listening = false)
      (hconnect : (v.tcps t).closing = false → (v.tcps t).tcpInited = true) :
      Act v (.teardown t) (v.teardown t false (v.tcps t).afterClose)
  | close (t : ℕ) (node : CnetworkNode) (c : Ctcp)
      (hlookup : v.node2stream.lookup node = some t)
      (hc : c = (v.tcps t).afterClose ∨ (v.tcps t).timer.armed = some .send ∧
        ∃ env req, c = (v.tcps t).afterShutdown env req) :
      Act v (.close t) (v.teardown t false c)
  | connectFail (t : ℕ) (armed : Bool) (hreq : (v.tcps t).tcp.connectReq.isSome = true)
      (harmed : armed = true → (v.tcps t).closing = false) :
      Act v (.connectFail t)
        (({ v with connecting := v.connecting.erase t }.setTcp t
          (if armed then (v.tcps t).connectDone.arm .idle else (v.tcps t).connectDone)).teardown t
            true (if armed then (v.tcps t).connectDone.arm .idle
              else (v.tcps t).connectDone).afterClose)
  | connectUp (t : ℕ) (ok : Bool) (v' : Table) (hreq : (v.tcps t).tcp.connectReq.isSome = true)
      (hclosing : (v.tcps t).closing = false)
      (hstart : Startup ok ({ v with connecting := v.connecting.erase t }.setTcp t
        (((v.tcps t).connectDone.arm .idle).startRead)) t v') :
      Act v (.connectUp t ok) v'
  | acceptUp (peer : Csockaddr) (ok : Bool) (v' : Table)
      (hstart : Startup ok (v.add ((Ctcp.fresh true ⟨.protocolTcp, peer⟩).arm .idle).startRead)
        v.nextTcp v') :
      Act v (.acceptUp peer ok) v'
  | shutdownDone (t : ℕ) (hreq : (v.tcps t).tcp.shutdownReq.isSome = true) :
      Act v (.shutdownDone t) (v.setTcp t ({ v.tcps t with
        tcp := { (v.tcps t).tcp with shutdownReq := none } } : Ctcp).afterClose)
  | dead (c : Ctcp) (hc : c.Dead) : Act v .dead (v.add c)
  | park (node : CnetworkNode) (b : UvBuf) (buf : List UvBuf)
      (hwaiting : v.waitingSend.lookup node = some buf)
      (hlookup : v.node2stream.lookup node = none) :
      Act v (.park node b) { v with waitingSend := v.waitingSend.insert node (buf ++ [b]) }
  | connect (node : CnetworkNode) (b : UvBuf) (req : ℕ) (htcp : node.IsTcp)
      (hvalid : node.sockaddr.valid = true)
      (hwaiting : v.waitingSend.lookup node = none)
      (hlookup : v.node2stream.lookup node = none) :
      Act v (.connect node b)
        ({ v.add { (Ctcp.fresh true node).arm .connect with tcp := { connectReq := some req } } with
          waitingSend := v.waitingSend.insert node [b]
          connecting := insert v.nextTcp v.connecting }.emit [.uvTcpConnect v.nextTcp node])
  | refuse (node : CnetworkNode) (b : UvBuf)
      (hwaiting : v.waitingSend.lookup node = none)
      (hlookup : v.node2stream.lookup node = none) :
      Act v (.refuse node b)
        (v.emit (.callback (.connectionStatus node false) :: dropCalls node [b]))
  | discard (node : CnetworkNode) (b : UvBuf) :
      Act v (.discard node b) (v.emit (dropCalls node [b]))
  | write (t : ℕ) (node : CnetworkNode) (b : UvBuf) (req : ℕ)
      (hlookup : v.node2stream.lookup node = some t) :
      Act v (.write node b)
        ((v.setTcp t (((v.tcps t).arm .send).queueWrite ⟨req, [b]⟩)).emit
          [.uvWrite t (v.tcps t).node [b]])
  | writeFail (t : ℕ) (node : CnetworkNode) (b : UvBuf) (passed : Bool)
      (hlookup : v.node2stream.lookup node = some t) :
      Act v (.writeFail node b)
        (v.emit ((if passed then [.uvWrite t (v.tcps t).node [b]] else []) ++ dropCalls node [b]))
  | listen (node : CnetworkNode) (hserver : v.tcpServers.lookup node = none) :
      Act v .listen
        { v.add { Ctcp.fresh false node with tcp := { listening := true } } with
          tcpServers := v.tcpServers.insert node v.nextTcp }
  | unlisten (node : CnetworkNode) (t : ℕ) (hserver : v.tcpServers.lookup node = some t) :
      Act v .unlisten
        ({ v with tcpServers := v.tcpServers.erase node }.setTcp t (v.tcps t).afterClose)
  | notice (node : CnetworkNode) (hnode : ¬ node.IsTcp) :
      Act v .notice (v.emit [.callback (.connectionStatus node false)])
  | exit (batch : List (CnetworkNode × UvBuf)) (streams : List (CnetworkNode × ℕ))
      (connecting : List ℕ) (queues : List (CnetworkNode × List UvBuf)) (tcps : ℕ → Ctcp)
      (hstreams : streams.Perm v.node2stream.toPairs)
      (hconnecting : connecting.toFinset = v.connecting)
      (hqueues : queues.Perm v.waitingSend.toPairs)
      (htcps : ∀ t, (v.InRegistry t ∧ tcps t = (v.tcps t).afterClose) ∨
        (¬ v.InRegistry t ∧ tcps t = v.tcps t)) :
      Act v (.exit batch)
        { v with
          tcpServers := ∅
          node2stream := ∅
          connecting := ∅
          waitingSend := ∅
          tcps := tcps
          trace := v.trace ++
            streams.map (fun pair => .callback (.connectionStatus (v.tcps pair.2).node false)) ++
            connecting.map (fun t => .callback (.connectionStatus (v.tcps t).node false)) ++
            queues.flatMap (fun pair => dropCalls pair.1 pair.2) ++
            batch.flatMap (fun pair => dropCalls pair.1 [pair.2]) }

/-- A sequence of actions. -/
inductive Acts : Table → List Label → Table → Prop
  | nil (v : Table) : Acts v [] v
  | cons {v v₁ v₂ : Table} {l : Label} {ls : List Label} :
      Act v l v₁ → Acts v₁ ls v₂ → Acts v (l :: ls) v₂

theorem Acts.single {v v' : Table} {l : Label} (h : Act v l v') : Acts v [l] v' :=
  .cons h (.nil v')

theorem Acts.append {v v₁ v₂ : Table} {ls₁ ls₂ : List Label} (h₁ : Acts v ls₁ v₁)
    (h₂ : Acts v₁ ls₂ v₂) : Acts v (ls₁ ++ ls₂) v₂ := by
  induction h₁ with
  | nil => exact h₂
  | cons h _ ih => exact .cons h (ih h₂)

end NetworkPool
