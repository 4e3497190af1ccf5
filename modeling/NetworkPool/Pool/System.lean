import NetworkPool.Lib.Lts
import NetworkPool.Pool.Wakeup

/-!
# The pool as a transition system

Three parties act: the callers of `bind`, `send`, `close` and of the destructor, at any time
and from any thread; libuv, which runs one callback at a time in the internal thread; and a
running `on_wakeup`, which takes one request of its local copies at a time.

The guards of `uvStep` are the contract of libuv: a callback of a request runs only while the
request is pending, hence once, and the close callback of a handle runs once and after the
callbacks of its requests; reads stop with `uv_close`; a timer fires only while it is armed and
is disarmed when it fires. The status a callback gets is arbitrary.
-/

namespace NetworkPool

/-- The pool with the local copies of a running `on_wakeup`. -/
structure Pool where
  exchanged : Exchanged := {}
  internal : Internal := {}
  batch : Option Batch := none

/-- Callbacks libuv can run. -/
inductive UvEvent
  | newConnection (server : ℕ) (status : ℤ) (env : Env)
  | connectDone (t : ℕ) (status : ℤ) (env : Env)
  | tcpRead (t : ℕ) (nread : ℤ) (data : List UInt8) (env : Env)
  | writeDone (t : ℕ) (req : ℕ) (status : ℤ) (env : Env)
  | timeout (t : ℕ)
  | shutdownDone (t : ℕ)
  | tcpClosed (t : ℕ)
  | timerClosed (t : ℕ)
  /-- No callback: libuv hands `n` queued bytes of `t` to the kernel. -/
  | drained (t : ℕ) (n : ℕ)
  | udpRecv (u : ℕ) (nread : ℤ) (data : List UInt8) (addr : Option Csockaddr)
  | udpSendDone (u : ℕ) (req : ℕ) (status : ℤ)
  | udpClosed (u : ℕ)
  | asyncClosed

/-- Events of the pool. -/
inductive Event
  | bind (node : CnetworkNode) (bBind : Bool)
  | send (node : CnetworkNode) (data : List UInt8) (bAutoConnect : Bool)
  | close (node : CnetworkNode) (bForceClose : Bool)
  /-- The destructor sets `m_bWantExit`. -/
  | wantExit
  /-- `on_wakeup` starts and takes the pending queues. -/
  | wakeup
  /-- `on_wakeup` reads `m_bWantExit`; if it is set the exit branch runs. -/
  | dispatch (order : ExitOrder)
  | bindNext (env : Env)
  | sendNext (env : Env)
  | closeNext (env : Env)
  | wakeupDone
  | uv (e : UvEvent)

/-! ## Calls from outside -/

/-- Calls to the pool from other threads. -/
def Event.outside : Event → Bool
  | .bind _ _ | .send _ _ _ | .close _ _ | .wantExit => true
  | _ => false

namespace Exchanged

/-- `CnetworkPool::bind`. -/
def bind (node : CnetworkNode) (bBind : Bool) (x : Exchanged) : Exchanged :=
  { x with pendingBind := x.pendingBind ++ [(node, bBind)] }

/-- `CnetworkPool::send`. The new block gets the next number. -/
def send (node : CnetworkNode) (data : List UInt8) (bAutoConnect : Bool) (x : Exchanged) :
    Exchanged :=
  if data.length = 0 then x
  else if node.protocol = .protocolUdp ∧ data.length > 65507 then x
  else
    let temp : PendingSend := ⟨node, ⟨x.accepted.length, data⟩, bAutoConnect⟩
    { x with pendingSend := x.pendingSend ++ [temp], accepted := x.accepted ++ [temp] }

/-- `CnetworkPool::close`. -/
def close (node : CnetworkNode) (bForceClose : Bool) (x : Exchanged) : Exchanged :=
  if node.protocol ≠ .protocolTcp then x
  else { x with pendingClose := x.pendingClose ++ [(node, bForceClose)] }

end Exchanged

/-! ## Steps -/

/-- One callback of libuv. -/
def uvStep (s : Internal) : UvEvent → Option Internal
  | .newConnection server status env =>
    if (s.tcps server).tcp.listening then some (onNewConnection env server status s) else none
  | .connectDone t status env =>
    if (s.tcps t).tcp.connectReq.isSome then some (onConnectDone env t status s) else none
  | .tcpRead t nread data env =>
    if (s.tcps t).tcp.reading ∧ (0 < nread → (data.length : ℤ) = nread) then
      some (onTcpRead env t nread data (tcpAllocBuffer t s))
    else none
  | .writeDone t req status env =>
    let c := s.tcps t
    match c.tcp.writes.find? fun w => w.req = req with
    | some w =>
      let s := s.setTcp t { c with tcp := { c.tcp with writes := c.tcp.writes.erase w } }
      some (onTcpWriteDone env t w status s)
    | none => none
  | .timeout t =>
    let c := s.tcps t
    if c.timer.armed.isSome then
      some (onTcpTimeout t (s.setTcp t { c with timer := { c.timer with armed := none } }))
    else none
  | .shutdownDone t =>
    if (s.tcps t).tcp.shutdownReq.isSome then some (Ctcp.onShutdown t s) else none
  | .tcpClosed t =>
    let c := s.tcps t
    if c.tcp.closing ∧ ¬ c.tcp.closed ∧ c.tcp.connectReq = none ∧ c.tcp.shutdownReq = none ∧
        c.tcp.writes = [] then
      some (Ctcp.onTcpClosed t s)
    else none
  | .timerClosed t =>
    let c := s.tcps t
    if c.timer.closing ∧ ¬ c.timer.closed then some (Ctcp.onTimerClosed t s) else none
  | .drained t n =>
    let c := s.tcps t
    if n ≤ c.tcp.writeQueueSize then
      some (s.setTcp t { c with tcp := { c.tcp with writeQueueSize := c.tcp.writeQueueSize - n } })
    else none
  | .udpRecv u nread data addr =>
    if (s.udps u).receiving then some (onUdpRecv u nread data addr (udpAllocBuffer u s)) else none
  | .udpSendDone u req status =>
    let c := s.udps u
    match c.sends.find? fun w => w.req = req with
    | some w => some (onUdpSendDone u w status (s.setUdp u { c with sends := c.sends.erase w }))
    | none => none
  | .udpClosed u =>
    let c := s.udps u
    if c.closing ∧ ¬ c.closed ∧ c.sends = [] then some (Cudp.onClosed u s) else none
  | .asyncClosed =>
    if s.async.closing ∧ ¬ s.async.closed then some (Casync.onClosed s) else none

/-- One step of the pool. libuv runs no callback while `on_wakeup` is running. -/
def Pool.step (p : Pool) : Event → Option Pool
  | .bind node bBind => some { p with exchanged := p.exchanged.bind node bBind }
  | .send node data bAutoConnect =>
    some { p with exchanged := p.exchanged.send node data bAutoConnect }
  | .close node bForceClose => some { p with exchanged := p.exchanged.close node bForceClose }
  | .wantExit => some { p with exchanged := { p.exchanged with bWantExit := true } }
  | .wakeup =>
    match p.batch with
    | some _ => none
    | none =>
      if p.internal.async.closing then none
      else
        let x := p.exchanged
        some { p with
          exchanged := { x with pendingBind := [], pendingSend := [], pendingClose := [] }
          batch := some ⟨x.pendingBind, x.pendingSend, x.pendingClose, false⟩ }
  | .dispatch order =>
    match p.batch with
    | some ⟨binds, sends, closes, false⟩ =>
      if p.exchanged.bWantExit then
        if order.Enumerates p.internal then
          some { p with
            internal := exitAll order ⟨binds, sends, closes, false⟩ p.internal
            batch := none }
        else none
      else some { p with batch := some ⟨binds, sends, closes, true⟩ }
    | _ => none
  | .bindNext env =>
    match p.batch with
    | some ⟨(node, bBind) :: binds, sends, closes, true⟩ =>
      some { p with
        internal := bindOne env node bBind p.internal
        batch := some ⟨binds, sends, closes, true⟩ }
    | _ => none
  | .sendNext env =>
    match p.batch with
    | some ⟨[], req :: sends, closes, true⟩ =>
      some { p with
        internal := sendOne env req p.internal
        batch := some ⟨[], sends, closes, true⟩ }
    | _ => none
  | .closeNext env =>
    match p.batch with
    | some ⟨[], [], (node, bForceClose) :: closes, true⟩ =>
      some { p with
        internal := closeOne env node bForceClose p.internal
        batch := some ⟨[], [], closes, true⟩ }
    | _ => none
  | .wakeupDone =>
    match p.batch with
    | some ⟨[], [], [], true⟩ => some { p with batch := none }
    | _ => none
  | .uv e =>
    match p.batch with
    | some _ => none
    | none =>
      match uvStep p.internal e with
      | some s => some { p with internal := s }
      | none => none

/-- The pool from its construction on. -/
def poolSystem : Lib.Lts Pool Event where
  init := {}
  step := Pool.step

/-! ## Sample runs -/

/-- A node for sample runs. -/
def sampleNode : CnetworkNode := ⟨.protocolTcp, .in4 80 1⟩

/-- A message is sent and `on_wakeup` handles it. -/
def sendRun : List Event :=
  [.send sampleNode [1] true, .wakeup, .dispatch ⟨[], [], [], []⟩, .sendNext {}, .wakeupDone]

/-- A message is sent, and the connect `t` started for it goes through. -/
def openRun (t : ℕ) : List Event :=
  sendRun ++ [.uv (.connectDone t 0 {})]

/-- A close is requested and `on_wakeup` handles it. -/
def closeRun (bForceClose : Bool) : List Event :=
  [.close sampleNode bForceClose, .wakeup, .dispatch ⟨[], [], [], []⟩, .closeNext {}, .wakeupDone]

end NetworkPool
