import NetworkPool.Pool.UvWrapper

/-!
# Connections

The private functions of `CnetworkPool` that edit the connection map and the waiting queues,
and the functions of `network_pool.cpp` that open connections and servers.
-/

namespace NetworkPool

/-- `CnetworkPool::getStreamByNode`. -/
def getStreamByNode (node : CnetworkNode) (s : Internal) : Option ℕ :=
  s.node2stream.lookup node

/-- Reports each buffer dropped and frees it. -/
def dropAll (node : CnetworkNode) (buf : List UvBuf) : List Obs :=
  buf.flatMap fun b => [.callback (.drop node b), .freeBuf b.base]

/-- `CnetworkPool::dropWaiting`. -/
def dropWaiting (node : CnetworkNode) (s : Internal) : Internal :=
  match s.waitingSend.lookup node with
  | some buf => { s.emit (dropAll node buf) with waitingSend := s.waitingSend.erase node }
  | none => s

/-- `CnetworkPool::pushWaiting`. -/
def pushWaiting (node : CnetworkNode) (data : UvBuf) (s : Internal) : Internal :=
  match s.waitingSend.lookup node with
  | none => { s with waitingSend := s.waitingSend.insert node [data] }
  | some buf => { s with waitingSend := s.waitingSend.insert node (buf ++ [data]) }

/-- `CnetworkPool::dropWriteAndFree_set_nullptr`. -/
def dropWriteAndFreeSetNullptr (node : CnetworkNode) (w : WriteWithInfo) (s : Internal) : Internal :=
  (s.emit (dropAll node w.buf)).emit [.freeReq w.req]

/-- `CnetworkPool::getWriteFromWaitingByNode`. -/
def getWriteFromWaitingByNode (env : Env) (node : CnetworkNode) (s : Internal) :
    Option WriteWithInfo × Internal :=
  match s.waitingSend.lookup node with
  | none => (none, s)
  | some buf =>
    if !env.mallocWrite then (none, dropWaiting node s)
    else
      let (req, s) := mallocReq s
      (some ⟨req, buf⟩, { s with waitingSend := s.waitingSend.erase node })

/-- `CnetworkPool::shutdownTcpConnection_set_nullptr`. The map entry and the waiting queue are
found by the node of `t`, not by `t` itself. -/
def shutdownTcpConnectionSetNullptr (env : Env) (t : ℕ) (bAlwaysNotify bShutdown : Bool)
    (s : Internal) : Internal :=
  let node := (s.tcps t).node
  let sz := (s.node2stream.lookup node).isSome
  let s := { s with node2stream := s.node2stream.erase node }
  let s := if sz || bAlwaysNotify then s.call (.connectionStatus node false) else s
  let s := dropWaiting node s
  if bShutdown then Ctcp.shutdownAndCloseSetNullptr env t s else Ctcp.closeSetNullptr t s

/-- `CnetworkPool::startupTcpConnection_may_set_nullptr`. -/
def startupTcpConnectionMaySetNullptr (env : Env) (t : ℕ) (s : Internal) : Internal :=
  let node := (s.tcps t).node
  if !node.sockaddr.valid then Ctcp.closeSetNullptr t s
  else if (s.node2stream.lookup node).isSome then Ctcp.closeSetNullptr t s
  else
    let s := { s with node2stream := s.node2stream.insert node t }.emit [.registered t node]
    let s := s.call (.connectionStatus node true)
    match getWriteFromWaitingByNode env node s with
    | (none, s) => s
    | (some w, s) =>
      let s := uvTimerStart t s .send env.timerStartSend
      if !env.timerStartSend then
        shutdownTcpConnectionSetNullptr env t false false (dropWriteAndFreeSetNullptr node w s)
      else
        let s := uvWrite t s w env.write
        if !env.write then
          shutdownTcpConnectionSetNullptr env t false false (dropWriteAndFreeSetNullptr node w s)
        else s

/-- `bindAndListenTcp`. libuv refuses to bind a socket to an address of no family. -/
def bindAndListenTcp (env : Env) (node : CnetworkNode) (s : Internal) : Option ℕ × Internal :=
  if node.protocol ≠ .protocolTcp then (none, s)
  else
    match Ctcp.alloc env false s with
    | (none, s) => (none, s)
    | (some server, s) =>
      let s := s.setTcp server { s.tcps server with node := node }
      if !(env.tcpBind && node.sockaddr.valid) then (none, Ctcp.closeSetNullptr server s)
      else if !env.listen then (none, Ctcp.closeSetNullptr server s)
      else (some server, uvListen server s)

/-- `connectTcp`. libuv refuses to connect to an address of no family. -/
def connectTcp (env : Env) (node : CnetworkNode) (s : Internal) : Option ℕ × Internal :=
  if node.protocol ≠ .protocolTcp then (none, s)
  else if !env.mallocConnect then (none, s)
  else
    let (connect, s) := mallocReq s
    match Ctcp.alloc env true s with
    | (none, s) => (none, s.emit [.freeReq connect])
    | (some t, s) =>
      let s := s.setTcp t { s.tcps t with node := node }
      let s := uvTimerStart t s .connect env.timerStart
      if !env.timerStart then (none, Ctcp.closeSetNullptr t (s.emit [.freeReq connect]))
      else if !(env.tcpConnect && node.sockaddr.valid) then
        (none, Ctcp.closeSetNullptr t (s.emit [.freeReq connect]))
      else (some t, uvTcpConnect t s connect)

/-- `bindAndListenUdp`. -/
def bindAndListenUdp (env : Env) (node : CnetworkNode) (s : Internal) : Option ℕ × Internal :=
  if node.protocol ≠ .protocolUdp then (none, s)
  else
    match Cudp.alloc env s with
    | (none, s) => (none, s)
    | (some server, s) =>
      let s := s.setUdp server { s.udps server with node := node }
      if !(env.udpBind && node.sockaddr.valid) then (none, Cudp.closeSetNullptr server s)
      else if !env.udpRecvStart then (none, Cudp.closeSetNullptr server s)
      else (some server, s.setUdp server { s.udps server with receiving := true })

end NetworkPool
