import NetworkPool.Pool.Callbacks

/-!
# `on_wakeup`

`on_wakeup` first moves the three pending queues to local copies under the lock, then either
tears everything down (exit) or runs three loops over the copies. The loop bodies are `bindOne`,
`sendOne` and `closeOne`. The copies are part of the state (`Batch`), since the callers go on
appending to the queues while the loops run.

The iteration order of the unordered containers is not specified by the language; the exit
branch takes it as an argument (`ExitOrder`).
-/

namespace NetworkPool

/-- The local copies of a running `on_wakeup`. `dispatched` is false until `m_bWantExit` has
been read. -/
structure Batch where
  bindCopy : List (CnetworkNode × Bool)
  sendCopy : List PendingSend
  closeCopy : List (CnetworkNode × Bool)
  dispatched : Bool := false

/-! ## Loop bodies -/

/-- The server of `m_udpServers` bound to `node`. -/
def findUdpServer (node : CnetworkNode) (s : Internal) : Option ℕ :=
  s.udpServers.find? fun u => (s.udps u).node = node

/-- One iteration of the bind loop. -/
def bindOne (env : Env) (node : CnetworkNode) (bBind : Bool) (s : Internal) : Internal :=
  match node.protocol with
  | .protocolTcp =>
    match s.tcpServers.lookup node with
    | some tcp =>
      if bBind then s.call (.bindStatus node true)
      else
        let s := { s with tcpServers := s.tcpServers.erase node }
        Ctcp.closeSetNullptr tcp (s.call (.bindStatus node false))
    | none =>
      if bBind then
        match bindAndListenTcp env node s with
        | (some tcpServer, s) =>
          { s with tcpServers := s.tcpServers.insert node tcpServer }.call (.bindStatus node true)
        | (none, s) => s.call (.bindStatus node false)
      else s.call (.bindStatus node false)
  | .protocolUdp =>
    match findUdpServer node s with
    | some udp =>
      if bBind then s.call (.bindStatus node true)
      else
        let s := { s with udpServers := s.udpServers.erase udp }
        Cudp.closeSetNullptr udp (s.call (.bindStatus node false))
    | none =>
      if bBind then
        match bindAndListenUdp env node s with
        | (some udpServer, s) =>
          { s with udpServers := s.udpServers ++ [udpServer] }.call (.bindStatus node true)
        | (none, s) => s.call (.bindStatus node false)
      else s.call (.bindStatus node false)
  | .unknown _ => s.call (.bindStatus node false)

/-- The TCP branch of the send loop when there is no stream for the node. -/
def sendWithoutStream (env : Env) (req : PendingSend) (s : Internal) : Internal :=
  let bNeedConnect := (s.waitingSend.lookup req.node).isNone
  if bNeedConnect && !req.bAutoConnect then s.emit (dropAll req.node [req.data])
  else
    let s := pushWaiting req.node req.data s
    if bNeedConnect then
      match connectTcp env req.node s with
      | (none, s) => dropWaiting req.node (s.call (.connectionStatus req.node false))
      | (some tcp, s) => { s with connecting := insert tcp s.connecting }
    else s

/-- The TCP branch of the send loop when `tcp` is the stream of the node. -/
def sendOnStream (env : Env) (req : PendingSend) (tcp : ℕ) (s : Internal) : Internal :=
  if !env.mallocWrite then s.emit (dropAll req.node [req.data])
  else
    let (addr, s) := mallocReq s
    let w : WriteWithInfo := ⟨addr, [req.data]⟩
    let s := uvTimerStart tcp s .send env.timerStart
    if !env.timerStart then
      shutdownTcpConnectionSetNullptr env tcp false false
        (dropWriteAndFreeSetNullptr req.node w s)
    else
      let s := uvWrite tcp s w env.write
      if !env.write then
        shutdownTcpConnectionSetNullptr env tcp false false
          (dropWriteAndFreeSetNullptr req.node w s)
      else s

/-- The UDP branch of the send loop. -/
def sendUdp (env : Env) (req : PendingSend) (s : Internal) : Internal :=
  if s.udpServers.length > 0 then
    if env.mallocUdpSend then
      let (addr, s) := mallocReq s
      let index := s.udpIndex % s.udpServers.length
      let sender := s.udpServers.getD index 0
      let s := { s with udpIndex := index + 1 }
      if env.udpSend ≠ 0 then
        (s.emit [.freeBuf req.data.base, .freeReq addr]).call
          (.udpSendError (s.udps sender).node env.udpSend)
      else
        s.setUdp sender { s.udps sender with sends := (s.udps sender).sends ++ [⟨addr, [req.data]⟩] }
    else s.emit [.freeBuf req.data.base]
  else s.emit [.freeBuf req.data.base]

/-- One iteration of the send loop. -/
def sendOne (env : Env) (req : PendingSend) (s : Internal) : Internal :=
  match req.node.protocol with
  | .protocolTcp =>
    match getStreamByNode req.node s with
    | none => sendWithoutStream env req s
    | some tcp => sendOnStream env req tcp s
  | .protocolUdp => sendUdp env req s
  | .unknown _ =>
    let s := if req.bAutoConnect then s.call (.connectionStatus req.node false) else s
    s.emit (dropAll req.node [req.data])

/-- One iteration of the close loop. -/
def closeOne (env : Env) (node : CnetworkNode) (bForceClose : Bool) (s : Internal) : Internal :=
  match getStreamByNode node s with
  | none => s
  | some tcp =>
    let s := if !bForceClose then uvTimerStart tcp s .send env.timerStart else s
    if !bForceClose && !env.timerStart then shutdownTcpConnectionSetNullptr env tcp false false s
    else shutdownTcpConnectionSetNullptr env tcp false (!bForceClose) s

/-! ## Exit -/

/-- The order in which the exit branch goes through the unordered containers. -/
structure ExitOrder where
  tcpServers : List (CnetworkNode × ℕ)
  node2stream : List (CnetworkNode × ℕ)
  connecting : List ℕ
  waitingSend : List (CnetworkNode × List UvBuf)
deriving DecidableEq

/-- The entries of a map as pairs. -/
def NodeMap.toPairs {α : Type} (m : NodeMap α) : List (CnetworkNode × α) :=
  m.entries.map fun e => (e.1, e.2)

/-- `order` enumerates the containers of `s`. -/
def ExitOrder.Enumerates (order : ExitOrder) (s : Internal) : Prop :=
  order.tcpServers.Perm s.tcpServers.toPairs ∧
  order.node2stream.Perm s.node2stream.toPairs ∧
  order.connecting.Nodup ∧ order.connecting.toFinset = s.connecting ∧
  order.waitingSend.Perm s.waitingSend.toPairs

instance (order : ExitOrder) (s : Internal) : Decidable (order.Enumerates s) :=
  inferInstanceAs (Decidable (_ ∧ _ ∧ _ ∧ _ ∧ _))

/-- The exit branch of `on_wakeup`. -/
def exitAll (order : ExitOrder) (b : Batch) (s : Internal) : Internal :=
  let s := Casync.closeSetNullptr s
  -- TCP servers
  let s := { s with tcpServers := ∅ }
  let s := order.tcpServers.foldl
    (fun s pair => Ctcp.closeSetNullptr pair.2 (s.call (.bindStatus pair.1 false))) s
  -- UDP servers
  let tmpUdpServers := s.udpServers
  let s := { s with udpServers := [] }
  let s := tmpUdpServers.foldl
    (fun s u => Cudp.closeSetNullptr u (s.call (.bindStatus (s.udps u).node false))) s
  -- TCP connections
  let s := { s with node2stream := ∅ }
  let s := order.node2stream.foldl
    (fun s pair =>
      Ctcp.closeSetNullptr pair.2 (s.call (.connectionStatus (s.tcps pair.2).node false))) s
  -- TCP connecting
  let s := { s with connecting := ∅ }
  let s := order.connecting.foldl
    (fun s t => Ctcp.closeSetNullptr t (s.call (.connectionStatus (s.tcps t).node false))) s
  -- waiting and pending messages
  let s := s.emit (order.waitingSend.flatMap fun pair => dropAll pair.1 pair.2)
  let s := { s with waitingSend := ∅ }
  let s := s.emit (b.bindCopy.map fun pair => .callback (.bindStatus pair.1 false))
  s.emit (b.sendCopy.flatMap fun req => dropAll req.node [req.data])

end NetworkPool
