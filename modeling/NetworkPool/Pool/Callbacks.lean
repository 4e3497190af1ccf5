import NetworkPool.Pool.Connection

/-!
# libuv callbacks of the pool

The callbacks of `network_pool.cpp` other than `on_wakeup`. Each takes the object its handle
belongs to and what libuv passes it. `tcp_alloc_buffer` and `udp_alloc_buffer` run before every
read callback; the buffer they obtain is only handed back, so only the call is kept.
-/

namespace NetworkPool

/-- `UV_EOF`. -/
def uvEof : ℤ := -4095

/-- `UV_ENOBUFS`. -/
def uvEnobufs : ℤ := -105

/-! ## TCP -/

/-- `tcp_alloc_buffer`. -/
def tcpAllocBuffer (t : ℕ) (s : Internal) : Internal :=
  s.call (.allocateMemoryForMessage (s.tcps t).node)

/-- `on_tcp_timeout`. -/
def onTcpTimeout (t : ℕ) (s : Internal) : Internal :=
  shutdownTcpConnectionSetNullptr {} t false false s

/-- `reset_tcp_idle_timeout_may_set_nullptr`. -/
def resetTcpIdleTimeoutMaySetNullptr (env : Env) (t : ℕ) (s : Internal) : Internal :=
  if (s.tcps t).tcp.writeQueueSize = 0 then
    let s := uvTimerStart t s .idle env.timerStart
    if !env.timerStart then shutdownTcpConnectionSetNullptr env t false false s else s
  else s

/-- `on_tcp_read`; `data` are the bytes read when `nread` is positive. -/
def onTcpRead (env : Env) (t : ℕ) (nread : ℤ) (data : List UInt8) (s : Internal) : Internal :=
  let node := (s.tcps t).node
  if nread > 0 then
    let s := s.call (.message node data)
    let s := s.call (.deallocateMemoryForMessage node)
    if !(s.tcps t).closing && !(s.tcps t).shutdown then
      resetTcpIdleTimeoutMaySetNullptr env t s
    else s
  else
    let s := s.call (.deallocateMemoryForMessage node)
    if nread < 0 then shutdownTcpConnectionSetNullptr env t false false s else s

/-- `on_tcp_write_done` for the request `w`, which libuv has taken off the stream. A successful
completion is recorded in the trace; the source has no callback for it. -/
def onTcpWriteDone (env : Env) (t : ℕ) (w : WriteWithInfo) (status : ℤ) (s : Internal) :
    Internal :=
  let node := (s.tcps t).node
  let s :=
    if status ≠ 0 then
      shutdownTcpConnectionSetNullptr env t false false
        (s.emit (w.buf.map fun b => .callback (.drop node b)))
    else
      let s := s.emit [.written node w.buf]
      if !(s.tcps t).closing && !(s.tcps t).shutdown then
        resetTcpIdleTimeoutMaySetNullptr env t s
      else s
  s.emit (w.buf.map (fun b => .freeBuf b.base) ++ [.freeReq w.req])

/-- `on_new_connection` on the listener `server`. -/
def onNewConnection (env : Env) (server : ℕ) (status : ℤ) (s : Internal) : Internal :=
  if status ≠ 0 then s.call (.tcpListenError (s.tcps server).node status)
  else
    match Ctcp.alloc env true s with
    | (none, s) => s
    | (some t, s) =>
      if !env.accept then Ctcp.closeSetNullptr t s
      else if !env.getpeername then Ctcp.closeSetNullptr t s
      else
        let s := s.setTcp t { s.tcps t with node := ⟨.protocolTcp, env.peer⟩ }
        if !env.peer.valid then Ctcp.closeSetNullptr t s
        else if (getStreamByNode (s.tcps t).node s).isSome then Ctcp.closeSetNullptr t s
        else
          let s := uvTimerStart t s .idle env.timerStart
          if !env.timerStart then Ctcp.closeSetNullptr t s
          else if !env.readStart then Ctcp.closeSetNullptr t s
          else startupTcpConnectionMaySetNullptr env t (uvReadStart t s)

/-- `on_connect_done`. -/
def onConnectDone (env : Env) (t : ℕ) (status : ℤ) (s : Internal) : Internal :=
  let c := s.tcps t
  let s := { s with connecting := s.connecting.erase t }
  let s := s.emit (c.tcp.connectReq.toList.map Obs.freeReq)
  let s := s.setTcp t { c with tcp := { c.tcp with connectReq := none } }
  if status < 0 || c.closing then shutdownTcpConnectionSetNullptr env t true false s
  else
    let s := uvTimerStart t s .idle env.timerStart
    if !env.timerStart then shutdownTcpConnectionSetNullptr env t true false s
    else if !env.readStart then shutdownTcpConnectionSetNullptr env t true false s
    else startupTcpConnectionMaySetNullptr env t (uvReadStart t s)

/-! ## UDP -/

/-- `udp_alloc_buffer`. -/
def udpAllocBuffer (u : ℕ) (s : Internal) : Internal :=
  s.call (.allocateMemoryForMessage (s.udps u).node)

/-- `on_udp_recv`; `addr` is the sender, absent when there is nothing to read. -/
def onUdpRecv (u : ℕ) (nread : ℤ) (data : List UInt8) (addr : Option Csockaddr) (s : Internal) :
    Internal :=
  let node := (s.udps u).node
  if nread < 0 then
    (s.call (.deallocateMemoryForMessage node)).call (.udpRecvError node nread)
  else
    match addr with
    | some addr =>
      (s.call (.message ⟨.protocolUdp, addr⟩ data)).call (.deallocateMemoryForMessage node)
    | none => s.call (.deallocateMemoryForMessage node)

/-- `on_udp_send_done` for the request `w`. -/
def onUdpSendDone (u : ℕ) (w : WriteWithInfo) (status : ℤ) (s : Internal) : Internal :=
  let s := if status ≠ 0 then s.call (.udpSendError (s.udps u).node status) else s
  s.emit (w.buf.map (fun b => .freeBuf b.base) ++ [.freeReq w.req])

end NetworkPool
