import NetworkPool.Pool.State

/-!
# libuv calls and the object wrappers

The first half gives the effect of the libuv calls the pool makes when they succeed; whether a
call succeeds is an answer of the `Env`. The second half is `uv_wrapper.cpp`: `Ctcp`, `Cudp`
and `Casync` with their close and shutdown callbacks. A function of the source that sets its
pointer argument to null returns only the state: the pointer is not used afterwards.
-/

namespace NetworkPool

/-! ## libuv -/

section Uv

variable (t : ℕ) (s : Internal)

/-- `uv_timer_start` with repeat 0: the timer is armed when `ok`. -/
def uvTimerStart (timeout : Timeout) (ok : Bool) : Internal :=
  let c := s.tcps t
  let s := s.emit [.uvTimerStart t timeout]
  if ok then s.setTcp t { c with timer := { c.timer with armed := some timeout } } else s

/-- `uv_read_start`. -/
def uvReadStart : Internal :=
  let c := s.tcps t
  s.setTcp t { c with tcp := { c.tcp with reading := true } }

/-- `uv_listen`. -/
def uvListen : Internal :=
  let c := s.tcps t
  s.setTcp t { c with tcp := { c.tcp with listening := true } }

/-- `uv_tcp_connect` with the request `req`. -/
def uvTcpConnect (req : ℕ) : Internal :=
  let c := s.tcps t
  (s.setTcp t { c with tcp := { c.tcp with connectReq := some req } }).emit
    [.uvTcpConnect t c.node]

/-- `uv_shutdown` with the request `req`: it is queued when `ok`, and left to the caller
otherwise. -/
def uvShutdown (req : ℕ) (ok : Bool) : Internal :=
  let c := s.tcps t
  let s := s.emit [.uvShutdown t]
  if ok then s.setTcp t { c with tcp := { c.tcp with shutdownReq := some req } } else s

/-- The bytes a write request adds to `write_queue_size`. -/
def WriteWithInfo.size (w : WriteWithInfo) : ℕ :=
  (w.buf.map fun b => b.data.length).sum

/-- `uv_write` with the request `w`: it is queued when `ok`, and left to the caller otherwise. -/
def uvWrite (w : WriteWithInfo) (ok : Bool) : Internal :=
  let c := s.tcps t
  let s := s.emit [.uvWrite t c.node w.buf]
  if ok then
    s.setTcp t { c with tcp := { c.tcp with
      writes := c.tcp.writes ++ [w], writeQueueSize := c.tcp.writeQueueSize + w.size } }
  else s

/-- `uv_close` on the stream: reading and listening stop, the pending requests are cancelled
and called back later. -/
def uvCloseTcp : Internal :=
  let c := s.tcps t
  (s.setTcp t { c with tcp := { c.tcp with closing := true, reading := false, listening := false } }).emit
    [.uvClose (.tcp t)]

/-- `uv_close` on the timer, which stops it. -/
def uvCloseTimer : Internal :=
  let c := s.tcps t
  (s.setTcp t { c with timer := { c.timer with closing := true, armed := none } }).emit
    [.uvClose (.timer t)]

end Uv

/-- `_malloc_no_throw` of a request block: its address and the state. -/
def mallocReq (s : Internal) : ℕ × Internal :=
  (s.nextReq, { s with nextReq := s.nextReq + 1 })

/-! ## Ctcp -/

/-- `setTcp`: the three options that can fail. -/
def setTcp (env : Env) : Bool :=
  env.tcpNodelay && env.tcpKeepalive && env.tcpSimultaneousAccepts

namespace Ctcp

/-- `Ctcp::close_set_nullptr`. -/
def closeSetNullptr (t : ℕ) (s : Internal) : Internal :=
  let c := s.tcps t
  if c.tcpInited || c.timerInited then
    if !c.closing then
      let s := if c.tcpInited then uvCloseTcp t s else s
      let s := if c.timerInited then uvCloseTimer t s else s
      s.setTcp t { s.tcps t with closing := true }
    else s
  else s.emit [.delete (.tcp t)]

/-- `Ctcp::alloc`. -/
def alloc (env : Env) (initTimer : Bool) (s : Internal) : Option ℕ × Internal :=
  if !env.newTcp then (none, s)
  else
    let t := s.nextTcp
    let s := { s with nextTcp := t + 1 }.setTcp t {}
    if !env.tcpInit then (none, closeSetNullptr t s)
    else
      let s := s.setTcp t { s.tcps t with tcpInited := true }
      if initTimer && !env.timerInit then (none, closeSetNullptr t s)
      else
        let s := if initTimer then s.setTcp t { s.tcps t with timerInited := true } else s
        if !setTcp env then (none, closeSetNullptr t s) else (some t, s)

/-- `Ctcp::shutdown_and_close_set_nullptr`. -/
def shutdownAndCloseSetNullptr (env : Env) (t : ℕ) (s : Internal) : Internal :=
  let c := s.tcps t
  if !c.tcpInited then closeSetNullptr t s
  else if !c.closing && !c.shutdown then
    if !env.mallocShutdown then closeSetNullptr t s
    else
      let (req, s) := mallocReq s
      let s := NetworkPool.uvShutdown t s req env.uvShutdown
      if !env.uvShutdown then closeSetNullptr t (s.emit [.freeReq req])
      else s.setTcp t { s.tcps t with shutdown := true }
  else s

/-- The callback of `uv_shutdown`. -/
def onShutdown (t : ℕ) (s : Internal) : Internal :=
  let c := s.tcps t
  let s := s.setTcp t { c with tcp := { c.tcp with shutdownReq := none } }
  closeSetNullptr t (s.emit (c.tcp.shutdownReq.toList.map Obs.freeReq))

/-- The close callback of the stream. -/
def onTcpClosed (t : ℕ) (s : Internal) : Internal :=
  let c := s.tcps t
  let s := s.setTcp t { c with tcp := { c.tcp with closed := true }, tcpInited := false }
  if !c.timerInited then s.emit [.delete (.tcp t)] else s

/-- The close callback of the timer. -/
def onTimerClosed (t : ℕ) (s : Internal) : Internal :=
  let c := s.tcps t
  let s := s.setTcp t { c with timer := { c.timer with closed := true }, timerInited := false }
  if !c.tcpInited then s.emit [.delete (.tcp t)] else s

end Ctcp

/-! ## Cudp -/

namespace Cudp

/-- `Cudp::close_set_nullptr`. -/
def closeSetNullptr (u : ℕ) (s : Internal) : Internal :=
  let c := s.udps u
  if c.inited then
    if !c.closing then
      (s.setUdp u { c with receiving := false, closing := true }).emit [.uvClose (.udp u)]
    else s
  else s.emit [.delete (.udp u)]

/-- `Cudp::alloc`; `setUdp` always succeeds. -/
def alloc (env : Env) (s : Internal) : Option ℕ × Internal :=
  if !env.newUdp then (none, s)
  else
    let u := s.nextUdp
    let s := { s with nextUdp := u + 1 }.setUdp u {}
    if !env.udpInit then (none, s.emit [.delete (.udp u)])
    else (some u, s.setUdp u { s.udps u with inited := true })

/-- The close callback. -/
def onClosed (u : ℕ) (s : Internal) : Internal :=
  (s.setUdp u { s.udps u with closed := true }).emit [.delete (.udp u)]

end Cudp

/-! ## Casync -/

namespace Casync

/-- `Casync::close_set_nullptr` on `m_wakeup`. -/
def closeSetNullptr (s : Internal) : Internal :=
  if s.async.inited then
    if !s.async.closing then
      { s with async := { s.async with closing := true }, wakeup := false }.emit [.uvClose .async]
    else { s with wakeup := false }
  else { s with wakeup := false }.emit [.delete .async]

/-- The close callback. -/
def onClosed (s : Internal) : Internal :=
  { s with async := { s.async with closed := true } }.emit [.delete .async]

end Casync

end NetworkPool
