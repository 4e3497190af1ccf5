import Mathlib.Algebra.Order.Ring.Nat
import Mathlib.Data.Finset.Basic
import NetworkPool.Lib.AssocMap
import NetworkPool.Node

/-!
# State of the pool

The fields of `CnetworkPool` fall in the two groups its comments name: the data exchanged with
the callers (`Exchanged`) and the data of the internal thread (`Internal`). The objects
`Ctcp`, `Cudp` and `Casync` carry, next to their own flags, what libuv keeps for their handles:
the requests whose callback has not run, whether the handle reads or listens, and the timer.

Objects are named by a number that is never used again; a deleted object stays in the heap
with the memory it had. `trace` records what the outside can see, in order: the callbacks of
`CnetworkPoolCallback`, the calls made to libuv and the blocks given back to the allocator.
-/

namespace NetworkPool

/-- A block of bytes owned by a `Cbuffer` or a `uv_buf_t`. Blocks are numbered in the order in
which `send` fills them. -/
structure UvBuf where
  base : ℕ
  data : List UInt8
deriving DecidableEq, Repr

/-- `CnetworkPool::__pending_send`. -/
structure PendingSend where
  node : CnetworkNode
  data : UvBuf
  bAutoConnect : Bool
deriving DecidableEq, Repr

/-- `CnetworkPool::__write_with_info` and `__udp_send_with_info`: the address of the request
and the buffers to free when it completes. -/
structure WriteWithInfo where
  req : ℕ
  buf : List UvBuf
deriving DecidableEq, Repr

/-- The calls of `CnetworkPoolCallback`. -/
inductive Callback
  | allocateMemoryForMessage (node : CnetworkNode)
  | deallocateMemoryForMessage (node : CnetworkNode)
  | message (node : CnetworkNode) (data : List UInt8)
  | drop (node : CnetworkNode) (buf : UvBuf)
  | bindStatus (node : CnetworkNode) (bSuccess : Bool)
  | connectionStatus (node : CnetworkNode) (bSuccess : Bool)
  | tcpListenError (node : CnetworkNode) (err : ℤ)
  | udpSendError (node : CnetworkNode) (err : ℤ)
  | udpRecvError (node : CnetworkNode) (err : ℤ)
deriving DecidableEq, Repr

/-- A libuv handle of the pool. -/
inductive UvHandle
  | tcp (t : ℕ)
  | timer (t : ℕ)
  | udp (u : ℕ)
  | async
deriving DecidableEq, Repr

/-- The three timeouts of `__preferred_network_settings`. -/
inductive Timeout
  | connect
  | idle
  | send
deriving DecidableEq, Repr

/-- What a callback of the pool does that can be seen from outside. -/
inductive Obs
  | callback (c : Callback)
  /-- `uv_tcp_connect` was accepted for `t`. -/
  | uvTcpConnect (t : ℕ) (node : CnetworkNode)
  /-- `t` was inserted into `m_node2stream` under `node`. -/
  | registered (t : ℕ) (node : CnetworkNode)
  /-- `uv_write` was called on `t`, successfully or not. -/
  | uvWrite (t : ℕ) (node : CnetworkNode) (buf : List UvBuf)
  /-- A write request completed with status 0. -/
  | written (node : CnetworkNode) (buf : List UvBuf)
  /-- `uv_shutdown` was called on `t`, successfully or not. -/
  | uvShutdown (t : ℕ)
  /-- `uv_timer_start` was called on the timer of `t`, successfully or not. -/
  | uvTimerStart (t : ℕ) (timeout : Timeout)
  | uvClose (h : UvHandle)
  | freeReq (req : ℕ)
  | freeBuf (base : ℕ)
  /-- The object the handle belongs to was deleted. -/
  | delete (h : UvHandle)
deriving DecidableEq, Repr

/-- What libuv keeps for a `uv_tcp_t`. -/
structure UvTcp where
  connectReq : Option ℕ := none
  shutdownReq : Option ℕ := none
  writes : List WriteWithInfo := []
  writeQueueSize : ℕ := 0
  reading : Bool := false
  listening : Bool := false
  closing : Bool := false
  closed : Bool := false

/-- What libuv keeps for a `uv_timer_t`; every timer of the pool is one-shot. -/
structure UvTimer where
  armed : Option Timeout := none
  closing : Bool := false
  closed : Bool := false

/-- `Ctcp`. -/
structure Ctcp where
  tcp : UvTcp := {}
  timer : UvTimer := {}
  tcpInited : Bool := false
  timerInited : Bool := false
  closing : Bool := false
  shutdown : Bool := false
  node : CnetworkNode := {}

/-- `Cudp` with what libuv keeps for its `uv_udp_t`. -/
structure Cudp where
  sends : List WriteWithInfo := []
  receiving : Bool := false
  inited : Bool := false
  closing : Bool := false
  closed : Bool := false
  node : CnetworkNode := {}

/-- `Casync` of the wakeup handle. -/
structure Casync where
  inited : Bool := true
  closing : Bool := false
  closed : Bool := false

/-- `std::unordered_map` keyed by nodes. -/
abbrev NodeMap (α : Type) := Lib.AssocMap CnetworkNode α

/-- The data of `CnetworkPool` that must be accessed by the internal thread, and the heap of
the objects it points to. -/
structure Internal where
  udpIndex : ℕ := 0
  /-- `m_wakeup` is not null. -/
  wakeup : Bool := true
  tcpServers : NodeMap ℕ := ∅
  udpServers : List ℕ := []
  node2stream : NodeMap ℕ := ∅
  connecting : Finset ℕ := ∅
  waitingSend : NodeMap (List UvBuf) := ∅
  async : Casync := {}
  tcps : ℕ → Ctcp := fun _ => {}
  nextTcp : ℕ := 0
  udps : ℕ → Cudp := fun _ => {}
  nextUdp : ℕ := 0
  nextReq : ℕ := 0
  trace : List Obs := []

/-- The data of `CnetworkPool` exchanged between internal and external. `accepted` records
every element ever appended to `m_pendingSend`. -/
structure Exchanged where
  bWantExit : Bool := false
  pendingBind : List (CnetworkNode × Bool) := []
  pendingSend : List PendingSend := []
  pendingClose : List (CnetworkNode × Bool) := []
  accepted : List PendingSend := []

/-- Answers of libuv and of the allocator during one callback, or during the handling of one
request by `on_wakeup`; `true` stands for a call that succeeds. Each field is consulted at most
once in that time. -/
structure Env where
  newTcp : Bool := true
  tcpInit : Bool := true
  timerInit : Bool := true
  tcpNodelay : Bool := true
  tcpKeepalive : Bool := true
  tcpSimultaneousAccepts : Bool := true
  accept : Bool := true
  getpeername : Bool := true
  /-- The address `uv_tcp_getpeername` stores. -/
  peer : Csockaddr := .none
  timerStart : Bool := true
  /-- The `uv_timer_start` of `startupTcpConnection`. -/
  timerStartSend : Bool := true
  readStart : Bool := true
  tcpBind : Bool := true
  listen : Bool := true
  mallocConnect : Bool := true
  tcpConnect : Bool := true
  mallocWrite : Bool := true
  write : Bool := true
  mallocShutdown : Bool := true
  uvShutdown : Bool := true
  newUdp : Bool := true
  udpInit : Bool := true
  udpBind : Bool := true
  udpRecvStart : Bool := true
  mallocUdpSend : Bool := true
  /-- The return value of `uv_udp_send`. -/
  udpSend : ℤ := 0

/-! ## Updates -/

namespace Internal

variable (s : Internal)

/-- Appends to the trace. -/
def emit (obs : List Obs) : Internal :=
  { s with trace := s.trace ++ obs }

/-- Runs one call of the callback interface. -/
def call (c : Callback) : Internal :=
  s.emit [.callback c]

/-- Stores the object `c` at `t`. -/
def setTcp (t : ℕ) (c : Ctcp) : Internal :=
  { s with tcps := Function.update s.tcps t c }

/-- Stores the object `c` at `u`. -/
def setUdp (u : ℕ) (c : Cudp) : Internal :=
  { s with udps := Function.update s.udps u c }

end Internal

end NetworkPool
