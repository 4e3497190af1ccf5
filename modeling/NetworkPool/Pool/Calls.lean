import NetworkPool.Pool.Orphans

/-!
# Calls on handles and requests

Between two states of the pool a callback makes a number of calls: to libuv, to the allocator of
request blocks and to the wrappers of `uv_wrapper.cpp`. `Call` lists them, each with the
precondition it is made under. What holds of every handle and every request block is proved once
for each call; the functions of the pool are sequences of calls (`Calls`).

A callback also holds things that no field of the pool points to: the request blocks it has
taken and not yet given away, and at most one handle that is not yet, or no longer, in order.
-/

namespace NetworkPool

open Table

/-! ## Entries that concern no handle -/

/-- Entries of the trace that are no call on a handle or a request. -/
def Obs.neutral : Obs → Bool
  | .callback _ | .registered _ _ | .written _ _ | .freeBuf _ => true
  | _ => false

namespace Internal

/-- Handles and requests are left alone. -/
structure Frame (s s' : Internal) : Prop where
  tcps : s'.tcps = s.tcps
  nextTcp : s'.nextTcp = s.nextTcp
  udps : s'.udps = s.udps
  nextUdp : s'.nextUdp = s.nextUdp
  udpServers : s'.udpServers = s.udpServers
  async : s'.async = s.async
  wakeup : s'.wakeup = s.wakeup
  nextReq : s'.nextReq = s.nextReq
  trace : ∃ obs : List Obs, s'.trace = s.trace ++ obs ∧ ∀ o ∈ obs, o.neutral = true

variable {s s₁ s' : Internal}

theorem Frame.refl (s : Internal) : s.Frame s :=
  ⟨rfl, rfl, rfl, rfl, rfl, rfl, rfl, rfl, [], by simp, by simp⟩

theorem Frame.trans (h : s.Frame s₁) (h' : s₁.Frame s') : s.Frame s' where
  tcps := h'.tcps.trans h.tcps
  nextTcp := h'.nextTcp.trans h.nextTcp
  udps := h'.udps.trans h.udps
  nextUdp := h'.nextUdp.trans h.nextUdp
  udpServers := h'.udpServers.trans h.udpServers
  async := h'.async.trans h.async
  wakeup := h'.wakeup.trans h.wakeup
  nextReq := h'.nextReq.trans h.nextReq
  trace := by
    obtain ⟨a, ha, hna⟩ := h.trace
    obtain ⟨b, hb, hnb⟩ := h'.trace
    refine ⟨a ++ b, by rw [hb, ha, List.append_assoc], ?_⟩
    intro o ho
    rcases List.mem_append.mp ho with ho | ho
    · exact hna o ho
    · exact hnb o ho

/-- The registries of TCP connections and the waiting queues may change. -/
theorem Frame.maps (s : Internal) (tcpServers node2stream : NodeMap ℕ) (connecting : Finset ℕ)
    (waitingSend : NodeMap (List UvBuf)) (udpIndex : ℕ) :
    s.Frame { s with
      tcpServers := tcpServers
      node2stream := node2stream
      connecting := connecting
      waitingSend := waitingSend
      udpIndex := udpIndex } :=
  ⟨rfl, rfl, rfl, rfl, rfl, rfl, rfl, rfl, [], by simp, by simp⟩

theorem Frame.emit (s : Internal) {obs : List Obs} (h : ∀ o ∈ obs, o.neutral = true) :
    s.Frame (s.emit obs) :=
  ⟨rfl, rfl, rfl, rfl, rfl, rfl, rfl, rfl, obs, rfl, h⟩

theorem Frame.call (s : Internal) (c : Callback) : s.Frame (s.call c) :=
  .emit s (by simp [Obs.neutral])

theorem Frame.dropAll (s : Internal) (node : CnetworkNode) (buf : List UvBuf) :
    s.Frame (s.emit (dropAll node buf)) := by
  refine .emit s fun o ho => ?_
  obtain ⟨b, -, hb⟩ := List.mem_flatMap.mp ho
  simp only [List.mem_cons, List.not_mem_nil, or_false] at hb
  rcases hb with rfl | rfl <;> rfl

theorem Frame.dropWaiting (s : Internal) (node : CnetworkNode) :
    s.Frame (dropWaiting node s) := by
  unfold NetworkPool.dropWaiting
  split
  · rename_i buf _
    exact (Frame.dropAll s node buf).trans (.maps _ _ _ _ _ _)
  · exact .refl s

theorem Frame.pushWaiting (s : Internal) (node : CnetworkNode) (data : UvBuf) :
    s.Frame (pushWaiting node data s) := by
  unfold NetworkPool.pushWaiting
  split
  · exact .maps s _ _ _ _ _
  · exact .maps s _ _ _ _ _

/-- What was registered stays registered. -/
theorem Frame.isRegistered (h : s.Frame s') {t : ℕ} (hreg : IsRegistered t s.trace) :
    IsRegistered t s'.trace := by
  obtain ⟨obs, htrace, -⟩ := h.trace
  exact hreg.mono ⟨obs, htrace.symm⟩

/-- `t` is an open connection that came up. -/
structure Usable (s : Internal) (t : ℕ) : Prop where
  registered : IsRegistered t s.trace
  established : (s.tcps t).Established (s.tcps t).node

theorem Usable.frame {t : ℕ} (h : s.Usable t) (hframe : s.Frame s') : s'.Usable t := by
  refine ⟨hframe.isRegistered h.registered, ?_⟩
  rw [hframe.tcps]
  exact h.established

end Internal

/-! ## Calls -/

/-- A pool inside a callback. `held` are the request blocks that local variables point to. `loose`
is the handle in the hands of the callback: a stream without a running timer, or one whose timer
was started for a write or a shutdown still to come; a UDP socket outside `m_udpServers`. -/
structure Scope where
  internal : Internal
  held : List ℕ := []
  loose : Option UvHandle := none

/-- Starts of the timer of `t`, and what it is started for. -/
def Obs.timed (t : ℕ) : Obs → Bool
  | .uvTimerStart t' _ | .uvWrite t' _ _ | .uvShutdown t' => t' = t
  | _ => false

theorem Obs.not_timed_of_neutral (t : ℕ) {o : Obs} (h : o.neutral = true) : o.timed t = false := by
  cases o <;> simp_all [Obs.neutral, Obs.timed]

/-- The timer of `t` was started for a send, and nothing was written or shut down since. -/
def SendTimed (t : ℕ) (tr : List Obs) : Prop :=
  ∃ a b, tr = a ++ .uvTimerStart t .send :: b ∧ ∀ o ∈ b, o.timed t = false

/-- The calls, each with its precondition. -/
inductive Call : Scope → Scope → Prop
  | other {s s' : Internal} (held : List ℕ) (loose : Option UvHandle) (hframe : s.Frame s') :
      Call ⟨s, held, loose⟩ ⟨s', held, loose⟩
  /-- A request block is allocated. -/
  | malloc (s : Internal) (held : List ℕ) (loose : Option UvHandle) :
      Call ⟨s, held, loose⟩ ⟨(mallocReq s).2, s.nextReq :: held, loose⟩
  | free (s : Internal) (req : ℕ) (held : List ℕ) (loose : Option UvHandle) :
      Call ⟨s, req :: held, loose⟩ ⟨s.emit [.freeReq req], held, loose⟩
  /-- `new Ctcp` and `uv_tcp_init`. -/
  | newTcp (s : Internal) (held : List ℕ) :
      Call ⟨s, held, none⟩ ⟨{ s with nextTcp := s.nextTcp + 1 }.setTcp s.nextTcp
        { tcpInited := true }, held, some (.tcp s.nextTcp)⟩
  /-- `uv_tcp_init` fails, and the new object is deleted. -/
  | newTcpFailed (s : Internal) (held : List ℕ) :
      Call ⟨s, held, none⟩ ⟨({ s with nextTcp := s.nextTcp + 1 }.setTcp s.nextTcp {}).emit
        [.delete (.tcp s.nextTcp)], held, none⟩
  | timerInit (s : Internal) (held : List ℕ) (t : ℕ) (htcp : (s.tcps t).tcpInited = true)
      (htimer : (s.tcps t).timerInited = false) (hclosing : (s.tcps t).closing = false)
      (hclosed : (s.tcps t).timer.closed = false) :
      Call ⟨s, held, some (.tcp t)⟩
        ⟨s.setTcp t { s.tcps t with timerInited := true }, held, some (.tcp t)⟩
  | setNode (s : Internal) (held : List ℕ) (t : ℕ) (node : CnetworkNode)
      (htcp : (s.tcps t).tcpInited = true) :
      Call ⟨s, held, some (.tcp t)⟩ ⟨s.setTcp t { s.tcps t with node := node }, held, some (.tcp t)⟩
  | listen (s : Internal) (held : List ℕ) (t : ℕ) (htcp : (s.tcps t).tcpInited = true)
      (hclosing : (s.tcps t).closing = false) :
      Call ⟨s, held, some (.tcp t)⟩ ⟨uvListen t s, held, none⟩
  /-- `uv_timer_start` for a connect or for reading. -/
  | watch (s : Internal) (held : List ℕ) (loose : Option UvHandle) (t : ℕ) (timeout : Timeout)
      (htimeout : timeout ≠ .send) (hloose : loose = none ∨ loose = some (.tcp t))
      (htcp : (s.tcps t).tcpInited = true) (hclosing : (s.tcps t).closing = false)
      (hqueue : (s.tcps t).tcp.writeQueueSize = 0) :
      Call ⟨s, held, loose⟩ ⟨uvTimerStart t s timeout true, held, none⟩
  | watchFailed (s : Internal) (held : List ℕ) (loose : Option UvHandle) (t : ℕ)
      (timeout : Timeout) (htimeout : timeout ≠ .send)
      (hloose : loose = none ∨ loose = some (.tcp t))
      (htcp : (s.tcps t).tcpInited = true) (hclosing : (s.tcps t).closing = false) :
      Call ⟨s, held, loose⟩ ⟨uvTimerStart t s timeout false, held, some (.tcp t)⟩
  /-- `uv_timer_start` for a write or a shutdown. -/
  | sendTimer (s : Internal) (held : List ℕ) (t : ℕ) (ok : Bool) (husable : s.Usable t) :
      Call ⟨s, held, none⟩ ⟨uvTimerStart t s .send ok, held, some (.tcp t)⟩
  | readStart (s : Internal) (held : List ℕ) (t : ℕ) (htcp : (s.tcps t).tcpInited = true) :
      Call ⟨s, held, none⟩ ⟨uvReadStart t s, held, none⟩
  | connect (s : Internal) (req : ℕ) (held : List ℕ) (t : ℕ)
      (htcp : (s.tcps t).tcpInited = true) (hreq : (s.tcps t).tcp.connectReq = none)
      (hqueue : (s.tcps t).tcp.writeQueueSize = 0) :
      Call ⟨s, req :: held, none⟩ ⟨uvTcpConnect t s req, held, none⟩
  | write (s : Internal) (w : WriteWithInfo) (held : List ℕ) (t : ℕ) (husable : s.Usable t)
      (harmed : (s.tcps t).timer.armed = some .send)
      (htimer : ∃ a, s.trace = a ++ [.uvTimerStart t .send]) :
      Call ⟨s, w.req :: held, some (.tcp t)⟩ ⟨uvWrite t s w true, held, none⟩
  | writeFailed (s : Internal) (w : WriteWithInfo) (held : List ℕ) (t : ℕ)
      (husable : s.Usable t) :
      Call ⟨s, w.req :: held, some (.tcp t)⟩ ⟨uvWrite t s w false, w.req :: held, some (.tcp t)⟩
  | shutdown (s : Internal) (req : ℕ) (held : List ℕ) (t : ℕ) (husable : s.Usable t)
      (hreq : (s.tcps t).tcp.shutdownReq = none) (harmed : (s.tcps t).timer.armed = some .send)
      (htimer : SendTimed t s.trace) :
      Call ⟨s, req :: held, some (.tcp t)⟩ ⟨(uvShutdown t s req true).setTcp t
        { (uvShutdown t s req true).tcps t with shutdown := true }, held, none⟩
  /-- `uv_shutdown` is refused: the request is freed and the object closed. -/
  | shutdownFailed (s : Internal) (req : ℕ) (held : List ℕ) (t : ℕ) (husable : s.Usable t) :
      Call ⟨s, req :: held, some (.tcp t)⟩
        ⟨Ctcp.closeSetNullptr t ((uvShutdown t s req false).emit [.freeReq req]), held, none⟩
  /-- `Ctcp::close_set_nullptr`. -/
  | close (s : Internal) (held : List ℕ) (loose : Option UvHandle) (t : ℕ)
      (hloose : loose = none ∨ loose = some (.tcp t)) (htcp : (s.tcps t).tcpInited = true) :
      Call ⟨s, held, loose⟩ ⟨Ctcp.closeSetNullptr t s, held, none⟩
  /-- libuv takes the timer off before it calls back. -/
  | fire (s : Internal) (held : List ℕ) (t : ℕ) (htcp : (s.tcps t).tcpInited = true) :
      Call ⟨s, held, none⟩ ⟨s.setTcp t { s.tcps t with
        timer := { (s.tcps t).timer with armed := none } }, held, some (.tcp t)⟩
  /-- libuv gives a write request back. -/
  | takeWrite (s : Internal) (held : List ℕ) (t : ℕ) (w : WriteWithInfo)
      (hw : w ∈ (s.tcps t).tcp.writes) (htcp : (s.tcps t).tcpInited = true) :
      Call ⟨s, held, none⟩ ⟨s.setTcp t ((s.tcps t).takeWrite w), w.req :: held, none⟩
  | takeConnect (s : Internal) (held : List ℕ) (t req : ℕ)
      (hreq : (s.tcps t).tcp.connectReq = some req) (htcp : (s.tcps t).tcpInited = true) :
      Call ⟨s, held, none⟩ ⟨s.setTcp t (s.tcps t).connectDone, req :: held, none⟩
  | takeShutdown (s : Internal) (held : List ℕ) (t req : ℕ)
      (hreq : (s.tcps t).tcp.shutdownReq = some req) (htcp : (s.tcps t).tcpInited = true) :
      Call ⟨s, held, none⟩ ⟨s.setTcp t { s.tcps t with
        tcp := { (s.tcps t).tcp with shutdownReq := none } }, req :: held, none⟩
  | drained (s : Internal) (held : List ℕ) (t n : ℕ) (hn : n ≤ (s.tcps t).tcp.writeQueueSize) :
      Call ⟨s, held, none⟩ ⟨s.setTcp t { s.tcps t with
        tcp := { (s.tcps t).tcp with writeQueueSize := n } }, held, none⟩
  /-- The close callback of a stream. -/
  | tcpClosed (s : Internal) (held : List ℕ) (t : ℕ) (hclosing : (s.tcps t).tcp.closing = true)
      (hclosed : (s.tcps t).tcp.closed = false) (hconnect : (s.tcps t).tcp.connectReq = none)
      (hshutdown : (s.tcps t).tcp.shutdownReq = none) (hwrites : (s.tcps t).tcp.writes = []) :
      Call ⟨s, held, none⟩ ⟨Ctcp.onTcpClosed t s, held, none⟩
  /-- The close callback of a timer. -/
  | timerClosed (s : Internal) (held : List ℕ) (t : ℕ)
      (hclosing : (s.tcps t).timer.closing = true) (hclosed : (s.tcps t).timer.closed = false) :
      Call ⟨s, held, none⟩ ⟨Ctcp.onTimerClosed t s, held, none⟩
  /-- `new Cudp` and `uv_udp_init`. -/
  | newUdp (s : Internal) (held : List ℕ) :
      Call ⟨s, held, none⟩ ⟨{ s with nextUdp := s.nextUdp + 1 }.setUdp s.nextUdp
        { inited := true }, held, some (.udp s.nextUdp)⟩
  | newUdpFailed (s : Internal) (held : List ℕ) :
      Call ⟨s, held, none⟩ ⟨({ s with nextUdp := s.nextUdp + 1 }.setUdp s.nextUdp {}).emit
        [.delete (.udp s.nextUdp)], held, none⟩
  /-- The node and the receiving flag of a UDP socket. -/
  | setUdp (s : Internal) (held : List ℕ) (u : ℕ) (node : CnetworkNode) (receiving : Bool) :
      Call ⟨s, held, some (.udp u)⟩
        ⟨s.setUdp u { s.udps u with node := node, receiving := receiving }, held, some (.udp u)⟩
  /-- A UDP socket is stored in `m_udpServers`. -/
  | linkUdp (s : Internal) (held : List ℕ) (u : ℕ) (hu : u < s.nextUdp) :
      Call ⟨s, held, some (.udp u)⟩ ⟨{ s with udpServers := s.udpServers ++ [u] }, held, none⟩
  | unlinkUdp (s : Internal) (held : List ℕ) (u : ℕ) :
      Call ⟨s, held, none⟩ ⟨{ s with udpServers := s.udpServers.erase u }, held, some (.udp u)⟩
  /-- `Cudp::close_set_nullptr`. -/
  | closeUdp (s : Internal) (held : List ℕ) (u : ℕ) :
      Call ⟨s, held, some (.udp u)⟩ ⟨Cudp.closeSetNullptr u s, held, none⟩
  | sendUdp (s : Internal) (w : WriteWithInfo) (held : List ℕ) (u : ℕ) (hu : u < s.nextUdp) :
      Call ⟨s, w.req :: held, none⟩
        ⟨s.setUdp u { s.udps u with sends := (s.udps u).sends ++ [w] }, held, none⟩
  | takeSend (s : Internal) (held : List ℕ) (u : ℕ) (w : WriteWithInfo)
      (hw : w ∈ (s.udps u).sends) :
      Call ⟨s, held, none⟩ ⟨s.setUdp u { s.udps u with sends := (s.udps u).sends.erase w },
        w.req :: held, none⟩
  | udpClosed (s : Internal) (held : List ℕ) (u : ℕ) :
      Call ⟨s, held, none⟩ ⟨Cudp.onClosed u s, held, none⟩
  | closeAsync (s : Internal) (held : List ℕ) :
      Call ⟨s, held, none⟩ ⟨Casync.closeSetNullptr s, held, none⟩
  | asyncClosed (s : Internal) (held : List ℕ) :
      Call ⟨s, held, none⟩ ⟨Casync.onClosed s, held, none⟩

/-- A sequence of calls. -/
abbrev Calls : Scope → Scope → Prop :=
  Relation.ReflTransGen Call

end NetworkPool
