import NetworkPool.Pool.CallSteps

/-!
# What the functions of the pool leave alone

A function that works on a connection or a request of a node changes what the pool holds of this
node only, and makes calls about no other; only the bind loop and the exit branch of `on_wakeup`
touch the servers and report on them. `Local` says all of this at once, function by function. The
buffer calls, the messages and the errors of listeners and receiving sockets come straight from the
callbacks of libuv (`onTcpRead`, `onUdpRecv`, `onNewConnection`); everything the other functions
call is a notice: a notification, a drop or a failed send.
-/

namespace NetworkPool

/-! ## Entries -/

/-- A bind notification. -/
def bindOf : Obs → Option (CnetworkNode × Bool)
  | .callback (.bindStatus node bSuccess) => some (node, bSuccess)
  | _ => none

/-- Entries other than the calls made for a buffer and the errors of listeners and receivers. -/
def Obs.notice : Obs → Bool
  | .callback (.allocateMemoryForMessage _) | .callback (.deallocateMemoryForMessage _) => false
  | .callback (.message _ _) => false
  | .callback (.tcpListenError _ _) | .callback (.udpRecvError _ _) => false
  | _ => true

/-- The node of a call. -/
def Callback.node : Callback → CnetworkNode
  | .allocateMemoryForMessage node | .deallocateMemoryForMessage node => node
  | .message node _ | .drop node _ | .bindStatus node _ | .connectionStatus node _ => node
  | .tcpListenError node _ | .udpSendError node _ | .udpRecvError node _ => node

/-- The node an entry is about. -/
def Obs.subject : Obs → Option CnetworkNode
  | .callback c => some c.node
  | .registered _ node | .written node _ | .uvTcpConnect _ node | .uvWrite _ node _ => some node
  | _ => none

/-- Only calls are bind notifications. -/
theorem bindOf_of_subject {o : Obs} (h : o.subject = none) : bindOf o = none := by
  cases o with
  | callback c => exact absurd h (by simp [Obs.subject])
  | _ => rfl

theorem bindOf_of_dropAll {node : CnetworkNode} {buf : List UvBuf} {o : Obs}
    (h : o ∈ dropAll node buf) : bindOf o = none := by
  obtain ⟨b, -, hb⟩ := List.mem_flatMap.mp h
  simp only [List.mem_cons, List.not_mem_nil, or_false] at hb
  rcases hb with rfl | rfl <;> rfl

/-- What the bind loop sets of a socket: all but its requests and its close callback. -/
def Cudp.bare (c : Cudp) : Cudp :=
  { c with sends := [], closed := false }

/-! ## Local changes -/

namespace Internal

/-- The socket of `m_udpServers` whose turn it is. -/
def udpTurn (s : Internal) : ℕ :=
  s.udpServers.getD (s.udpIndex % s.udpServers.length) 0

/-- The entry of the trace is a notice, and about a node in `M` if it is about one. -/
def Tells (M : CnetworkNode → Prop) (o : Obs) : Prop :=
  o.notice = true ∧ ∀ node, o.subject = some node → M node

/-- Notices about nodes in `M` are appended, none of them of a bind, and of the connections and the
waiting messages only entries for these nodes change. The servers and the sockets stay. -/
structure Local (M : CnetworkNode → Prop) (s s' : Internal) : Prop where
  trace : ∃ new, s'.trace = s.trace ++ new ∧ ∀ o ∈ new, Tells M o ∧ bindOf o = none
  node2stream : ∀ node, ¬ M node → s'.node2stream.lookup node = s.node2stream.lookup node
  waitingSend : ∀ node, ¬ M node → s'.waitingSend.lookup node = s.waitingSend.lookup node
  tcpServers : s'.tcpServers = s.tcpServers
  udpServers : s'.udpServers = s.udpServers
  nextUdp : s'.nextUdp = s.nextUdp
  sockets : ∀ u, (s'.udps u).bare = (s.udps u).bare
  closing : s'.async.closing = s.async.closing

/-- The fields that `Local` speaks of. -/
def kept (s : Internal) :=
  (s.trace, s.node2stream, s.waitingSend, s.tcpServers, s.udpServers, s.nextUdp, s.udps,
    s.async.closing)

variable {M : CnetworkNode → Prop} {s s₁ s' : Internal} {node : CnetworkNode}

theorem Local.same (h : s'.kept = s.kept) : s.Local M s' := by
  simp only [kept, Prod.mk.injEq] at h
  obtain ⟨htrace, hstreams, hwaiting, htcp, hudp, hnext, hudps, hclosing⟩ := h
  refine ⟨⟨[], by rw [htrace, List.append_nil], by simp⟩, fun node _ => ?_, fun node _ => ?_,
    htcp, hudp, hnext, fun u => ?_, hclosing⟩
  · rw [hstreams]
  · rw [hwaiting]
  · rw [hudps]

theorem Local.refl (s : Internal) : s.Local M s := .same rfl

theorem Local.trans (h : s.Local M s₁) (h' : s₁.Local M s') : s.Local M s' where
  trace := by
    obtain ⟨new, htrace, hnew⟩ := h.trace
    obtain ⟨new', htrace', hnew'⟩ := h'.trace
    refine ⟨new ++ new', by rw [htrace', htrace, List.append_assoc], fun o ho => ?_⟩
    rcases List.mem_append.mp ho with ho | ho
    · exact hnew o ho
    · exact hnew' o ho
  node2stream node hnode := (h'.node2stream node hnode).trans (h.node2stream node hnode)
  waitingSend node hnode := (h'.waitingSend node hnode).trans (h.waitingSend node hnode)
  tcpServers := h'.tcpServers.trans h.tcpServers
  udpServers := h'.udpServers.trans h.udpServers
  nextUdp := h'.nextUdp.trans h.nextUdp
  sockets u := (h'.sockets u).trans (h.sockets u)
  closing := h'.closing.trans h.closing

/-- The state before may differ where nothing is said of it. -/
theorem Local.after (h : s₁.Local M s') (heq : s₁.kept = s.kept) : s.Local M s' :=
  (Local.same heq).trans h

theorem Local.ite {b : Prop} [Decidable b] (h : s.Local M s₁) (h' : s.Local M s') :
    s.Local M (if b then s₁ else s') := by
  by_cases hb : b
  · rw [if_pos hb]
    exact h
  · rw [if_neg hb]
    exact h'

/-! ### Containers -/

section Containers

variable {α : Type} {map : NodeMap α} {n : CnetworkNode}

theorem lookup_insert_of_not (h : M node) (hn : ¬ M n) (a : α) :
    (map.insert node a).lookup n = map.lookup n := by
  apply AList.lookup_insert_ne
  rintro rfl
  exact hn h

theorem lookup_erase_of_not (h : M node) (hn : ¬ M n) :
    (map.erase node).lookup n = map.lookup n := by
  apply AList.lookup_erase_ne
  rintro rfl
  exact hn h

end Containers

/-- Entries for nodes in `M` change. -/
theorem Local.maps {s : Internal} {node2stream : NodeMap ℕ} {waitingSend : NodeMap (List UvBuf)}
    (hstream : ∀ node, ¬ M node → node2stream.lookup node = s.node2stream.lookup node)
    (hwaiting : ∀ node, ¬ M node → waitingSend.lookup node = s.waitingSend.lookup node) :
    s.Local M { s with node2stream := node2stream, waitingSend := waitingSend } :=
  ⟨⟨[], (List.append_nil _).symm, by simp⟩, hstream, hwaiting, rfl, rfl, rfl, fun _ => rfl, rfl⟩

theorem Local.insertStream (h : M node) (s : Internal) (t : ℕ) :
    s.Local M { s with node2stream := s.node2stream.insert node t } :=
  .maps (fun _ hn => lookup_insert_of_not h hn t) fun _ _ => rfl

theorem Local.eraseStream (h : M node) (s : Internal) :
    s.Local M { s with node2stream := s.node2stream.erase node } :=
  .maps (fun _ hn => lookup_erase_of_not h hn) fun _ _ => rfl

theorem Local.insertWaiting (h : M node) (s : Internal) (buf : List UvBuf) :
    s.Local M { s with waitingSend := s.waitingSend.insert node buf } :=
  .maps (fun _ _ => rfl) fun _ hn => lookup_insert_of_not h hn buf

theorem Local.eraseWaiting (h : M node) (s : Internal) :
    s.Local M { s with waitingSend := s.waitingSend.erase node } :=
  .maps (fun _ _ => rfl) fun _ hn => lookup_erase_of_not h hn

/-- A socket changes in its requests or its close callback only. -/
theorem Local.setUdp {u : ℕ} {c : Cudp} (h : c.bare = (s.udps u).bare) :
    s.Local M (s.setUdp u c) := by
  refine ⟨⟨[], (List.append_nil _).symm, by simp⟩, fun _ _ => rfl, fun _ _ => rfl, rfl, rfl, rfl,
    fun u' => ?_, rfl⟩
  show (Function.update s.udps u c u').bare = _
  by_cases hu : u' = u
  · rw [hu, Function.update_self]
    exact h
  · rw [Function.update_of_ne hu]

/-! ### Entries of the trace -/

theorem Local.emit (s : Internal) {obs : List Obs} (h : ∀ o ∈ obs, Tells M o ∧ bindOf o = none) :
    s.Local M (s.emit obs) :=
  ⟨⟨obs, rfl, h⟩, fun _ _ => rfl, fun _ _ => rfl, rfl, rfl, rfl, fun _ => rfl, rfl⟩

theorem tells_of_mute {o : Obs} (hnotice : o.notice = true) (hsubject : o.subject = none) :
    Tells M o ∧ bindOf o = none :=
  ⟨⟨hnotice, fun _ hn => absurd (hsubject.symm.trans hn) (by simp)⟩, bindOf_of_subject hsubject⟩

theorem tells_of_about {o : Obs} (hnotice : o.notice = true) (hsubject : o.subject = some node)
    (h : M node) : Tells M o := by
  refine ⟨hnotice, fun n hn => ?_⟩
  rw [hsubject, Option.some.injEq] at hn
  rwa [← hn]

/-- Entries about no node. -/
theorem Local.mutes (s : Internal) {obs : List Obs}
    (h : ∀ o ∈ obs, o.notice = true ∧ o.subject = none) : s.Local M (s.emit obs) :=
  .emit s fun o ho => tells_of_mute (h o ho).1 (h o ho).2

theorem Local.mute (s : Internal) {o : Obs} (hnotice : o.notice = true)
    (hsubject : o.subject = none) : s.Local M (s.emit [o]) := by
  apply Local.mutes
  intro o' ho'
  rw [List.mem_singleton.mp ho']
  exact ⟨hnotice, hsubject⟩

/-- What is freed once a request is done. -/
theorem Local.freed (s : Internal) (w : WriteWithInfo) :
    s.Local M (s.emit (w.buf.map (fun b => .freeBuf b.base) ++ [.freeReq w.req])) := by
  apply Local.mutes
  intro o ho
  rcases List.mem_append.mp ho with ho | ho
  · obtain ⟨b, -, rfl⟩ := List.mem_map.mp ho
    exact ⟨rfl, rfl⟩
  · rw [List.mem_singleton.mp ho]
    exact ⟨rfl, rfl⟩

theorem Local.freeReq (s : Internal) (req : Option ℕ) :
    s.Local M (s.emit (req.toList.map Obs.freeReq)) := by
  apply Local.mutes
  intro o ho
  obtain ⟨a, -, rfl⟩ := List.mem_map.mp ho
  exact ⟨rfl, rfl⟩

/-- An entry about a node in `M`. -/
theorem Local.about (s : Internal) {o : Obs} (hnotice : o.notice = true)
    (hsubject : o.subject = some node) (hbind : bindOf o = none) (h : M node) :
    s.Local M (s.emit [o]) := by
  apply Local.emit
  intro o' ho'
  rw [List.mem_singleton.mp ho']
  exact ⟨tells_of_about hnotice hsubject h, hbind⟩

theorem tells_dropAll (h : M node) (buf : List UvBuf) : ∀ o ∈ dropAll node buf, Tells M o := by
  intro o ho
  obtain ⟨b, -, hb⟩ := List.mem_flatMap.mp ho
  simp only [List.mem_cons, List.not_mem_nil, or_false] at hb
  rcases hb with rfl | rfl
  · refine ⟨rfl, fun n hn => ?_⟩
    obtain rfl : node = n := Option.some.inj hn
    exact h
  · exact ⟨rfl, fun n hn => absurd hn (by simp [Obs.subject])⟩

theorem Local.dropAll (s : Internal) (h : M node) (buf : List UvBuf) :
    s.Local M (s.emit (dropAll node buf)) :=
  .emit s fun o ho => ⟨tells_dropAll h buf o ho, bindOf_of_dropAll ho⟩

end Internal

open Internal (Local)

section Functions

variable {M : CnetworkNode → Prop} {t : ℕ} (env : Env) (s : Internal)

/-! ### The node of an object -/

section Node

variable {env s} (t : ℕ)

theorem node_setTcp (c : Ctcp) : ((s.setTcp t c).tcps t).node = c.node :=
  congrArg Ctcp.node (Function.update_self ..)

theorem node_setUdp (u : ℕ) (c : Cudp) : ((s.setUdp u c).udps u).node = c.node :=
  congrArg Cudp.node (Function.update_self ..)

theorem node_uvTimerStart (timeout : Timeout) (ok : Bool) :
    ((uvTimerStart t s timeout ok).tcps t).node = (s.tcps t).node := by
  unfold uvTimerStart
  cases ok with
  | false => rfl
  | true => exact node_setTcp t _

theorem node_uvWrite (w : WriteWithInfo) (ok : Bool) :
    ((uvWrite t s w ok).tcps t).node = (s.tcps t).node := by
  unfold uvWrite
  cases ok with
  | false => rfl
  | true => exact node_setTcp t _

end Node

/-! ### libuv and the wrappers -/

theorem local_uvTimerStart (t : ℕ) (timeout : Timeout) (ok : Bool) :
    s.Local M (uvTimerStart t s timeout ok) := by
  have hstart : s.Local M (s.emit [.uvTimerStart t timeout]) := .mute s rfl rfl
  unfold uvTimerStart
  exact .ite (hstart.trans (.same rfl)) hstart

theorem local_uvWrite (h : M (s.tcps t).node) (w : WriteWithInfo) (ok : Bool) :
    s.Local M (uvWrite t s w ok) := by
  have hwrite : s.Local M (s.emit [.uvWrite t (s.tcps t).node w.buf]) := .about s rfl rfl rfl h
  unfold uvWrite
  exact .ite (hwrite.trans (.same rfl)) hwrite

theorem local_close (t : ℕ) : s.Local M (Ctcp.closeSetNullptr t s) := by
  have htcp : s.Local M (if (s.tcps t).tcpInited then uvCloseTcp t s else s) :=
    .ite (Local.after (Local.mute (s.setTcp t _) rfl rfl) rfl) (.refl s)
  unfold Ctcp.closeSetNullptr
  refine .ite (.ite ?_ (.refl s)) (.mute s rfl rfl)
  -- the stream is closed before the timer
  generalize (if (s.tcps t).tcpInited then uvCloseTcp t s else s) = s₁ at htcp ⊢
  have htimer : s₁.Local M (if (s.tcps t).timerInited then uvCloseTimer t s₁ else s₁) :=
    .ite (Local.after (Local.mute (s₁.setTcp t _) rfl rfl) rfl) (.refl s₁)
  exact (htcp.trans htimer).trans (.same rfl)

theorem local_shutdownAndClose (t : ℕ) :
    s.Local M (Ctcp.shutdownAndCloseSetNullptr env t s) := by
  have hshutdown : s.Local M
      (uvShutdown t (mallocReq s).2 (mallocReq s).1 env.uvShutdown) := by
    have hcall : s.Local M ((mallocReq s).2.emit [.uvShutdown t]) :=
      Local.after (Local.mute (mallocReq s).2 rfl rfl) rfl
    unfold uvShutdown
    exact .ite (hcall.trans (.same rfl)) hcall
  unfold Ctcp.shutdownAndCloseSetNullptr
  refine .ite (local_close s t) (.ite (.ite (local_close s t) ?_) (.refl s))
  exact hshutdown.trans (.ite ((Local.mute _ rfl rfl).trans (local_close _ t)) (.same rfl))

/-- An object that is allocated, or closed because that failed. -/
theorem local_alloc (initTimer : Bool) : s.Local M (Ctcp.alloc env initTimer s).2 := by
  have hclose : ∀ s₁ : Internal, s₁.kept = s.kept →
      s.Local M (Ctcp.closeSetNullptr s.nextTcp s₁) :=
    fun s₁ h => (Local.same h).trans (local_close s₁ _)
  unfold Ctcp.alloc
  dsimp only
  by_cases hnew : (!env.newTcp) = true
  · rw [if_pos hnew]
    exact .refl s
  · rw [if_neg hnew]
    cases initTimer <;> split_ifs <;> first | exact hclose _ rfl | exact .same rfl

/-! ### Connections -/

theorem local_dropWaiting {node : CnetworkNode} (h : M node) :
    s.Local M (dropWaiting node s) := by
  unfold dropWaiting
  split
  · exact (Local.dropAll s h _).trans (.eraseWaiting h (s.emit _))
  · exact .refl s

theorem local_shutdownTcpConnection (h : M (s.tcps t).node) (bAlwaysNotify bShutdown : Bool) :
    s.Local M (shutdownTcpConnectionSetNullptr env t bAlwaysNotify bShutdown s) := by
  have hunmap : s.Local M (unmap t bAlwaysNotify s) := by
    have herase := Local.eraseStream h s
    unfold unmap
    exact (Local.ite (herase.trans (.about _ rfl rfl rfl h)) herase).trans
      (local_dropWaiting _ h)
  rw [shutdownTcpConnection_eq]
  exact .ite (hunmap.trans (local_shutdownAndClose env _ t)) (hunmap.trans (local_close _ t))

/-- A write that fails. -/
theorem local_writeFailed {node : CnetworkNode} (hnode : M node) (h : M (s.tcps t).node)
    (w : WriteWithInfo) :
    s.Local M (shutdownTcpConnectionSetNullptr env t false false
      (dropWriteAndFreeSetNullptr node w s)) := by
  have hdrop : s.Local M (dropWriteAndFreeSetNullptr node w s) :=
    (Local.dropAll s hnode w.buf).trans (.mute _ rfl rfl)
  exact hdrop.trans (local_shutdownTcpConnection env (dropWriteAndFreeSetNullptr node w s) h
    false false)

/-- The timer is started, and the write request handed to `uv_write`. -/
theorem local_write {node : CnetworkNode} (hnode : M node) (h : M (s.tcps t).node)
    (w : WriteWithInfo) (timerStart : Bool) :
    s.Local M (
      let s := uvTimerStart t s .send timerStart
      if !timerStart then
        shutdownTcpConnectionSetNullptr env t false false (dropWriteAndFreeSetNullptr node w s)
      else
        let s := uvWrite t s w env.write
        if !env.write then
          shutdownTcpConnectionSetNullptr env t false false (dropWriteAndFreeSetNullptr node w s)
        else s) := by
  have hstarted : M ((uvTimerStart t s .send timerStart).tcps t).node := by
    rw [node_uvTimerStart]
    exact h
  have hwritten : M ((uvWrite t (uvTimerStart t s .send timerStart) w env.write).tcps t).node := by
    rw [node_uvWrite]
    exact hstarted
  refine (local_uvTimerStart s t .send timerStart).trans ?_
  refine .ite (local_writeFailed env _ hnode hstarted w) ?_
  refine (local_uvWrite _ hstarted w env.write).trans ?_
  exact .ite (local_writeFailed env _ hnode hwritten w) (.refl _)

theorem local_startup (h : M (s.tcps t).node) :
    s.Local M (startupTcpConnectionMaySetNullptr env t s) := by
  have hclose := local_close (M := M) s t
  have hreg : s.Local M (registered t s) :=
    (Local.insertStream h s t).trans ((Local.about _ rfl rfl rfl h).trans (.about _ rfl rfl rfl h))
  unfold startupTcpConnectionMaySetNullptr
  dsimp only
  refine .ite hclose (.ite hclose ?_)
  rw [← registered]
  refine hreg.trans ?_
  cases hwaiting : (registered t s).waitingSend.lookup (s.tcps t).node with
  | none =>
    rw [getWriteFromWaiting_none env hwaiting]
    exact .refl _
  | some buf =>
    cases hmalloc : env.mallocWrite with
    | false =>
      rw [getWriteFromWaiting_fail env (by rw [hwaiting]; rfl) hmalloc]
      exact local_dropWaiting _ h
    | true =>
      rw [getWriteFromWaiting_some env hwaiting hmalloc]
      -- the messages leave the waiting queue before they are written
      have htaken : (registered t s).Local M { (mallocReq (registered t s)).2 with
          waitingSend := (registered t s).waitingSend.erase (s.tcps t).node } :=
        Local.after (Local.eraseWaiting h (mallocReq (registered t s)).2) rfl
      exact htaken.trans (local_write env { (mallocReq (registered t s)).2 with
        waitingSend := (registered t s).waitingSend.erase (s.tcps t).node } h h _ _)

theorem local_connectTcp {node : CnetworkNode} (h : M node) :
    s.Local M (connectTcp env node s).2 := by
  have halloc : s.Local M (Ctcp.alloc env true (mallocReq s).2).2 :=
    Local.after (local_alloc env (mallocReq s).2 true) rfl
  unfold connectTcp
  by_cases hprotocol : node.protocol ≠ .protocolTcp
  · rw [if_pos hprotocol]
    exact .refl s
  · rw [if_neg hprotocol]
    by_cases hmalloc : (!env.mallocConnect) = true
    · rw [if_pos hmalloc]
      exact .refl s
    · rw [if_neg hmalloc]
      dsimp only [mallocReq] at halloc ⊢
      rcases heq : Ctcp.alloc env true { s with nextReq := s.nextReq + 1 } with ⟨_ | t, s₁⟩ <;>
        rw [heq] at halloc
      · exact halloc.trans (.mute s₁ rfl rfl)
      · have hnode : s.Local M (s₁.setTcp t { s₁.tcps t with node := node }) :=
          halloc.trans (.same rfl)
        have hstart := hnode.trans (local_uvTimerStart _ t .connect env.timerStart)
        have hfail : ∀ s₂ : Internal, s₂.Local M
            (Ctcp.closeSetNullptr t (s₂.emit [.freeReq s.nextReq])) := fun s₂ =>
          (Local.mute s₂ rfl rfl).trans (local_close _ t)
        dsimp only
        split_ifs
        · exact hstart.trans (hfail _)
        · exact hstart.trans (hfail _)
        · -- the connect is recorded for the node of the object, which is `node`
          refine hstart.trans
            (Local.after (Local.about (Internal.setTcp _ t _) rfl rfl rfl ?_) rfl)
          rw [node_uvTimerStart, node_setTcp]
          exact h

/-! ### Servers -/

theorem local_bindAndListenTcp (node : CnetworkNode) :
    s.Local M (bindAndListenTcp env node s).2 := by
  have halloc := local_alloc (M := M) env s false
  unfold bindAndListenTcp
  by_cases hprotocol : node.protocol ≠ .protocolTcp
  · rw [if_pos hprotocol]
    exact .refl s
  · rw [if_neg hprotocol]
    rcases heq : Ctcp.alloc env false s with ⟨_ | t, s₁⟩ <;> rw [heq] at halloc
    · exact halloc
    · have hnode : s.Local M (s₁.setTcp t { s₁.tcps t with node := node }) :=
        halloc.trans (.same rfl)
      dsimp only
      split_ifs
      · exact hnode.trans (local_close _ t)
      · exact hnode.trans (local_close _ t)
      · exact hnode.trans (.same rfl)

/-! ### The loops of `on_wakeup` -/

theorem local_pushWaiting {node : CnetworkNode} (h : M node) (data : UvBuf) :
    s.Local M (pushWaiting node data s) := by
  unfold pushWaiting
  split <;> exact .insertWaiting h s _

/-- The UDP branch reports on the socket whose turn it is. -/
theorem local_sendUdp (req : PendingSend) (h : M (s.udps s.udpTurn).node) :
    s.Local M (sendUdp env req s) := by
  have hfree : s.Local M (s.emit [.freeBuf req.data.base]) := .mute s rfl rfl
  have hmalloc : s.Local M { (mallocReq s).2 with
      udpIndex := s.udpIndex % s.udpServers.length + 1 } := .same rfl
  have hfrees : s.Local M ({ (mallocReq s).2 with
      udpIndex := s.udpIndex % s.udpServers.length + 1 }.emit
        [.freeBuf req.data.base, .freeReq s.nextReq]) :=
    hmalloc.trans (.freed _ ⟨s.nextReq, [req.data]⟩)
  unfold sendUdp
  exact .ite (.ite (.ite (hfrees.trans (.about _ rfl rfl rfl h)) (hmalloc.trans (.setUdp rfl)))
    hfree) hfree

theorem local_sendOne (req : PendingSend) (h : M req.node)
    (hstream : ∀ tcp, s.node2stream.lookup req.node = some tcp → M (s.tcps tcp).node)
    (hudp : req.node.protocol = .protocolUdp → M (s.udps s.udpTurn).node) :
    s.Local M (sendOne env req s) := by
  have hdrop := fun s₁ : Internal => Local.dropAll s₁ h [req.data]
  unfold sendOne
  cases hprotocol : req.node.protocol with
  | unknown n => exact (Local.ite (.about s rfl rfl rfl h) (.refl s)).trans (hdrop _)
  | protocolUdp => exact local_sendUdp env s req (hudp hprotocol)
  | protocolTcp =>
    dsimp only
    cases htcp : getStreamByNode req.node s with
    | none =>
      show s.Local M (sendWithoutStream env req s)
      unfold sendWithoutStream
      refine .ite (hdrop s) ((local_pushWaiting s h req.data).trans (.ite ?_ (.refl _)))
      have hconnect := local_connectTcp env (pushWaiting req.node req.data s) h
      rcases heq : connectTcp env req.node (pushWaiting req.node req.data s) with ⟨_ | tcp, s₁⟩ <;>
        rw [heq] at hconnect
      · exact hconnect.trans ((Local.about s₁ rfl rfl rfl h).trans (local_dropWaiting _ h))
      · exact hconnect.trans (.same rfl)
    | some tcp =>
      show s.Local M (sendOnStream env req tcp s)
      unfold sendOnStream
      have hmalloc : s.Local M (mallocReq s).2 := .same rfl
      exact .ite (hdrop s) (hmalloc.trans (local_write env (mallocReq s).2 h
        (hstream tcp htcp) _ _))

theorem local_closeOne {node : CnetworkNode}
    (h : ∀ tcp, s.node2stream.lookup node = some tcp → M (s.tcps tcp).node) (bForceClose : Bool) :
    s.Local M (closeOne env node bForceClose s) := by
  unfold closeOne
  split
  · exact .refl s
  · rename_i tcp htcp
    have hstart : s.Local M
        (if !bForceClose then uvTimerStart tcp s .send env.timerStart else s) :=
      .ite (local_uvTimerStart s tcp .send env.timerStart) (.refl s)
    have hnode : M ((if !bForceClose then uvTimerStart tcp s .send env.timerStart
        else s).tcps tcp).node := by
      split
      · rw [node_uvTimerStart]
        exact h tcp htcp
      · exact h tcp htcp
    exact hstart.trans (.ite (local_shutdownTcpConnection env _ hnode _ _)
      (local_shutdownTcpConnection env _ hnode _ _))

/-! ### Callbacks of libuv -/

/-- The end of a read or write callback that succeeded. -/
theorem local_reset (h : M (s.tcps t).node) :
    s.Local M (if !(s.tcps t).closing && !(s.tcps t).shutdown then
      resetTcpIdleTimeoutMaySetNullptr env t s else s) := by
  refine .ite ?_ (.refl s)
  unfold resetTcpIdleTimeoutMaySetNullptr
  have hstart := local_uvTimerStart (M := M) s t .idle env.timerStart
  have hnode : M ((uvTimerStart t s .idle env.timerStart).tcps t).node := by
    rw [node_uvTimerStart]
    exact h
  have hfail := local_shutdownTcpConnection env _ hnode false false
  exact .ite (hstart.trans (.ite hfail (.refl _))) (.refl s)

theorem local_onTcpWriteDone (h : M (s.tcps t).node) (w : WriteWithInfo) (status : ℤ) :
    s.Local M (onTcpWriteDone env t w status s) := by
  have hdrops : s.Local M (s.emit (w.buf.map fun b => .callback (.drop (s.tcps t).node b))) := by
    apply Local.emit
    intro o ho
    obtain ⟨b, -, rfl⟩ := List.mem_map.mp ho
    exact ⟨Internal.tells_of_about rfl rfl h, rfl⟩
  have hlost := hdrops.trans (local_shutdownTcpConnection env (s.emit _) h false false)
  have hwritten : s.Local M (s.emit [.written (s.tcps t).node w.buf]) := .about s rfl rfl rfl h
  unfold onTcpWriteDone
  exact (Local.ite hlost (hwritten.trans (local_reset env (s.emit _) h))).trans (.freed _ w)

/-- A connection that is accepted. -/
theorem local_accept (h : M ⟨.protocolTcp, env.peer⟩) (server : ℕ) {status : ℤ}
    (hstatus : status = 0) : s.Local M (onNewConnection env server status s) := by
  unfold onNewConnection
  rw [if_neg (not_not.mpr hstatus)]
  have halloc := local_alloc (M := M) env s true
  rcases heq : Ctcp.alloc env true s with ⟨_ | t, s₁⟩ <;> rw [heq] at halloc
  · exact halloc
  · refine halloc.trans ?_
    have hnode : s₁.Local M (s₁.setTcp t { s₁.tcps t with
      node := ⟨.protocolTcp, env.peer⟩ }) := .same rfl
    have hclose := fun s₂ => local_close (M := M) s₂ t
    dsimp only
    refine .ite (hclose s₁) (.ite (hclose s₁) (hnode.trans (.ite (hclose _) (.ite (hclose _) ?_))))
    refine (local_uvTimerStart _ t .idle env.timerStart).trans ?_
    refine .ite (hclose _) (.ite (hclose _) ?_)
    refine Local.after (local_startup env (uvReadStart t _) ?_) rfl
    rw [uvReadStart, node_setTcp, node_uvTimerStart, node_setTcp]
    exact h

theorem local_onConnectDone (h : M (s.tcps t).node) (status : ℤ) :
    s.Local M (onConnectDone env t status s) := by
  have hclose := fun s₂ (h₂ : M (Internal.tcps s₂ t).node) =>
    local_shutdownTcpConnection env s₂ h₂ true false
  have hfree : s.Local M ({ s with connecting := s.connecting.erase t }.emit
      ((s.tcps t).tcp.connectReq.toList.map Obs.freeReq)) :=
    Local.after (Local.freeReq { s with connecting := s.connecting.erase t } _) rfl
  set s₁ := ({ s with connecting := s.connecting.erase t }.emit
    ((s.tcps t).tcp.connectReq.toList.map Obs.freeReq)).setTcp t
      { s.tcps t with tcp := { (s.tcps t).tcp with connectReq := none } } with hs₁
  have h₁ : M (s₁.tcps t).node := by
    rw [hs₁, node_setTcp]
    exact h
  have h₂ : M ((uvTimerStart t s₁ .idle env.timerStart).tcps t).node := by
    rw [node_uvTimerStart]
    exact h₁
  have htaken : s.Local M s₁ := hfree.trans (.same rfl)
  unfold onConnectDone
  refine htaken.trans (.ite (hclose _ h₁) ?_)
  refine (local_uvTimerStart s₁ t .idle env.timerStart).trans ?_
  refine .ite (hclose _ h₂) (.ite (hclose _ h₂) ?_)
  refine Local.after (local_startup env (uvReadStart t _) ?_) rfl
  rw [uvReadStart, node_setTcp]
  exact h₂

theorem local_onShutdown : s.Local M (Ctcp.onShutdown t s) := by
  unfold Ctcp.onShutdown
  exact Local.after ((Local.freeReq (s.setTcp t _) _).trans (local_close _ t)) rfl

theorem local_onTcpClosed : s.Local M (Ctcp.onTcpClosed t s) := by
  unfold Ctcp.onTcpClosed
  exact .ite (Local.after (Local.mute (s.setTcp t _) rfl rfl) rfl) (.same rfl)

theorem local_onTimerClosed : s.Local M (Ctcp.onTimerClosed t s) := by
  unfold Ctcp.onTimerClosed
  exact .ite (Local.after (Local.mute (s.setTcp t _) rfl rfl) rfl) (.same rfl)

theorem local_onUdpSendDone {u : ℕ} (h : M (s.udps u).node) (w : WriteWithInfo) (status : ℤ) :
    s.Local M (onUdpSendDone u w status s) := by
  unfold onUdpSendDone
  exact (Local.ite (.about s rfl rfl rfl h) (.refl s)).trans (.freed _ w)

end Functions

/-- The nodes a callback of libuv is about. A datagram is about the node of the socket that receives
it and about its sender. -/
def UvEvent.nodes (s : Internal) : UvEvent → List CnetworkNode
  | .newConnection server status env =>
    if status ≠ 0 then [(s.tcps server).node] else [⟨.protocolTcp, env.peer⟩]
  | .connectDone t _ _ | .tcpRead t _ _ _ | .writeDone t _ _ _ | .timeout t => [(s.tcps t).node]
  | .udpRecv u _ _ addr => (s.udps u).node :: addr.toList.map fun a => ⟨.protocolUdp, a⟩
  | .udpSendDone u _ _ => [(s.udps u).node]
  | .shutdownDone _ | .tcpClosed _ | .timerClosed _ | .drained _ _ => []
  | .udpClosed _ | .asyncClosed => []

/-- The callback hands something over or reports a listener, and so makes other calls. -/
def UvEvent.asks : UvEvent → Bool
  | .newConnection _ status _ => status ≠ 0
  | .tcpRead _ _ _ _ | .udpRecv _ _ _ _ => true
  | _ => false

/-- Every other callback of libuv is local to its nodes. -/
theorem uvStep_local {M : CnetworkNode → Prop} {s s' : Internal} {e : UvEvent}
    (h : uvStep s e = some s') (hasks : e.asks = false) (hnodes : ∀ node ∈ e.nodes s, M node) :
    s.Local M s' := by
  cases e with
  | newConnection server status env =>
    simp only [uvStep, Option.ite_none_right_eq_some, Option.some.injEq] at h
    have hstatus : status = 0 := by simpa [UvEvent.asks] using hasks
    rw [← h.2]
    exact local_accept env s (hnodes _ (by simp [UvEvent.nodes, hstatus])) server hstatus
  | tcpRead | udpRecv => exact absurd hasks (by simp [UvEvent.asks])
  | connectDone t status env =>
    simp only [uvStep, Option.ite_none_right_eq_some, Option.some.injEq] at h
    rw [← h.2]
    exact local_onConnectDone env s (hnodes _ (List.mem_singleton_self _)) status
  | writeDone t req status env =>
    simp only [uvStep] at h
    split at h
    · rename_i w _
      rw [← Option.some.inj h]
      refine Local.after (local_onTcpWriteDone env (s.setTcp t _) ?_ w status) rfl
      rw [node_setTcp]
      exact hnodes _ (List.mem_singleton_self _)
    · exact absurd h (by simp)
  | timeout t =>
    simp only [uvStep, Option.ite_none_right_eq_some, Option.some.injEq] at h
    rw [← h.2]
    refine Local.after (local_shutdownTcpConnection {} (s.setTcp t _) ?_ false false) rfl
    rw [node_setTcp]
    exact hnodes _ (List.mem_singleton_self _)
  | shutdownDone t =>
    simp only [uvStep, Option.ite_none_right_eq_some, Option.some.injEq] at h
    rw [← h.2]
    exact local_onShutdown s
  | tcpClosed t =>
    simp only [uvStep, Option.ite_none_right_eq_some, Option.some.injEq] at h
    rw [← h.2]
    exact local_onTcpClosed s
  | timerClosed t =>
    simp only [uvStep, Option.ite_none_right_eq_some, Option.some.injEq] at h
    rw [← h.2]
    exact local_onTimerClosed s
  | drained t n =>
    simp only [uvStep, Option.ite_none_right_eq_some, Option.some.injEq] at h
    rw [← h.2]
    exact .same rfl
  | udpSendDone u req status =>
    simp only [uvStep] at h
    split at h
    · rename_i w _
      rw [← Option.some.inj h]
      refine (Local.setUdp ?_).trans (local_onUdpSendDone (s.setUdp u _) ?_ w status)
      · rfl
      · rw [node_setUdp]
        exact hnodes _ (List.mem_singleton_self _)
    · exact absurd h (by simp)
  | udpClosed u =>
    simp only [uvStep, Option.ite_none_right_eq_some, Option.some.injEq] at h
    rw [← h.2]
    have hclosed : s.Local M (s.setUdp u { s.udps u with closed := true }) := .setUdp rfl
    exact hclosed.trans (.mute _ rfl rfl)
  | asyncClosed =>
    simp only [uvStep, Option.ite_none_right_eq_some, Option.some.injEq] at h
    rw [← h.2]
    exact Local.after (Local.mute { s with async := { s.async with closed := true } } rfl rfl) rfl

end NetworkPool
