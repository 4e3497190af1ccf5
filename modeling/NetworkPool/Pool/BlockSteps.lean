import NetworkPool.Pool.Blocks

/-!
# Every block is freed once

Each function of the pool keeps the ownership of the message blocks (`Owned`), so every step does,
and every reachable pool accounts for each block that `send` filled (`blocks_accounted`).
-/

namespace NetworkPool

open Lib

/-! ## The functions of the pool -/

section Functions

variable {held : Multiset ℕ} {n : ℕ} {s : Internal}

theorem Owned.dropWaiting (h : Owned held n s) (node : CnetworkNode) :
    Owned held n (dropWaiting node s) := by
  unfold NetworkPool.dropWaiting
  split
  · rename_i buf hlookup
    exact ((h.takeQueue hlookup).dropAll node).congr rfl rfl
  · exact h

theorem Owned.pushWaiting {data : UvBuf} (h : Owned ({data.base} + held) n s)
    (node : CnetworkNode) : Owned held n (pushWaiting node data s) := by
  unfold NetworkPool.pushWaiting
  split
  · rename_i hlookup
    have hone : Owned (blocksOf [data] + held) n s := by
      rwa [blocksOf_cons, blocksOf_nil, add_zero]
    exact hone.putQueue hlookup
  · rename_i buf hlookup
    -- the queue is taken and put back with the new block at its end
    have htaken : Owned (blocksOf (buf ++ [data]) + held) n
        { s with waitingSend := s.waitingSend.erase node } := by
      rw [blocksOf_append, blocksOf_cons, blocksOf_nil, add_zero, add_assoc]
      exact h.takeQueue hlookup
    have hput := htaken.putQueue (AList.lookup_erase node s.waitingSend)
    rw [AssocMap.insert_erase] at hput
    exact hput

/-- `dropWriteAndFree_set_nullptr`. -/
theorem Owned.dropWrite {w : WriteWithInfo} (h : Owned (blocksOf w.buf + held) n s)
    (node : CnetworkNode) : Owned held n (dropWriteAndFreeSetNullptr node w s) :=
  (h.dropAll node).emit_one ⟨rfl, rfl⟩

/-- `shutdownTcpConnection_set_nullptr`. -/
theorem Owned.shutdownTcpConnection (h : Owned held n s) (env : Env) (t : ℕ)
    (bAlwaysNotify bShutdown : Bool) :
    Owned held n (shutdownTcpConnectionSetNullptr env t bAlwaysNotify bShutdown s) := by
  have herase : Owned held n { s with node2stream := s.node2stream.erase (s.tcps t).node } :=
    h.congr rfl rfl
  have hnotify := herase.call (c := .connectionStatus (s.tcps t).node false) ⟨rfl, rfl⟩
  have hclose : ∀ {s' : Internal}, Owned held n s' → Owned held n
      (if bShutdown then Ctcp.shutdownAndCloseSetNullptr env t s'
        else Ctcp.closeSetNullptr t s') := by
    intro s' h'
    split_ifs
    · exact h'.shutdownAndClose env t
    · exact h'.closeTcp t
  unfold shutdownTcpConnectionSetNullptr
  apply hclose
  apply Owned.dropWaiting
  split_ifs
  · exact hnotify
  · exact herase

/-- A write on a stream is started, or dropped with its stream. -/
theorem Owned.startWrite {w : WriteWithInfo} {t : ℕ} (h : Owned (blocksOf w.buf + held) n s)
    (ht : t < s.nextTcp) (env : Env) (node : CnetworkNode) (timer write : Bool) :
    Owned held n
      (if !timer then
        shutdownTcpConnectionSetNullptr env t false false
          (dropWriteAndFreeSetNullptr node w (NetworkPool.uvTimerStart t s .send timer))
      else if !write then
        shutdownTcpConnectionSetNullptr env t false false (dropWriteAndFreeSetNullptr node w
          (NetworkPool.uvWrite t (NetworkPool.uvTimerStart t s .send timer) w write))
      else NetworkPool.uvWrite t (NetworkPool.uvTimerStart t s .send timer) w write) := by
  have htimer := h.uvTimerStart t .send timer
  have ht' : t < (NetworkPool.uvTimerStart t s .send timer).nextTcp := by
    unfold NetworkPool.uvTimerStart
    cases timer with
    | true => exact ht
    | false => exact ht
  obtain ⟨hok, hfail⟩ := htimer.uvWrite ht'
  split_ifs with hstart hwrite
  · exact (htimer.dropWrite node).shutdownTcpConnection env t false false
  · have hfalse : write = false := by simpa using hwrite
    rw [hfalse]
    exact (hfail.dropWrite node).shutdownTcpConnection env t false false
  · have htrue : write = true := by simpa using hwrite
    rw [htrue]
    exact hok

/-- `getWriteFromWaitingByNode`: the queue becomes the write that is returned. -/
theorem Owned.getWrite (h : Owned held n s) (env : Env) (node : CnetworkNode) :
    match getWriteFromWaitingByNode env node s with
    | (none, s') => Owned held n s'
    | (some w, s') => Owned (blocksOf w.buf + held) n s' ∧ s'.nextTcp = s.nextTcp := by
  unfold getWriteFromWaitingByNode
  cases hqueue : s.waitingSend.lookup node with
  | none => exact h
  | some buf =>
    cases env.mallocWrite with
    | false => exact h.dropWaiting node
    | true => exact ⟨(h.takeQueue hqueue).congr rfl rfl, rfl⟩

/-- `startupTcpConnection_may_set_nullptr`. -/
theorem Owned.startupTcpConnection {t : ℕ} (h : Owned held n s) (ht : t < s.nextTcp) (env : Env) :
    Owned held n (startupTcpConnectionMaySetNullptr env t s) := by
  have hinsert : Owned held n
      { s with node2stream := s.node2stream.insert (s.tcps t).node t } := h.congr rfl rfl
  have hup := ((hinsert.emit_one (o := .registered t (s.tcps t).node) ⟨rfl, rfl⟩).call
    (c := .connectionStatus (s.tcps t).node true) ⟨rfl, rfl⟩).getWrite env (s.tcps t).node
  unfold startupTcpConnectionMaySetNullptr
  dsimp only
  split
  · exact h.closeTcp t
  split
  · exact h.closeTcp t
  split
  · rename_i hget
    rw [hget] at hup
    exact hup
  · rename_i w s' hget
    rw [hget] at hup
    have ht' : t < s'.nextTcp := by
      rw [hup.2]
      exact ht
    exact hup.1.startWrite ht' env (s.tcps t).node env.timerStartSend env.write

/-- `bindAndListenTcp`. -/
theorem Owned.bindAndListenTcp (h : Owned held n s) (env : Env) (node : CnetworkNode) :
    Owned held n (bindAndListenTcp env node s).2 := by
  have halloc := (h.allocTcp env false).1
  unfold NetworkPool.bindAndListenTcp
  split
  · exact h
  split
  · rename_i hnone
    rw [hnone] at halloc
    exact halloc
  · rename_i server s₁ hsome
    rw [hsome] at halloc
    have hset : Owned held n (s₁.setTcp server { s₁.tcps server with node := node }) :=
      halloc.setTcp rfl
    dsimp only
    split_ifs
    · exact hset.closeTcp server
    · exact hset.closeTcp server
    · exact hset.uvListen server

/-- `connectTcp`. -/
theorem Owned.connectTcp (h : Owned held n s) (env : Env) (node : CnetworkNode) :
    Owned held n (connectTcp env node s).2 := by
  have hmalloc : Owned held n (mallocReq s).2 := h.congr rfl rfl
  have halloc := (hmalloc.allocTcp env true).1
  unfold NetworkPool.connectTcp
  split
  · exact h
  split
  · exact h
  dsimp only
  split
  · rename_i hnone
    rw [hnone] at halloc
    exact halloc.emit_one ⟨rfl, rfl⟩
  · rename_i t s₁ hsome
    rw [hsome] at halloc
    have hset : Owned held n (s₁.setTcp t { s₁.tcps t with node := node }) := halloc.setTcp rfl
    have htimer := hset.uvTimerStart t .connect env.timerStart
    split_ifs
    · exact (htimer.emit_one ⟨rfl, rfl⟩).closeTcp t
    · exact (htimer.emit_one ⟨rfl, rfl⟩).closeTcp t
    · exact htimer.uvTcpConnect t _

/-- `bindAndListenUdp`. -/
theorem Owned.bindAndListenUdp (h : Owned held n s) (env : Env) (node : CnetworkNode) :
    Owned held n (bindAndListenUdp env node s).2 := by
  have halloc := h.allocUdp env
  unfold NetworkPool.bindAndListenUdp
  split
  · exact h
  split
  · rename_i hnone
    rw [hnone] at halloc
    exact halloc
  · rename_i server s₁ hsome
    rw [hsome] at halloc
    have hset : Owned held n (s₁.setUdp server { s₁.udps server with node := node }) :=
      halloc.setUdp rfl
    dsimp only
    split_ifs
    · exact hset.closeUdp server
    · exact hset.closeUdp server
    · exact hset.setUdp rfl

end Functions

/-! ## Callbacks -/

section Callbacks

variable {held : Multiset ℕ} {n : ℕ} {s : Internal}

theorem Owned.resetTcpIdleTimeout (h : Owned held n s) (env : Env) (t : ℕ) :
    Owned held n (resetTcpIdleTimeoutMaySetNullptr env t s) := by
  have htimer := h.uvTimerStart t .idle env.timerStart
  unfold resetTcpIdleTimeoutMaySetNullptr
  dsimp only
  split_ifs
  · exact htimer.shutdownTcpConnection env t false false
  · exact htimer
  · exact h

/-- `on_tcp_read`. -/
theorem Owned.onTcpRead (h : Owned held n s) (env : Env) (t : ℕ) (nread : ℤ) (data : List UInt8) :
    Owned held n (onTcpRead env t nread data s) := by
  have hmessage := (h.call (c := .message (s.tcps t).node data) ⟨rfl, rfl⟩).call
    (c := .deallocateMemoryForMessage (s.tcps t).node) ⟨rfl, rfl⟩
  have hnone := h.call (c := .deallocateMemoryForMessage (s.tcps t).node) ⟨rfl, rfl⟩
  unfold NetworkPool.onTcpRead
  dsimp only
  split
  · split
    · exact hmessage.resetTcpIdleTimeout env t
    · exact hmessage
  · split
    · exact hnone.shutdownTcpConnection env t false false
    · exact hnone

/-- `on_tcp_write_done`: whatever the status, the blocks of the request are freed at the end. -/
theorem Owned.onTcpWriteDone {w : WriteWithInfo} (h : Owned (blocksOf w.buf + held) n s)
    (env : Env) (t : ℕ) (status : ℤ) : Owned held n (onTcpWriteDone env t w status s) := by
  have hend : ∀ {s' : Internal}, Owned (blocksOf w.buf + held) n s' →
      Owned held n (s'.emit (w.buf.map (fun b => .freeBuf b.base) ++ [.freeReq w.req])) := by
    intro s' h'
    have hreq := h'.freeAll.emit_one (o := .freeReq w.req) ⟨rfl, rfl⟩
    refine hreq.congr rfl ?_
    exact (List.append_assoc s'.trace _ _).symm
  have hdropped : Owned (blocksOf w.buf + held) n
      (s.emit (w.buf.map fun b => .callback (.drop (s.tcps t).node b))) := by
    apply h.emit
    · intro o ho
      obtain ⟨b, -, rfl⟩ := List.mem_map.mp ho
      rfl
    · intro o ho b' hb'
      obtain ⟨b, hb, rfl⟩ := List.mem_map.mp ho
      rw [List.mem_singleton.mp hb']
      exact Multiset.mem_add.mpr (.inl (Multiset.mem_coe.mpr (List.mem_map_of_mem hb)))
  have hwritten := h.emit_one (o := .written (s.tcps t).node w.buf) ⟨rfl, rfl⟩
  unfold NetworkPool.onTcpWriteDone
  apply hend
  dsimp only
  split
  · exact hdropped.shutdownTcpConnection env t false false
  · split
    · exact hwritten.resetTcpIdleTimeout env t
    · exact hwritten

/-- `on_new_connection`. -/
theorem Owned.onNewConnection (h : Owned held n s) (env : Env) (server : ℕ) (status : ℤ) :
    Owned held n (onNewConnection env server status s) := by
  have halloc := h.allocTcp env true
  unfold NetworkPool.onNewConnection
  split
  · exact h.call ⟨rfl, rfl⟩
  split
  · rename_i hnone
    rw [hnone] at halloc
    exact halloc.1
  · rename_i t s₁ hsome
    rw [hsome] at halloc
    have ht : t < s₁.nextTcp := halloc.2 t rfl
    have hset : Owned held n (s₁.setTcp t { s₁.tcps t with node := ⟨.protocolTcp, env.peer⟩ }) :=
      halloc.1.setTcp rfl
    have htimer := hset.uvTimerStart t .idle env.timerStart
    split
    · exact halloc.1.closeTcp t
    split
    · exact halloc.1.closeTcp t
    dsimp only
    split
    · exact hset.closeTcp t
    split
    · exact hset.closeTcp t
    split
    · exact htimer.closeTcp t
    split
    · exact htimer.closeTcp t
    · apply (htimer.uvReadStart t).startupTcpConnection
      unfold NetworkPool.uvTimerStart
      cases env.timerStart with
      | true => exact ht
      | false => exact ht

/-- `on_connect_done`. -/
theorem Owned.onConnectDone {t : ℕ} (h : Owned held n s) (ht : t < s.nextTcp) (env : Env)
    (status : ℤ) : Owned held n (onConnectDone env t status s) := by
  have herase : Owned held n { s with connecting := s.connecting.erase t } := h.congr rfl rfl
  have hset : Owned held n (({ s with connecting := s.connecting.erase t }.emit
      ((s.tcps t).tcp.connectReq.toList.map Obs.freeReq)).setTcp t
        { s.tcps t with tcp := { (s.tcps t).tcp with connectReq := none } }) :=
    (herase.freeReqs _).setTcp rfl
  have htimer := hset.uvTimerStart t .idle env.timerStart
  unfold NetworkPool.onConnectDone
  dsimp only
  split
  · exact hset.shutdownTcpConnection env t true false
  split
  · exact htimer.shutdownTcpConnection env t true false
  split
  · exact htimer.shutdownTcpConnection env t true false
  · apply (htimer.uvReadStart t).startupTcpConnection
    unfold NetworkPool.uvTimerStart
    cases env.timerStart with
    | true => exact ht
    | false => exact ht

/-- `on_udp_recv`. -/
theorem Owned.onUdpRecv (h : Owned held n s) (u : ℕ) (nread : ℤ) (data : List UInt8)
    (addr : Option Csockaddr) : Owned held n (onUdpRecv u nread data addr s) := by
  have hnone := h.call (c := .deallocateMemoryForMessage (s.udps u).node) ⟨rfl, rfl⟩
  unfold NetworkPool.onUdpRecv
  dsimp only
  split
  · exact hnone.call ⟨rfl, rfl⟩
  cases addr with
  | none => exact hnone
  | some addr =>
    exact (h.call (c := .message ⟨.protocolUdp, addr⟩ data) ⟨rfl, rfl⟩).call ⟨rfl, rfl⟩

/-- `on_udp_send_done`. -/
theorem Owned.onUdpSendDone {w : WriteWithInfo} (h : Owned (blocksOf w.buf + held) n s) (u : ℕ)
    (status : ℤ) : Owned held n (onUdpSendDone u w status s) := by
  have hreported : Owned (blocksOf w.buf + held) n
      (if status ≠ 0 then s.call (.udpSendError (s.udps u).node status) else s) := by
    split
    · exact h.call ⟨rfl, rfl⟩
    · exact h
  have hreq := hreported.freeAll.emit_one (o := .freeReq w.req) ⟨rfl, rfl⟩
  refine hreq.congr rfl ?_
  exact (List.append_assoc _ _ _).symm

/-- One callback of libuv. -/
theorem Owned.uvStep {s' : Internal} {e : UvEvent} (h : Owned held n s) (hwf : s.table.Wf)
    (hlife : s.Life) (hstep : uvStep s e = some s') : Owned held n s' := by
  cases e with
  | newConnection server status env =>
    obtain ⟨-, hs⟩ := Option.ite_none_right_eq_some.mp hstep
    rw [← Option.some.inj hs]
    exact h.onNewConnection env server status
  | connectDone t status env =>
    obtain ⟨hreq, hs⟩ := Option.ite_none_right_eq_some.mp hstep
    rw [← Option.some.inj hs]
    exact h.onConnectDone (hlife.lt_nextTcp ((hwf.tcps t).connectReq hreq).2.1) env status
  | tcpRead t nread data env =>
    obtain ⟨-, hs⟩ := Option.ite_none_right_eq_some.mp hstep
    rw [← Option.some.inj hs]
    have halloc := h.call (c := .allocateMemoryForMessage (s.tcps t).node) ⟨rfl, rfl⟩
    exact halloc.onTcpRead env t nread data
  | writeDone t req status env =>
    simp only [NetworkPool.uvStep] at hstep
    split at hstep
    · rename_i w hfind
      have hw : w ∈ (s.tcps t).tcp.writes := List.mem_of_find?_eq_some hfind
      have ht : t < s.nextTcp :=
        hlife.lt_nextTcp ((hwf.tcps t).writes (List.ne_nil_of_mem hw)).2.2.1
      rw [← Option.some.inj hstep]
      exact (h.take ht (Ctcp.blocks_takeWrite hw)).onTcpWriteDone env t status
    · exact absurd hstep (by simp)
  | timeout t =>
    obtain ⟨-, hs⟩ := Option.ite_none_right_eq_some.mp hstep
    rw [← Option.some.inj hs]
    have hset : Owned held n (s.setTcp t { s.tcps t with
      timer := { (s.tcps t).timer with armed := none } }) := h.setTcp rfl
    exact hset.shutdownTcpConnection {} t false false
  | shutdownDone t =>
    obtain ⟨-, hs⟩ := Option.ite_none_right_eq_some.mp hstep
    rw [← Option.some.inj hs]
    exact h.onShutdown t
  | tcpClosed t =>
    obtain ⟨-, hs⟩ := Option.ite_none_right_eq_some.mp hstep
    rw [← Option.some.inj hs]
    exact h.onTcpClosed t
  | timerClosed t =>
    obtain ⟨-, hs⟩ := Option.ite_none_right_eq_some.mp hstep
    rw [← Option.some.inj hs]
    exact h.onTimerClosed t
  | drained t k =>
    obtain ⟨-, hs⟩ := Option.ite_none_right_eq_some.mp hstep
    rw [← Option.some.inj hs]
    exact h.setTcp rfl
  | udpRecv u nread data addr =>
    obtain ⟨-, hs⟩ := Option.ite_none_right_eq_some.mp hstep
    rw [← Option.some.inj hs]
    have halloc := h.call (c := .allocateMemoryForMessage (s.udps u).node) ⟨rfl, rfl⟩
    exact halloc.onUdpRecv u nread data addr
  | udpSendDone u req status =>
    simp only [NetworkPool.uvStep] at hstep
    split at hstep
    · rename_i w hfind
      have hw : w ∈ (s.udps u).sends := List.mem_of_find?_eq_some hfind
      have hu : u < s.nextUdp := by
        by_contra hlt
        rw [hlife.freshUdp u (by omega)] at hw
        exact absurd hw List.not_mem_nil
      rw [← Option.some.inj hstep]
      exact (h.takeUdp hu (Cudp.blocks_take hw)).onUdpSendDone u status
    · exact absurd hstep (by simp)
  | udpClosed u =>
    obtain ⟨-, hs⟩ := Option.ite_none_right_eq_some.mp hstep
    rw [← Option.some.inj hs]
    have hset : Owned held n (s.setUdp u { s.udps u with closed := true }) :=
      h.setUdp rfl
    exact hset.emit_one ⟨rfl, rfl⟩
  | asyncClosed =>
    obtain ⟨-, hs⟩ := Option.ite_none_right_eq_some.mp hstep
    rw [← Option.some.inj hs]
    have hset : Owned held n { s with async := { s.async with closed := true } } :=
      h.congr rfl rfl
    exact hset.emit_one ⟨rfl, rfl⟩

end Callbacks

/-! ## The loop bodies -/

section Bodies

variable {held : Multiset ℕ} {n : ℕ} {s : Internal}

theorem Owned.bindOne (h : Owned held n s) (env : Env) (node : CnetworkNode) (bBind : Bool) :
    Owned held n (bindOne env node bBind s) := by
  have htcp := h.bindAndListenTcp env node
  have hudp := h.bindAndListenUdp env node
  have hrefused : ∀ {s' : Internal} {b : Bool}, Owned held n s' →
      Owned held n (s'.call (.bindStatus node b)) := fun h' => h'.call ⟨rfl, rfl⟩
  unfold NetworkPool.bindOne
  split
  · split
    · rename_i tcp hlookup
      have herase : Owned held n { s with tcpServers := s.tcpServers.erase node } := h.congr rfl rfl
      split
      · exact hrefused h
      · exact (hrefused herase).closeTcp tcp
    · split
      · split
        · rename_i tcpServer s₁ hbind
          rw [hbind] at htcp
          have hinsert : Owned held n
              { s₁ with tcpServers := s₁.tcpServers.insert node tcpServer } := htcp.congr rfl rfl
          exact hrefused hinsert
        · rename_i s₁ hbind
          rw [hbind] at htcp
          exact hrefused htcp
      · exact hrefused h
  · split
    · rename_i udp hfind
      have herase : Owned held n { s with udpServers := s.udpServers.erase udp } := h.congr rfl rfl
      split
      · exact hrefused h
      · exact (hrefused herase).closeUdp udp
    · split
      · split
        · rename_i udpServer s₁ hbind
          rw [hbind] at hudp
          have happend : Owned held n
              { s₁ with udpServers := s₁.udpServers ++ [udpServer] } := hudp.congr rfl rfl
          exact hrefused happend
        · rename_i s₁ hbind
          rw [hbind] at hudp
          exact hrefused hudp
      · exact hrefused h
  · exact hrefused h

/-- One block is reported dropped and freed. -/
theorem Owned.dropOne {b : UvBuf} (h : Owned ({b.base} + held) n s) (node : CnetworkNode) :
    Owned held n (s.emit (NetworkPool.dropAll node [b])) := by
  apply Owned.dropAll
  rwa [blocksOf_cons, blocksOf_nil, add_zero]

theorem Owned.sendWithoutStream {req : PendingSend} (h : Owned ({req.data.base} + held) n s)
    (env : Env) : Owned held n (sendWithoutStream env req s) := by
  have hpush := h.pushWaiting req.node
  have hconnect := hpush.connectTcp env req.node
  unfold NetworkPool.sendWithoutStream
  dsimp only
  split
  · exact h.dropOne req.node
  split
  · split
    · rename_i s₁ hnone
      rw [hnone] at hconnect
      exact (hconnect.call ⟨rfl, rfl⟩).dropWaiting req.node
    · rename_i tcp s₁ hsome
      rw [hsome] at hconnect
      exact hconnect.congr rfl rfl
  · exact hpush

theorem Owned.sendOnStream {req : PendingSend} {tcp : ℕ} (h : Owned ({req.data.base} + held) n s)
    (ht : tcp < s.nextTcp) (env : Env) : Owned held n (sendOnStream env req tcp s) := by
  unfold NetworkPool.sendOnStream
  split
  · exact h.dropOne req.node
  · have hw : Owned (blocksOf (WriteWithInfo.buf ⟨s.nextReq, [req.data]⟩) + held) n
        (mallocReq s).2 := by
      rw [blocksOf_cons, blocksOf_nil, add_zero]
      exact h.congr rfl rfl
    exact hw.startWrite ht env req.node env.timerStart env.write

theorem Owned.sendUdp {req : PendingSend} (h : Owned ({req.data.base} + held) n s)
    (hservers : ∀ u ∈ s.udpServers, u < s.nextUdp) (env : Env) :
    Owned held n (sendUdp env req s) := by
  unfold NetworkPool.sendUdp
  dsimp only
  split_ifs with hany hmalloc hsend
  · -- `uv_udp_send` is refused
    have hnext : Owned ({req.data.base} + held) n
        { (mallocReq s).2 with udpIndex := s.udpIndex % s.udpServers.length + 1 } := h.congr rfl rfl
    have hfreed := (hnext.free.emit_one (o := .freeReq s.nextReq) ⟨rfl, rfl⟩).call
      (c := .udpSendError (s.udps (s.udpServers.getD (s.udpIndex % s.udpServers.length) 0)).node
        env.udpSend) ⟨rfl, rfl⟩
    refine hfreed.congr rfl ?_
    simp [Internal.emit, Internal.call, mallocReq]
  · have hindex : s.udpIndex % s.udpServers.length < s.udpServers.length := Nat.mod_lt _ hany
    have hsender : s.udpServers.getD (s.udpIndex % s.udpServers.length) 0 < s.nextUdp := by
      rw [List.getD_eq_getElem?_getD, List.getElem?_eq_getElem hindex, Option.getD_some]
      exact hservers _ (List.getElem_mem hindex)
    have hnext : Owned (blocksOf [req.data] + held) n
        { (mallocReq s).2 with udpIndex := s.udpIndex % s.udpServers.length + 1 } := by
      rw [blocksOf_cons, blocksOf_nil, add_zero]
      exact h.congr rfl rfl
    exact hnext.putUdp hsender (Cudp.blocks_put (w := ⟨s.nextReq, [req.data]⟩))
  · exact h.free
  · exact h.free

theorem Owned.sendOne {req : PendingSend} (h : Owned ({req.data.base} + held) n s)
    (hwf : s.table.Wf) (hlife : s.Life) (env : Env) : Owned held n (sendOne env req s) := by
  unfold NetworkPool.sendOne
  split
  · split
    · exact h.sendWithoutStream env
    · rename_i tcp hlookup
      exact h.sendOnStream (hlife.lt_nextTcp (hwf.stream _ _ hlookup).tcpInited) env
  · exact h.sendUdp hlife.udpServers env
  · split
    · exact (h.call (c := .connectionStatus req.node false) ⟨rfl, rfl⟩).dropOne req.node
    · exact h.dropOne req.node

theorem Owned.closeOne (h : Owned held n s) (env : Env) (node : CnetworkNode) (bForceClose : Bool) :
    Owned held n (closeOne env node bForceClose s) := by
  unfold NetworkPool.closeOne
  split
  · exact h
  · rename_i tcp hlookup
    have htimer : Owned held n
        (if !bForceClose then NetworkPool.uvTimerStart tcp s .send env.timerStart else s) := by
      split
      · exact h.uvTimerStart tcp .send env.timerStart
      · exact h
    dsimp only
    split
    · exact htimer.shutdownTcpConnection env tcp false false
    · exact htimer.shutdownTcpConnection env tcp false (!bForceClose)

end Bodies

/-! ## Exit -/

section Exit

variable {held : Multiset ℕ} {n : ℕ} {s : Internal} {α : Type}

/-- A loop whose body keeps the ownership. -/
theorem Owned.foldl {f : Internal → α → Internal}
    (hf : ∀ {s : Internal} (a : α), Owned held n s → Owned held n (f s a)) (l : List α)
    (h : Owned held n s) : Owned held n (l.foldl f s) := by
  induction l generalizing s with
  | nil => exact h
  | cons a l ih => exact ih (hf a h)

/-- Several buffers in hand are dropped, each for its own node. -/
theorem Owned.dropEach (l : List α) (node : α → CnetworkNode) (buf : α → List UvBuf)
    (h : Owned ((l.map fun a => blocksOf (buf a)).sum + held) n s) :
    Owned held n (s.emit (l.flatMap fun a => NetworkPool.dropAll (node a) (buf a))) := by
  induction l generalizing s with
  | nil =>
    rw [List.map_nil, List.sum_nil, zero_add] at h
    exact h.congr rfl (List.append_nil s.trace)
  | cons a l ih =>
    rw [List.map_cons, List.sum_cons, add_assoc] at h
    refine (ih (h.dropAll (node a))).congr rfl ?_
    exact (List.append_assoc s.trace _ _).symm

/-- All waiting queues are taken. -/
theorem Owned.takeQueues {queues : List (CnetworkNode × List UvBuf)} (h : Owned held n s)
    (hqueues : queues.Perm s.waitingSend.toPairs) :
    Owned ((queues.map fun pair => blocksOf pair.2).sum + held) n { s with waitingSend := ∅ } where
  once := by
    have hsum : queuedBlocks s.waitingSend = (queues.map fun pair => blocksOf pair.2).sum := by
      rw [(hqueues.map _).sum_eq]
      unfold NodeMap.toPairs
      rw [List.map_map]
      rfl
    have hnone : queuedBlocks ∅ = 0 := rfl
    show _ + held + (_ + _ + queuedBlocks ∅) + _ = _
    rw [← h.once, ← hsum, hnone, add_zero]
    unfold Internal.blocks
    ac_rfl
  live := h.live

/-- The registries may change. -/
theorem Owned.maps (h : Owned held n s) (tcpServers node2stream : NodeMap ℕ)
    (udpServers : List ℕ) (connecting : Finset ℕ) :
    Owned held n { s with
      tcpServers := tcpServers
      node2stream := node2stream
      udpServers := udpServers
      connecting := connecting } :=
  h.congr rfl rfl

/-- One close loop over objects. -/
theorem Owned.closeEach (h : Owned held n s) (object : α → ℕ)
    (notice : α → CnetworkNode → Callback)
    (hnotice : ∀ a node, (Obs.callback (notice a node)).quiet) (l : List α) :
    Owned held n (closeEach object notice l s) :=
  h.foldl (fun a h' => (h'.call (hnotice a _)).closeTcp (object a)) l

/-- The close loop over the UDP servers. -/
theorem Owned.closeUdps (h : Owned held n s) (l : List ℕ) :
    Owned held n (l.foldl (fun s u => Cudp.closeSetNullptr u
      (s.call (.bindStatus (s.udps u).node false))) s) :=
  h.foldl (fun u h' => (h'.call ⟨rfl, rfl⟩).closeUdp u) l

/-- The close loops of the exit branch. -/
theorem Owned.exitLoops (h : Owned held n s) (order : ExitOrder) :
    Owned held n (exitLoops order s) := by
  have hasync := h.closeAsync
  unfold NetworkPool.exitLoops
  dsimp only
  generalize Casync.closeSetNullptr s = s₀ at hasync
  have hservers := (hasync.maps ∅ s₀.node2stream s₀.udpServers s₀.connecting).closeEach Prod.snd
    (fun pair _ => .bindStatus pair.1 false) (fun _ _ => ⟨rfl, rfl⟩) order.tcpServers
  generalize NetworkPool.closeEach Prod.snd (fun pair _ => Callback.bindStatus pair.1 false)
    order.tcpServers { s₀ with tcpServers := ∅ } = s₁ at hservers
  have hudps := (hservers.maps s₁.tcpServers s₁.node2stream [] s₁.connecting).closeUdps s₁.udpServers
  generalize s₁.udpServers.foldl (fun s u => Cudp.closeSetNullptr u
    (s.call (.bindStatus (s.udps u).node false))) { s₁ with udpServers := [] } = s₂ at hudps
  have hstreams := (hudps.maps s₂.tcpServers ∅ s₂.udpServers s₂.connecting).closeEach Prod.snd
    (fun _ node => .connectionStatus node false) (fun _ _ => ⟨rfl, rfl⟩) order.node2stream
  generalize NetworkPool.closeEach Prod.snd (fun _ node => Callback.connectionStatus node false)
    order.node2stream { s₂ with node2stream := ∅ } = s₃ at hstreams
  exact (hstreams.maps s₃.tcpServers s₃.node2stream s₃.udpServers ∅).closeEach id
    (fun _ node => .connectionStatus node false) (fun _ _ => ⟨rfl, rfl⟩) order.connecting

/-- The exit branch of `on_wakeup`: the batch and the waiting queues are dropped. -/
theorem Owned.exitAll {order : ExitOrder} {b : Batch}
    (h : Owned (blocksOf (b.sendCopy.map PendingSend.data) + held) n s)
    (horder : order.waitingSend.Perm s.waitingSend.toPairs) :
    Owned held n (exitAll order b s) := by
  have hloops := h.exitLoops order
  have hqueues : (NetworkPool.exitLoops order s).waitingSend = s.waitingSend := by
    obtain ⟨tcps, htable, -⟩ := table_exitLoops order s
    exact congrArg Table.waitingSend htable
  show Owned held n (exitDrops order b (NetworkPool.exitLoops order s))
  generalize NetworkPool.exitLoops order s = s₁ at hloops hqueues
  rw [← hqueues] at horder
  -- the waiting queues
  have hempty := (hloops.takeQueues horder).dropEach order.waitingSend Prod.fst Prod.snd
  have hbinds : Owned (blocksOf (b.sendCopy.map PendingSend.data) + held) n
      ((({ s₁ with waitingSend := ∅ } : Internal).emit
        (order.waitingSend.flatMap fun pair => NetworkPool.dropAll pair.1 pair.2)).emit
        (b.bindCopy.map fun pair => .callback (.bindStatus pair.1 false))) := by
    apply hempty.emit_quiet
    intro o ho
    obtain ⟨pair, -, rfl⟩ := List.mem_map.mp ho
    exact ⟨rfl, rfl⟩
  -- the batch
  have hsum : (b.sendCopy.map fun req => blocksOf [req.data]).sum =
      blocksOf (b.sendCopy.map PendingSend.data) := by
    induction b.sendCopy with
    | nil => rfl
    | cons req sends ih =>
      rw [List.map_cons, List.sum_cons, ih, List.map_cons, blocksOf_cons, blocksOf_cons,
        blocksOf_nil, add_zero]
  rw [← hsum] at hbinds
  exact hbinds.dropEach b.sendCopy PendingSend.node fun req => [req.data]

end Exit

/-! ## Pools -/

namespace Pool

variable {p p' : Pool} {e : Event}

/-- The blocks of the batch of a running `on_wakeup`. -/
def batchBlocks (p : Pool) : Multiset ℕ :=
  match p.batch with
  | some b => blocksOf (b.sendCopy.map PendingSend.data)
  | none => 0

/-- The blocks of the pending queue. -/
def pendingBlocks (p : Pool) : Multiset ℕ :=
  blocksOf (p.exchanged.pendingSend.map PendingSend.data)

/-- The blocks that `send` filled are accounted for. -/
def Owns (p : Pool) : Prop :=
  Owned (p.pendingBlocks + p.batchBlocks) p.exchanged.accepted.length p.internal

/-- A new block is put on the pending queue. -/
theorem Owns.send (h : p.Owns) (node : CnetworkNode) (data : List UInt8) (bAutoConnect : Bool) :
    Owns { p with exchanged := p.exchanged.send node data bAutoConnect } := by
  unfold Exchanged.send
  split_ifs
  · exact h
  · exact h
  · refine ⟨?_, h.live⟩
    have hpending : pendingBlocks { p with exchanged := { p.exchanged with
        pendingSend := p.exchanged.pendingSend ++
          [⟨node, ⟨p.exchanged.accepted.length, data⟩, bAutoConnect⟩]
        accepted := p.exchanged.accepted ++
          [⟨node, ⟨p.exchanged.accepted.length, data⟩, bAutoConnect⟩] } } =
        p.pendingBlocks + {p.exchanged.accepted.length} := by
      unfold pendingBlocks
      rw [List.map_append, blocksOf_append]
      rfl
    show pendingBlocks _ + p.batchBlocks + _ + _ = Multiset.range (p.exchanged.accepted ++ [_]).length
    rw [hpending, List.length_append, List.length_singleton, Multiset.range_succ,
      ← Multiset.singleton_add, ← h.once]
    ac_rfl

theorem owns_step (hr : poolSystem.Reachable p) (h : p.Owns) (hstep : p.step e = some p') :
    p'.Owns := by
  have hwf := wf_of_reachable hr
  have hlife := life_of_reachable hr
  cases e with
  | bind node bBind =>
    rw [← Option.some.inj hstep]
    exact h
  | send node data bAutoConnect =>
    rw [← Option.some.inj hstep]
    exact h.send node data bAutoConnect
  | close node bForceClose =>
    rw [← Option.some.inj hstep]
    unfold Exchanged.close
    split_ifs
    · exact h
    · exact h
  | wantExit =>
    rw [← Option.some.inj hstep]
    exact h
  | wakeup =>
    simp only [Pool.step] at hstep
    split at hstep
    · exact absurd hstep (by simp)
    · rename_i hbatch
      obtain ⟨-, hs⟩ := Option.ite_none_left_eq_some.mp hstep
      rw [← Option.some.inj hs]
      have hnone : p.batchBlocks = 0 := by
        unfold batchBlocks
        rw [hbatch]
      have howned : Owned (p.pendingBlocks + p.batchBlocks) _ p.internal := h
      rw [hnone, add_comm] at howned
      exact howned
  | dispatch order =>
    simp only [Pool.step] at hstep
    split at hstep
    · rename_i binds sends closes hbatch
      have howned : Owned (p.pendingBlocks + p.batchBlocks) _ p.internal := h
      unfold batchBlocks at howned
      rw [hbatch] at howned
      split_ifs at hstep with hexit henum
      · rw [← Option.some.inj hstep]
        rw [add_comm] at howned
        have hdone := Owned.exitAll (b := ⟨binds, sends, closes, false⟩) howned henum.2.2.2.2
        show Owned (p.pendingBlocks + 0) _ _
        rw [add_zero]
        exact hdone
      · rw [← Option.some.inj hstep]
        exact howned
    · exact absurd hstep (by simp)
  | bindNext env =>
    simp only [Pool.step] at hstep
    split at hstep
    · rename_i node bBind binds sends closes hbatch
      have howned : Owned (p.pendingBlocks + p.batchBlocks) _ p.internal := h
      unfold batchBlocks at howned
      rw [hbatch] at howned
      rw [← Option.some.inj hstep]
      exact howned.bindOne env node bBind
    · exact absurd hstep (by simp)
  | sendNext env =>
    simp only [Pool.step] at hstep
    split at hstep
    · rename_i req sends closes hbatch
      have howned : Owned (p.pendingBlocks + p.batchBlocks) _ p.internal := h
      unfold batchBlocks at howned
      rw [hbatch] at howned
      rw [← Option.some.inj hstep]
      simp only [List.map_cons, blocksOf_cons] at howned
      rw [add_left_comm] at howned
      exact howned.sendOne hwf hlife env
    · exact absurd hstep (by simp)
  | closeNext env =>
    simp only [Pool.step] at hstep
    split at hstep
    · rename_i node bForceClose closes hbatch
      have howned : Owned (p.pendingBlocks + p.batchBlocks) _ p.internal := h
      unfold batchBlocks at howned
      rw [hbatch] at howned
      rw [← Option.some.inj hstep]
      exact howned.closeOne env node bForceClose
    · exact absurd hstep (by simp)
  | wakeupDone =>
    simp only [Pool.step] at hstep
    split at hstep
    · rename_i hbatch
      have howned : Owned (p.pendingBlocks + p.batchBlocks) _ p.internal := h
      unfold batchBlocks at howned
      rw [hbatch] at howned
      rw [← Option.some.inj hstep]
      exact howned
    · exact absurd hstep (by simp)
  | uv e =>
    simp only [Pool.step] at hstep
    split at hstep
    · exact absurd hstep (by simp)
    · split at hstep
      · rename_i s huv
        rw [← Option.some.inj hstep]
        exact h.uvStep hwf hlife huv
      · exact absurd hstep (by simp)

theorem owns_of_reachable (h : poolSystem.Reachable p) : p.Owns :=
  h.invariant (I := Owns) ⟨rfl, .nil _⟩ fun _ _ _ hr hI hs => owns_step hr hI hs

/-- A block was filled and is in one place, once, or was not filled. -/
theorem block_count (hr : poolSystem.Reachable p) (b : ℕ) :
    p.pendingBlocks.count b + p.batchBlocks.count b + p.internal.blocks.count b +
      p.internal.trace.count (.freeBuf b) =
    if b < p.exchanged.accepted.length then 1 else 0 := by
  have hcount := congrArg (Multiset.count b) (owns_of_reachable hr).once
  rw [Multiset.count_add, Multiset.count_add, Multiset.count_add, count_freedBlocks] at hcount
  rw [hcount, Multiset.count_eq_of_nodup (Multiset.nodup_range _)]
  simp only [Multiset.mem_range]

end Pool

/-- In every reachable state, each block that an accepted `send` filled, for a node of any
protocol, is in one place: the pending queue, the batch of `on_wakeup`, a waiting queue, a
pending write or UDP send, or the freed blocks, where it is once. A block that is freed is not
passed to the drop callback or to `uv_write` any more. -/
theorem blocks_accounted {p : Pool} (h : poolSystem.Reachable p) :
    (∀ b, p.pendingBlocks.count b + p.batchBlocks.count b + p.internal.blocks.count b +
        p.internal.trace.count (.freeBuf b) =
      if b < p.exchanged.accepted.length then 1 else 0) ∧
    PassesLive p.internal.trace :=
  ⟨Pool.block_count h, (Pool.owns_of_reachable h).live⟩

/-- A message whose connect fails. -/
theorem blocks_accounted_refused :
    ∃ p, poolSystem.run (sendRun ++ [.uv (.connectDone 0 (-1) {})]) = some p ∧
      p.internal.trace.count (.freeBuf 0) = 1 ∧ PassesLive p.internal.trace := by
  have hrun : poolSystem.run (sendRun ++ [.uv (.connectDone 0 (-1) {})]) =
      some ((poolSystem.run (sendRun ++ [.uv (.connectDone 0 (-1) {})])).get (by decide)) :=
    (Option.some_get _).symm
  exact ⟨_, hrun, by decide, (blocks_accounted (Lib.Lts.reachable_of_run hrun)).2⟩

end NetworkPool
