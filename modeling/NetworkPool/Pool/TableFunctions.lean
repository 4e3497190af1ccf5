import NetworkPool.Pool.WellFormed

/-!
# The functions of the pool on the table

The effect on the table of every function an action is made of. A function that changes the
table has one equation; `startupTcpConnectionMaySetNullptr`, `Ctcp.alloc` and `connectTcp` have
several outcomes and get a case lemma each.
-/

namespace NetworkPool

open Table

/-! ## Updates -/

section Updates

variable (s : Internal)

@[simp] theorem table_tcps : s.table.tcps = s.tcps := rfl

@[simp] theorem table_node2stream : s.table.node2stream = s.node2stream := rfl

@[simp] theorem table_connecting : s.table.connecting = s.connecting := rfl

@[simp] theorem table_waitingSend : s.table.waitingSend = s.waitingSend := rfl

@[simp] theorem table_nextTcp : s.table.nextTcp = s.nextTcp := rfl

theorem table_trace : s.table.trace = visible s.trace := rfl

theorem table_emit (obs : List Obs) : (s.emit obs).table = s.table.emit (visible obs) := by
  simp [Internal.table, Internal.emit, Table.emit]

@[simp] theorem emit_nil (v : Table) : v.emit [] = v := by
  simp [Table.emit]

theorem emit_emit (v : Table) (a b : List Obs) : (v.emit a).emit b = v.emit (a ++ b) := by
  simp [Table.emit]

@[simp] theorem emit_table_tcps (v : Table) (obs : List Obs) : (v.emit obs).tcps = v.tcps := rfl

/-- Entries that are not visible. -/
theorem table_emit_invisible {obs : List Obs} (h : visible obs = []) :
    (s.emit obs).table = s.table := by
  rw [table_emit, h, emit_nil]

theorem table_call (c : Callback) : (s.call c).table = s.table.emit (visible [.callback c]) :=
  table_emit s _

theorem table_setTcp (t : ℕ) (c : Ctcp) : (s.setTcp t c).table = s.table.setTcp t c := rfl

@[simp] theorem table_mallocReq : (mallocReq s).2.table = s.table := rfl

@[simp] theorem emit_tcps (obs : List Obs) : (s.emit obs).tcps = s.tcps := rfl

@[simp] theorem call_tcps (c : Callback) : (s.call c).tcps = s.tcps := rfl

@[simp] theorem setTcp_tcps (t : ℕ) (c : Ctcp) : (s.setTcp t c).tcps t = c := by
  simp [Internal.setTcp]

theorem setTcp_self (v : Table) (t : ℕ) : v.setTcp t (v.tcps t) = v := by
  simp [Table.setTcp]

theorem setTcp_setTcp (v : Table) (t : ℕ) (c c' : Ctcp) :
    (v.setTcp t c).setTcp t c' = v.setTcp t c' := by
  simp [Table.setTcp]

theorem emit_setTcp (v : Table) (obs : List Obs) (t : ℕ) (c : Ctcp) :
    (v.emit obs).setTcp t c = (v.setTcp t c).emit obs := rfl

end Updates

/-! ## libuv -/

section Uv

variable (t : ℕ) (s : Internal)

@[simp] theorem arm_node (timeout : Timeout) (c : Ctcp) : (c.arm timeout).node = c.node := rfl

theorem table_uvTimerStart (timeout : Timeout) :
    (uvTimerStart t s timeout true).table = s.table.setTcp t ((s.tcps t).arm timeout) := by
  unfold uvTimerStart
  rw [if_pos rfl, table_setTcp, table_emit_invisible _ rfl]
  rfl

theorem table_uvTimerStart_fail (timeout : Timeout) :
    (uvTimerStart t s timeout false).table = s.table :=
  table_emit_invisible s rfl

@[simp] theorem uvTimerStart_nextReq (timeout : Timeout) (ok : Bool) :
    (uvTimerStart t s timeout ok).nextReq = s.nextReq := by
  cases ok <;> rfl

theorem table_uvReadStart : (uvReadStart t s).table = s.table.setTcp t (s.tcps t).startRead := rfl

theorem table_uvWrite (w : WriteWithInfo) :
    (uvWrite t s w true).table =
      (s.table.setTcp t ((s.tcps t).queueWrite w)).emit [.uvWrite t (s.tcps t).node w.buf] := by
  unfold uvWrite
  rw [if_pos rfl, table_setTcp, table_emit, emit_setTcp]
  rfl

theorem table_uvWrite_fail (w : WriteWithInfo) :
    (uvWrite t s w false).table = s.table.emit [.uvWrite t (s.tcps t).node w.buf] := by
  unfold uvWrite
  rw [if_neg (by simp), table_emit]
  rfl

end Uv

/-! ## Closing -/

section Close

variable (t : ℕ) (s : Internal)

theorem table_uvCloseTcp :
    (uvCloseTcp t s).table = s.table.setTcp t { s.tcps t with
      tcp := { (s.tcps t).tcp with closing := true, reading := false, listening := false } } := by
  unfold uvCloseTcp
  rw [table_emit_invisible _ rfl, table_setTcp]

theorem table_uvCloseTimer :
    (uvCloseTimer t s).table = s.table.setTcp t { s.tcps t with
      timer := { (s.tcps t).timer with closing := true, armed := none } } := by
  unfold uvCloseTimer
  rw [table_emit_invisible _ rfl, table_setTcp]

theorem uvCloseTcp_tcps : (uvCloseTcp t s).tcps t = { s.tcps t with
    tcp := { (s.tcps t).tcp with closing := true, reading := false, listening := false } } := by
  simp [uvCloseTcp]

theorem uvCloseTimer_tcps : (uvCloseTimer t s).tcps t = { s.tcps t with
    timer := { (s.tcps t).timer with closing := true, armed := none } } := by
  simp [uvCloseTimer]

/-- `close_set_nullptr` changes the object only. -/
theorem table_closeSetNullptr :
    (Ctcp.closeSetNullptr t s).table = s.table.setTcp t (s.tcps t).afterClose := by
  unfold Ctcp.closeSetNullptr Ctcp.afterClose
  by_cases hopen : ((s.tcps t).tcpInited || (s.tcps t).timerInited) = true
  · by_cases hclosing : (s.tcps t).closing = true
    · simp only [hopen, hclosing, Bool.not_true, Bool.and_false, if_true, Bool.false_eq_true,
        if_false]
      exact (setTcp_self _ t).symm
    · -- the stream is closed before the timer
      simp only [hopen, Bool.not_eq_true _ ▸ hclosing, Bool.not_false, Bool.and_self, if_true]
      cases htcp : (s.tcps t).tcpInited <;> cases htimer : (s.tcps t).timerInited <;>
        simp [table_setTcp, table_uvCloseTcp, table_uvCloseTimer, setTcp_setTcp, uvCloseTcp_tcps,
          uvCloseTimer_tcps, htimer, htcp]
  · rw [if_neg hopen, if_neg (by simp_all), table_emit_invisible _ rfl, ← table_tcps, setTcp_self]

/-- `uv_shutdown` was accepted. -/
theorem table_uvShutdown (req : ℕ) :
    ((uvShutdown t s req true).setTcp t
      { (uvShutdown t s req true).tcps t with shutdown := true }).table =
        s.table.setTcp t { s.tcps t with
          tcp := { (s.tcps t).tcp with shutdownReq := some req }, shutdown := true } := by
  unfold uvShutdown
  rw [if_pos rfl, table_setTcp, table_setTcp, table_emit_invisible _ rfl, setTcp_setTcp]
  simp

theorem table_shutdownAndCloseSetNullptr (env : Env) :
    (Ctcp.shutdownAndCloseSetNullptr env t s).table =
      s.table.setTcp t ((s.tcps t).afterShutdown env s.nextReq) := by
  unfold Ctcp.shutdownAndCloseSetNullptr Ctcp.afterShutdown
  dsimp only
  by_cases htcp : (!(s.tcps t).tcpInited) = true
  · rw [if_pos htcp, if_pos htcp]
    exact table_closeSetNullptr t s
  · rw [if_neg htcp, if_neg htcp]
    by_cases hopen : (!(s.tcps t).closing && !(s.tcps t).shutdown) = true
    · rw [if_pos hopen, if_pos hopen]
      cases env.mallocShutdown <;> cases env.uvShutdown
      case true.true => exact table_uvShutdown t (mallocReq s).2 s.nextReq
      case true.false =>
        -- the request block is given back
        have hfree := table_closeSetNullptr t
          ((uvShutdown t (mallocReq s).2 s.nextReq false).emit [.freeReq s.nextReq])
        have hcall : (uvShutdown t (mallocReq s).2 s.nextReq false).table = s.table :=
          table_emit_invisible (mallocReq s).2 rfl
        rw [table_emit_invisible _ rfl, hcall] at hfree
        exact hfree
      all_goals exact table_closeSetNullptr t s
    · rw [if_neg hopen, if_neg hopen]
      exact (setTcp_self _ t).symm

end Close

/-! ## Waiting queues and teardown -/

section Queues

variable (s : Internal)

/-- `dropWaiting` on the table. -/
def Table.dropWaiting (v : Table) (node : CnetworkNode) : Table :=
  { v with waitingSend := v.waitingSend.erase node }.emit (dropCalls node (v.waiting node))

theorem table_dropWaiting (node : CnetworkNode) :
    (dropWaiting node s).table = s.table.dropWaiting node := by
  unfold dropWaiting Table.dropWaiting Table.waiting
  cases hlookup : s.waitingSend.lookup node with
  | none =>
    simp only [table_waitingSend, hlookup, Lib.AssocMap.erase_of_lookup_eq_none hlookup,
      Option.getD_none, dropCalls_nil, emit_nil]
    rfl
  | some buf => simp [Internal.table, Internal.emit, Table.emit, hlookup]

@[simp] theorem dropWaiting_tcps (node : CnetworkNode) : (dropWaiting node s).tcps = s.tcps := by
  unfold dropWaiting
  split <;> rfl

@[simp] theorem dropWaiting_nextReq (node : CnetworkNode) :
    (dropWaiting node s).nextReq = s.nextReq := by
  unfold dropWaiting
  split <;> rfl

theorem dropWaiting_of_none {node : CnetworkNode} {s : Internal}
    (h : s.waitingSend.lookup node = none) : dropWaiting node s = s := by
  unfold dropWaiting
  rw [h]

theorem getWriteFromWaiting_none (env : Env) {node : CnetworkNode} {s : Internal}
    (h : s.waitingSend.lookup node = none) : getWriteFromWaitingByNode env node s = (none, s) := by
  unfold getWriteFromWaitingByNode
  rw [h]

/-- There is no memory for the write request. -/
theorem getWriteFromWaiting_fail (env : Env) {node : CnetworkNode} {s : Internal}
    (h : (s.waitingSend.lookup node).isSome = true) (hmalloc : env.mallocWrite = false) :
    getWriteFromWaitingByNode env node s = (none, dropWaiting node s) := by
  unfold getWriteFromWaitingByNode
  obtain ⟨buf, hbuf⟩ := Option.isSome_iff_exists.mp h
  rw [hbuf]
  simp [hmalloc]

/-- What waits becomes a write request. -/
theorem getWriteFromWaiting_some (env : Env) {node : CnetworkNode} {s : Internal} {buf : List UvBuf}
    (h : s.waitingSend.lookup node = some buf) (hmalloc : env.mallocWrite = true) :
    getWriteFromWaitingByNode env node s =
      (some ⟨s.nextReq, buf⟩, { (mallocReq s).2 with waitingSend := s.waitingSend.erase node }) := by
  unfold getWriteFromWaitingByNode
  rw [h]
  simp [hmalloc, mallocReq]

theorem table_dropWriteAndFree (node : CnetworkNode) (w : WriteWithInfo) :
    (dropWriteAndFreeSetNullptr node w s).table = s.table.emit (dropCalls node w.buf) := by
  unfold dropWriteAndFreeSetNullptr
  rw [table_emit_invisible _ rfl, table_emit, visible_dropAll]

/-- `shutdownTcpConnection_set_nullptr` is a teardown. -/
theorem table_shutdownTcpConnection (env : Env) (t : ℕ) (bAlwaysNotify bShutdown : Bool) :
    (shutdownTcpConnectionSetNullptr env t bAlwaysNotify bShutdown s).table =
      s.table.teardown t bAlwaysNotify
        (if bShutdown then (s.tcps t).afterShutdown env s.nextReq else (s.tcps t).afterClose) := by
  unfold shutdownTcpConnectionSetNullptr Table.teardown
  by_cases hnotify : ((s.node2stream.lookup (s.tcps t).node).isSome || bAlwaysNotify) = true
  · simp only [hnotify, if_true, table_node2stream, table_tcps]
    cases bShutdown
    · simp only [Bool.false_eq_true, if_false]
      rw [table_closeSetNullptr, table_dropWaiting, table_call, dropWaiting_tcps, call_tcps]
      rfl
    · simp only [if_true]
      rw [table_shutdownAndCloseSetNullptr, table_dropWaiting, table_call, dropWaiting_tcps,
        call_tcps, dropWaiting_nextReq]
      rfl
  · simp only [hnotify, Bool.false_eq_true, if_false, table_node2stream, table_tcps,
      List.append_nil]
    cases bShutdown
    · simp only [Bool.false_eq_true, if_false]
      rw [table_closeSetNullptr, table_dropWaiting, dropWaiting_tcps]
      rfl
    · simp only [if_true]
      rw [table_shutdownAndCloseSetNullptr, table_dropWaiting, dropWaiting_tcps,
        dropWaiting_nextReq]
      rfl

/-- A teardown that does not wait for the pending writes. -/
theorem table_teardown (env : Env) (t : ℕ) (bAlwaysNotify : Bool) :
    (shutdownTcpConnectionSetNullptr env t bAlwaysNotify false s).table =
      s.table.teardown t bAlwaysNotify (s.table.tcps t).afterClose := by
  rw [table_shutdownTcpConnection, if_neg (by simp)]
  rfl

/-- A write that could not be started: its buffers are dropped and the connection torn down. -/
theorem table_dropWrite_teardown (env : Env) (t : ℕ) (node : CnetworkNode) (w : WriteWithInfo) :
    (shutdownTcpConnectionSetNullptr env t false false (dropWriteAndFreeSetNullptr node w s)).table =
      (s.table.emit (dropCalls node w.buf)).teardown t false (s.table.tcps t).afterClose := by
  rw [table_teardown, table_dropWriteAndFree]
  rfl

end Queues

/-! ## Startup -/

/-- What waits for a node can be handed to `uv_write`. -/
def Env.handsOver (env : Env) : Bool :=
  env.mallocWrite && env.timerStartSend && env.write

section Startup

variable (env : Env) (t : ℕ) (s : Internal)

/-- `t` entered in the connection map and reported. -/
def registered : Internal :=
  { s with node2stream := s.node2stream.insert (s.tcps t).node t }.emit
    [.registered t (s.tcps t).node] |>.call (.connectionStatus (s.tcps t).node true)

theorem table_registered :
    (registered t s).table =
      { s.table.register t with waitingSend := s.waitingSend } := by
  unfold registered Table.register
  rw [table_call, table_emit]
  simp [Internal.table, Table.emit, visible_cons, Obs.visible]

/-- Nothing waits, or what waits is dropped. -/
theorem table_registered_dropWaiting :
    (dropWaiting (s.tcps t).node (registered t s)).table =
      (s.table.register t).emit (dropCalls (s.tcps t).node (s.table.waiting (s.tcps t).node)) := by
  rw [table_dropWaiting, table_registered]
  rfl

/-- The waiting messages `buf` are handed to `uv_write`, or dropped with the connection. -/
theorem startup_write (buf : List UvBuf) (req : ℕ) {s' : Internal}
    (htable : s'.table = s.table.register t)
    (hlookup : s.table.node2stream.lookup (s.table.tcps t).node = none)
    (hbuf : s.table.waiting (s.table.tcps t).node = buf) :
    Startup env.handsOver s.table t
      (let s' := uvTimerStart t s' .send env.timerStartSend
      if !env.timerStartSend then
        shutdownTcpConnectionSetNullptr env t false false
          (dropWriteAndFreeSetNullptr (s.tcps t).node ⟨req, buf⟩ s')
      else
        let s' := uvWrite t s' ⟨req, buf⟩ env.write
        if !env.write then
          shutdownTcpConnectionSetNullptr env t false false
            (dropWriteAndFreeSetNullptr (s.tcps t).node ⟨req, buf⟩ s')
        else s').table := by
  have htcps : s'.tcps = s.tcps := congrArg Table.tcps htable
  dsimp only
  by_cases htimer : env.timerStartSend = true
  · rw [htimer, if_neg (by simp)]
    have harmed : (uvTimerStart t s' .send true).table =
        (s.table.register t).setTcp t ((s.table.tcps t).arm .send) := by
      rw [table_uvTimerStart, htable, htcps, table_tcps]
    have hobj : (uvTimerStart t s' .send true).tcps t = (s.table.tcps t).arm .send := by
      rw [← table_tcps, harmed, setTcp_tcps_self]
    by_cases hwrite : env.write = true
    · rw [if_neg (by simp [hwrite]), hwrite, table_uvWrite, harmed, hobj, setTcp_setTcp, ← hbuf]
      exact .flush req hlookup
    · have hdown : Startup env.handsOver s.table t _ :=
        .down true hlookup (by simp [Env.handsOver, hwrite])
      simp only [Bool.not_eq_true _ ▸ hwrite, Bool.not_false, if_true] at hdown ⊢
      rw [table_dropWrite_teardown, table_uvWrite_fail, harmed, hobj, ← hbuf]
      simpa using hdown
  · have hdown : Startup env.handsOver s.table t _ :=
      .down false hlookup (by simp [Env.handsOver, htimer])
    simp only [Bool.not_eq_true _ ▸ htimer, Bool.not_false, if_true] at hdown ⊢
    rw [table_dropWrite_teardown, table_uvTimerStart_fail, htable, ← hbuf]
    simpa [Table.register, Table.setTcp] using hdown

/-- `startupTcpConnection_may_set_nullptr` on a connection whose node has a family. -/
theorem table_startup (hvalid : (s.tcps t).node.sockaddr.valid = true) :
    Startup env.handsOver s.table t (startupTcpConnectionMaySetNullptr env t s).table := by
  unfold startupTcpConnectionMaySetNullptr
  dsimp only
  rw [if_neg (by simp [hvalid])]
  by_cases htaken : (s.node2stream.lookup (s.tcps t).node).isSome = true
  · rw [if_pos htaken, table_closeSetNullptr]
    exact .taken (Option.ne_none_iff_isSome.mpr htaken)
  · rw [if_neg htaken, ← registered]
    have hlookup : s.table.node2stream.lookup (s.table.tcps t).node = none := by simpa using htaken
    have hqueue : (registered t s).waitingSend = s.waitingSend := rfl
    cases hwaiting : s.waitingSend.lookup (s.tcps t).node with
    | none =>
      rw [getWriteFromWaiting_none env (by rw [hqueue, hwaiting])]
      have hup := table_registered_dropWaiting t s
      rw [dropWaiting_of_none (by rw [hqueue, hwaiting])] at hup
      rw [hup]
      exact .up hlookup fun _ => hwaiting
    | some buf =>
      have hbuf : s.table.waiting (s.tcps t).node = buf := by
        simp [Table.waiting, hwaiting]
      by_cases hmalloc : env.mallocWrite = true
      · rw [getWriteFromWaiting_some env (by rw [hqueue, hwaiting]) hmalloc]
        refine startup_write env t s buf _ ?_ hlookup hbuf
        exact congrArg (fun v : Table => { v with waitingSend := s.waitingSend.erase (s.tcps t).node })
          (table_registered t s)
      · rw [getWriteFromWaiting_fail env (by rw [hqueue, hwaiting]; rfl) (by simpa using hmalloc)]
        dsimp only
        rw [table_registered_dropWaiting]
        exact .up hlookup fun hok => absurd hok (by simp [Env.handsOver, hmalloc])

end Startup

/-! ## Allocation -/

/-- The table after a set-up that failed: an object was added and closed, or nothing happened. -/
def Table.Failed (v v' : Table) : Prop :=
  v' = v ∨ ∃ c : Ctcp, c.Dead ∧ v' = v.add c

section Alloc

variable (env : Env) (s : Internal)

theorem add_setTcp (v : Table) (c c' : Ctcp) : (v.add c).setTcp v.nextTcp c' = v.add c' := by
  simp [Table.add, Table.setTcp]

/-- Closing an object that was just added. -/
theorem table_close_added {v : Table} {c : Ctcp} {s : Internal} (h : s.table = v.add c) :
    (Ctcp.closeSetNullptr v.nextTcp s).table = v.add c.afterClose := by
  rw [table_closeSetNullptr, ← table_tcps, h, add_setTcp, add_tcps_self]

/-- The last step of `Ctcp::alloc`. -/
theorem setTcp_options_cases {initTimer : Bool} {s' : Internal}
    (hs' : s'.table = s.table.add (Ctcp.fresh initTimer {})) :
    (∃ s'', (if !setTcp env then (none, Ctcp.closeSetNullptr s.nextTcp s')
        else (some s.nextTcp, s')) = (some s.nextTcp, s'') ∧
      s''.table = s.table.add (Ctcp.fresh initTimer {})) ∨
    (∃ s'', (if !setTcp env then (none, Ctcp.closeSetNullptr s.nextTcp s')
        else (some s.nextTcp, s')) = (none, s'') ∧ s.table.Failed s''.table) := by
  cases setTcp env with
  | false =>
    exact .inr ⟨_, rfl, .inr ⟨_, (Ctcp.Wf.fresh _ {}).dead_afterClose rfl rfl rfl rfl rfl,
      table_close_added hs'⟩⟩
  | true => exact .inl ⟨s', rfl, hs'⟩

/-- `Ctcp::alloc` gives a new object, or fails and leaves a dead one. -/
theorem alloc_cases (initTimer : Bool) :
    (∃ s', Ctcp.alloc env initTimer s = (some s.nextTcp, s') ∧
      s'.table = s.table.add (Ctcp.fresh initTimer {})) ∨
    (∃ s', Ctcp.alloc env initTimer s = (none, s') ∧ s.table.Failed s'.table) := by
  have hnew : ({ s with nextTcp := s.nextTcp + 1 }.setTcp s.nextTcp {}).table = s.table.add {} := rfl
  have hinit : (({ s with nextTcp := s.nextTcp + 1 }.setTcp s.nextTcp {}).setTcp s.nextTcp
      { tcpInited := true }).table = s.table.add (Ctcp.fresh false {}) := by
    rw [table_setTcp, hnew]
    exact add_setTcp _ _ _
  unfold Ctcp.alloc
  cases env.newTcp with
  | false => exact .inr ⟨s, rfl, .inl rfl⟩
  | true =>
    simp only [Bool.not_true, Bool.false_eq_true, if_false, setTcp_tcps]
    cases env.tcpInit with
    | false =>
      exact .inr ⟨_, rfl, .inr ⟨_, Ctcp.Wf.default.dead_afterClose rfl rfl rfl rfl rfl,
        table_close_added hnew⟩⟩
    | true =>
      simp only [Bool.not_true, Bool.false_eq_true, if_false]
      cases hfail : initTimer && !env.timerInit with
      | true =>
        exact .inr ⟨_, rfl, .inr ⟨_, (Ctcp.Wf.fresh false {}).dead_afterClose rfl rfl rfl rfl rfl,
          table_close_added hinit⟩⟩
      | false =>
        simp only [Bool.false_eq_true, if_false]
        refine setTcp_options_cases env s ?_
        cases initTimer with
        | false => exact hinit
        | true =>
          simp only [if_true]
          rw [table_setTcp, hinit]
          exact add_setTcp _ _ _

/-- The object just added. -/
theorem tcps_added {c : Ctcp} {s' : Internal} (hs' : s'.table = s.table.add c) :
    s'.tcps s.nextTcp = c := by
  rw [← table_tcps, hs', ← table_nextTcp, add_tcps_self]

/-- The set-up of the object just added fails. -/
theorem failed_added {c : Ctcp} {s' : Internal} (hs' : s'.table = s.table.add c) (hc : c.Wf)
    (htcp : c.tcp = {}) (hshutdown : c.shutdown = false) :
    s.table.Failed (Ctcp.closeSetNullptr s.nextTcp s').table := by
  refine .inr ⟨_, hc.dead_afterClose ?_ ?_ ?_ ?_ hshutdown, table_close_added hs'⟩ <;> rw [htcp]

/-- The timer of the object just added is started. -/
theorem table_uvTimerStart_added {c : Ctcp} {s' : Internal} (hs' : s'.table = s.table.add c)
    (timeout : Timeout) :
    (uvTimerStart s.nextTcp s' timeout true).table = s.table.add (c.arm timeout) := by
  rw [table_uvTimerStart, hs', tcps_added s hs']
  exact add_setTcp _ _ _

theorem table_uvReadStart_added {c : Ctcp} {s' : Internal} (hs' : s'.table = s.table.add c) :
    (uvReadStart s.nextTcp s').table = s.table.add c.startRead := by
  rw [table_uvReadStart, hs', tcps_added s hs']
  exact add_setTcp _ _ _

/-- The new object gets its node. -/
theorem table_setNode {initTimer : Bool} {s' : Internal} (node : CnetworkNode)
    (hs' : s'.table = s.table.add (Ctcp.fresh initTimer {})) :
    (s'.setTcp s.nextTcp { s'.tcps s.nextTcp with node := node }).table =
      s.table.add (Ctcp.fresh initTimer node) := by
  rw [table_setTcp, hs', tcps_added s hs']
  exact add_setTcp _ _ _

/-- `uv_tcp_connect` was accepted on a new object. -/
theorem table_uvTcpConnect {c : Ctcp} {s' : Internal} (hs' : s'.table = s.table.add c) (req : ℕ) :
    (uvTcpConnect s.nextTcp s' req).table =
      (s.table.add { c with tcp := { c.tcp with connectReq := some req } }).emit
        [.uvTcpConnect s.nextTcp c.node] := by
  unfold uvTcpConnect
  dsimp only
  rw [table_emit, table_setTcp, hs', tcps_added s hs', ← table_nextTcp, add_setTcp]
  rfl

/-- `uv_listen` was accepted on a new object. -/
theorem table_uvListen {c : Ctcp} {s' : Internal} (hs' : s'.table = s.table.add c) :
    (uvListen s.nextTcp s').table =
      s.table.add { c with tcp := { c.tcp with listening := true } } := by
  unfold uvListen
  dsimp only
  rw [table_setTcp, hs', tcps_added s hs', ← table_nextTcp, add_setTcp]

/-- `connectTcp` gives an object whose connect is pending, or fails and leaves a dead one. -/
theorem connectTcp_cases {node : CnetworkNode} (hnode : node.IsTcp) :
    (∃ s' req, connectTcp env node s = (some s.nextTcp, s') ∧ node.sockaddr.valid = true ∧
      s'.table = (s.table.add { (Ctcp.fresh true node).arm .connect with
        tcp := { connectReq := some req } }).emit [.uvTcpConnect s.nextTcp node]) ∨
    (∃ s', connectTcp env node s = (none, s') ∧ s.table.Failed s'.table) := by
  unfold connectTcp
  simp only [show node.protocol = .protocolTcp from hnode, ne_eq, not_true_eq_false, if_false]
  cases env.mallocConnect with
  | false => exact .inr ⟨s, rfl, .inl rfl⟩
  | true =>
    simp only [Bool.not_true, Bool.false_eq_true, if_false]
    rcases alloc_cases env (mallocReq s).2 true with ⟨s₁, heq, htable⟩ | ⟨s₁, heq, hfailed⟩
    · rw [heq]
      have hnoded := table_setNode s node htable
      have harmed := table_uvTimerStart_added s hnoded .connect
      simp only [show (mallocReq s).2.nextTcp = s.nextTcp from rfl]
      cases env.timerStart with
      | false =>
        refine .inr ⟨_, rfl, failed_added s ?_ (Ctcp.Wf.fresh true node) rfl rfl⟩
        rw [table_emit_invisible _ rfl, table_uvTimerStart_fail]
        exact hnoded
      | true =>
        simp only [Bool.not_true, Bool.false_eq_true, if_false]
        cases hconnect : env.tcpConnect && node.sockaddr.valid with
        | false =>
          exact .inr ⟨_, rfl, failed_added s ((table_emit_invisible _ rfl).trans harmed)
            ((Ctcp.Wf.fresh true node).arm .connect rfl rfl rfl rfl rfl) rfl rfl⟩
        | true =>
          simp only [Bool.not_true, Bool.false_eq_true, if_false]
          exact .inl ⟨_, s.nextReq, rfl, (Bool.and_eq_true_iff.mp hconnect).2,
            table_uvTcpConnect s harmed _⟩
    · rw [heq]
      refine .inr ⟨_, rfl, ?_⟩
      rw [table_emit_invisible _ rfl]
      exact hfailed

/-- `bindAndListenTcp` gives a listener, or fails and leaves a dead object. -/
theorem bindAndListenTcp_cases {node : CnetworkNode} (hnode : node.IsTcp) :
    (∃ s', bindAndListenTcp env node s = (some s.nextTcp, s') ∧
      s'.table = s.table.add { Ctcp.fresh false node with tcp := { listening := true } }) ∨
    (∃ s', bindAndListenTcp env node s = (none, s') ∧ s.table.Failed s'.table) := by
  unfold bindAndListenTcp
  simp only [show node.protocol = .protocolTcp from hnode, ne_eq, not_true_eq_false, if_false]
  rcases alloc_cases env s false with ⟨s₁, heq, htable⟩ | ⟨s₁, heq, hfailed⟩
  · rw [heq]
    have hnoded := table_setNode s node htable
    have hfail := failed_added s hnoded (Ctcp.Wf.fresh false node) rfl rfl
    dsimp only
    cases env.tcpBind && node.sockaddr.valid with
    | false => exact .inr ⟨_, rfl, hfail⟩
    | true =>
      simp only [Bool.not_true, Bool.false_eq_true, if_false]
      cases env.listen with
      | false => exact .inr ⟨_, rfl, hfail⟩
      | true => exact .inl ⟨_, rfl, table_uvListen s hnoded⟩
  · rw [heq]
    exact .inr ⟨s₁, rfl, hfailed⟩

end Alloc

end NetworkPool
