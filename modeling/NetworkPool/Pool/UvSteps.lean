import NetworkPool.Pool.TableFunctions

/-!
# libuv callbacks as actions

`tearsDown` says which object a callback tears down, if any. `uvStep_acts` is the inversion of
`uvStep`: a callback is a sequence of quiet actions, followed by at most one that edits the
registries; that one is a teardown exactly when `tearsDown` says so.
-/

namespace NetworkPool

open Table

/-- `uv_timer_start` fails in `reset_tcp_idle_timeout_may_set_nullptr`. -/
def idleTimerFails (env : Env) (c : Ctcp) : Bool :=
  !c.closing && !c.shutdown && c.tcp.writeQueueSize = 0 && !env.timerStart

/-- The object a callback passes to `shutdownTcpConnection_set_nullptr`, other than one it has
just registered. -/
def tearsDown (s : Internal) : UvEvent → Option ℕ
  | .timeout t => some t
  | .tcpRead t nread _ env =>
    if nread < 0 || (nread > 0 && idleTimerFails env (s.tcps t)) then some t else none
  | .writeDone t _ status env =>
    if status ≠ 0 || idleTimerFails env (s.tcps t) then some t else none
  | .connectDone t status env =>
    if status < 0 || (s.tcps t).closing || !env.timerStart || !env.readStart then some t else none
  | _ => none

/-- The labels a callback may have. -/
def UvEvent.Allows : UvEvent → Label → Prop
  | .tcpRead t _ _ _, .message t' => t = t'
  | .connectDone t _ env, .connectUp t' ok => t = t' ∧ ok = env.handsOver
  | .connectDone t _ _, .connectFail t' => t = t'
  | .newConnection _ _ env, .acceptUp peer ok => peer = env.peer ∧ ok = env.handsOver
  | .shutdownDone t, .shutdownDone t' => t = t'
  | _, .touch _ | _, .written _ | _, .lost _ | _, .teardown _ | _, .dead => True
  | _, _ => False

/-- Callbacks take nothing from the batch. -/
theorem UvEvent.Allows.taken {e : UvEvent} {l : Label} (h : e.Allows l) : l.taken = [] := by
  cases l with
  | park | connect | refuse | discard | write | writeFail | exit =>
    cases e <;> exact absurd h (by simp [UvEvent.Allows])
  | _ => rfl

/-- What `uvStep_acts` says of a callback that takes the table `v` to `v'`. -/
def UvActs (s : Internal) (e : UvEvent) (v v' : Table) : Prop :=
  ∃ ls v₁, Acts v ls v₁ ∧ (∀ l ∈ ls, l.Quiet ∧ e.Allows l) ∧
    ((v₁ = v' ∧ tearsDown s e = none) ∨
      ∃ l, Act v₁ l v' ∧ e.Allows l ∧ ¬ l.Quiet ∧ tearsDown s e = l.torn)

section Steps

variable {s : Internal} {e : UvEvent} {v v₁ v' : Table}

theorem UvActs.nil (htorn : tearsDown s e = none) : UvActs s e v v :=
  ⟨[], v, .nil v, by simp, .inl ⟨rfl, htorn⟩⟩

/-- A quiet action in front. -/
theorem UvActs.cons {l : Label} (hact : Act v l v₁) (hquiet : l.Quiet) (hallows : e.Allows l)
    (h : UvActs s e v₁ v') : UvActs s e v v' := by
  obtain ⟨ls, v₂, hacts, hls, hlast⟩ := h
  refine ⟨l :: ls, v₂, .cons hact hacts, ?_, hlast⟩
  intro l' hl'
  rcases List.mem_cons.mp hl' with rfl | hl'
  · exact ⟨hquiet, hallows⟩
  · exact hls l' hl'

/-- The last action. -/
theorem UvActs.last {l : Label} (hact : Act v l v') (hallows : e.Allows l) (hquiet : ¬ l.Quiet)
    (htorn : tearsDown s e = l.torn) : UvActs s e v v' :=
  ⟨[], v, .nil v, by simp, .inr ⟨l, hact, hallows, hquiet, htorn⟩⟩

/-- A quiet action alone. -/
theorem UvActs.quiet {l : Label} (hact : Act v l v') (hquiet : l.Quiet) (hallows : e.Allows l)
    (htorn : tearsDown s e = none) : UvActs s e v v' :=
  .cons hact hquiet hallows (.nil htorn)

end Steps

/-! ## Reads and writes -/

section ReadWrite

variable {s : Internal} {t : ℕ} (env : Env)

/-- The end of a read or write callback that succeeded. -/
theorem reset_acts {s₀ : Internal} {e : UvEvent} (hlistening : (s.tcps t).tcp.listening = false)
    (htcp : (s.tcps t).tcpInited = true)
    (htimer : (s.tcps t).closing = false → (s.tcps t).timerInited = true)
    (htouch : e.Allows (.touch t)) (hteardown : e.Allows (.teardown t))
    (htorn : tearsDown s₀ e = if idleTimerFails env (s.tcps t) then some t else none) :
    UvActs s₀ e s.table
      (if !(s.tcps t).closing && !(s.tcps t).shutdown then
        resetTcpIdleTimeoutMaySetNullptr env t s else s).table := by
  by_cases hopen : (!(s.tcps t).closing && !(s.tcps t).shutdown) = true
  · rw [if_pos hopen]
    obtain ⟨hclosing, hshutdown⟩ : (s.tcps t).closing = false ∧ (s.tcps t).shutdown = false := by
      simpa using hopen
    unfold resetTcpIdleTimeoutMaySetNullptr
    by_cases hsize : (s.tcps t).tcp.writeQueueSize = 0
    · rw [if_pos hsize]
      cases hstart : env.timerStart with
      | false =>
        rw [if_pos (by simp), table_teardown, table_uvTimerStart_fail]
        refine .last (.teardown t hlistening fun _ => htcp) hteardown (by simp [Label.Quiet]) ?_
        rw [htorn, if_pos (by simp [idleTimerFails, hclosing, hshutdown, hsize, hstart])]
        rfl
      | true =>
        rw [if_neg (by simp), table_uvTimerStart]
        refine .quiet (.touch t _ (.arm .idle hclosing hshutdown (htimer hclosing) hlistening))
          trivial htouch ?_
        rw [htorn, if_neg (by simp [idleTimerFails, hstart])]
    · rw [if_neg hsize]
      exact .nil (by rw [htorn, if_neg (by simp [idleTimerFails, hsize])])
  · rw [if_neg hopen]
    have hfails : idleTimerFails env (s.tcps t) = false := by
      unfold idleTimerFails
      rw [Bool.eq_false_iff.mpr hopen, Bool.false_and, Bool.false_and]
    exact .nil (by rw [htorn, hfails, if_neg (by simp)])

/-- `on_tcp_read`. -/
theorem tcpRead_acts (hwf : s.table.Wf) (hreading : (s.tcps t).tcp.reading = true) (nread : ℤ)
    (data : List UInt8) :
    UvActs s (.tcpRead t nread data env) s.table
      (onTcpRead env t nread data (tcpAllocBuffer t s)).table := by
  obtain ⟨-, hlistening, hclosing, htcp, htimer⟩ := (hwf.tcps t).reading hreading
  have halloc : (tcpAllocBuffer t s).table = s.table := table_emit_invisible s rfl
  have htcps : (tcpAllocBuffer t s).tcps = s.tcps := rfl
  unfold onTcpRead
  dsimp only
  by_cases hpos : nread > 0
  · rw [if_pos hpos]
    set s₁ := ((tcpAllocBuffer t s).call (.message ((tcpAllocBuffer t s).tcps t).node data)).call
      (.deallocateMemoryForMessage ((tcpAllocBuffer t s).tcps t).node) with hs₁
    have htable : s₁.table = s.table.emit (visible [.callback (.message (s.tcps t).node data)]) := by
      rw [hs₁, table_call, table_call, halloc, htcps]
      exact emit_nil _
    refine .cons (.message t data hreading) trivial rfl ?_
    rw [table_tcps, ← htable]
    refine reset_acts env hlistening htcp (fun _ => htimer) trivial trivial ?_
    simp [tearsDown, hpos, show ¬ nread < 0 by omega]
    rfl
  · rw [if_neg hpos]
    have htable : ((tcpAllocBuffer t s).call
        (.deallocateMemoryForMessage ((tcpAllocBuffer t s).tcps t).node)).table = s.table := by
      rw [table_call, halloc]
      exact emit_nil _
    by_cases hneg : nread < 0
    · rw [if_pos hneg, table_teardown, htable]
      exact .last (.teardown t hlistening fun _ => htcp) trivial (by simp [Label.Quiet])
        (by simp [tearsDown, hneg, Label.torn])
    · rw [if_neg hneg, htable]
      exact .nil (by simp [tearsDown, hneg, hpos])

/-- `on_tcp_write_done`. -/
theorem writeDone_acts (hwf : s.table.Wf) {w : WriteWithInfo} (hw : w ∈ (s.tcps t).tcp.writes)
    (req : ℕ) (status : ℤ) :
    UvActs s (.writeDone t req status env) s.table
      (onTcpWriteDone env t w status (s.setTcp t ((s.tcps t).takeWrite w))).table := by
  obtain ⟨-, hlistening, htcp, htimer⟩ := (hwf.tcps t).writes (List.ne_nil_of_mem hw)
  set s₁ := s.setTcp t ((s.tcps t).takeWrite w) with hs₁
  have hobj : s₁.tcps t = (s.tcps t).takeWrite w := setTcp_tcps s t _
  have hfree : visible (w.buf.map (fun b => .freeBuf b.base) ++ [.freeReq w.req]) = [] := by
    rw [visible_append, visible_freeBufs]
    rfl
  unfold onTcpWriteDone
  dsimp only
  rw [table_emit_invisible _ hfree]
  by_cases hstatus : status ≠ 0
  · have hdrop : (s₁.emit (w.buf.map fun b => .callback (.drop (s₁.tcps t).node b))).table =
        (s.table.setTcp t ((s.tcps t).takeWrite w)).emit (dropCalls (s.tcps t).node w.buf) := by
      rw [table_emit, hobj]
      exact congrArg _ (visible_dropCalls _ _)
    rw [if_pos hstatus, table_teardown, hdrop]
    refine .cons (.lost t w hw) trivial trivial ?_
    refine .last (.teardown t ?_ fun _ => ?_) trivial (by simp [Label.Quiet])
      (by simp [tearsDown, hstatus, Label.torn])
    · rw [emit_table_tcps, setTcp_tcps_self]
      exact hlistening
    · rw [emit_table_tcps, setTcp_tcps_self]
      exact htcp
  · have hwritten : (s₁.emit [.written (s₁.tcps t).node w.buf]).table =
        (s.table.setTcp t ((s.tcps t).takeWrite w)).emit [.written (s.tcps t).node w.buf] := by
      rw [table_emit, hobj]
      rfl
    rw [if_neg hstatus]
    refine .cons (.written t w hw) trivial trivial ?_
    rw [table_tcps, ← hwritten]
    refine reset_acts env ?_ ?_ ?_ trivial trivial ?_
    · rw [emit_tcps, hobj]
      exact hlistening
    · rw [emit_tcps, hobj]
      exact htcp
    · rw [emit_tcps, hobj]
      exact htimer
    · rw [emit_tcps, hobj, tearsDown]
      simp only [hstatus, decide_false, Bool.false_or]
      rfl

end ReadWrite

/-! ## New connections -/

section Connections

variable {s : Internal} {t : ℕ} (env : Env)

/-- The connect callback has run: the request is gone and `t` is no longer pending. -/
theorem table_connectDone :
    (({ s with connecting := s.connecting.erase t }.emit
      ((s.tcps t).tcp.connectReq.toList.map Obs.freeReq)).setTcp t (s.tcps t).connectDone).table =
        { s.table with connecting := s.connecting.erase t }.setTcp t (s.tcps t).connectDone := by
  rw [table_setTcp, table_emit_invisible _ (visible_freeReqs _)]
  rfl

/-- What `on_connect_done` does to `t`: the connect fails, or `t` starts up. -/
def ConnectEnds (s : Internal) (t : ℕ) (status : ℤ) (v' : Table) : Prop :=
  (tearsDown s (.connectDone t status env) = some t ∧ Act s.table (.connectFail t) v') ∨
    (tearsDown s (.connectDone t status env) = none ∧
      Act s.table (.connectUp t env.handsOver) v')

/-- `on_connect_done` once the request has been freed. -/
theorem connectDone_rest (hwf : s.table.Wf) (hreq : (s.tcps t).Connecting) (status : ℤ)
    {s₁ : Internal} (hbase : s₁.table =
      { s.table with connecting := s.connecting.erase t }.setTcp t (s.tcps t).connectDone) :
    ConnectEnds env s t status
      (if status < 0 || (s.tcps t).closing then shutdownTcpConnectionSetNullptr env t true false s₁
      else
        let s₁ := uvTimerStart t s₁ .idle env.timerStart
        if !env.timerStart then shutdownTcpConnectionSetNullptr env t true false s₁
        else if !env.readStart then shutdownTcpConnectionSetNullptr env t true false s₁
        else startupTcpConnectionMaySetNullptr env t (uvReadStart t s₁)).table := by
  have hobj : s₁.tcps t = (s.tcps t).connectDone := by
    rw [← table_tcps, hbase, setTcp_tcps_self]
  -- the connect fails before its timer is changed
  have hearly : ∀ s₂ : Internal, s₂.table = s₁.table → Act s.table (.connectFail t)
      (shutdownTcpConnectionSetNullptr env t true false s₂).table := by
    intro s₂ hs₂
    rw [table_teardown, hs₂, table_tcps, hobj, hbase]
    exact .connectFail t false hreq (by simp)
  by_cases hfail : (decide (status < 0) || (s.tcps t).closing) = true
  · rw [if_pos hfail]
    exact .inl ⟨by simp [tearsDown, hfail], hearly s₁ rfl⟩
  · rw [if_neg hfail]
    have hclosing : (s.tcps t).closing = false := by simp_all
    dsimp only
    cases htimer : env.timerStart with
    | false =>
      rw [if_pos (by simp)]
      exact .inl ⟨by simp [tearsDown, htimer], hearly _ (table_uvTimerStart_fail t s₁ .idle)⟩
    | true =>
      have harmed : (uvTimerStart t s₁ .idle true).table =
          { s.table with connecting := s.connecting.erase t }.setTcp t
            ((s.tcps t).connectDone.arm .idle) := by
        rw [table_uvTimerStart, hobj, hbase, setTcp_setTcp]
      rw [if_neg (by simp)]
      cases hread : env.readStart with
      | false =>
        rw [if_pos (by simp), table_teardown, harmed, setTcp_tcps_self]
        exact .inl ⟨by simp [tearsDown, hread], .connectFail t true hreq fun _ => hclosing⟩
      | true =>
        have hreading : (uvReadStart t (uvTimerStart t s₁ .idle true)).table =
            { s.table with connecting := s.connecting.erase t }.setTcp t
              (((s.tcps t).connectDone.arm .idle).startRead) := by
          rw [table_uvReadStart, ← table_tcps, harmed, setTcp_setTcp, setTcp_tcps_self]
        rw [if_neg (by simp)]
        have hstart := table_startup env t (uvReadStart t (uvTimerStart t s₁ .idle true)) (by
          rw [← table_tcps, hreading, setTcp_tcps_self]
          exact ((hwf.tcps t).node hreq).2)
        rw [hreading] at hstart
        exact .inr ⟨by simp_all [tearsDown], .connectUp t _ _ hreq hclosing hstart⟩

/-- `on_connect_done`. -/
theorem connectDone_cases (hwf : s.table.Wf) (hreq : (s.tcps t).Connecting) (status : ℤ) :
    ConnectEnds env s t status (onConnectDone env t status s).table :=
  connectDone_rest env hwf hreq status table_connectDone

theorem connectDone_acts (hwf : s.table.Wf) (hreq : (s.tcps t).Connecting) (status : ℤ) :
    UvActs s (.connectDone t status env) s.table (onConnectDone env t status s).table := by
  rcases connectDone_cases env hwf hreq status with ⟨htorn, hact⟩ | ⟨htorn, hact⟩
  · exact .last hact rfl (by simp [Label.Quiet]) htorn
  · exact .last hact ⟨rfl, rfl⟩ (by simp [Label.Quiet]) htorn

/-- `on_new_connection`. -/
theorem newConnection_acts (server : ℕ) (status : ℤ) :
    UvActs s (.newConnection server status env) s.table
      (onNewConnection env server status s).table := by
  have hfailed : ∀ {v' : Table}, s.table.Failed v' →
      UvActs s (.newConnection server status env) s.table v' := by
    rintro v' (rfl | ⟨c, hc, rfl⟩)
    · exact .nil rfl
    · exact .last (.dead c hc) trivial (by simp [Label.Quiet]) rfl
  unfold onNewConnection
  by_cases hstatus : status ≠ 0
  · rw [if_pos hstatus, table_call]
    exact hfailed (.inl (emit_nil _))
  · rw [if_neg hstatus]
    rcases alloc_cases env s true with ⟨s₁, heq, htable⟩ | ⟨s₁, heq, hfail⟩
    · rw [heq]
      have hnoded := table_setNode s ⟨.protocolTcp, env.peer⟩ htable
      have harmed := table_uvTimerStart_added s hnoded .idle
      have hreading := table_uvReadStart_added s harmed
      have hnode := tcps_added s hreading
      have hfresh := failed_added s htable (Ctcp.Wf.fresh true {}) rfl rfl
      have hwith := failed_added s hnoded (Ctcp.Wf.fresh true _) rfl rfl
      have hstarted := failed_added s harmed
        ((Ctcp.Wf.fresh true _).arm .idle rfl rfl rfl rfl rfl) rfl rfl
      dsimp only
      cases env.accept with
      | false => exact hfailed hfresh
      | true =>
        cases env.getpeername with
        | false => exact hfailed hfresh
        | true =>
          simp only [Bool.not_true, Bool.false_eq_true, if_false]
          cases hvalid : env.peer.valid with
          | false => exact hfailed hwith
          | true =>
            simp only [Bool.not_true, Bool.false_eq_true, if_false]
            by_cases htaken : (getStreamByNode
                ((s₁.setTcp s.nextTcp { s₁.tcps s.nextTcp with
                  node := ⟨.protocolTcp, env.peer⟩ }).tcps s.nextTcp).node
                (s₁.setTcp s.nextTcp { s₁.tcps s.nextTcp with
                  node := ⟨.protocolTcp, env.peer⟩ })).isSome = true
            · rw [if_pos htaken]
              exact hfailed hwith
            · rw [if_neg htaken]
              cases env.timerStart with
              | false =>
                have hnot := failed_added s ((table_uvTimerStart_fail s.nextTcp _ .idle).trans hnoded)
                  (Ctcp.Wf.fresh true _) rfl rfl
                exact hfailed hnot
              | true =>
                simp only [Bool.not_true, Bool.false_eq_true, if_false]
                split_ifs with hread
                · exact hfailed hstarted
                · have hstart := table_startup env s.nextTcp _ (by rw [hnode]; exact hvalid)
                  rw [hreading] at hstart
                  exact .last (.acceptUp env.peer _ _ hstart) ⟨rfl, rfl⟩ (by simp [Label.Quiet]) rfl
    · rw [heq]
      exact hfailed hfail

end Connections

/-! ## Other callbacks -/

section Others

variable {s : Internal} {t : ℕ}

/-- `on_tcp_timeout`. -/
theorem timeout_acts (hwf : s.table.Wf) (harmed : (s.tcps t).timer.armed.isSome = true) :
    UvActs s (.timeout t) s.table (onTcpTimeout t (s.setTcp t { s.tcps t with
      timer := { (s.tcps t).timer with armed := none } })).table := by
  obtain ⟨-, htcp, -, hlistening⟩ := (hwf.tcps t).armed harmed
  refine .cons (.touch t _ .fired) trivial trivial ?_
  unfold onTcpTimeout
  rw [table_teardown, table_setTcp]
  refine .last (.teardown t ?_ fun _ => ?_) trivial (by simp [Label.Quiet]) rfl
  · rw [table_tcps, setTcp_tcps_self]
    exact hlistening
  · rw [table_tcps, setTcp_tcps_self]
    exact htcp

/-- The callback of `uv_shutdown`. -/
theorem shutdownDone_acts (hreq : (s.tcps t).tcp.shutdownReq.isSome = true) :
    UvActs s (.shutdownDone t) s.table (Ctcp.onShutdown t s).table := by
  unfold Ctcp.onShutdown
  rw [table_closeSetNullptr, table_emit_invisible _ (visible_freeReqs _), table_setTcp,
    setTcp_setTcp, emit_tcps, setTcp_tcps]
  exact .last (.shutdownDone t hreq) rfl (by simp [Label.Quiet]) rfl

/-- The close callback of the stream. -/
theorem tcpClosed_acts (hclosing : (s.tcps t).tcp.closing = true)
    (hconnect : (s.tcps t).tcp.connectReq = none) (hshutdown : (s.tcps t).tcp.shutdownReq = none)
    (hwrites : (s.tcps t).tcp.writes = []) :
    UvActs s (.tcpClosed t) s.table (Ctcp.onTcpClosed t s).table := by
  have htable : (Ctcp.onTcpClosed t s).table = s.table.setTcp t { s.tcps t with
      tcp := { (s.tcps t).tcp with closed := true }, tcpInited := false } := by
    unfold Ctcp.onTcpClosed
    dsimp only
    split_ifs
    · rw [table_emit_invisible _ rfl, table_setTcp]
    · exact table_setTcp s t _
  rw [htable]
  exact .quiet (.touch t _ (.tcpClosed hclosing hconnect hshutdown hwrites)) trivial trivial rfl

/-- The close callback of the timer. -/
theorem timerClosed_acts (hclosing : (s.tcps t).timer.closing = true) :
    UvActs s (.timerClosed t) s.table (Ctcp.onTimerClosed t s).table := by
  have htable : (Ctcp.onTimerClosed t s).table = s.table.setTcp t { s.tcps t with
      timer := { (s.tcps t).timer with closed := true }, timerInited := false } := by
    unfold Ctcp.onTimerClosed
    dsimp only
    split_ifs
    · rw [table_emit_invisible _ rfl, table_setTcp]
    · exact table_setTcp s t _
  rw [htable]
  exact .quiet (.touch t _ (.timerClosed hclosing)) trivial trivial rfl

/-- Callbacks of UDP servers are not visible. -/
theorem table_onUdpRecv (u : ℕ) (nread : ℤ) (data : List UInt8) (addr : Option Csockaddr) :
    (onUdpRecv u nread data addr (udpAllocBuffer u s)).table = s.table := by
  unfold onUdpRecv udpAllocBuffer
  dsimp only
  split_ifs
  · simp only [Internal.call]
    rw [table_emit_invisible _ rfl, table_emit_invisible _ rfl, table_emit_invisible _ rfl]
  · cases addr <;> simp only [Internal.call]
    · rw [table_emit_invisible _ rfl, table_emit_invisible _ rfl]
    · rw [table_emit_invisible _ rfl, table_emit_invisible _ rfl, table_emit_invisible _ rfl]

theorem table_onUdpSendDone (u : ℕ) (w : WriteWithInfo) (status : ℤ) :
    (onUdpSendDone u w status s).table = s.table := by
  have hfree : visible (w.buf.map (fun b => .freeBuf b.base) ++ [.freeReq w.req]) = [] := by
    rw [visible_append, visible_freeBufs]
    rfl
  unfold onUdpSendDone
  rw [table_emit_invisible _ hfree]
  split_ifs
  · exact table_emit_invisible _ rfl
  · rfl

end Others

/-- **Inversion of `uvStep`.** -/
theorem uvStep_acts {s s' : Internal} {e : UvEvent} (hwf : s.table.Wf) (h : uvStep s e = some s') :
    UvActs s e s.table s'.table := by
  cases e with
  | newConnection server status env =>
    simp only [uvStep, Option.ite_none_right_eq_some, Option.some.injEq] at h
    rw [← h.2]
    exact newConnection_acts env server status
  | connectDone t status env =>
    simp only [uvStep, Option.ite_none_right_eq_some, Option.some.injEq] at h
    rw [← h.2]
    exact connectDone_acts env hwf h.1 status
  | tcpRead t nread data env =>
    simp only [uvStep, Option.ite_none_right_eq_some, Option.some.injEq] at h
    rw [← h.2]
    exact tcpRead_acts env hwf h.1.1 nread data
  | writeDone t req status env =>
    simp only [uvStep] at h
    split at h
    · rename_i w hw
      rw [← Option.some.inj h]
      exact writeDone_acts env hwf (List.mem_of_find?_eq_some hw) req status
    · exact absurd h (by simp)
  | timeout t =>
    simp only [uvStep, Option.ite_none_right_eq_some, Option.some.injEq] at h
    rw [← h.2]
    exact timeout_acts hwf h.1
  | shutdownDone t =>
    simp only [uvStep, Option.ite_none_right_eq_some, Option.some.injEq] at h
    rw [← h.2]
    exact shutdownDone_acts h.1
  | tcpClosed t =>
    simp only [uvStep, Option.ite_none_right_eq_some, Option.some.injEq] at h
    obtain ⟨⟨hclosing, -, hconnect, hshutdown, hwrites⟩, rfl⟩ := h
    exact tcpClosed_acts hclosing hconnect hshutdown hwrites
  | timerClosed t =>
    simp only [uvStep, Option.ite_none_right_eq_some, Option.some.injEq] at h
    obtain ⟨⟨hclosing, -⟩, rfl⟩ := h
    exact timerClosed_acts hclosing
  | drained t n =>
    simp only [uvStep, Option.ite_none_right_eq_some, Option.some.injEq] at h
    rw [← h.2]
    exact .quiet (.touch t _ (.drained _ (Nat.sub_le _ n))) trivial trivial rfl
  | udpRecv u nread data addr =>
    simp only [uvStep, Option.ite_none_right_eq_some, Option.some.injEq] at h
    rw [← h.2, table_onUdpRecv]
    exact .nil rfl
  | udpSendDone u req status =>
    simp only [uvStep] at h
    split at h
    · rw [← Option.some.inj h, table_onUdpSendDone]
      exact .nil rfl
    · exact absurd h (by simp)
  | udpClosed u =>
    simp only [uvStep, Option.ite_none_right_eq_some, Option.some.injEq] at h
    obtain ⟨-, rfl⟩ := h
    unfold Cudp.onClosed
    rw [table_emit_invisible _ rfl]
    exact .nil rfl
  | asyncClosed =>
    simp only [uvStep, Option.ite_none_right_eq_some, Option.some.injEq] at h
    obtain ⟨-, rfl⟩ := h
    unfold Casync.onClosed
    rw [table_emit_invisible _ rfl]
    exact .nil rfl

/-! ## Quiet actions -/

/-- What quiet actions leave alone. -/
structure Table.SameRegistries (v v' : Table) : Prop where
  node2stream : v'.node2stream = v.node2stream
  connecting : v'.connecting = v.connecting
  waitingSend : v'.waitingSend = v.waitingSend
  object : ∀ t, (v'.tcps t).node = (v.tcps t).node ∧ (v'.tcps t).closing = (v.tcps t).closing ∧
    (v'.tcps t).shutdown = (v.tcps t).shutdown
  registered : ∀ t, IsRegistered t v'.trace ↔ IsRegistered t v.trace
  lastAttempt : ∀ node, lastAttempt node v'.trace = lastAttempt node v.trace

variable {v v₁ v' : Table}

theorem Table.SameRegistries.refl (v : Table) : v.SameRegistries v :=
  ⟨rfl, rfl, rfl, fun _ => ⟨rfl, rfl, rfl⟩, fun _ => Iff.rfl, fun _ => rfl⟩

theorem Table.SameRegistries.trans (h : v.SameRegistries v₁) (h' : v₁.SameRegistries v') :
    v.SameRegistries v' where
  node2stream := h'.node2stream.trans h.node2stream
  connecting := h'.connecting.trans h.connecting
  waitingSend := h'.waitingSend.trans h.waitingSend
  object := fun t => ⟨(h'.object t).1.trans (h.object t).1,
    (h'.object t).2.1.trans (h.object t).2.1, (h'.object t).2.2.trans (h.object t).2.2⟩
  registered := fun t => (h'.registered t).trans (h.registered t)
  lastAttempt := fun node => (h'.lastAttempt node).trans (h.lastAttempt node)

/-- An object is replaced by one at the same place, and entries are appended. -/
theorem Table.SameRegistries.setTcp_emit (t : ℕ) {c : Ctcp} {obs : List Obs}
    (hc : c.node = (v.tcps t).node ∧ c.closing = (v.tcps t).closing ∧
      c.shutdown = (v.tcps t).shutdown)
    (hregistered : ∀ t', ¬ IsRegistered t' obs) (hattempt : NoAttempt obs) :
    v.SameRegistries ((v.setTcp t c).emit obs) where
  node2stream := rfl
  connecting := rfl
  waitingSend := rfl
  object := by
    intro t'
    by_cases ht : t' = t
    · subst ht
      simpa using hc
    · simp [Table.setTcp, ht]
  registered := fun t' => by simp [Table.emit, Table.setTcp, hregistered t']
  lastAttempt := fun node => hattempt.lastAttempt node v.trace

theorem Act.sameRegistries {l : Label} (hact : Act v l v') (hquiet : l.Quiet) :
    v.SameRegistries v' := by
  cases hact with
  | touch t c hc =>
    obtain ⟨hnode, hclosing, hshutdown, -⟩ := hc.same
    have hset := SameRegistries.setTcp_emit (v := v) t (c := c) ⟨hnode, hclosing, hshutdown⟩
      (fun t' => not_isRegistered_nil t') (by simp [NoAttempt])
    rwa [emit_nil] at hset
  | message t data hreading =>
    have hregistered : ∀ t', ¬ IsRegistered t'
        (visible [.callback (.message (v.tcps t).node data)]) := by
      intro t'
      rw [isRegistered_visible]
      simp [IsRegistered]
    have hattempt : NoAttempt (visible [.callback (.message (v.tcps t).node data)]) := by
      intro o ho
      have := List.mem_of_mem_filter ho
      simp_all
    have hemit := SameRegistries.setTcp_emit (v := v) t (c := v.tcps t) ⟨rfl, rfl, rfl⟩
      hregistered hattempt
    rwa [setTcp_self] at hemit
  | written t w hw =>
    exact .setTcp_emit t ⟨rfl, rfl, rfl⟩ (fun _ => by simp [IsRegistered]) (by simp [NoAttempt])
  | lost t w hw =>
    exact .setTcp_emit t ⟨rfl, rfl, rfl⟩ (fun t' => isRegistered_dropCalls t' _ _)
      (noAttempt_dropCalls _ _)
  | _ => exact absurd hquiet (by simp [Label.Quiet])

theorem Acts.sameRegistries {ls : List Label} (hacts : Acts v ls v') (hquiet : ∀ l ∈ ls, l.Quiet) :
    v.SameRegistries v' := by
  induction hacts with
  | nil => exact .refl _
  | cons hact _ ih =>
    exact (hact.sameRegistries (hquiet _ (by simp))).trans
      (ih fun l hl => hquiet l (List.mem_cons_of_mem _ hl))

/-! ## Teardowns -/

/-- The effect of tearing down `t`. -/
structure Table.TornDown (v : Table) (t : ℕ) (v' : Table) : Prop where
  node2stream : v'.node2stream = v.node2stream.erase (v.tcps t).node
  waitingSend : v'.waitingSend = v.waitingSend.erase (v.tcps t).node
  other : ∀ t', t' ≠ t → v'.tcps t' = v.tcps t'
  closed : (v'.tcps t).closing = true ∨ (v'.tcps t).shutdown = true
  trace : ∃ b : Bool, v'.trace = v.trace ++
    (if b then [.callback (.connectionStatus (v.tcps t).node false)] else []) ++
    dropCalls (v.tcps t).node (v.waiting (v.tcps t).node)

theorem Table.TornDown.registered {t : ℕ} (h : v.TornDown t v') (t' : ℕ) :
    IsRegistered t' v'.trace ↔ IsRegistered t' v.trace := by
  obtain ⟨b, htrace⟩ := h.trace
  rw [htrace]
  cases b <;> simp [IsRegistered, dropCalls]

theorem tornDown_teardown {t : ℕ} {c : Ctcp} (b : Bool)
    (hclosed : c.closing = true ∨ c.shutdown = true) : v.TornDown t (v.teardown t b c) := by
  refine ⟨rfl, rfl, fun t' ht => ?_, ?_, ?_⟩
  · simp [Table.teardown, ht]
  · simpa [Table.teardown] using hclosed
  · exact ⟨(v.node2stream.lookup (v.tcps t).node).isSome || b, rfl⟩

/-- The object and the set of pending connects may be changed before. -/
theorem Table.TornDown.of_setTcp {t : ℕ} {c : Ctcp} {connecting : Finset ℕ}
    (h : ({ v with connecting := connecting }.setTcp t c).TornDown t v')
    (hnode : c.node = (v.tcps t).node) : v.TornDown t v' := by
  have hobj : ({ v with connecting := connecting }.setTcp t c).tcps t = c := setTcp_tcps_self t c
  obtain ⟨hmap, hqueue, hother, hclosed, b, htrace⟩ := h
  rw [hobj, hnode] at hmap hqueue htrace
  refine ⟨hmap, hqueue, fun t' ht => ?_, hclosed, b, htrace⟩
  rw [hother t' ht]
  simp [Table.setTcp, ht]

/-- The callbacks that tear down an object. -/
theorem Act.tornDown {l : Label} {t : ℕ} (hact : Act v l v') (hwf : v.Wf) (hl : l.torn = some t) :
    v.TornDown t v' := by
  cases hact with
  | teardown t' hlistening hconnect =>
    obtain rfl : t' = t := Option.some.inj hl
    exact tornDown_teardown false (.inl (Ctcp.afterClose_closing hconnect))
  | connectFail t' armed hreq harmed =>
    obtain rfl : t' = t := Option.some.inj hl
    obtain ⟨-, htcp, -⟩ := (hwf.tcps t').connectReq hreq
    refine (tornDown_teardown true (.inl (Ctcp.afterClose_closing fun _ => ?_))).of_setTcp ?_
    · cases armed <;> exact htcp
    · cases armed <;> rfl
  | _ => exact absurd hl (by simp [Label.torn])

/-- A callback that tears an object down does so after quiet actions. -/
theorem UvActs.tornDown {s : Internal} {e : UvEvent} {t : ℕ} (h : UvActs s e v v') (hwf : v.Wf)
    (ht : tearsDown s e = some t) :
    ∃ v₁ : Table, v.SameRegistries v₁ ∧ v₁.Wf ∧ v₁.TornDown t v' := by
  obtain ⟨ls, v₁, hacts, hls, ⟨-, hnone⟩ | ⟨l, hact, -, -, htorn⟩⟩ := h
  · rw [ht] at hnone
    exact absurd hnone (by simp)
  · exact ⟨v₁, hacts.sameRegistries fun l hl => (hls l hl).1, hacts.wf hwf,
      hact.tornDown (hacts.wf hwf) (htorn.symm.trans ht)⟩

end NetworkPool
