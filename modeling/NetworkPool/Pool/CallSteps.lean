import NetworkPool.Pool.Calls

/-!
# The functions of the pool as calls

Each function of the pool as a sequence of calls, up to `calls_of_step`: a step of the pool
starts and ends with nothing held and nothing loose.
-/

namespace NetworkPool

open Table

section Functions

variable {s s' : Internal} {held : List ℕ} {loose : Option UvHandle} {t : ℕ} (env : Env)

theorem Calls.frame (h : s.Frame s') : Calls ⟨s, held, loose⟩ ⟨s', held, loose⟩ :=
  .single (.other held loose h)

/-! ## Closing -/

/-- `shutdownTcpConnection_set_nullptr` up to the call that closes the object. -/
def unmap (t : ℕ) (bAlwaysNotify : Bool) (s : Internal) : Internal :=
  let node := (s.tcps t).node
  let sz := (s.node2stream.lookup node).isSome
  let s := { s with node2stream := s.node2stream.erase node }
  let s := if sz || bAlwaysNotify then s.call (.connectionStatus node false) else s
  dropWaiting node s

theorem frame_unmap (t : ℕ) (bAlwaysNotify : Bool) (s : Internal) :
    s.Frame (unmap t bAlwaysNotify s) := by
  unfold unmap
  dsimp only
  refine .trans ?_ (.dropWaiting _ _)
  split_ifs
  · exact (Internal.Frame.maps s _ _ _ _ _).trans (.call _ _)
  · exact .maps s _ _ _ _ _

theorem shutdownTcpConnection_eq (bAlwaysNotify bShutdown : Bool) :
    shutdownTcpConnectionSetNullptr env t bAlwaysNotify bShutdown s =
      if bShutdown then Ctcp.shutdownAndCloseSetNullptr env t (unmap t bAlwaysNotify s)
      else Ctcp.closeSetNullptr t (unmap t bAlwaysNotify s) := rfl

theorem teardown_calls (hloose : loose = none ∨ loose = some (.tcp t))
    (htcp : (s.tcps t).tcpInited = true) (bAlwaysNotify : Bool) :
    Calls ⟨s, held, loose⟩
      ⟨shutdownTcpConnectionSetNullptr env t bAlwaysNotify false s, held, none⟩ := by
  have hframe := frame_unmap t bAlwaysNotify s
  rw [shutdownTcpConnection_eq, if_neg (by simp)]
  refine (Calls.frame hframe).tail (.close _ held loose t hloose ?_)
  rw [hframe.tcps]
  exact htcp

/-- `shutdown_and_close_set_nullptr` on a connection whose timer was just started. -/
theorem shutdownAndClose_calls (husable : s.Usable t) (hreq : (s.tcps t).tcp.shutdownReq = none)
    (harmed : (s.tcps t).timer.armed = some .send) (htimer : SendTimed t s.trace) :
    Calls ⟨s, held, some (.tcp t)⟩ ⟨Ctcp.shutdownAndCloseSetNullptr env t s, held, none⟩ := by
  have he := husable.established
  have husable' : (mallocReq s).2.Usable t := ⟨husable.registered, he⟩
  unfold Ctcp.shutdownAndCloseSetNullptr
  simp only [he.tcpInited, he.closing, he.shutdown, Bool.not_true, Bool.not_false,
    Bool.and_self, Bool.false_eq_true, if_false, if_true]
  cases env.mallocShutdown with
  | false => exact .single (.close s held _ t (.inr rfl) he.tcpInited)
  | true =>
    refine .head (.malloc s held _) ?_
    cases env.uvShutdown with
    | false =>
      exact .single (.shutdownFailed _ s.nextReq held t husable')
    | true => exact .single (.shutdown _ s.nextReq held t husable' hreq harmed htimer)

theorem dropWrite_calls (node : CnetworkNode) (w : WriteWithInfo) :
    Calls ⟨s, w.req :: held, loose⟩ ⟨dropWriteAndFreeSetNullptr node w s, held, loose⟩ :=
  (Calls.frame (.dropAll s node w.buf)).tail (.free _ w.req held loose)

/-- A write that could not be started is dropped and the connection torn down. -/
theorem dropWrite_teardown_calls (htcp : (s.tcps t).tcpInited = true) (node : CnetworkNode)
    (w : WriteWithInfo) :
    Calls ⟨s, w.req :: held, some (.tcp t)⟩ ⟨shutdownTcpConnectionSetNullptr env t false false
      (dropWriteAndFreeSetNullptr node w s), held, none⟩ :=
  (dropWrite_calls node w).trans
    (teardown_calls (s := dropWriteAndFreeSetNullptr node w s) env (.inr rfl) htcp false)

/-! ## Writing -/

theorem Usable.sendTimer (husable : s.Usable t) :
    (uvTimerStart t s .send true).Usable t ∧
      ((uvTimerStart t s .send true).tcps t).timer.armed = some .send ∧
      ((uvTimerStart t s .send true).tcps t).tcp = (s.tcps t).tcp ∧
      (uvTimerStart t s .send true).trace = s.trace ++ [.uvTimerStart t .send] := by
  have hobj : (uvTimerStart t s .send true).tcps t = (s.tcps t).arm .send := by
    simp [uvTimerStart, Ctcp.arm]
  refine ⟨⟨husable.registered.mono ⟨_, rfl⟩, ?_⟩, ?_, ?_, rfl⟩ <;> rw [hobj]
  · exact { husable.established with }
  · rfl
  · rfl

/-- The timer is started and the request `w` written; if either fails the connection goes down. -/
theorem write_calls (husable : s.Usable t) (node : CnetworkNode) (w : WriteWithInfo)
    (timer ok : Bool) :
    Calls ⟨s, w.req :: held, none⟩
      ⟨let s := uvTimerStart t s .send timer
      if !timer then
        shutdownTcpConnectionSetNullptr env t false false (dropWriteAndFreeSetNullptr node w s)
      else
        let s := uvWrite t s w ok
        if !ok then
          shutdownTcpConnectionSetNullptr env t false false (dropWriteAndFreeSetNullptr node w s)
        else s, held, none⟩ := by
  refine .head (.sendTimer s (w.req :: held) t timer husable) ?_
  cases timer with
  | false =>
    exact dropWrite_teardown_calls (s := uvTimerStart t s .send false) env
      husable.established.tcpInited node w
  | true =>
    obtain ⟨husable', harmed, -, htrace⟩ := Usable.sendTimer husable
    cases ok with
    | false =>
      refine .head (.writeFailed _ w held t husable') ?_
      exact dropWrite_teardown_calls (s := uvWrite t (uvTimerStart t s .send true) w false) env
        husable'.established.tcpInited node w
    | true => exact .single (.write _ w held t husable' harmed ⟨_, htrace⟩)

/-- `startupTcpConnection_may_set_nullptr`. -/
theorem startup_calls (he : (s.tcps t).Established (s.tcps t).node) :
    Calls ⟨s, held, none⟩ ⟨startupTcpConnectionMaySetNullptr env t s, held, none⟩ := by
  have hclose : Calls ⟨s, held, none⟩ ⟨Ctcp.closeSetNullptr t s, held, none⟩ :=
    .single (.close s held none t (.inl rfl) he.tcpInited)
  unfold startupTcpConnectionMaySetNullptr
  dsimp only
  by_cases hvalid : (!(s.tcps t).node.sockaddr.valid) = true
  · rw [if_pos hvalid]
    exact hclose
  · rw [if_neg hvalid]
    by_cases htaken : (s.node2stream.lookup (s.tcps t).node).isSome = true
    · rw [if_pos htaken]
      exact hclose
    · rw [if_neg htaken, ← registered]
      -- the connection is entered and reported
      have hframe : s.Frame (registered t s) := by
        refine ((Internal.Frame.maps s _ _ _ _ _).trans (.emit _ ?_)).trans (.call _ _)
        simp [Obs.neutral]
      have husable : (registered t s).Usable t := by
        refine ⟨⟨(s.tcps t).node, ?_⟩, he⟩
        simp [registered, Internal.call, Internal.emit]
      refine (Calls.frame hframe).trans ?_
      cases hwaiting : (registered t s).waitingSend.lookup (s.tcps t).node with
      | none =>
        rw [getWriteFromWaiting_none env hwaiting]
      | some buf =>
        cases hmalloc : env.mallocWrite with
        | false =>
          rw [getWriteFromWaiting_fail env (by rw [hwaiting]; rfl) hmalloc]
          exact Calls.frame (.dropWaiting _ _)
        | true =>
          rw [getWriteFromWaiting_some env hwaiting hmalloc]
          set s₁ : Internal := { (mallocReq (registered t s)).2 with
            waitingSend := (registered t s).waitingSend.erase (s.tcps t).node } with hs₁
          have hframe₁ : (mallocReq (registered t s)).2.Frame s₁ := .maps _ _ _ _ _ _
          have husable₁ : s₁.Usable t := ⟨husable.registered, husable.established⟩
          refine .head (.malloc _ held none) ((Calls.frame hframe₁).trans ?_)
          exact write_calls env husable₁ _ ⟨(registered t s).nextReq, buf⟩ _ _

/-! ## Opening -/

/-- `Ctcp::alloc` leaves the new object in the hands of the caller, or closes it. -/
theorem alloc_calls (s : Internal) (held : List ℕ) (initTimer : Bool) :
    (∃ s', Ctcp.alloc env initTimer s = (some s.nextTcp, s') ∧
      s'.tcps s.nextTcp = Ctcp.fresh initTimer {} ∧
      Calls ⟨s, held, none⟩ ⟨s', held, some (.tcp s.nextTcp)⟩) ∨
    (∃ s', Ctcp.alloc env initTimer s = (none, s') ∧ Calls ⟨s, held, none⟩ ⟨s', held, none⟩) := by
  have hclose : ∀ s₁ : Internal, (s₁.tcps s.nextTcp).tcpInited = true →
      Calls ⟨s₁, held, some (.tcp s.nextTcp)⟩ ⟨Ctcp.closeSetNullptr s.nextTcp s₁, held, none⟩ :=
    fun s₁ htcp => .single (.close s₁ held _ s.nextTcp (.inr rfl) htcp)
  unfold Ctcp.alloc
  cases env.newTcp with
  | false => exact .inr ⟨s, rfl, .refl⟩
  | true =>
    simp only [Bool.not_true, Bool.false_eq_true, if_false]
    cases env.tcpInit with
    | false =>
      refine .inr ⟨_, rfl, .single ?_⟩
      have hdelete : Ctcp.closeSetNullptr s.nextTcp
          ({ s with nextTcp := s.nextTcp + 1 }.setTcp s.nextTcp {}) =
            ({ s with nextTcp := s.nextTcp + 1 }.setTcp s.nextTcp {}).emit
              [.delete (.tcp s.nextTcp)] := by
        unfold Ctcp.closeSetNullptr
        simp
      rw [hdelete]
      exact .newTcpFailed s held
    | true =>
      simp only [Bool.not_true, Bool.false_eq_true, if_false]
      have hset : (({ s with nextTcp := s.nextTcp + 1 }.setTcp s.nextTcp {}).setTcp s.nextTcp
          { ({ s with nextTcp := s.nextTcp + 1 }.setTcp s.nextTcp {}).tcps s.nextTcp with
            tcpInited := true }) =
              { s with nextTcp := s.nextTcp + 1 }.setTcp s.nextTcp { tcpInited := true } := by
        simp [Internal.setTcp]
      rw [hset]
      have hnew := Call.newTcp s held
      have hobj : ({ s with nextTcp := s.nextTcp + 1 }.setTcp s.nextTcp
          { tcpInited := true }).tcps s.nextTcp = Ctcp.fresh false {} := setTcp_tcps _ _ _
      generalize { s with nextTcp := s.nextTcp + 1 }.setTcp s.nextTcp { tcpInited := true } = s₁
        at hnew hobj ⊢
      -- the options, once both handles are there
      have hoptions : ∀ s₂ : Internal, s₂.tcps s.nextTcp = Ctcp.fresh initTimer {} →
          Calls ⟨s, held, none⟩ ⟨s₂, held, some (.tcp s.nextTcp)⟩ →
          (∃ s', (if !setTcp env then (none, Ctcp.closeSetNullptr s.nextTcp s₂)
              else (some s.nextTcp, s₂)) = (some s.nextTcp, s') ∧
            s'.tcps s.nextTcp = Ctcp.fresh initTimer {} ∧
            Calls ⟨s, held, none⟩ ⟨s', held, some (.tcp s.nextTcp)⟩) ∨
          (∃ s', (if !setTcp env then (none, Ctcp.closeSetNullptr s.nextTcp s₂)
              else (some s.nextTcp, s₂)) = (none, s') ∧
            Calls ⟨s, held, none⟩ ⟨s', held, none⟩) := by
        intro s₂ hobj₂ hcalls
        cases setTcp env with
        | false => exact .inr ⟨_, rfl, hcalls.trans (hclose s₂ (by rw [hobj₂]; rfl))⟩
        | true => exact .inl ⟨s₂, rfl, hobj₂, hcalls⟩
      cases initTimer with
      | false =>
        simp only [Bool.false_and, Bool.false_eq_true, if_false]
        exact hoptions s₁ hobj (.single hnew)
      | true =>
        simp only [Bool.true_and]
        cases env.timerInit with
        | false => exact .inr ⟨_, rfl, .head hnew (hclose s₁ (by rw [hobj]; rfl))⟩
        | true =>
          simp only [Bool.not_true, Bool.false_eq_true, if_false, if_true]
          refine hoptions _ ?_ (.head hnew (.single (.timerInit s₁ held _ ?_ ?_ ?_ ?_)))
          · rw [setTcp_tcps, hobj]
            rfl
          all_goals rw [hobj]; rfl

/-- The node of the new object. -/
theorem setNode_calls (s₀ : Internal) {n : ℕ} {initTimer : Bool} (node : CnetworkNode)
    (hobj : s.tcps n = Ctcp.fresh initTimer {})
    (hcalls : Calls ⟨s₀, held, none⟩ ⟨s, held, some (.tcp n)⟩) :
    (s.setTcp n { s.tcps n with node := node }).tcps n = Ctcp.fresh initTimer node ∧
      Calls ⟨s₀, held, none⟩ ⟨s.setTcp n { s.tcps n with node := node }, held, some (.tcp n)⟩ := by
  refine ⟨?_, hcalls.tail (.setNode s held n node ?_)⟩
  · rw [setTcp_tcps, hobj]
    rfl
  · rw [hobj]
    rfl

/-- `bindAndListenTcp`. -/
theorem bindAndListenTcp_calls (s : Internal) (held : List ℕ) (node : CnetworkNode) :
    Calls ⟨s, held, none⟩ ⟨(bindAndListenTcp env node s).2, held, none⟩ := by
  unfold bindAndListenTcp
  by_cases hnode : node.protocol ≠ .protocolTcp
  · rw [if_pos hnode]
  · rw [if_neg hnode]
    rcases alloc_calls env s held false with ⟨s₁, heq, hobj, hcalls⟩ | ⟨s₁, heq, hcalls⟩
    · rw [heq]
      obtain ⟨hobj₁, hcalls₁⟩ := setNode_calls s node hobj hcalls
      have htcp := congrArg Ctcp.tcpInited hobj₁
      dsimp only
      split_ifs
      · exact hcalls₁.tail (.close _ held _ _ (.inr rfl) htcp)
      · exact hcalls₁.tail (.close _ held _ _ (.inr rfl) htcp)
      · exact hcalls₁.tail (.listen _ held _ htcp (congrArg Ctcp.closing hobj₁))
    · rw [heq]
      exact hcalls

/-- `connectTcp`. -/
theorem connectTcp_calls (s : Internal) (held : List ℕ) (node : CnetworkNode) :
    Calls ⟨s, held, none⟩ ⟨(connectTcp env node s).2, held, none⟩ := by
  unfold connectTcp
  by_cases hnode : node.protocol ≠ .protocolTcp
  · rw [if_pos hnode]
  · rw [if_neg hnode]
    cases env.mallocConnect with
    | false => exact .refl
    | true =>
      simp only [Bool.not_true, Bool.false_eq_true, if_false]
      refine .head (.malloc s held none) ?_
      rcases alloc_calls env (mallocReq s).2 (s.nextReq :: held) true with
        ⟨s₁, heq, hobj, hcalls⟩ | ⟨s₁, heq, hcalls⟩
      · rw [heq]
        obtain ⟨hobj₁, hcalls₁⟩ := setNode_calls (mallocReq s).2 node hobj hcalls
        dsimp only
        generalize s₁.setTcp (mallocReq s).2.nextTcp
          { s₁.tcps (mallocReq s).2.nextTcp with node := node } = s₂ at hobj₁ hcalls₁ ⊢
        generalize (mallocReq s).2.nextTcp = n at hobj₁ hcalls₁ ⊢
        have htcp := congrArg Ctcp.tcpInited hobj₁
        have hclosing := congrArg Ctcp.closing hobj₁
        refine hcalls₁.trans ?_
        cases env.timerStart with
        | false =>
          refine .head (.watchFailed s₂ _ _ n .connect (by simp) (.inr rfl) htcp hclosing) ?_
          refine .head (.free _ s.nextReq held _) ?_
          exact .single (.close _ held _ n (.inr rfl) htcp)
        | true =>
          have harmed : (uvTimerStart n s₂ .connect true).tcps n =
              (Ctcp.fresh true node).arm .connect := by
            rw [← hobj₁]
            simp [uvTimerStart, Ctcp.arm]
          simp only [Bool.not_true, Bool.false_eq_true, if_false]
          refine .head (.watch s₂ _ _ n .connect (by simp) (.inr rfl) htcp hclosing ?_) ?_
          · rw [hobj₁]
            rfl
          · split_ifs
            · refine .head (.free _ s.nextReq held _) ?_
              exact .single (.close _ held _ n (.inl rfl) (congrArg Ctcp.tcpInited harmed))
            · refine .single (.connect _ s.nextReq held n (congrArg Ctcp.tcpInited harmed) ?_ ?_) <;>
                rw [harmed] <;> rfl
      · rw [heq]
        exact hcalls.tail (.free _ s.nextReq held none)

/-! ## Callbacks -/

theorem emit_append (s : Internal) (a b : List Obs) : s.emit (a ++ b) = (s.emit a).emit b := by
  simp [Internal.emit]

theorem frame_freeBufs (s : Internal) (buf : List UvBuf) :
    s.Frame (s.emit (buf.map fun b => .freeBuf b.base)) := by
  refine .emit s fun o ho => ?_
  obtain ⟨b, -, rfl⟩ := List.mem_map.mp ho
  rfl

/-- The end of a read or write callback that succeeded. -/
theorem reset_calls (s : Internal) (held : List ℕ) (htcp : (s.tcps t).tcpInited = true) :
    Calls ⟨s, held, none⟩
      ⟨if !(s.tcps t).closing && !(s.tcps t).shutdown then resetTcpIdleTimeoutMaySetNullptr env t s
      else s, held, none⟩ := by
  by_cases hopen : (!(s.tcps t).closing && !(s.tcps t).shutdown) = true
  · have hclosing : (s.tcps t).closing = false := by
      cases h : (s.tcps t).closing <;> simp_all
    rw [if_pos hopen]
    unfold resetTcpIdleTimeoutMaySetNullptr
    by_cases hqueue : (s.tcps t).tcp.writeQueueSize = 0
    · rw [if_pos hqueue]
      cases env.timerStart with
      | false =>
        refine .head (.watchFailed s held none t .idle (by simp) (.inl rfl) htcp hclosing) ?_
        exact teardown_calls (s := uvTimerStart t s .idle false) env (.inr rfl) htcp false
      | true => exact .single (.watch s held none t .idle (by simp) (.inl rfl) htcp hclosing hqueue)
    · rw [if_neg hqueue]
  · rw [if_neg hopen]

/-- `on_tcp_read`. -/
theorem tcpRead_calls (htcp : (s.tcps t).tcpInited = true) (nread : ℤ) (data : List UInt8) :
    Calls ⟨s, held, none⟩ ⟨onTcpRead env t nread data (tcpAllocBuffer t s), held, none⟩ := by
  have halloc : s.Frame (tcpAllocBuffer t s) := .call s _
  refine (Calls.frame halloc).trans ?_
  have htcp₁ : ((tcpAllocBuffer t s).tcps t).tcpInited = true := htcp
  generalize tcpAllocBuffer t s = s₁ at htcp₁ ⊢
  unfold onTcpRead
  dsimp only
  by_cases hpos : nread > 0
  · rw [if_pos hpos]
    have hframe : s₁.Frame ((s₁.call (.message (s₁.tcps t).node data)).call
      (.deallocateMemoryForMessage (s₁.tcps t).node)) := .trans (.call s₁ _) (.call _ _)
    exact (Calls.frame hframe).trans (reset_calls (t := t) env _ held htcp₁)
  · rw [if_neg hpos]
    have hframe : s₁.Frame (s₁.call (.deallocateMemoryForMessage (s₁.tcps t).node)) := .call s₁ _
    refine (Calls.frame hframe).trans ?_
    by_cases hneg : nread < 0
    · rw [if_pos hneg]
      exact teardown_calls (s := s₁.call _) env (.inl rfl) htcp₁ false
    · rw [if_neg hneg]

/-- `on_tcp_write_done`, with the request already in its hands. -/
theorem writeDone_calls (htcp : (s.tcps t).tcpInited = true) (w : WriteWithInfo) (status : ℤ) :
    Calls ⟨s, w.req :: held, none⟩ ⟨onTcpWriteDone env t w status s, held, none⟩ := by
  unfold onTcpWriteDone
  dsimp only
  rw [emit_append]
  have hfree : ∀ s₁ : Internal, Calls ⟨s₁, w.req :: held, none⟩
      ⟨(s₁.emit (w.buf.map fun b => .freeBuf b.base)).emit [.freeReq w.req], held, none⟩ :=
    fun s₁ => (Calls.frame (frame_freeBufs s₁ w.buf)).tail (.free _ w.req held none)
  refine .trans ?_ (hfree _)
  by_cases hstatus : status ≠ 0
  · rw [if_pos hstatus]
    refine (Calls.frame (Internal.Frame.emit s ?_)).trans
      (teardown_calls (s := s.emit _) env (.inl rfl) htcp false)
    intro o ho
    obtain ⟨b, -, rfl⟩ := List.mem_map.mp ho
    rfl
  · rw [if_neg hstatus]
    refine (Calls.frame (Internal.Frame.emit s ?_)).trans
      (reset_calls (t := t) env (s.emit [.written (s.tcps t).node w.buf]) _ htcp)
    simp [Obs.neutral]

/-- `on_new_connection`. -/
theorem newConnection_calls (s : Internal) (held : List ℕ) (server : ℕ) (status : ℤ) :
    Calls ⟨s, held, none⟩ ⟨onNewConnection env server status s, held, none⟩ := by
  unfold onNewConnection
  by_cases hstatus : status ≠ 0
  · rw [if_pos hstatus]
    exact Calls.frame (.call s _)
  · rw [if_neg hstatus]
    rcases alloc_calls env s held true with ⟨s₁, heq, hobj, hcalls⟩ | ⟨s₁, heq, hcalls⟩
    · rw [heq]
      dsimp only
      have hclose : ∀ {s₂ : Internal} {c : Ctcp}, s₂.tcps s.nextTcp = c → c.tcpInited = true →
          Calls ⟨s, held, none⟩ ⟨s₂, held, some (.tcp s.nextTcp)⟩ →
            Calls ⟨s, held, none⟩ ⟨Ctcp.closeSetNullptr s.nextTcp s₂, held, none⟩ :=
        fun hc htcp h => h.tail (.close _ held _ _ (.inr rfl) (by rw [hc]; exact htcp))
      obtain ⟨hobj₂, hcalls₂⟩ := setNode_calls s ⟨.protocolTcp, env.peer⟩ hobj hcalls
      cases env.accept with
      | false => exact hclose hobj rfl hcalls
      | true =>
        cases env.getpeername with
        | false => exact hclose hobj rfl hcalls
        | true =>
          simp only [Bool.not_true, Bool.false_eq_true, if_false]
          generalize s₁.setTcp s.nextTcp
            { s₁.tcps s.nextTcp with node := ⟨.protocolTcp, env.peer⟩ } = s₂ at hobj₂ hcalls₂ ⊢
          by_cases hvalid : (!env.peer.valid) = true
          · rw [if_pos hvalid]
            exact hclose hobj₂ rfl hcalls₂
          · rw [if_neg hvalid]
            by_cases htaken : (getStreamByNode (s₂.tcps s.nextTcp).node s₂).isSome = true
            · rw [if_pos htaken]
              exact hclose hobj₂ rfl hcalls₂
            · rw [if_neg htaken]
              have htcp := congrArg Ctcp.tcpInited hobj₂
              have hclosing := congrArg Ctcp.closing hobj₂
              cases env.timerStart with
              | false =>
                refine hclose hobj₂ rfl (hcalls₂.tail ?_)
                exact .watchFailed s₂ held _ _ .idle (by simp) (.inr rfl) htcp hclosing
              | true =>
                have harmed : (uvTimerStart s.nextTcp s₂ .idle true).tcps s.nextTcp =
                    (Ctcp.fresh true ⟨.protocolTcp, env.peer⟩).arm .idle := by
                  rw [← hobj₂]
                  simp [uvTimerStart, Ctcp.arm]
                have htcp' := congrArg Ctcp.tcpInited harmed
                have hwatch := hcalls₂.tail (.watch s₂ held _ s.nextTcp .idle (by simp) (.inr rfl)
                  htcp hclosing (by rw [hobj₂]; rfl))
                simp only [Bool.not_true, Bool.false_eq_true, if_false]
                by_cases hread : (!env.readStart) = true
                · rw [if_pos hread]
                  exact hwatch.tail (.close _ held none _ (.inl rfl) htcp')
                · rw [if_neg hread]
                  refine (hwatch.tail (.readStart _ held _ htcp')).trans (startup_calls env ?_)
                  have hreading : (uvReadStart s.nextTcp (uvTimerStart s.nextTcp s₂ .idle true)).tcps
                      s.nextTcp = ((Ctcp.fresh true ⟨.protocolTcp, env.peer⟩).arm .idle).startRead := by
                    rw [← harmed]
                    simp [uvReadStart, Ctcp.startRead]
                  rw [hreading]
                  exact ⟨rfl, rfl, rfl, rfl, rfl, rfl, rfl, rfl⟩
    · rw [heq]
      exact hcalls

/-- `on_connect_done` once the request is freed and the object has left `m_connecting`. -/
def connectTaken (t : ℕ) (s : Internal) : Internal :=
  let c := s.tcps t
  let s := { s with connecting := s.connecting.erase t }
  let s := s.emit (c.tcp.connectReq.toList.map Obs.freeReq)
  s.setTcp t { c with tcp := { c.tcp with connectReq := none } }

theorem connectTaken_calls (hwf : (s.tcps t).Wf) (hreq : (s.tcps t).Connecting) :
    Calls ⟨s, held, none⟩ ⟨connectTaken t s, held, none⟩ := by
  obtain ⟨req, hsome⟩ := Option.isSome_iff_exists.mp hreq
  obtain ⟨-, htcp, -⟩ := hwf.connectReq hreq
  unfold connectTaken
  dsimp only
  rw [hsome]
  refine .head (.takeConnect s held t req hsome htcp) ?_
  refine .head (.free _ req held none) ?_
  exact Calls.frame (Internal.Frame.maps _ s.tcpServers s.node2stream (s.connecting.erase t)
    s.waitingSend s.udpIndex)

theorem connectDone_rest_calls (hwf : (s.tcps t).Wf) (hreq : (s.tcps t).Connecting)
    (hqueue : (s.tcps t).tcp.writeQueueSize = 0) (status : ℤ) :
    Calls ⟨connectTaken t s, held, none⟩ ⟨onConnectDone env t status s, held, none⟩ := by
  obtain ⟨-, htcp, -⟩ := hwf.connectReq hreq
  unfold onConnectDone
  dsimp only
  set s₁ : Internal := connectTaken t s with hs₁
  have hobj : s₁.tcps t = (s.tcps t).connectDone := setTcp_tcps _ _ _
  have htcp₁ : (s₁.tcps t).tcpInited = true := by
    rw [hobj]
    exact htcp
  by_cases hfail : (decide (status < 0) || (s.tcps t).closing) = true
  · rw [if_pos hfail]
    exact teardown_calls env (.inl rfl) htcp₁ true
  · rw [if_neg hfail]
    have hclosing : (s.tcps t).closing = false := by
      cases h : (s.tcps t).closing <;> simp_all
    have hclosing₁ : (s₁.tcps t).closing = false := by
      rw [hobj]
      exact hclosing
    cases env.timerStart with
    | false =>
      refine .head (.watchFailed s₁ held none t .idle (by simp) (.inl rfl) htcp₁ hclosing₁) ?_
      exact teardown_calls (s := uvTimerStart t s₁ .idle false) env (.inr rfl) htcp₁ true
    | true =>
      have harmed : (uvTimerStart t s₁ .idle true).tcps t = (s.tcps t).connectDone.arm .idle := by
        rw [← hobj]
        simp [uvTimerStart, Ctcp.arm]
      have htcp₂ : ((uvTimerStart t s₁ .idle true).tcps t).tcpInited = true := by
        rw [harmed]
        exact htcp
      refine .head (.watch s₁ held none t .idle (by simp) (.inl rfl) htcp₁ hclosing₁ ?_) ?_
      · rw [hobj]
        exact hqueue
      · simp only [Bool.not_true, Bool.false_eq_true, if_false]
        by_cases hread : (!env.readStart) = true
        · rw [if_pos hread]
          exact teardown_calls env (.inl rfl) htcp₂ true
        · rw [if_neg hread]
          refine .head (.readStart _ held t htcp₂) (startup_calls env ?_)
          have hreading : (uvReadStart t (uvTimerStart t s₁ .idle true)).tcps t =
              ((s.tcps t).connectDone.arm .idle).startRead := by
            rw [← harmed]
            simp [uvReadStart, Ctcp.startRead]
          rw [hreading]
          exact (hreq.established hwf hclosing (hwf.not_shutdown hreq)).startRead

/-- `on_connect_done`. -/
theorem connectDone_calls (hwf : (s.tcps t).Wf) (hreq : (s.tcps t).Connecting)
    (hqueue : (s.tcps t).tcp.writeQueueSize = 0) (status : ℤ) :
    Calls ⟨s, held, none⟩ ⟨onConnectDone env t status s, held, none⟩ :=
  (connectTaken_calls hwf hreq).trans (connectDone_rest_calls env hwf hreq hqueue status)

end Functions

/-! ## `on_wakeup` -/

/-- What the preconditions of the calls rest on. -/
structure Internal.Ready (s : Internal) : Prop where
  wf : s.table.Wf
  listener : ∀ t, (s.tcps t).tcp.listening = true → (s.tcps t).tcpInited = true
  queue : ∀ t, (s.tcps t).Connecting → (s.tcps t).tcp.writeQueueSize = 0
  entries : s.table.EntriesRegistered
  udpServers : ∀ u ∈ s.udpServers, u < s.nextUdp

section Wakeup

variable {s : Internal} {held : List ℕ} {t : ℕ} (env : Env)

/-- The connections of the pool are usable. -/
theorem Internal.Ready.usable (h : s.Ready) {node : CnetworkNode}
    (hlookup : s.node2stream.lookup node = some t) : s.Usable t := by
  have he := h.wf.stream node t hlookup
  refine ⟨(isRegistered_visible t _).mp (h.entries node t hlookup), ?_⟩
  have hnode : (s.tcps t).node = node := he.node
  rw [hnode]
  exact he

theorem Internal.Ready.tcpInited_server (h : s.Ready) {node : CnetworkNode}
    (hlookup : s.tcpServers.lookup node = some t) : (s.tcps t).tcpInited = true :=
  h.listener t (h.wf.server node t hlookup).listening

theorem Internal.Ready.tcpInited_connecting (h : s.Ready) (ht : t ∈ s.connecting) :
    (s.tcps t).tcpInited = true :=
  ((h.wf.tcps t).connectReq (h.wf.connecting t ht)).2.1

/-- `bindAndListenUdp` leaves the new socket in the hands of the caller, or closes it. -/
theorem bindAndListenUdp_calls (s : Internal) (held : List ℕ) (node : CnetworkNode) :
    (∃ u s', bindAndListenUdp env node s = (some u, s') ∧ u < s'.nextUdp ∧
      Calls ⟨s, held, none⟩ ⟨s', held, some (.udp u)⟩) ∨
    (∃ s', bindAndListenUdp env node s = (none, s') ∧ Calls ⟨s, held, none⟩ ⟨s', held, none⟩) := by
  unfold bindAndListenUdp Cudp.alloc
  by_cases hnode : node.protocol ≠ .protocolUdp
  · rw [if_pos hnode]
    exact .inr ⟨s, rfl, .refl⟩
  · rw [if_neg hnode]
    cases env.newUdp with
    | false => exact .inr ⟨s, rfl, .refl⟩
    | true =>
      simp only [Bool.not_true, Bool.false_eq_true, if_false]
      cases env.udpInit with
      | false => exact .inr ⟨_, rfl, .single (.newUdpFailed s held)⟩
      | true =>
        simp only [Bool.not_true, Bool.false_eq_true, if_false]
        have hset : ({ s with nextUdp := s.nextUdp + 1 }.setUdp s.nextUdp {}).setUdp s.nextUdp
            { ({ s with nextUdp := s.nextUdp + 1 }.setUdp s.nextUdp {}).udps s.nextUdp with
              inited := true } =
                { s with nextUdp := s.nextUdp + 1 }.setUdp s.nextUdp { inited := true } := by
          simp [Internal.setUdp]
        rw [hset]
        have hnew := Call.newUdp s held
        have hlt : s.nextUdp < ({ s with nextUdp := s.nextUdp + 1 }.setUdp s.nextUdp
            { inited := true }).nextUdp := Nat.lt_succ_self _
        generalize { s with nextUdp := s.nextUdp + 1 }.setUdp s.nextUdp { inited := true } = s₁
          at hnew hlt ⊢
        have hnoded := (Relation.ReflTransGen.single hnew).tail
          (.setUdp s₁ held s.nextUdp node (s₁.udps s.nextUdp).receiving)
        split_ifs
        · exact .inr ⟨_, rfl, hnoded.tail (.closeUdp _ held _)⟩
        · exact .inr ⟨_, rfl, hnoded.tail (.closeUdp _ held _)⟩
        · refine .inl ⟨_, _, rfl, hlt, hnoded.tail ?_⟩
          exact .setUdp (s₁.setUdp s.nextUdp { s₁.udps s.nextUdp with node := node }) held
            s.nextUdp ((s₁.setUdp s.nextUdp { s₁.udps s.nextUdp with node := node }).udps
              s.nextUdp).node true

/-- One iteration of the bind loop. -/
theorem bindOne_calls (hready : s.Ready) (node : CnetworkNode) (bBind : Bool) :
    Calls ⟨s, held, none⟩ ⟨bindOne env node bBind s, held, none⟩ := by
  have hreport : ∀ s' b, Calls ⟨s', held, none⟩ ⟨s'.call (.bindStatus node b), held, none⟩ :=
    fun s' b => Calls.frame (.call s' _)
  unfold bindOne
  cases node.protocol with
  | unknown n => exact hreport s false
  | protocolTcp =>
    dsimp only
    cases hserver : s.tcpServers.lookup node with
    | some tcp =>
      cases bBind with
      | true => exact hreport s true
      | false =>
        have hframe : s.Frame ({ s with tcpServers := s.tcpServers.erase node }.call
            (.bindStatus node false)) := .trans (.maps s _ _ _ _ _) (.call _ _)
        exact (Calls.frame hframe).tail
          (.close _ held none tcp (.inl rfl) (hready.tcpInited_server hserver))
    | none =>
      cases bBind with
      | false => exact hreport s false
      | true =>
        have hbind := bindAndListenTcp_calls env s held node
        simp only [if_true]
        rcases heq : bindAndListenTcp env node s with ⟨_ | server, s₁⟩ <;> rw [heq] at hbind
        · exact hbind.trans (hreport s₁ false)
        · have hframe : s₁.Frame ({ s₁ with tcpServers := s₁.tcpServers.insert node server }.call
              (.bindStatus node true)) := .trans (.maps s₁ _ _ _ _ _) (.call _ _)
          exact hbind.trans (Calls.frame hframe)
  | protocolUdp =>
    dsimp only
    cases findUdpServer node s with
    | some udp =>
      cases bBind with
      | true => exact hreport s true
      | false =>
        have hframe : ({ s with udpServers := s.udpServers.erase udp } : Internal).Frame
            ({ s with udpServers := s.udpServers.erase udp }.call (.bindStatus node false)) :=
          .call _ _
        exact .head (.unlinkUdp s held udp) ((Calls.frame hframe).tail (.closeUdp _ held udp))
    | none =>
      cases bBind with
      | false => exact hreport s false
      | true =>
        simp only [if_true]
        rcases bindAndListenUdp_calls env s held node with
          ⟨u, s₁, heq, hlt, hcalls⟩ | ⟨s₁, heq, hcalls⟩
        · rw [heq]
          exact (hcalls.tail (.linkUdp s₁ held u hlt)).trans (hreport _ true)
        · rw [heq]
          exact hcalls.trans (hreport s₁ false)

/-- The TCP branch of the send loop when there is no stream for the node. -/
theorem sendWithoutStream_calls (s : Internal) (held : List ℕ) (req : PendingSend) :
    Calls ⟨s, held, none⟩ ⟨sendWithoutStream env req s, held, none⟩ := by
  unfold sendWithoutStream
  dsimp only
  split_ifs
  · exact Calls.frame (.dropAll s _ _)
  · refine (Calls.frame (Internal.Frame.pushWaiting s req.node req.data)).trans ?_
    have hconnect := connectTcp_calls env (pushWaiting req.node req.data s) held req.node
    rcases heq : connectTcp env req.node (pushWaiting req.node req.data s) with ⟨_ | tcp, s₁⟩ <;>
      rw [heq] at hconnect
    · exact hconnect.trans (Calls.frame (.trans (.call s₁ _) (.dropWaiting _ _)))
    · exact hconnect.trans (Calls.frame (.maps s₁ _ _ _ _ _))
  · exact Calls.frame (.pushWaiting s _ _)

/-- The TCP branch of the send loop when `tcp` is the stream of the node. -/
theorem sendOnStream_calls {tcp : ℕ} (husable : s.Usable tcp) (req : PendingSend) :
    Calls ⟨s, held, none⟩ ⟨sendOnStream env req tcp s, held, none⟩ := by
  unfold sendOnStream
  cases env.mallocWrite with
  | false => exact Calls.frame (.dropAll s _ _)
  | true =>
    have husable₁ : (mallocReq s).2.Usable tcp := ⟨husable.registered, husable.established⟩
    refine .head (.malloc s held none) ?_
    exact write_calls env husable₁ req.node ⟨s.nextReq, [req.data]⟩ _ _

/-- The UDP branch of the send loop. -/
theorem sendUdp_calls (hready : s.Ready) (req : PendingSend) :
    Calls ⟨s, held, none⟩ ⟨sendUdp env req s, held, none⟩ := by
  have hfree : s.Frame (s.emit [.freeBuf req.data.base]) := .emit s (by simp [Obs.neutral])
  unfold sendUdp
  dsimp only
  by_cases hlen : s.udpServers.length > 0
  · rw [if_pos hlen]
    by_cases hmalloc : env.mallocUdpSend = true
    · rw [if_pos hmalloc]
      set index := s.udpIndex % s.udpServers.length with hindex
      set s₁ : Internal := { (mallocReq s).2 with udpIndex := index + 1 } with hs₁
      have hframe : (mallocReq s).2.Frame s₁ := .maps _ _ _ _ _ _
      refine .head (.malloc s held none) ((Calls.frame hframe).trans ?_)
      have hsender : s.udpServers.getD index 0 < s₁.nextUdp := by
        refine hready.udpServers _ ?_
        rw [← List.getElem_eq_getD (h := Nat.mod_lt _ hlen)]
        exact List.getElem_mem _
      split_ifs
      · have hfailed : Calls ⟨s₁, s.nextReq :: held, none⟩
            ⟨s₁.emit [.freeBuf req.data.base, .freeReq s.nextReq], held, none⟩ := by
          rw [show [Obs.freeBuf req.data.base, Obs.freeReq s.nextReq] =
            [.freeBuf req.data.base] ++ [.freeReq s.nextReq] from rfl, emit_append]
          exact (Calls.frame (.emit s₁ (by simp [Obs.neutral]))).tail (.free _ s.nextReq held none)
        exact hfailed.trans (Calls.frame (.call _ _))
      · exact .single (.sendUdp s₁ ⟨s.nextReq, [req.data]⟩ held _ hsender)
    · rw [if_neg hmalloc]
      exact Calls.frame hfree
  · rw [if_neg hlen]
    exact Calls.frame hfree

/-- One iteration of the send loop. -/
theorem sendOne_calls (hready : s.Ready) (req : PendingSend) :
    Calls ⟨s, held, none⟩ ⟨sendOne env req s, held, none⟩ := by
  unfold sendOne getStreamByNode
  cases req.node.protocol with
  | protocolTcp =>
    dsimp only
    cases hlookup : s.node2stream.lookup req.node with
    | none => exact sendWithoutStream_calls env s held req
    | some tcp => exact sendOnStream_calls env (hready.usable hlookup) req
  | protocolUdp => exact sendUdp_calls env hready req
  | unknown n =>
    dsimp only
    split_ifs
    · exact Calls.frame (.trans (.call s _) (.dropAll _ _ _))
    · exact Calls.frame (.dropAll s _ _)

/-- One iteration of the close loop. -/
theorem closeOne_calls (hready : s.Ready) (node : CnetworkNode) (bForceClose : Bool) :
    Calls ⟨s, held, none⟩ ⟨closeOne env node bForceClose s, held, none⟩ := by
  unfold closeOne getStreamByNode
  cases hlookup : s.node2stream.lookup node with
  | none => exact .refl
  | some tcp =>
    have husable := hready.usable hlookup
    have htcp := husable.established.tcpInited
    cases bForceClose with
    | true => exact teardown_calls env (.inl rfl) htcp false
    | false =>
      simp only [Bool.not_false, Bool.true_and, if_true]
      refine .head (.sendTimer s held tcp env.timerStart husable) ?_
      cases env.timerStart with
      | false => exact teardown_calls (s := uvTimerStart tcp s .send false) env (.inr rfl) htcp false
      | true =>
        obtain ⟨husable₁, harmed, hsame, htrace⟩ := Usable.sendTimer husable
        have hframe := frame_unmap tcp false (uvTimerStart tcp s .send true)
        rw [if_neg (by simp), shutdownTcpConnection_eq, if_pos rfl]
        refine (Calls.frame hframe).trans
          (shutdownAndClose_calls env (husable₁.frame hframe) ?_ ?_ ?_)
        · rw [hframe.tcps, hsame]
          by_contra hreq
          have hshutdown := ((hready.wf.tcps tcp).shutdownReq (Option.ne_none_iff_isSome.mp hreq)).1
          exact absurd (husable.established.shutdown.symm.trans hshutdown) (by simp)
        · rw [hframe.tcps]
          exact harmed
        · obtain ⟨obs, hobs, hneutral⟩ := hframe.trace
          refine ⟨s.trace, obs, ?_, fun o ho => Obs.not_timed_of_neutral tcp (hneutral o ho)⟩
          rw [hobs, htrace, List.append_assoc]
          rfl

end Wakeup

/-! ## Exit -/

section Exit

variable {s : Internal} {held : List ℕ} {t : ℕ}

/-- Closing an object changes no flag that says what was initialised. -/
theorem closeSetNullptr_tcpInited (t t' : ℕ) (s : Internal) :
    ((Ctcp.closeSetNullptr t s).tcps t').tcpInited = (s.tcps t').tcpInited := by
  rw [← table_tcps, table_closeSetNullptr]
  by_cases ht : t' = t
  · subst ht
    simp
  · rw [setTcp_tcps_other _ ht]
    rfl

variable {α : Type} (held) (object : α → ℕ) (notice : α → CnetworkNode → Callback)

/-- One of the loops of the exit branch. -/
theorem closeEach_calls (l : List α) (s : Internal)
    (hl : ∀ a ∈ l, (s.tcps (object a)).tcpInited = true) :
    Calls ⟨s, held, none⟩ ⟨closeEach object notice l s, held, none⟩ ∧
      ∀ t, ((closeEach object notice l s).tcps t).tcpInited = (s.tcps t).tcpInited := by
  induction l generalizing s with
  | nil => exact ⟨.refl, fun _ => rfl⟩
  | cons a l ih =>
    set s₁ := Ctcp.closeSetNullptr (object a) (s.call (notice a (s.tcps (object a)).node)) with hs₁
    have hsame : ∀ t, (s₁.tcps t).tcpInited = (s.tcps t).tcpInited :=
      fun t => closeSetNullptr_tcpInited (object a) t _
    obtain ⟨hcalls, hinited⟩ := ih s₁ fun b hb => by
      rw [hsame]
      exact hl b (List.mem_cons_of_mem a hb)
    have hframe : s.Frame (s.call (notice a (s.tcps (object a)).node)) := .call s _
    have hclose : Calls ⟨s, held, none⟩ ⟨s₁, held, none⟩ :=
      (Calls.frame hframe).tail (.close _ held none _ (.inl rfl) (hl a (List.mem_cons_self ..)))
    exact ⟨hclose.trans hcalls, fun t => (hinited t).trans (hsame t)⟩

/-- Closing a UDP socket does not look at `m_udpServers`. -/
theorem closeUdp_servers (u : ℕ) (s : Internal) (servers : List ℕ) :
    Cudp.closeSetNullptr u { s with udpServers := servers } =
      { Cudp.closeSetNullptr u s with udpServers := servers } := by
  unfold Cudp.closeSetNullptr
  dsimp only
  split_ifs <;> rfl

/-- The loop over the UDP servers. -/
theorem closeUdps_calls (l : List ℕ) (s : Internal) :
    Calls ⟨{ s with udpServers := l }, held, none⟩
      ⟨l.foldl (fun s u => Cudp.closeSetNullptr u (s.call (.bindStatus (s.udps u).node false)))
        { s with udpServers := [] }, held, none⟩ := by
  induction l generalizing s with
  | nil => exact .refl
  | cons u l ih =>
    set s₁ := Cudp.closeSetNullptr u (s.call (.bindStatus (s.udps u).node false)) with hs₁
    have hclose : ∀ servers : List ℕ, Cudp.closeSetNullptr u
        ({ s with udpServers := servers }.call (.bindStatus (s.udps u).node false)) =
          { s₁ with udpServers := servers } :=
      fun servers => closeUdp_servers u (s.call (.bindStatus (s.udps u).node false)) servers
    -- the socket leaves the list, is reported and closed
    have hunlink := Call.unlinkUdp { s with udpServers := u :: l } held u
    rw [show (u :: l).erase u = l from List.erase_cons_head ..] at hunlink
    have hframe : ({ s with udpServers := l } : Internal).Frame
        ({ s with udpServers := l }.call (.bindStatus (s.udps u).node false)) := .call _ _
    have hclosed := Call.closeUdp
      ({ s with udpServers := l }.call (.bindStatus (s.udps u).node false)) held u
    rw [hclose l] at hclosed
    rw [List.foldl_cons]
    show Calls _ ⟨l.foldl _ (Cudp.closeSetNullptr u
      ({ s with udpServers := [] }.call (.bindStatus (s.udps u).node false))), held, none⟩
    rw [hclose []]
    exact .head hunlink (((Calls.frame hframe).tail hclosed).trans (ih s₁))

/-- Closing a UDP socket does not touch the connections. -/
theorem closeUdps_tcps (l : List ℕ) (s : Internal) :
    (l.foldl (fun s u => Cudp.closeSetNullptr u (s.call (.bindStatus (s.udps u).node false)))
      s).tcps = s.tcps :=
  congrArg Table.tcps (table_closeUdps l s)

/-- The exit branch after its close loops. -/
def exitDrops (order : ExitOrder) (b : Batch) (s : Internal) : Internal :=
  let s := s.emit (order.waitingSend.flatMap fun pair => dropAll pair.1 pair.2)
  let s := { s with waitingSend := ∅ }
  let s := s.emit (b.bindCopy.map fun pair => .callback (.bindStatus pair.1 false))
  s.emit (b.sendCopy.flatMap fun req => dropAll req.node [req.data])

theorem frame_exitDrops (order : ExitOrder) (b : Batch) (s : Internal) :
    s.Frame (exitDrops order b s) := by
  have hneutral : ∀ node buf, ∀ o ∈ dropAll node buf, o.neutral = true := by
    intro node buf o ho
    obtain ⟨x, -, hx⟩ := List.mem_flatMap.mp ho
    simp only [List.mem_cons, List.not_mem_nil, or_false] at hx
    rcases hx with rfl | rfl <;> rfl
  unfold exitDrops
  refine .trans (.trans (.trans (.emit _ ?_) (.maps _ _ _ _ _ _)) (.emit _ ?_)) (.emit _ ?_)
  · intro o ho
    obtain ⟨pair, -, hpair⟩ := List.mem_flatMap.mp ho
    exact hneutral _ _ o hpair
  · intro o ho
    obtain ⟨pair, -, rfl⟩ := List.mem_map.mp ho
    rfl
  · intro o ho
    obtain ⟨req, -, hreq⟩ := List.mem_flatMap.mp ho
    exact hneutral _ _ o hreq

/-- The exit branch. -/
theorem exitAll_calls (hready : s.Ready) {order : ExitOrder} (henum : order.Enumerates s)
    (b : Batch) : Calls ⟨s, held, none⟩ ⟨exitAll order b s, held, none⟩ := by
  obtain ⟨hservers, hstreams, -, hconnecting, -⟩ := henum
  show Calls _ ⟨exitDrops order b (exitLoops order s), held, none⟩
  refine .trans ?_ (Calls.frame (frame_exitDrops order b _))
  unfold exitLoops
  dsimp only
  have hasync : (Casync.closeSetNullptr s).tcps = s.tcps := congrArg Table.tcps (table_closeAsync s)
  refine .head (.closeAsync s held) ?_
  -- the listeners
  have hmaps₀ : (Casync.closeSetNullptr s).Frame
      { Casync.closeSetNullptr s with tcpServers := ∅ } := .maps _ _ _ _ _ _
  obtain ⟨hcalls₁, hinited₁⟩ := closeEach_calls held Prod.snd
    (fun (pair : CnetworkNode × ℕ) _ => .bindStatus pair.1 false) order.tcpServers
    { Casync.closeSetNullptr s with tcpServers := ∅ } fun pair hpair => by
      show ((Casync.closeSetNullptr s).tcps pair.2).tcpInited = true
      rw [hasync]
      exact hready.tcpInited_server (mem_toPairs.mp (hservers.mem_iff.mp hpair))
  refine (Calls.frame hmaps₀).trans (hcalls₁.trans ?_)
  generalize closeEach Prod.snd (fun (pair : CnetworkNode × ℕ) _ => .bindStatus pair.1 false)
    order.tcpServers { Casync.closeSetNullptr s with tcpServers := ∅ } = s₁ at hinited₁ ⊢
  -- the UDP servers
  refine (closeUdps_calls held s₁.udpServers s₁).trans ?_
  have hudps := closeUdps_tcps s₁.udpServers { s₁ with udpServers := [] }
  generalize s₁.udpServers.foldl (fun s u => Cudp.closeSetNullptr u
    (s.call (.bindStatus (s.udps u).node false))) { s₁ with udpServers := [] } = s₂ at hudps ⊢
  have hinited₂ : ∀ t, (s₂.tcps t).tcpInited = (s.tcps t).tcpInited := by
    intro t
    rw [hudps]
    exact (hinited₁ t).trans (by rw [hasync])
  -- the connections
  have hmaps₂ : s₂.Frame { s₂ with node2stream := ∅ } := .maps _ _ _ _ _ _
  obtain ⟨hcalls₃, hinited₃⟩ := closeEach_calls held Prod.snd
    (fun (_ : CnetworkNode × ℕ) node => .connectionStatus node false) order.node2stream
    { s₂ with node2stream := ∅ } fun pair hpair => by
      refine (hinited₂ pair.2).trans ?_
      exact (hready.usable (mem_toPairs.mp (hstreams.mem_iff.mp hpair))).established.tcpInited
  refine (Calls.frame hmaps₂).trans (hcalls₃.trans ?_)
  generalize closeEach Prod.snd (fun (_ : CnetworkNode × ℕ) node => .connectionStatus node false)
    order.node2stream { s₂ with node2stream := ∅ } = s₃ at hinited₃ ⊢
  -- the pending connects
  have hmaps₃ : s₃.Frame { s₃ with connecting := ∅ } := .maps _ _ _ _ _ _
  obtain ⟨hcalls₄, -⟩ := closeEach_calls held id
    (fun _ node => .connectionStatus node false) order.connecting
    { s₃ with connecting := ∅ } fun t ht => by
      refine (hinited₃ t).trans ((hinited₂ t).trans (hready.tcpInited_connecting ?_))
      rw [← hconnecting]
      exact List.mem_toFinset.mpr ht
  exact (Calls.frame hmaps₃).trans hcalls₄

end Exit

/-! ## Steps -/

/-- A callback of libuv. -/
theorem uvStep_calls {s s' : Internal} {e : UvEvent} (hready : s.Ready)
    (h : uvStep s e = some s') : Calls ⟨s, [], none⟩ ⟨s', [], none⟩ := by
  cases e with
  | newConnection server status env =>
    simp only [uvStep, Option.ite_none_right_eq_some, Option.some.injEq] at h
    rw [← h.2]
    exact newConnection_calls env s [] server status
  | connectDone t status env =>
    simp only [uvStep, Option.ite_none_right_eq_some, Option.some.injEq] at h
    rw [← h.2]
    exact connectDone_calls env (hready.wf.tcps t) h.1 (hready.queue t h.1) status
  | tcpRead t nread data env =>
    simp only [uvStep, Option.ite_none_right_eq_some, Option.some.injEq] at h
    rw [← h.2]
    obtain ⟨-, -, -, htcp, -⟩ := (hready.wf.tcps t).reading h.1.1
    exact tcpRead_calls env htcp nread data
  | writeDone t req status env =>
    simp only [uvStep] at h
    split at h
    · rename_i w hw
      rw [← Option.some.inj h]
      have hmem := List.mem_of_find?_eq_some hw
      obtain ⟨-, -, htcp, -⟩ := (hready.wf.tcps t).writes (List.ne_nil_of_mem hmem)
      refine .head (.takeWrite s [] t w hmem htcp) ?_
      refine writeDone_calls env ?_ w status
      rw [setTcp_tcps]
      exact htcp
    · exact absurd h (by simp)
  | timeout t =>
    simp only [uvStep, Option.ite_none_right_eq_some, Option.some.injEq] at h
    rw [← h.2]
    obtain ⟨-, htcp, -⟩ := (hready.wf.tcps t).armed h.1
    refine .head (.fire s [] t htcp) (teardown_calls {} (.inr rfl) ?_ false)
    rw [setTcp_tcps]
    exact htcp
  | shutdownDone t =>
    simp only [uvStep, Option.ite_none_right_eq_some, Option.some.injEq] at h
    obtain ⟨hreq, rfl⟩ := h
    obtain ⟨req, hsome⟩ := Option.isSome_iff_exists.mp hreq
    obtain ⟨-, htcp⟩ := (hready.wf.tcps t).shutdownReq hreq
    unfold Ctcp.onShutdown
    dsimp only
    rw [hsome]
    refine .head (.takeShutdown s [] t req hsome htcp) ?_
    refine .head (.free _ req [] none) (.single (.close _ [] none t (.inl rfl) ?_))
    rw [emit_tcps, setTcp_tcps]
    exact htcp
  | tcpClosed t =>
    simp only [uvStep, Option.ite_none_right_eq_some, Option.some.injEq] at h
    obtain ⟨⟨hclosing, hclosed, hconnect, hshutdown, hwrites⟩, rfl⟩ := h
    exact .single (.tcpClosed s [] t hclosing (by simpa using hclosed) hconnect hshutdown hwrites)
  | timerClosed t =>
    simp only [uvStep, Option.ite_none_right_eq_some, Option.some.injEq] at h
    obtain ⟨⟨hclosing, hclosed⟩, rfl⟩ := h
    exact .single (.timerClosed s [] t hclosing (by simpa using hclosed))
  | drained t n =>
    simp only [uvStep, Option.ite_none_right_eq_some, Option.some.injEq] at h
    rw [← h.2]
    exact .single (.drained s [] t _ (Nat.sub_le _ n))
  | udpRecv u nread data addr =>
    simp only [uvStep, Option.ite_none_right_eq_some, Option.some.injEq] at h
    rw [← h.2]
    have halloc : s.Frame (udpAllocBuffer u s) := .call s _
    refine Calls.frame (halloc.trans ?_)
    unfold onUdpRecv
    dsimp only
    split_ifs
    · exact .trans (.call _ _) (.call _ _)
    · cases addr with
      | none => exact .call _ _
      | some addr => exact .trans (.call _ _) (.call _ _)
  | udpSendDone u req status =>
    simp only [uvStep] at h
    split at h
    · rename_i w hw
      rw [← Option.some.inj h]
      refine .head (.takeSend s [] u w (List.mem_of_find?_eq_some hw)) ?_
      unfold onUdpSendDone
      rw [emit_append]
      refine .tail (Calls.frame (.trans ?_ (frame_freeBufs _ w.buf))) (.free _ w.req [] none)
      split_ifs
      · exact .call _ _
      · exact .refl _
    · exact absurd h (by simp)
  | udpClosed u =>
    simp only [uvStep, Option.ite_none_right_eq_some, Option.some.injEq] at h
    rw [← h.2]
    exact .single (.udpClosed s [] u)
  | asyncClosed =>
    simp only [uvStep, Option.ite_none_right_eq_some, Option.some.injEq] at h
    rw [← h.2]
    exact .single (.asyncClosed s [])

namespace Pool

variable {p p' : Pool} {e : Event}

/-- A step is a sequence of calls. -/
theorem calls_of_step (hready : p.internal.Ready) (h : p.step e = some p') :
    Calls ⟨p.internal, [], none⟩ ⟨p'.internal, [], none⟩ := by
  cases e with
  | bind node bBind =>
    rw [← Option.some.inj h]
  | send node data bAutoConnect =>
    rw [← Option.some.inj h]
  | close node bForceClose =>
    rw [← Option.some.inj h]
  | wantExit =>
    rw [← Option.some.inj h]
  | wakeup =>
    simp only [Pool.step] at h
    split at h
    · exact absurd h (by simp)
    · simp only [Option.ite_none_left_eq_some, Option.some.injEq] at h
      rw [← h.2]
  | dispatch order =>
    simp only [Pool.step] at h
    split at h
    · split_ifs at h with hexit henum
      · rw [← Option.some.inj h]
        exact exitAll_calls [] hready henum _
      · rw [← Option.some.inj h]
    · exact absurd h (by simp)
  | bindNext env =>
    simp only [Pool.step] at h
    split at h
    · rw [← Option.some.inj h]
      exact bindOne_calls env hready _ _
    · exact absurd h (by simp)
  | sendNext env =>
    simp only [Pool.step] at h
    split at h
    · rw [← Option.some.inj h]
      exact sendOne_calls env hready _
    · exact absurd h (by simp)
  | closeNext env =>
    simp only [Pool.step] at h
    split at h
    · rw [← Option.some.inj h]
      exact closeOne_calls env hready _ _
    · exact absurd h (by simp)
  | wakeupDone =>
    simp only [Pool.step] at h
    split at h
    · rw [← Option.some.inj h]
    · exact absurd h (by simp)
  | uv e =>
    simp only [Pool.step] at h
    split at h
    · exact absurd h (by simp)
    · split at h
      · rename_i s hs
        rw [← Option.some.inj h]
        exact uvStep_calls hready hs
      · exact absurd h (by simp)

end Pool

end NetworkPool
