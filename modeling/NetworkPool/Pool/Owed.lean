import NetworkPool.Pool.Exit

/-!
# What libuv owes

libuv owes the pool a callback for each pending request, one for each armed timer and one for each
handle that was not closed yet (`Internal.owed`). A callback on a connection changes that object
only (`Internal.Sets`), so what it does to the count is said once for each callback.
-/

namespace NetworkPool

open Table Lib.Family

/-! ## What libuv owes -/

/-- The callbacks of the requests and of the timer of an object, and the close callbacks of its
handles. -/
def Ctcp.owed (c : Ctcp) : ℕ :=
  c.requests.card + c.timer.armed.toList.length + c.tcpInited.toNat + c.timerInited.toNat

/-- The callbacks of the sends of a UDP socket, and the close callback of one that is closing. -/
def Cudp.owed (c : Cudp) : ℕ :=
  c.sends.length + (c.closing && !c.closed).toNat

/-- The close callback of `m_wakeup`. -/
def Casync.owed (c : Casync) : ℕ :=
  (c.closing && !c.closed).toNat

/-- The callbacks libuv owes the pool. -/
def Internal.owed (s : Internal) : ℕ :=
  total Ctcp.owed s.tcps s.nextTcp + total Cudp.owed s.udps s.nextUdp + s.async.owed

/-- The callbacks `owed` counts. -/
def UvEvent.due : UvEvent → Bool
  | .connectDone _ _ _ | .writeDone _ _ _ _ | .timeout _ | .shutdownDone _ | .tcpClosed _
  | .timerClosed _ | .udpSendDone _ _ _ | .udpClosed _ | .asyncClosed => true
  | .newConnection _ _ _ | .tcpRead _ _ _ _ | .drained _ _ | .udpRecv _ _ _ _ => false

/-- The events that run such a callback. -/
def Event.due : Event → Bool
  | .uv e => e.due
  | _ => false

namespace Ctcp

variable {c : Ctcp} {w : WriteWithInfo}

theorem owed_connectDone (hreq : c.tcp.connectReq.isSome = true) :
    c.connectDone.owed + 1 = c.owed := by
  obtain ⟨req, hreq⟩ := Option.isSome_iff_exists.mp hreq
  have hcard := congrArg Multiset.card (requests_connectDone hreq)
  rw [Multiset.card_add, Multiset.card_singleton] at hcard
  show c.connectDone.requests.card + c.timer.armed.toList.length + c.tcpInited.toNat +
    c.timerInited.toNat + 1 = c.owed
  rw [owed, hcard]
  omega

theorem owed_shutdownDone (hreq : c.tcp.shutdownReq.isSome = true) :
    Ctcp.owed { c with tcp := { c.tcp with shutdownReq := none } } + 1 = c.owed := by
  obtain ⟨req, hreq⟩ := Option.isSome_iff_exists.mp hreq
  have hcard := congrArg Multiset.card (requests_shutdownDone hreq)
  rw [Multiset.card_add, Multiset.card_singleton] at hcard
  show (Ctcp.requests { c with tcp := { c.tcp with shutdownReq := none } }).card +
    c.timer.armed.toList.length + c.tcpInited.toNat + c.timerInited.toNat + 1 = c.owed
  rw [owed, hcard]
  omega

theorem owed_takeWrite (hw : w ∈ c.tcp.writes) : (c.takeWrite w).owed + 1 = c.owed := by
  have hcard := congrArg Multiset.card (requests_takeWrite hw)
  rw [Multiset.card_add, Multiset.card_singleton] at hcard
  show (c.takeWrite w).requests.card + c.timer.armed.toList.length + c.tcpInited.toNat +
    c.timerInited.toNat + 1 = c.owed
  unfold owed
  omega

theorem owed_fired (harmed : c.timer.armed.isSome = true) :
    Ctcp.owed { c with timer := { c.timer with armed := none } } + 1 = c.owed := by
  obtain ⟨timeout, harmed⟩ := Option.isSome_iff_exists.mp harmed
  show c.requests.card + 0 + c.tcpInited.toNat + c.timerInited.toNat + 1 = c.owed
  unfold owed
  rw [harmed, Option.toList_some, List.length_singleton]
  omega

/-- A timer that is armed is started again. -/
theorem owed_arm (harmed : c.timer.armed.isSome = true) (timeout : Timeout) :
    (c.arm timeout).owed = c.owed := by
  obtain ⟨timeout', harmed⟩ := Option.isSome_iff_exists.mp harmed
  show c.requests.card + 1 + c.tcpInited.toNat + c.timerInited.toNat = c.owed
  unfold owed
  rw [harmed, Option.toList_some, List.length_singleton]

theorem owed_tcpClosed (htcp : c.tcpInited = true) :
    Ctcp.owed { c with tcp := { c.tcp with closed := true }, tcpInited := false } + 1 = c.owed := by
  show c.requests.card + c.timer.armed.toList.length + 0 + c.timerInited.toNat + 1 = c.owed
  rw [owed, htcp, Bool.toNat_true]
  omega

theorem owed_timerClosed (htimer : c.timerInited = true) :
    Ctcp.owed { c with timer := { c.timer with closed := true }, timerInited := false } + 1 =
      c.owed := by
  show c.requests.card + c.timer.armed.toList.length + c.tcpInited.toNat + 0 + 1 = c.owed
  rw [owed, htimer, Bool.toNat_true]

/-- Closing stops the timer, and what is pending stays. -/
theorem owed_afterClose (c : Ctcp) : c.afterClose.owed ≤ c.owed := by
  have hrequests : c.afterClose.requests = c.requests := by
    unfold requests
    rw [afterClose_connectReq, afterClose_shutdownReq, afterClose_writes]
  have harmed : c.afterClose.timer.armed.toList.length ≤ c.timer.armed.toList.length := by
    unfold afterClose
    split_ifs <;> simp
  unfold owed
  rw [hrequests, afterClose_tcpInited, afterClose_timerInited]
  omega

end Ctcp

/-! ## Connections -/

section Sets

variable {s s₁ s' : Internal} {t : ℕ} {c : Ctcp}

theorem Internal.Sets.teardown (h : s.Sets s' t c) (env : Env) (bAlwaysNotify : Bool) :
    s.Sets (shutdownTcpConnectionSetNullptr env t bAlwaysNotify false s') t c.afterClose := by
  rw [shutdownTcpConnection_eq, if_neg (by simp)]
  exact (h.frame (frame_unmap t bAlwaysNotify s')).close

/-- What is owed goes down by what the object gives up. -/
theorem Internal.Sets.owed {m : ℕ} (h : s.Sets s' t c) (ht : t < s.nextTcp)
    (hc : c.owed + m ≤ (s.tcps t).owed) : s'.owed + m ≤ s.owed := by
  have htotal := total_update (g := Ctcp.owed) (f := s.tcps) (x := c) ht
  unfold Internal.owed
  rw [h.tcps, h.nextTcp, h.rest.udps, h.rest.nextUdp, h.rest.async]
  omega

/-- The timer of an object, which runs already, is started again, or the object is closed. -/
theorem Internal.Sets.reset (h : s.Sets s' t c) (harmed : c.timer.armed.isSome = true) (env : Env) :
    ∃ c', s.Sets (resetTcpIdleTimeoutMaySetNullptr env t s') t c' ∧ c'.owed ≤ c.owed := by
  have hstart := h.trans (sets_uvTimerStart t s' .idle env.timerStart)
  rw [h.object] at hstart
  unfold resetTcpIdleTimeoutMaySetNullptr
  by_cases hqueue : (s'.tcps t).tcp.writeQueueSize = 0
  · rw [if_pos hqueue]
    cases hok : env.timerStart with
    | false =>
      rw [hok] at hstart
      exact ⟨_, hstart.teardown env false, Ctcp.owed_afterClose c⟩
    | true =>
      rw [hok] at hstart
      exact ⟨_, hstart, (Ctcp.owed_arm harmed .idle).le⟩
  · rw [if_neg hqueue]
    exact ⟨c, h, le_rfl⟩

/-! ### Callbacks -/

theorem sets_onConnectDone (env : Env) (status : ℤ) (hclosing : (s.tcps t).closing = true) :
    s.Sets (onConnectDone env t status s) t (s.tcps t).connectDone.afterClose := by
  unfold onConnectDone
  dsimp only
  rw [if_pos (by simp [hclosing])]
  apply Internal.Sets.teardown
  exact ⟨rfl, rfl, rfl, rfl, rfl, rfl, rfl⟩

/-- A read restarts a timer that runs, or leaves it. -/
theorem sets_onTcpRead (env : Env) (nread : ℤ) (data : List UInt8)
    (harmed : (s.tcps t).closing = false → (s.tcps t).timer.armed.isSome = true) :
    ∃ c, s.Sets (onTcpRead env t nread data (tcpAllocBuffer t s)) t c ∧
      c.owed ≤ (s.tcps t).owed := by
  have hself : s.Sets (tcpAllocBuffer t s) t (s.tcps t) :=
    (Internal.sets_self s t).frame (.call _ _)
  generalize tcpAllocBuffer t s = s₁ at hself ⊢
  unfold onTcpRead
  dsimp only
  by_cases hread : nread > 0
  · rw [if_pos hread]
    have hcalls : s.Sets ((s₁.call (.message (s₁.tcps t).node data)).call
        (.deallocateMemoryForMessage (s₁.tcps t).node)) t (s.tcps t) :=
      hself.frame ((Internal.Frame.call _ _).trans (.call _ _))
    split_ifs with hopen
    · rw [hcalls.object] at hopen
      have hclosing : (s.tcps t).closing = false := by simpa using (Bool.and_eq_true_iff.mp hopen).1
      exact hcalls.reset (harmed hclosing) env
    · exact ⟨_, hcalls, le_rfl⟩
  · rw [if_neg hread]
    have hcall := hself.frame (.call s₁ (.deallocateMemoryForMessage (s₁.tcps t).node))
    split_ifs
    · exact ⟨_, hcall.teardown env false, Ctcp.owed_afterClose _⟩
    · exact ⟨_, hcall, le_rfl⟩

/-- A write that completes restarts a timer that runs, or leaves it, or closes the connection. -/
theorem sets_onTcpWriteDone (h : s.Sets s₁ t c) (env : Env) (w : WriteWithInfo) (status : ℤ)
    (harmed : c.closing = false → c.timer.armed.isSome = true) :
    ∃ c', s.Sets (onTcpWriteDone env t w status s₁) t c' ∧ c'.owed ≤ c.owed := by
  have hemit : ∀ {s₂ : Internal} {c' : Ctcp} (obs : List Obs), s.Sets s₂ t c' →
      s.Sets (s₂.emit obs) t c' :=
    fun obs h => ⟨h.tcps, h.nextTcp, h.rest.trans ⟨rfl, rfl, rfl, rfl, rfl⟩⟩
  unfold onTcpWriteDone
  dsimp only
  split_ifs with hstatus hopen
  · exact ⟨_, hemit _ ((hemit _ h).teardown env false), Ctcp.owed_afterClose c⟩
  · have hobj := (hemit [.written (s₁.tcps t).node w.buf] h).object
    rw [hobj] at hopen
    have hclosing : c.closing = false := by simpa using (Bool.and_eq_true_iff.mp hopen).1
    obtain ⟨c', hc', hle⟩ := (hemit [.written (s₁.tcps t).node w.buf] h).reset (harmed hclosing) env
    exact ⟨c', hemit _ hc', hle⟩
  · exact ⟨c, hemit _ (hemit _ h), le_rfl⟩

theorem sets_onShutdown (s : Internal) (t : ℕ) :
    s.Sets (Ctcp.onShutdown t s) t (Ctcp.afterClose { s.tcps t with
      tcp := { (s.tcps t).tcp with shutdownReq := none } }) := by
  unfold Ctcp.onShutdown
  apply Internal.Sets.close
  exact ⟨rfl, rfl, rfl, rfl, rfl, rfl, rfl⟩

end Sets

/-- The UDP socket `u` becomes `c`. -/
theorem owed_setUdp {s s' : Internal} {u : ℕ} {c : Cudp} {m : ℕ} (hu : u < s.nextUdp)
    (hudps : s'.udps = Function.update s.udps u c) (hnext : s'.nextUdp = s.nextUdp)
    (htcps : s'.tcps = s.tcps) (hnextTcp : s'.nextTcp = s.nextTcp) (hasync : s'.async = s.async)
    (hc : c.owed + m ≤ (s.udps u).owed) : s'.owed + m ≤ s.owed := by
  have htotal := total_update (g := Cudp.owed) (f := s.udps) (x := c) hu
  unfold Internal.owed
  rw [hudps, hnext, htcps, hnextTcp, hasync]
  omega

/-! ## UDP sockets and the wakeup handle -/

/-- A UDP socket that exists is initialised before it closes, and one that is closed was
deleted; so was `m_wakeup` when it is closed. -/
structure Tidy (σ : Scope) : Prop where
  inited : ∀ u, (σ.internal.udps u).inited = true → u < σ.internal.nextUdp
  closing : ∀ u, (σ.internal.udps u).closing = true → (σ.internal.udps u).inited = true
  closed : ∀ u, (σ.internal.udps u).closed = true → .delete (.udp u) ∈ σ.internal.trace
  async : σ.internal.async.closed = true → .delete .async ∈ σ.internal.trace

section Tidy

variable {s s' : Internal} {held held' : List ℕ} {loose loose' : Option UvHandle} {u : ℕ} {c : Cudp}

/-- The UDP side stays. -/
theorem Tidy.frame (h : Tidy ⟨s, held, loose⟩) (hs : s.SameRest s')
    (htrace : s.trace <+: s'.trace) : Tidy ⟨s', held', loose'⟩ := by
  refine ⟨?_, ?_, ?_, ?_⟩ <;> dsimp only
  · rw [hs.udps, hs.nextUdp]
    exact h.inited
  · rw [hs.udps]
    exact h.closing
  · intro u hu
    rw [hs.udps] at hu
    exact htrace.subset (h.closed u hu)
  · intro hclosed
    rw [hs.async] at hclosed
    exact htrace.subset (h.async hclosed)

/-- The socket `u` is replaced. -/
theorem Tidy.update (h : Tidy ⟨s, held, loose⟩) (hudps : s'.udps = Function.update s.udps u c)
    (hnext : s.nextUdp ≤ s'.nextUdp) (htrace : s.trace <+: s'.trace) (hasync : s'.async = s.async)
    (hinited : c.inited = true → u < s'.nextUdp) (hclosing : c.closing = true → c.inited = true)
    (hclosed : c.closed = true → .delete (.udp u) ∈ s'.trace) : Tidy ⟨s', held', loose'⟩ := by
  -- what holds of the new socket and held of the old ones holds of all
  have hall : ∀ {P : ℕ → Cudp → Prop}, P u c → (∀ u', P u' (s.udps u')) →
      ∀ u', P u' (s'.udps u') := by
    intro P hself hother u'
    rw [hudps]
    by_cases heq : u' = u
    · subst heq
      rwa [Function.update_self]
    · rw [Function.update_of_ne heq]
      exact hother u'
  refine ⟨?_, ?_, ?_, ?_⟩ <;> dsimp only
  · apply hall (P := fun u' c => c.inited = true → u' < s'.nextUdp) hinited
    intro u' hu'
    have hlt : u' < s.nextUdp := h.inited u' hu'
    omega
  · exact hall (P := fun _ c => c.closing = true → c.inited = true) hclosing h.closing
  · apply hall (P := fun u' c => c.closed = true → .delete (.udp u') ∈ s'.trace) hclosed
    intro u' hu'
    exact htrace.subset (h.closed u' hu')
  · intro hc
    rw [hasync] at hc
    exact htrace.subset (h.async hc)

end Tidy

/-- Every call keeps it. -/
theorem Call.tidy {σ σ' : Scope} (hcall : Call σ σ') (h : Tidy σ) : Tidy σ' := by
  have htrace := hcall.trace_prefix
  cases hcall with
  | other held loose hframe => exact h.frame hframe.sameRest htrace
  | watch s held loose t timeout htimeout hloose
  | watchFailed s held loose t timeout htimeout hloose =>
    exact h.frame (sets_uvTimerStart t s timeout _).rest htrace
  | close s held loose t hloose => exact h.frame (sets_close t s).rest htrace
  | sendTimer s held t ok => exact h.frame (sets_uvTimerStart t s .send ok).rest htrace
  | shutdownFailed s req held t =>
    have hfree : s.SameRest ((uvShutdown t s req false).emit [.freeReq req]) :=
      ⟨rfl, rfl, rfl, rfl, rfl⟩
    exact h.frame (hfree.trans (sets_close t _).rest) htrace
  | tcpClosed s held t => exact h.frame (sets_onTcpClosed s t).rest htrace
  | timerClosed s held t => exact h.frame (sets_onTimerClosed s t).rest htrace
  | newUdp s held =>
    refine h.update (u := s.nextUdp) rfl (Nat.le_succ _) htrace rfl
      (fun _ => Nat.lt_succ_self _) ?_ ?_
    · intro _
      rfl
    · intro hclosed
      exact absurd hclosed (by simp)
  | newUdpFailed s held =>
    refine h.update (u := s.nextUdp) rfl (Nat.le_succ _) htrace rfl
      (fun _ => Nat.lt_succ_self _) ?_ ?_
    · intro hclosing
      exact absurd hclosing (by simp)
    · intro hclosed
      exact absurd hclosed (by simp)
  | setUdp s held u node receiving =>
    exact h.update (u := u) rfl le_rfl htrace rfl (h.inited u) (h.closing u) (h.closed u)
  | linkUdp s held u hu => exact ⟨h.inited, h.closing, h.closed, h.async⟩
  | unlinkUdp s held u => exact ⟨h.inited, h.closing, h.closed, h.async⟩
  | closeUdp s held u =>
    revert htrace
    unfold Cudp.closeSetNullptr
    dsimp only
    split_ifs with hinited hclosing <;> intro htrace
    · exact h.update (u := u) rfl le_rfl htrace rfl (h.inited u) (fun _ => hinited)
        fun hclosed => htrace.subset (h.closed u hclosed)
    · exact h.frame (.refl s) htrace
    · exact h.frame ⟨rfl, rfl, rfl, rfl, rfl⟩ htrace
  | sendUdp s w held u hu | takeSend s held u w hw =>
    exact h.update (u := u) rfl le_rfl htrace rfl (h.inited u) (h.closing u) (h.closed u)
  | udpClosed s held u =>
    refine h.update (u := u) rfl le_rfl htrace rfl (h.inited u) (h.closing u) fun _ => ?_
    exact List.mem_append_right _ (List.mem_singleton_self _)
  | closeAsync s held =>
    revert htrace
    unfold Casync.closeSetNullptr
    split_ifs <;> intro htrace
    · refine ⟨h.inited, h.closing, fun u hu => htrace.subset (h.closed u hu), ?_⟩
      exact fun hclosed => htrace.subset (h.async hclosed)
    · exact ⟨h.inited, h.closing, h.closed, h.async⟩
    · refine ⟨h.inited, h.closing, fun u hu => htrace.subset (h.closed u hu), ?_⟩
      exact fun hclosed => htrace.subset (h.async hclosed)
  | asyncClosed s held =>
    refine ⟨h.inited, h.closing, fun u hu => htrace.subset (h.closed u hu), fun _ => ?_⟩
    exact List.mem_append_right _ (List.mem_singleton_self _)
  | _ => exact h.frame ⟨rfl, rfl, rfl, rfl, rfl⟩ htrace

theorem tidy_of_reachable {p : Pool} (hr : poolSystem.Reachable p) :
    Tidy ⟨p.internal, [], none⟩ := by
  apply Pool.call_invariant (I := Tidy) _ (fun _ _ _ h hcall => hcall.tidy h) hr
  refine ⟨?_, ?_, ?_, ?_⟩ <;> simp

end NetworkPool
