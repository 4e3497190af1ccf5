import NetworkPool.Pool.Requests

/-!
# Handles over a run

`Call.grows` says how the flags of an object move: a handle stays initialised until its close
callback, and stays closed after it. With the lives of the objects and the ledger of the requests
this gives what becomes of the handles and the requests of every run (`handle_lifecycle`).
-/

namespace NetworkPool

open Table

/-! ## Flags -/

/-- How the flags of an object move. -/
structure Ctcp.Grows (c c' : Ctcp) : Prop where
  tcpInited : c.tcpInited = true → c'.tcpInited = true ∨ c'.tcp.closed = true
  tcpClosed : c.tcp.closed = true → c'.tcp.closed = true
  timerInited : c.timerInited = true → c'.timerInited = true ∨ c'.timer.closed = true
  timerClosed : c.timer.closed = true → c'.timer.closed = true
  closing : c.closing = true → c'.closing = true
  shutdown : c.shutdown = true → c'.shutdown = true
  listening : c.tcp.listening = true → c'.tcp.listening = true ∨ c'.closing = true

namespace Ctcp

variable {c c₁ c' : Ctcp}

theorem Grows.refl (c : Ctcp) : c.Grows c :=
  ⟨.inl, id, .inl, id, id, id, .inl⟩

theorem Grows.trans (h : c.Grows c₁) (h' : c₁.Grows c') : c.Grows c' where
  tcpInited := fun hc => (h.tcpInited hc).elim h'.tcpInited fun hclosed => .inr (h'.tcpClosed hclosed)
  tcpClosed := fun hc => h'.tcpClosed (h.tcpClosed hc)
  timerInited := fun hc =>
    (h.timerInited hc).elim h'.timerInited fun hclosed => .inr (h'.timerClosed hclosed)
  timerClosed := fun hc => h'.timerClosed (h.timerClosed hc)
  closing := fun hc => h'.closing (h.closing hc)
  shutdown := fun hc => h'.shutdown (h.shutdown hc)
  listening := fun hc => (h.listening hc).elim h'.listening fun hclosing => .inr (h'.closing hclosing)

/-- An object that did not exist. -/
theorem Grows.fresh (h : c = {}) : c.Grows c' := by
  subst h
  constructor <;> intro hc <;> exact absurd hc (by simp)

theorem Grows.afterClose (htcp : c.tcpInited = true) (hclosing : c.closing = false) :
    c.Grows c.afterClose := by
  rw [afterClose_of_open htcp hclosing]
  refine ⟨.inl, id, .inl, ?_, fun _ => rfl, id, fun _ => .inr rfl⟩
  intro hc
  dsimp only
  split_ifs <;> exact hc

/-- A handle whose close callback ran was closed. -/
theorem Flags.closing_of_tcpClosed (h : c.Flags) (hclosed : c.tcp.closed = true) :
    c.tcp.closing = true := by
  have heq : (c.tcp.closing && !c.tcpInited) = true := h.tcpClosed.symm.trans hclosed
  exact (Bool.and_eq_true_iff.mp heq).1

theorem Flags.closing_of_timerClosed (h : c.Flags) (hclosed : c.timer.closed = true) :
    c.timer.closing = true := by
  have heq : (c.timer.closing && !c.timerInited) = true := h.timerClosed.symm.trans hclosed
  exact (Bool.and_eq_true_iff.mp heq).1

/-- The deletion is the last entry of a history. -/
theorem history_of_deleted (t : ℕ) (htcp : c.tcpInited = false) (htimer : c.timerInited = false) :
    c.history t = ((if c.tcp.closing then [.uvClose (.tcp t)] else []) ++
      (if c.timer.closing then [.uvClose (.timer t)] else [])) ++ [.delete (.tcp t)] := by
  unfold history
  rw [htcp, htimer]
  rfl

end Ctcp

/-- One object is replaced. -/
theorem Internal.grows_setTcp {s : Internal} {t : ℕ} {c : Ctcp} (h : (s.tcps t).Grows c) (t' : ℕ) :
    (s.tcps t').Grows ((s.setTcp t c).tcps t') := by
  show (s.tcps t').Grows (Function.update s.tcps t c t')
  by_cases heq : t' = t
  · subst heq
    rw [Function.update_self]
    exact h
  · rw [Function.update_of_ne heq]
    exact .refl _

theorem Internal.grows_close {s : Internal} {t : ℕ} (htcp : (s.tcps t).tcpInited = true) (t' : ℕ) :
    (s.tcps t').Grows ((Ctcp.closeSetNullptr t s).tcps t') := by
  cases hclosing : (s.tcps t).closing with
  | true =>
    rw [closeSetNullptr_of_closing htcp hclosing]
    exact .refl _
  | false =>
    rw [closeSetNullptr_of_open htcp hclosing]
    exact Internal.grows_setTcp (.afterClose htcp hclosing) t'

/-- How the flags of the objects move in a call. -/
theorem Call.grows {σ σ' : Scope} (hcall : Call σ σ') (hlife : σ.internal.Life) (t : ℕ) :
    (σ.internal.tcps t).Grows (σ'.internal.tcps t) := by
  cases hcall with
  | other held loose hframe =>
    dsimp only
    rw [hframe.tcps]
    exact .refl _
  | newTcp s held | newTcpFailed s held =>
    -- the new object did not exist before
    exact Internal.grows_setTcp (.fresh (Internal.Life.fresh hlife s.nextTcp le_rfl).1) t
  | timerInit s held t' htcp htimer hclosing hclosed =>
    refine Internal.grows_setTcp ?_ t
    exact ⟨.inl, id, fun _ => .inl rfl, id, id, id, .inl⟩
  | watch s held loose t' timeout htimeout hloose htcp hclosing hqueue =>
    refine Internal.grows_setTcp (s := s.emit [.uvTimerStart t' timeout]) ?_ t
    exact ⟨.inl, id, .inl, id, id, id, .inl⟩
  | sendTimer s held t' ok husable =>
    cases ok with
    | false => exact .refl _
    | true =>
      refine Internal.grows_setTcp (s := s.emit [.uvTimerStart t' .send]) ?_ t
      exact ⟨.inl, id, .inl, id, id, id, .inl⟩
  | write s w held t' husable harmed htimer =>
    refine Internal.grows_setTcp (s := s.emit [.uvWrite t' (s.tcps t').node w.buf]) ?_ t
    exact ⟨.inl, id, .inl, id, id, id, .inl⟩
  | shutdown s req held t' husable hreq harmed htimer =>
    have hqueued : (s.tcps t).Grows ((uvShutdown t' s req true).tcps t) := by
      refine Internal.grows_setTcp (s := s.emit [.uvShutdown t']) ?_ t
      exact ⟨.inl, id, .inl, id, id, id, .inl⟩
    refine hqueued.trans (Internal.grows_setTcp ?_ t)
    exact ⟨.inl, id, .inl, id, id, fun _ => rfl, .inl⟩
  | shutdownFailed s req held t' husable =>
    exact Internal.grows_close (s := (s.emit [.uvShutdown t']).emit [.freeReq req])
      husable.established.tcpInited t
  | close s held loose t' hloose htcp => exact Internal.grows_close htcp t
  | tcpClosed s held t' hclosing hclosed hconnect hshutdown hwrites =>
    have hset := Internal.grows_setTcp (s := s) (t := t') (c := { s.tcps t' with
      tcp := { (s.tcps t').tcp with closed := true }, tcpInited := false })
      ⟨fun _ => .inr rfl, fun _ => rfl, .inl, id, id, id, .inl⟩ t
    unfold Ctcp.onTcpClosed
    dsimp only
    split_ifs <;> exact hset
  | timerClosed s held t' hclosing hclosed =>
    have hset := Internal.grows_setTcp (s := s) (t := t') (c := { s.tcps t' with
      timer := { (s.tcps t').timer with closed := true }, timerInited := false })
      ⟨.inl, id, fun _ => .inr rfl, fun _ => rfl, id, id, .inl⟩ t
    unfold Ctcp.onTimerClosed
    dsimp only
    split_ifs <;> exact hset
  | listen s held t' htcp hclosing =>
    refine Internal.grows_setTcp (t := t') ?_ t
    exact ⟨.inl, id, .inl, id, id, id, fun _ => .inl rfl⟩
  | setNode s held t' | readStart s held t' | connect s req held t'
  | fire s held t' | takeWrite s held t' | takeConnect s held t' | takeShutdown s held t'
  | drained s held t' =>
    refine Internal.grows_setTcp (t := t') ?_ t
    exact ⟨.inl, id, .inl, id, id, id, .inl⟩
  | closeUdp s held u =>
    unfold Cudp.closeSetNullptr
    dsimp only
    split_ifs <;> exact .refl _
  | closeAsync s held =>
    unfold Casync.closeSetNullptr
    split_ifs <;> exact .refl _
  | _ => exact .refl _

theorem Calls.grows {σ σ' : Scope} (hcalls : Calls σ σ') (hlife : σ.internal.Life) (t : ℕ) :
    (σ.internal.tcps t).Grows (σ'.internal.tcps t) := by
  induction hcalls with
  | refl => exact .refl _
  | tail hcalls hcall ih => exact ih.trans (hcall.grows (Calls.life hcalls hlife) t)

/-! ## Requests of a closed stream -/

/-- A stream that is not initialised has no requests. -/
def Internal.Idle (s : Internal) : Prop :=
  ∀ t, (s.tcps t).tcpInited = false → (s.tcps t).requests = 0

theorem Internal.Idle.setTcp {s : Internal} {t : ℕ} {c : Ctcp} (h : s.Idle)
    (hc : c.tcpInited = false → c.requests = 0) : (s.setTcp t c).Idle := by
  intro t' ht'
  have hset : (s.setTcp t c).tcps t' = Function.update s.tcps t c t' := rfl
  rw [hset] at ht' ⊢
  by_cases heq : t' = t
  · subst heq
    rw [Function.update_self] at ht' ⊢
    exact hc ht'
  · rw [Function.update_of_ne heq] at ht' ⊢
    exact h t' ht'

theorem Internal.Idle.close {s : Internal} {t : ℕ} (h : s.Idle)
    (htcp : (s.tcps t).tcpInited = true) : (Ctcp.closeSetNullptr t s).Idle := by
  cases hclosing : (s.tcps t).closing with
  | true =>
    rw [closeSetNullptr_of_closing htcp hclosing]
    exact h
  | false =>
    rw [closeSetNullptr_of_open htcp hclosing]
    refine h.setTcp fun hn => absurd ?_ (Bool.eq_false_iff.mp hn)
    rw [Ctcp.afterClose_tcpInited]
    exact htcp

/-- A stream gets requests while it is initialised, and its close callback comes after all of
theirs. -/
theorem Call.idle {σ σ' : Scope} (hcall : Call σ σ') (h : σ.internal.Idle) : σ'.internal.Idle := by
  -- an object whose stream is initialised
  have hinited : ∀ {s : Internal} {t : ℕ} {c : Ctcp}, s.Idle → c.tcpInited = true →
      (s.setTcp t c).Idle := fun hs hc => hs.setTcp fun hn => absurd (hc.symm.trans hn) (by simp)
  cases hcall with
  | other held loose hframe =>
    intro t ht
    have htcps := hframe.tcps
    dsimp only at ht ⊢
    rw [htcps] at ht ⊢
    exact h t ht
  | newTcp s held => exact hinited (s := { s with nextTcp := s.nextTcp + 1 }) h rfl
  | newTcpFailed s held =>
    exact Internal.Idle.setTcp (s := { s with nextTcp := s.nextTcp + 1 }) h fun _ => rfl
  | timerInit s held t htcp | setNode s held t node htcp | listen s held t htcp
  | readStart s held t htcp | connect s req held t htcp | fire s held t htcp
  | takeWrite s held t w hw htcp | takeConnect s held t req hreq htcp
  | takeShutdown s held t req hreq htcp => exact hinited (t := t) h htcp
  | watch s held loose t timeout htimeout hloose htcp =>
    exact hinited (s := s.emit [.uvTimerStart t timeout]) h htcp
  | sendTimer s held t ok husable =>
    cases ok with
    | false => exact h
    | true => exact hinited (s := s.emit [.uvTimerStart t .send]) h husable.established.tcpInited
  | write s w held t husable harmed htimer =>
    exact hinited (s := s.emit [.uvWrite t (s.tcps t).node w.buf]) h husable.established.tcpInited
  | shutdown s req held t husable hreq harmed htimer =>
    have hqueued : (uvShutdown t s req true).Idle :=
      hinited (s := s.emit [.uvShutdown t]) h husable.established.tcpInited
    refine hinited hqueued ?_
    have hobj := setTcp_tcps (s.emit [.uvShutdown t]) t
      { s.tcps t with tcp := { (s.tcps t).tcp with shutdownReq := some req } }
    exact (congrArg Ctcp.tcpInited hobj).trans husable.established.tcpInited
  | shutdownFailed s req held t husable =>
    exact Internal.Idle.close (s := (s.emit [.uvShutdown t]).emit [.freeReq req]) h
      husable.established.tcpInited
  | close s held loose t hloose htcp => exact Internal.Idle.close h htcp
  | drained s held t n hn => exact Internal.Idle.setTcp h (h t)
  | tcpClosed s held t hclosing hclosed hconnect hshutdown hwrites =>
    have hset : (s.setTcp t { s.tcps t with
        tcp := { (s.tcps t).tcp with closed := true }, tcpInited := false }).Idle := by
      refine Internal.Idle.setTcp h fun _ => ?_
      simp [Ctcp.requests, hconnect, hshutdown, hwrites]
    unfold Ctcp.onTcpClosed
    dsimp only
    split_ifs <;> exact hset
  | timerClosed s held t hclosing hclosed =>
    have hset : (s.setTcp t { s.tcps t with
        timer := { (s.tcps t).timer with closed := true }, timerInited := false }).Idle :=
      Internal.Idle.setTcp h (h t)
    unfold Ctcp.onTimerClosed
    dsimp only
    split_ifs <;> exact hset
  | closeUdp s held u =>
    unfold Cudp.closeSetNullptr
    dsimp only
    split_ifs <;> exact h
  | closeAsync s held =>
    unfold Casync.closeSetNullptr
    split_ifs <;> exact h
  | _ => exact h

theorem idle_of_reachable {p : Pool} (hr : poolSystem.Reachable p) : p.internal.Idle :=
  Pool.call_invariant (I := fun σ => σ.internal.Idle) (fun _ _ => rfl)
    (fun _ _ _ h hcall => hcall.idle h) hr

/-! ## The trace of a call -/

/-- The calls the pool makes on connections only. -/
def Obs.uses (t : ℕ) : Obs → Bool
  | .uvTimerStart t' .send | .uvWrite t' _ _ | .uvShutdown t' => t' = t
  | _ => false

/-- No timer is started, and nothing written or shut down. -/
def Untimed (obs : List Obs) : Prop :=
  ∀ o ∈ obs, ∀ t, o.timed t = false

theorem Obs.timed_of_uses {t : ℕ} {o : Obs} (h : o.uses t = true) : o.timed t = true := by
  cases o with
  | uvTimerStart t' timeout => cases timeout <;> simp_all [Obs.uses, Obs.timed]
  | _ => simp_all [Obs.uses, Obs.timed]

/-- An entry starts the timer of one object. -/
theorem Obs.timed_unique {t t' : ℕ} {o : Obs} (h : o.timed t = true) (h' : o.timed t' = true) :
    t = t' := by
  cases o <;> simp_all [Obs.timed]

/-- What a call appends to the trace. -/
inductive Call.Appends (σ σ' : Scope) : List Obs → Prop
  | untimed {obs : List Obs} (h : Untimed obs) : Appends σ σ' obs
  | timed (t : ℕ) (o : Obs) (rest : List Obs) (ho : o.timed t = true) (hrest : Untimed rest)
      (husable : o.uses t = true → σ.internal.Usable t)
      (hshutdown : o = .uvShutdown t → (σ'.internal.tcps t).closing = true ∨
        (σ'.internal.tcps t).shutdown = true) : Appends σ σ' (o :: rest)

theorem closeSetNullptr_trace {s : Internal} {t : ℕ} (htcp : (s.tcps t).tcpInited = true) :
    ∃ obs, (Ctcp.closeSetNullptr t s).trace = s.trace ++ obs ∧ Untimed obs := by
  cases hclosing : (s.tcps t).closing with
  | true =>
    rw [closeSetNullptr_of_closing htcp hclosing]
    exact ⟨[], by simp, by simp [Untimed]⟩
  | false =>
    rw [closeSetNullptr_of_open htcp hclosing]
    refine ⟨_, rfl, ?_⟩
    cases (s.tcps t).timerInited <;> simp [Untimed, Obs.timed]

theorem closeSetNullptr_closing {s : Internal} {t : ℕ} (htcp : (s.tcps t).tcpInited = true) :
    ((Ctcp.closeSetNullptr t s).tcps t).closing = true := by
  cases hclosing : (s.tcps t).closing with
  | true =>
    rw [closeSetNullptr_of_closing htcp hclosing]
    exact hclosing
  | false =>
    rw [closeSetNullptr_of_open htcp hclosing]
    have hobj := setTcp_tcps s t (s.tcps t).afterClose
    refine (congrArg Ctcp.closing hobj).trans ?_
    exact Ctcp.afterClose_closing fun _ => htcp

theorem Call.appends {σ σ' : Scope} (hcall : Call σ σ') :
    ∃ obs, σ'.internal.trace = σ.internal.trace ++ obs ∧ Call.Appends σ σ' obs := by
  have hnil : Untimed [] := by simp [Untimed]
  cases hcall with
  | other held loose hframe =>
    obtain ⟨obs, htrace, hneutral⟩ := hframe.trace
    exact ⟨obs, htrace, .untimed fun o ho t => Obs.not_timed_of_neutral t (hneutral o ho)⟩
  | watch s held loose t timeout htimeout hloose htcp hclosing hqueue
  | watchFailed s held loose t timeout htimeout hloose htcp hclosing =>
    refine ⟨[.uvTimerStart t timeout], rfl, .timed t _ [] (by simp [Obs.timed]) hnil
      ?_ (by simp)⟩
    cases timeout <;> simp_all [Obs.uses]
  | sendTimer s held t ok husable =>
    refine ⟨[.uvTimerStart t .send], ?_, .timed t _ [] (by simp [Obs.timed]) hnil
      (fun _ => husable) (by simp)⟩
    cases ok <;> rfl
  | write s w held t husable harmed htimer =>
    exact ⟨[.uvWrite t (s.tcps t).node w.buf], rfl, .timed t _ [] (by simp [Obs.timed])
      hnil (fun _ => husable) (by simp)⟩
  | writeFailed s w held t husable =>
    exact ⟨[.uvWrite t (s.tcps t).node w.buf], rfl, .timed t _ [] (by simp [Obs.timed])
      hnil (fun _ => husable) (by simp)⟩
  | shutdown s req held t husable hreq harmed htimer =>
    refine ⟨[.uvShutdown t], rfl, .timed t _ [] (by simp [Obs.timed]) hnil
      (fun _ => husable) fun _ => .inr ?_⟩
    exact congrArg Ctcp.shutdown (setTcp_tcps (uvShutdown t s req true) t _)
  | shutdownFailed s req held t husable =>
    have htcp := husable.established.tcpInited
    obtain ⟨obs, htrace, hobs⟩ := closeSetNullptr_trace
      (s := (s.emit [.uvShutdown t]).emit [.freeReq req]) htcp
    refine ⟨.uvShutdown t :: .freeReq req :: obs, ?_, .timed t _ _ (by simp [Obs.timed]) ?_
      (fun _ => husable) fun _ => .inl ?_⟩
    · refine htrace.trans ?_
      simp [Internal.emit]
    · intro o ho t'
      rcases List.mem_cons.mp ho with rfl | ho
      · rfl
      · exact hobs o ho t'
    · exact closeSetNullptr_closing (s := (s.emit [.uvShutdown t]).emit [.freeReq req]) htcp
  | close s held loose t hloose htcp =>
    obtain ⟨obs, htrace, hobs⟩ := closeSetNullptr_trace htcp
    exact ⟨obs, htrace, .untimed hobs⟩
  | tcpClosed s held t hclosing hclosed hconnect hshutdown hwrites =>
    unfold Ctcp.onTcpClosed
    dsimp only
    split_ifs
    · exact ⟨[.delete (.tcp t)], rfl, .untimed (by simp [Untimed, Obs.timed])⟩
    · exact ⟨[], (List.append_nil _).symm, .untimed hnil⟩
  | timerClosed s held t hclosing hclosed =>
    unfold Ctcp.onTimerClosed
    dsimp only
    split_ifs
    · exact ⟨[.delete (.tcp t)], rfl, .untimed (by simp [Untimed, Obs.timed])⟩
    · exact ⟨[], (List.append_nil _).symm, .untimed hnil⟩
  | closeUdp s held u =>
    unfold Cudp.closeSetNullptr
    dsimp only
    split_ifs
    · exact ⟨[.uvClose (.udp u)], rfl, .untimed (by simp [Untimed, Obs.timed])⟩
    · exact ⟨[], (List.append_nil _).symm, .untimed hnil⟩
    · exact ⟨[.delete (.udp u)], rfl, .untimed (by simp [Untimed, Obs.timed])⟩
  | closeAsync s held =>
    unfold Casync.closeSetNullptr
    split_ifs
    · exact ⟨[.uvClose .async], rfl, .untimed (by simp [Untimed, Obs.timed])⟩
    · exact ⟨[], (List.append_nil _).symm, .untimed hnil⟩
    · exact ⟨[.delete .async], rfl, .untimed (by simp [Untimed, Obs.timed])⟩
  | free s req held loose =>
    exact ⟨[.freeReq req], rfl, .untimed (by simp [Untimed, Obs.timed])⟩
  | newTcpFailed s held =>
    exact ⟨[.delete (.tcp s.nextTcp)], rfl, .untimed (by simp [Untimed, Obs.timed])⟩
  | connect s req held t htcp hreq hqueue =>
    exact ⟨[.uvTcpConnect t (s.tcps t).node], rfl, .untimed (by simp [Untimed, Obs.timed])⟩
  | newUdpFailed s held =>
    exact ⟨[.delete (.udp s.nextUdp)], rfl, .untimed (by simp [Untimed, Obs.timed])⟩
  | udpClosed s held u => exact ⟨[.delete (.udp u)], rfl, .untimed (by simp [Untimed, Obs.timed])⟩
  | asyncClosed s held => exact ⟨[.delete .async], rfl, .untimed (by simp [Untimed, Obs.timed])⟩
  | _ => exact ⟨[], (List.append_nil _).symm, .untimed hnil⟩

theorem Call.trace_prefix {σ σ' : Scope} (hcall : Call σ σ') :
    σ.internal.trace <+: σ'.internal.trace := by
  obtain ⟨obs, htrace, -⟩ := hcall.appends
  exact ⟨obs, htrace.symm⟩

theorem Calls.trace_prefix {σ σ' : Scope} (hcalls : Calls σ σ') :
    σ.internal.trace <+: σ'.internal.trace := by
  induction hcalls with
  | refl => exact List.prefix_rfl
  | tail _ hcall ih => exact ih.trans hcall.trace_prefix

/-! ## Requests that complete -/

/-- The request whose callback runs. -/
def UvEvent.completes (s : Internal) : UvEvent → Option ℕ
  | .connectDone t _ _ => (s.tcps t).tcp.connectReq
  | .shutdownDone t => (s.tcps t).tcp.shutdownReq
  | .writeDone _ req _ _ | .udpSendDone _ req _ => some req
  | _ => none

/-- A callback of a request frees it. -/
theorem uvStep_frees {s s' : Internal} {e : UvEvent} {req : ℕ} (hready : s.Ready)
    (hstep : uvStep s e = some s') (hreq : e.completes s = some req) :
    .freeReq req ∈ s'.trace := by
  cases e with
  | connectDone t status env =>
    simp only [uvStep] at hstep
    split at hstep
    · rename_i hsome
      obtain rfl : onConnectDone env t status s = s' := by simpa using hstep
      have hcalls : Calls ⟨connectTaken t s, [], none⟩ ⟨onConnectDone env t status s, [], none⟩ :=
        connectDone_rest_calls env (hready.wf.tcps t) hsome (hready.queue t hsome) status
      have hreq' : (s.tcps t).tcp.connectReq = some req := hreq
      refine hcalls.trace_prefix.subset ?_
      simp [connectTaken, Internal.setTcp, Internal.emit, hreq']
    · exact absurd hstep (by simp)
  | shutdownDone t =>
    simp only [uvStep] at hstep
    split at hstep
    · rename_i hsome
      obtain rfl : Ctcp.onShutdown t s = s' := by simpa using hstep
      have hreq' : (s.tcps t).tcp.shutdownReq = some req := hreq
      have htcp := ((hready.wf.tcps t).shutdownReq hsome).2
      have hcalls : Calls ⟨(s.setTcp t { s.tcps t with
            tcp := { (s.tcps t).tcp with shutdownReq := none } }).emit [.freeReq req], [], none⟩
          ⟨Ctcp.onShutdown t s, [], none⟩ := by
        have heq : Ctcp.onShutdown t s = Ctcp.closeSetNullptr t ((s.setTcp t { s.tcps t with
            tcp := { (s.tcps t).tcp with shutdownReq := none } }).emit [.freeReq req]) := by
          unfold Ctcp.onShutdown
          dsimp only
          rw [hreq']
          rfl
        rw [heq]
        refine .single (.close _ [] none t (.inl rfl) ?_)
        exact (congrArg Ctcp.tcpInited (setTcp_tcps _ _ _)).trans htcp
      refine hcalls.trace_prefix.subset ?_
      simp [Internal.emit]
    · exact absurd hstep (by simp)
  | writeDone t r status env =>
    simp only [uvStep] at hstep
    split at hstep
    · rename_i w hfind
      obtain rfl := Option.some.inj hstep
      obtain rfl : r = req := by simpa [UvEvent.completes] using hreq
      have hw : w.req = r := by simpa using List.find?_some hfind
      simp [onTcpWriteDone, Internal.emit, hw]
    · exact absurd hstep (by simp)
  | udpSendDone u r status =>
    simp only [uvStep] at hstep
    split at hstep
    · rename_i w hfind
      obtain rfl := Option.some.inj hstep
      obtain rfl : r = req := by simpa [UvEvent.completes] using hreq
      have hw : w.req = r := by simpa using List.find?_some hfind
      simp [onUdpSendDone, Internal.emit, hw]
    · exact absurd hstep (by simp)
  | _ => exact absurd hreq (by simp [UvEvent.completes])

/-! ## Runs -/

/-- What the end `p` of the run `es` says about an object `t` that was deleted. -/
structure Retired (es : List Event) (p : Pool) (t : ℕ) : Prop where
  /-- Its stream, if it was ever initialised, was closed once, and the close callback ran. -/
  stream : poolSystem.SomeState (fun q => (q.internal.tcps t).tcpInited = true) es →
    p.internal.trace.count (.uvClose (.tcp t)) = 1 ∧ (p.internal.tcps t).tcp.closed = true
  /-- So was its timer. -/
  timer : poolSystem.SomeState (fun q => (q.internal.tcps t).timerInited = true) es →
    p.internal.trace.count (.uvClose (.timer t)) = 1 ∧ (p.internal.tcps t).timer.closed = true
  /-- Nothing is done to it afterwards. -/
  last : ∀ a b, p.internal.trace = a ++ .delete (.tcp t) :: b → ∀ o ∈ b, o.about t = false
  /-- None of its requests is pending. -/
  requests : (p.internal.tcps t).requests = 0
  registry : ¬ p.internal.table.InRegistry t

section Runs

variable {es : List Event} {p p' : Pool} {t : ℕ}

/-- The flags of an object over one step. -/
theorem grows_of_step {e : Event} (hr : poolSystem.Reachable p) (hstep : p.step e = some p')
    (t : ℕ) : (p.internal.tcps t).Grows (p'.internal.tcps t) :=
  Calls.grows (Pool.calls_of_step (Pool.ready_of_reachable hr) hstep) (Pool.life_of_reachable hr) t

/-- A stream that was initialised still is, or its close callback ran. -/
theorem tcpInited_persists (hrun : poolSystem.run es = some p)
    (h : poolSystem.SomeState (fun q => (q.internal.tcps t).tcpInited = true) es) :
    (p.internal.tcps t).tcpInited = true ∨ (p.internal.tcps t).tcp.closed = true := by
  obtain ⟨pre, post, q, hes, hpre, hq⟩ := h
  refine Lib.Lts.SomeState.persists (P := fun q => (q.internal.tcps t).tcpInited = true ∨
    (q.internal.tcps t).tcp.closed = true) ⟨pre, post, q, hes, hpre, .inl hq⟩ hrun ?_
  intro q e q' hr hq hstep
  have hgrows := grows_of_step hr hstep t
  exact hq.elim hgrows.tcpInited fun hclosed => .inr (hgrows.tcpClosed hclosed)

theorem timerInited_persists (hrun : poolSystem.run es = some p)
    (h : poolSystem.SomeState (fun q => (q.internal.tcps t).timerInited = true) es) :
    (p.internal.tcps t).timerInited = true ∨ (p.internal.tcps t).timer.closed = true := by
  obtain ⟨pre, post, q, hes, hpre, hq⟩ := h
  refine Lib.Lts.SomeState.persists (P := fun q => (q.internal.tcps t).timerInited = true ∨
    (q.internal.tcps t).timer.closed = true) ⟨pre, post, q, hes, hpre, .inl hq⟩ hrun ?_
  intro q e q' hr hq hstep
  have hgrows := grows_of_step hr hstep t
  exact hq.elim hgrows.timerInited fun hclosed => .inr (hgrows.timerClosed hclosed)

/-- The calls on the handles of an object, and its deletion. -/
theorem history_of_reachable (hr : poolSystem.Reachable p) (t : ℕ) :
    p.internal.trace.filter (Obs.about t) = [] ∨
      p.internal.trace.filter (Obs.about t) = (p.internal.tcps t).history t := by
  have hlife := Pool.life_of_reachable hr
  by_cases ht : t < p.internal.nextTcp
  · exact .inr (hlife.history t ht)
  · exact .inl (hlife.fresh t (Nat.le_of_not_lt ht)).2

/-- An object that was deleted has no initialised handle. -/
theorem inited_of_delete (hr : poolSystem.Reachable p) (hdel : .delete (.tcp t) ∈ p.internal.trace) :
    (p.internal.tcps t).tcpInited = false ∧ (p.internal.tcps t).timerInited = false ∧
      p.internal.trace.filter (Obs.about t) = (p.internal.tcps t).history t := by
  have hmem : .delete (.tcp t) ∈ p.internal.trace.filter (Obs.about t) :=
    List.mem_filter.mpr ⟨hdel, by simp [Obs.about]⟩
  rcases history_of_reachable hr t with hnil | hhistory
  · rw [hnil] at hmem
    exact absurd hmem (by simp)
  · rw [hhistory] at hmem
    simp only [Ctcp.history] at hmem
    cases htcp : (p.internal.tcps t).tcpInited <;> cases htimer : (p.internal.tcps t).timerInited <;>
      simp_all

/-- An entry about `t` counts as often as in the history of `t`. -/
theorem count_about {tr : List Obs} {o : Obs} (ho : o.about t = true) :
    tr.count o = (tr.filter (Obs.about t)).count o := by
  rw [List.count_filter ho]

/-- An object of a registry has an initialised stream. -/
theorem tcpInited_of_inRegistry (hready : p.internal.Ready) (h : p.internal.table.InRegistry t) :
    (p.internal.tcps t).tcpInited = true := by
  rcases h with hconnecting | ⟨node, hstream⟩ | ⟨node, hserver⟩
  · exact hready.tcpInited_connecting hconnecting
  · exact (hready.wf.stream node t hstream).tcpInited
  · exact hready.tcpInited_server hserver

theorem delete_count_le_one (hr : poolSystem.Reachable p) (t : ℕ) :
    p.internal.trace.count (.delete (.tcp t)) ≤ 1 := by
  rw [count_about (t := t) (by simp [Obs.about])]
  rcases history_of_reachable hr t with hnil | hhistory
  · rw [hnil]
    simp
  · rw [hhistory]
    unfold Ctcp.history
    split_ifs <;> simp

theorem retired_of_delete (hrun : poolSystem.run es = some p)
    (hdel : .delete (.tcp t) ∈ p.internal.trace) : Retired es p t := by
  have hr := Lib.Lts.reachable_of_run hrun
  obtain ⟨htcp, htimer, hhistory⟩ := inited_of_delete hr hdel
  have hflags := (Pool.life_of_reachable hr).flags t
  constructor
  · intro hinited
    have hclosed : (p.internal.tcps t).tcp.closed = true :=
      (tcpInited_persists hrun hinited).resolve_left (by simp [htcp])
    have hclosing := hflags.closing_of_tcpClosed hclosed
    refine ⟨?_, hclosed⟩
    rw [count_about (t := t) (by simp [Obs.about]), hhistory]
    unfold Ctcp.history
    split_ifs <;> simp
  · intro hinited
    have hclosed : (p.internal.tcps t).timer.closed = true :=
      (timerInited_persists hrun hinited).resolve_left (by simp [htimer])
    have hclosing := hflags.closing_of_timerClosed hclosed
    refine ⟨?_, hclosed⟩
    rw [count_about (t := t) (by simp [Obs.about]), hhistory]
    unfold Ctcp.history
    split_ifs <;> simp
  · intro a b htrace
    -- an entry about `t` after the deletion would end the history
    have hsplit : a.filter (Obs.about t) ++ .delete (.tcp t) :: b.filter (Obs.about t) =
        (p.internal.tcps t).history t := by
      rw [← hhistory, htrace, List.filter_append, List.filter_cons_of_pos (by simp [Obs.about])]
    have hnil : b.filter (Obs.about t) = [] := by
      rcases List.eq_nil_or_concat (b.filter (Obs.about t)) with hnil | ⟨l, o, hconcat⟩
      · exact hnil
      · rw [hconcat, List.concat_eq_append, ← List.cons_append, ← List.append_assoc] at hsplit
        rw [Ctcp.history_of_deleted t htcp htimer] at hsplit
        obtain ⟨hleft, -⟩ := List.append_inj' hsplit rfl
        have hmem : Obs.delete (.tcp t) ∈ a.filter (Obs.about t) ++ .delete (.tcp t) :: l := by simp
        rw [hleft] at hmem
        split_ifs at hmem <;> simp at hmem
    intro o ho
    simpa using List.filter_eq_nil_iff.mp hnil o ho
  · exact idle_of_reachable hr t htcp
  · intro hreg
    exact absurd ((tcpInited_of_inRegistry (Pool.ready_of_reachable hr) hreg).symm.trans htcp)
      (by simp)

/-- A request was allocated and is pending or freed, once, or was not allocated. -/
theorem request_count (hr : poolSystem.Reachable p) (req : ℕ) :
    p.internal.requests.count req + p.internal.trace.count (.freeReq req) =
      if req < p.internal.nextReq then 1 else 0 := by
  have hledger := congrArg (Multiset.count req) (ledger_of_reachable hr)
  rw [Multiset.count_add, Multiset.count_add, count_freed] at hledger
  have hnodup : (Multiset.range p.internal.nextReq).count req =
      if req < p.internal.nextReq then 1 else 0 := by
    rw [Multiset.count_eq_of_nodup (Multiset.nodup_range _)]
    simp
  rw [hnodup] at hledger
  simpa using hledger

/-- **Lifecycle of handles and requests.** At the end of every run an object has been deleted at
most once, and if so each of its handles that was initialised was closed once, its close callback
has run, and no registry holds the object. Every request ever allocated is pending on one handle
or freed, once, and its callback frees it. -/
theorem handle_lifecycle (hrun : poolSystem.run es = some p) :
    (∀ t, p.internal.trace.count (.delete (.tcp t)) ≤ 1 ∧
      (.delete (.tcp t) ∈ p.internal.trace → Retired es p t)) ∧
    (∀ req, p.internal.requests.count req + p.internal.trace.count (.freeReq req) =
      if req < p.internal.nextReq then 1 else 0) ∧
    ∀ e p' req, p.step (.uv e) = some p' → e.completes p.internal = some req →
      p'.internal.trace.count (.freeReq req) = 1 ∧ p'.internal.requests.count req = 0 := by
  have hr := Lib.Lts.reachable_of_run hrun
  refine ⟨fun t => ⟨delete_count_le_one hr t, retired_of_delete hrun⟩, request_count hr, ?_⟩
  intro e p' req hstep hreq
  have hmem : Obs.freeReq req ∈ p'.internal.trace := by
    simp only [Pool.step] at hstep
    split at hstep
    · exact absurd hstep (by simp)
    · split at hstep
      · rename_i s' huv
        obtain rfl := Option.some.inj hstep
        exact uvStep_frees (Pool.ready_of_reachable hr) huv hreq
      · exact absurd hstep (by simp)
  have hpos : 0 < p'.internal.trace.count (.freeReq req) := List.count_pos_iff.mpr hmem
  have hr' : poolSystem.Reachable p' := .step (e := .uv e) hr hstep
  have hcount := request_count hr' req
  have hle : (if req < p'.internal.nextReq then 1 else 0) ≤ 1 := by split_ifs <;> omega
  omega

/-- A connection that is opened, closed with a write pending, and deleted. -/
theorem handle_lifecycle_closed :
    ∃ es p, poolSystem.run es = some p ∧ .delete (.tcp 0) ∈ p.internal.trace ∧ Retired es p 0 ∧
      p.internal.trace.count (.freeReq 1) = 1 := by
  have hrun := (Option.some_get (x := poolSystem.run (openRun 0 ++ closeRun true ++
    [.uv (.writeDone 0 1 (-125) {}), .uv (.tcpClosed 0), .uv (.timerClosed 0)])) (by decide)).symm
  have hdel : Obs.delete (.tcp 0) ∈ ((poolSystem.run (openRun 0 ++ closeRun true ++
    [.uv (.writeDone 0 1 (-125) {}), .uv (.tcpClosed 0), .uv (.timerClosed 0)])).get
      (by decide)).internal.trace := by decide
  exact ⟨_, _, hrun, hdel, ((handle_lifecycle hrun).1 0).2 hdel, by decide⟩

end Runs

end NetworkPool
