import NetworkPool.Pool.HandleLifecycle

/-!
# The timer of a connection

An open object that is no listener has its timer armed whenever no callback runs, and an object with
bytes in its write queue has it armed with the send timeout. `timings` is what the timer was started
for: the last entry but one is the start for the last write or for a graceful close after it.
-/

namespace NetworkPool

open Table

/-! ## Timings -/

/-- The starts of the timer of `t`, the writes and the shutdowns. -/
def timings (t : ℕ) (tr : List Obs) : List Obs :=
  tr.filter (Obs.timed t)

/-- What a timer is started for with the send timeout. -/
def Obs.sends (t : ℕ) : Obs → Bool
  | .uvWrite t' _ _ | .uvShutdown t' => t' = t
  | _ => false

/-- The timer was last started for a write or a shutdown, which followed. -/
def Deadline (t : ℕ) (l : List Obs) : Prop :=
  ∃ m o, l = m ++ [.uvTimerStart t .send, o] ∧ o.sends t = true

section Timings

variable {t : ℕ} {tr obs : List Obs} {o : Obs}

theorem timings_append (t : ℕ) (tr obs : List Obs) :
    timings t (tr ++ obs) = timings t tr ++ timings t obs :=
  List.filter_append ..

theorem timings_untimed (h : ∀ o ∈ obs, o.timed t = false) : timings t (tr ++ obs) = timings t tr := by
  have hnil : timings t obs = [] := List.filter_eq_nil_iff.mpr fun o ho => by simp [h o ho]
  rw [timings_append, hnil, List.append_nil]

theorem timings_concat (ho : o.timed t = true) : timings t (tr ++ [o]) = timings t tr ++ [o] := by
  rw [timings_append]
  simp [timings, ho]

/-- The timer was started for a send, and the send has not come yet. -/
theorem SendTimed.timings (h : SendTimed t tr) :
    ∃ m, NetworkPool.timings t tr = m ++ [.uvTimerStart t .send] := by
  obtain ⟨a, b, rfl, hb⟩ := h
  refine ⟨NetworkPool.timings t a, ?_⟩
  rw [List.append_cons, timings_untimed hb, timings_concat (by simp [Obs.timed])]

end Timings

/-! ## Watched objects -/

/-- Neither closing nor a listener. -/
structure Ctcp.Open (c : Ctcp) : Prop where
  closing : c.closing = false
  listening : c.tcp.listening = false

/-- The timer of `t` is armed, for the data in the write queue if there is any. -/
structure Ctcp.Watched (t : ℕ) (l : List Obs) (c : Ctcp) : Prop where
  armed : c.tcpInited = true → c.timer.armed.isSome = true
  queue : c.tcpInited = true → 0 < c.tcp.writeQueueSize →
    c.timer.armed = some .send ∧ Deadline t l
  /-- No start for a send is left over. -/
  settled : l.getLast? ≠ some (.uvTimerStart t .send)

/-- The open objects that no callback has in hand are watched. -/
def Watched (σ : Scope) : Prop :=
  ∀ t, σ.loose ≠ some (.tcp t) → (σ.internal.tcps t).Open →
    (σ.internal.tcps t).Watched t (timings t σ.internal.trace)

section Watched

variable {s s' : Internal} {held held' : List ℕ} {loose loose' : Option UvHandle} {t : ℕ} {c : Ctcp}
  {obs : List Obs}

/-- The objects stay, and no timer is started. -/
theorem Watched.frame (h : Watched ⟨s, held, loose⟩) (htcps : s'.tcps = s.tcps)
    (htrace : s'.trace = s.trace ++ obs) (hobs : Untimed obs)
    (hloose : ∀ t, loose = some (.tcp t) → loose' = some (.tcp t)) :
    Watched ⟨s', held', loose'⟩ := by
  intro t ht hopen
  dsimp only at hopen ⊢
  rw [htcps] at hopen ⊢
  rw [htrace, timings_untimed fun o ho => hobs o ho t]
  exact h t (fun hl => ht (hloose t hl)) hopen

/-- The object `t` is replaced, and its own timer started at most. -/
theorem Watched.update (h : Watched ⟨s, held, loose⟩) (hloose : loose = none ∨ loose = some (.tcp t))
    (htcps : s'.tcps = Function.update s.tcps t c) (htrace : s'.trace = s.trace ++ obs)
    (hobs : ∀ o ∈ obs, ∀ t', t' ≠ t → o.timed t' = false)
    (hself : loose' ≠ some (.tcp t) → c.Open → c.Watched t (timings t s'.trace)) :
    Watched ⟨s', held', loose'⟩ := by
  intro t' ht' hopen
  dsimp only at hopen ⊢
  rw [htcps] at hopen ⊢
  by_cases heq : t' = t
  · subst heq
    rw [Function.update_self] at hopen ⊢
    exact hself ht' hopen
  · rw [Function.update_of_ne heq] at hopen ⊢
    rw [htrace, timings_untimed fun o ho => hobs o ho t' heq]
    refine h t' (fun hl => ?_) hopen
    rcases hloose with hnone | hsome
    · exact absurd (hnone.symm.trans hl) (by simp)
    · have hsame : UvHandle.tcp t = .tcp t' := Option.some.inj (hsome.symm.trans hl)
      exact heq (UvHandle.tcp.inj hsame).symm

/-- The object `t` is replaced by one with the same timer and no more to write. -/
theorem Watched.same (h : Watched ⟨s, held, none⟩)
    (htcps : s'.tcps = Function.update s.tcps t c) (htrace : s'.trace = s.trace ++ obs)
    (hobs : Untimed obs) (hopen : c.Open → (s.tcps t).Open)
    (htcp : c.tcpInited = true → (s.tcps t).tcpInited = true)
    (harmed : c.timer.armed = (s.tcps t).timer.armed)
    (hqueue : c.tcp.writeQueueSize ≤ (s.tcps t).tcp.writeQueueSize) :
    Watched ⟨s', held', none⟩ := by
  refine h.update (.inl rfl) htcps htrace (fun o ho t' _ => hobs o ho t') fun _ hc => ?_
  have hw := h t (by simp) (hopen hc)
  rw [htrace, timings_untimed fun o ho => hobs o ho t]
  refine ⟨fun hi => ?_, fun hi hpos => ?_, hw.settled⟩
  · rw [harmed]
    exact hw.armed (htcp hi)
  · rw [harmed]
    exact hw.queue (htcp hi) (by show 0 < (s.tcps t).tcp.writeQueueSize; omega)

/-- The object `t` is closed. -/
theorem Watched.close (h : Watched ⟨s, held, loose⟩) (hloose : loose = none ∨ loose = some (.tcp t))
    (htcp : (s.tcps t).tcpInited = true) : Watched ⟨Ctcp.closeSetNullptr t s, held', none⟩ := by
  have hclosed := closeSetNullptr_closing htcp
  obtain ⟨obs, htrace, hobs⟩ := closeSetNullptr_trace htcp
  have htcps : (Ctcp.closeSetNullptr t s).tcps =
      Function.update s.tcps t ((Ctcp.closeSetNullptr t s).tcps t) := by
    funext t'
    by_cases heq : t' = t
    · subst heq
      rw [Function.update_self]
    · rw [Function.update_of_ne heq]
      cases hclosing : (s.tcps t).closing with
      | true => rw [closeSetNullptr_of_closing htcp hclosing]
      | false =>
        rw [closeSetNullptr_of_open htcp hclosing]
        exact Function.update_of_ne heq _ _
  refine h.update hloose htcps htrace (fun o ho t' _ => hobs o ho t') fun _ hc => ?_
  exact absurd (hclosed.symm.trans hc.closing) (by simp)

end Watched

/-- Every call keeps the open objects watched. -/
theorem Call.watched {σ σ' : Scope} (hcall : Call σ σ') (hlife : σ.internal.Life)
    (h : Watched σ) : Watched σ' := by
  have hnil : Untimed [] := by simp [Untimed]
  -- a start of the timer of `t` is no start of another timer
  have hone : ∀ {t : ℕ} {o : Obs}, o.timed t = true →
      ∀ o' ∈ [o], ∀ t', t' ≠ t → o'.timed t' = false := by
    intro t o ho o' ho' t' hne
    rw [List.mem_singleton.mp ho']
    by_contra hc
    exact hne (Obs.timed_unique (by simpa using hc) ho)
  have hself : ∀ (s : Internal) (t : ℕ), s.tcps = Function.update s.tcps t (s.tcps t) :=
    fun s t => (Function.update_eq_self t _).symm
  cases hcall with
  | other held loose hframe =>
    obtain ⟨obs, htrace, hneutral⟩ := hframe.trace
    exact h.frame hframe.tcps htrace
      (fun o ho t => Obs.not_timed_of_neutral t (hneutral o ho)) fun _ hl => hl
  | malloc s held loose =>
    exact h.frame rfl (List.append_nil _).symm hnil fun _ hl => hl
  | free s req held loose =>
    exact h.frame rfl rfl (by simp [Untimed, Obs.timed]) fun _ hl => hl
  | newTcp s held =>
    exact h.update (.inl rfl) rfl (List.append_nil _).symm (by simp) fun hl => absurd rfl hl
  | newTcpFailed s held =>
    -- nothing was done to the new object
    have hfresh : s.tcps s.nextTcp = {} := (Internal.Life.fresh hlife s.nextTcp le_rfl).1
    have hopen : (s.tcps s.nextTcp).Open := by
      rw [hfresh]
      exact ⟨rfl, rfl⟩
    refine h.update (.inl rfl) rfl rfl (by simp [Obs.timed]) fun _ hc => ⟨by simp, by simp, ?_⟩
    have hsame : timings s.nextTcp (s.trace ++ [.delete (.tcp s.nextTcp)]) =
        timings s.nextTcp s.trace := timings_untimed (by simp [Obs.timed])
    refine fun hlast => (h s.nextTcp (by simp) hopen).settled ?_
    rw [← hsame]
    exact hlast
  | timerInit s held t htcp htimer hclosing hclosed =>
    exact h.update (.inr rfl) rfl (List.append_nil _).symm (by simp) fun hl => absurd rfl hl
  | setNode s held t node htcp =>
    exact h.update (.inr rfl) rfl (List.append_nil _).symm (by simp) fun hl => absurd rfl hl
  | listen s held t htcp hclosing =>
    refine h.update (.inr rfl) rfl (List.append_nil _).symm (by simp) fun _ hc => ?_
    exact absurd hc.listening (by simp)
  | watch s held loose t timeout htimeout hloose htcp hclosing hqueue =>
    refine h.update hloose rfl rfl (hone (o := .uvTimerStart t timeout) (by simp [Obs.timed]))
      fun _ _ => ⟨fun _ => rfl, fun _ hpos => ?_, ?_⟩
    · have hzero : ¬ 0 < (s.tcps t).tcp.writeQueueSize := by omega
      exact absurd hpos hzero
    · have htimings : timings t (uvTimerStart t s timeout true).trace =
          timings t s.trace ++ [.uvTimerStart t timeout] := timings_concat (by simp [Obs.timed])
      rw [htimings]
      simpa using htimeout
  | watchFailed s held loose t timeout htimeout hloose htcp hclosing =>
    exact h.update hloose (hself s t) rfl
      (hone (o := .uvTimerStart t timeout) (by simp [Obs.timed])) fun hl => absurd rfl hl
  | sendTimer s held t ok husable =>
    have hobs := hone (t := t) (o := .uvTimerStart t .send) (by simp [Obs.timed])
    cases ok with
    | false => exact h.update (.inl rfl) (hself s t) rfl hobs fun hl => absurd rfl hl
    | true => exact h.update (.inl rfl) rfl rfl hobs fun hl => absurd rfl hl
  | write s w held t husable harmed htimer =>
    refine h.update (.inr rfl) rfl rfl
      (hone (o := .uvWrite t (s.tcps t).node w.buf) (by simp [Obs.timed])) fun _ _ => ?_
    obtain ⟨a, ha⟩ := htimer
    -- the timer was started right before
    have htimings : timings t (uvWrite t s w true).trace =
        timings t a ++ [.uvTimerStart t .send, .uvWrite t (s.tcps t).node w.buf] := by
      have htrace : (uvWrite t s w true).trace = s.trace ++ [.uvWrite t (s.tcps t).node w.buf] := rfl
      rw [htrace, timings_concat (by simp [Obs.timed]), ha, timings_concat (by simp [Obs.timed]),
        List.append_assoc]
      rfl
    rw [htimings]
    refine ⟨fun _ => ?_, fun _ _ => ⟨harmed, _, _, rfl, by simp [Obs.sends]⟩, by simp⟩
    show (s.tcps t).timer.armed.isSome = true
    rw [harmed]
    rfl
  | writeFailed s w held t husable =>
    exact h.update (.inr rfl) (hself s t) rfl
      (hone (o := .uvWrite t (s.tcps t).node w.buf) (by simp [Obs.timed])) fun hl => absurd rfl hl
  | shutdown s req held t husable hreq harmed htimer =>
    have htcps : ((uvShutdown t s req true).setTcp t
        { (uvShutdown t s req true).tcps t with shutdown := true }).tcps =
          Function.update s.tcps t { s.tcps t with
            tcp := { (s.tcps t).tcp with shutdownReq := some req }, shutdown := true } := by
      simp [uvShutdown, Internal.setTcp, Internal.emit]
    refine h.update (.inr rfl) htcps rfl (hone (o := .uvShutdown t) (by simp [Obs.timed]))
      fun _ _ => ?_
    obtain ⟨m, hm⟩ := htimer.timings
    have htimings : timings t (s.trace ++ [.uvShutdown t]) =
        m ++ [.uvTimerStart t .send, .uvShutdown t] := by
      rw [timings_concat (by simp [Obs.timed]), hm, List.append_assoc]
      rfl
    show Ctcp.Watched t (timings t (s.trace ++ [.uvShutdown t])) _
    rw [htimings]
    refine ⟨fun _ => ?_, fun _ _ => ⟨harmed, _, _, rfl, by simp [Obs.sends]⟩, by simp⟩
    show (s.tcps t).timer.armed.isSome = true
    rw [harmed]
    rfl
  | shutdownFailed s req held t husable =>
    have hs : Watched ⟨(s.emit [.uvShutdown t]).emit [.freeReq req], held, some (.tcp t)⟩ := by
      have htrace : ((s.emit [.uvShutdown t]).emit [.freeReq req]).trace =
          s.trace ++ [.uvShutdown t, .freeReq req] := by simp [Internal.emit]
      refine h.update (.inr rfl) (hself s t) htrace ?_ fun hl => absurd rfl hl
      intro o ho t' hne
      rcases List.mem_pair.mp ho with rfl | rfl
      · simp [Obs.timed, hne.symm]
      · rfl
    exact hs.close (.inr rfl) husable.established.tcpInited
  | close s held loose t hloose htcp => exact h.close hloose htcp
  | fire s held t htcp =>
    exact h.update (.inl rfl) rfl (List.append_nil _).symm (by simp) fun hl => absurd rfl hl
  | readStart s held t htcp | takeWrite s held t w hw htcp | takeConnect s held t req hreq htcp
  | takeShutdown s held t req hreq htcp =>
    exact h.same (t := t) rfl (List.append_nil _).symm hnil (fun hc => ⟨hc.1, hc.2⟩) id rfl le_rfl
  | connect s req held t htcp hreq hqueue =>
    exact h.same (t := t) rfl rfl (by simp [Untimed, Obs.timed]) (fun hc => ⟨hc.1, hc.2⟩) id rfl
      le_rfl
  | drained s held t n hn =>
    exact h.same (t := t) rfl (List.append_nil _).symm hnil (fun hc => ⟨hc.1, hc.2⟩) id rfl hn
  | tcpClosed s held t hclosing hclosed hconnect hshutdown hwrites =>
    have hc := (hlife.flags t).tcpClosing hclosing
    have hclosed' : ∀ {c : Ctcp}, c.closing = (s.tcps t).closing → ¬ c.Open :=
      fun heq ho => absurd ((hc.symm.trans heq.symm).trans ho.closing) (by simp)
    unfold Ctcp.onTcpClosed
    dsimp only
    split_ifs
    · exact h.update (.inl rfl) rfl rfl (by simp [Obs.timed]) fun _ hc => absurd hc (hclosed' rfl)
    · exact h.update (.inl rfl) rfl (List.append_nil _).symm (by simp)
        fun _ hc => absurd hc (hclosed' rfl)
  | timerClosed s held t hclosing hclosed =>
    -- the object is closing
    have hc := (hlife.flags t).timerClosing hclosing
    have hclosed' : ∀ {c : Ctcp}, c.closing = (s.tcps t).closing → ¬ c.Open :=
      fun heq ho => absurd ((hc.symm.trans heq.symm).trans ho.closing) (by simp)
    unfold Ctcp.onTimerClosed
    dsimp only
    split_ifs
    · exact h.update (.inl rfl) rfl rfl (by simp [Obs.timed]) fun _ hc => absurd hc (hclosed' rfl)
    · exact h.update (.inl rfl) rfl (List.append_nil _).symm (by simp)
        fun _ hc => absurd hc (hclosed' rfl)
  | newUdp s held => exact h.frame rfl (List.append_nil _).symm hnil fun _ hl => absurd hl (by simp)
  | newUdpFailed s held =>
    exact h.frame rfl rfl (by simp [Untimed, Obs.timed]) fun _ hl => absurd hl (by simp)
  | setUdp s held u node receiving =>
    exact h.frame rfl (List.append_nil _).symm hnil fun _ hl => hl
  | linkUdp s held u hu =>
    exact h.frame rfl (List.append_nil _).symm hnil fun _ hl => absurd hl (by simp)
  | unlinkUdp s held u =>
    exact h.frame rfl (List.append_nil _).symm hnil fun _ hl => absurd hl (by simp)
  | closeUdp s held u =>
    unfold Cudp.closeSetNullptr
    dsimp only
    split_ifs
    · exact h.frame rfl rfl (by simp [Untimed, Obs.timed]) fun _ hl => absurd hl (by simp)
    · exact h.frame rfl (List.append_nil _).symm hnil fun _ hl => absurd hl (by simp)
    · exact h.frame rfl rfl (by simp [Untimed, Obs.timed]) fun _ hl => absurd hl (by simp)
  | sendUdp s w held u hu =>
    exact h.frame rfl (List.append_nil _).symm hnil fun _ hl => hl
  | takeSend s held u w hw =>
    exact h.frame rfl (List.append_nil _).symm hnil fun _ hl => hl
  | udpClosed s held u =>
    exact h.frame rfl rfl (by simp [Untimed, Obs.timed]) fun _ hl => hl
  | closeAsync s held =>
    unfold Casync.closeSetNullptr
    split_ifs
    · exact h.frame rfl rfl (by simp [Untimed, Obs.timed]) fun _ hl => hl
    · exact h.frame rfl (List.append_nil _).symm hnil fun _ hl => hl
    · exact h.frame rfl rfl (by simp [Untimed, Obs.timed]) fun _ hl => hl
  | asyncClosed s held =>
    exact h.frame rfl rfl (by simp [Untimed, Obs.timed]) fun _ hl => hl

/-! ## Runs -/

section Runs

variable {es : List Event} {p : Pool} {t : ℕ}

theorem watched_of_reachable (hr : poolSystem.Reachable p) (hopen : (p.internal.tcps t).Open) :
    (p.internal.tcps t).Watched t (timings t p.internal.trace) := by
  have hinit : Watched ⟨{}, [], none⟩ := fun t _ _ => ⟨by simp, by simp, by simp [timings]⟩
  exact Pool.call_invariant hinit (fun _ _ hlife h hcall => hcall.watched hlife h) hr t (by simp)
    hopen

/-- The step of the run `es` that last started the timer of `t`, for a write or for the shutdown
that follows. -/
def StartedInStep (t : ℕ) (es : List Event) (p : Pool) : Prop :=
  ∃ pre e post q q', es = pre ++ e :: post ∧ poolSystem.run pre = some q ∧
    poolSystem.step q e = some q' ∧
    (∃ m o, timings t q'.internal.trace =
      timings t q.internal.trace ++ m ++ [.uvTimerStart t .send, o] ∧ o.sends t = true) ∧
    timings t p.internal.trace = timings t q'.internal.trace

/-- An object that is open after a step was open before it. -/
theorem open_of_step {p' : Pool} {e : Event} (hr : poolSystem.Reachable p)
    (hstep : p.step e = some p') (hopen : (p'.internal.tcps t).Open) : (p.internal.tcps t).Open := by
  have hgrows := grows_of_step hr hstep t
  have hclosing : (p.internal.tcps t).closing = false := by
    by_contra hc
    exact absurd (hopen.closing.symm.trans (hgrows.closing (by simpa using hc))) (by simp)
  refine ⟨hclosing, ?_⟩
  by_contra hl
  rcases hgrows.listening (by simpa using hl) with hl' | hc'
  · exact absurd (hopen.listening.symm.trans hl') (by simp)
  · exact absurd (hopen.closing.symm.trans hc') (by simp)

/-- The last start for a send and what it was for came in one step. -/
theorem startedInStep_of_deadline (hrun : poolSystem.run es = some p)
    (hopen : (p.internal.tcps t).Open) (hdeadline : Deadline t (timings t p.internal.trace)) :
    StartedInStep t es p := by
  induction es using List.reverseRecOn generalizing p with
  | nil =>
    obtain rfl : (_ : Pool) = p := by simpa using hrun
    obtain ⟨m, o, hm, -⟩ := hdeadline
    exact absurd hm (by simp [timings, poolSystem])
  | append_singleton es e ih =>
    rw [Lib.Lts.run_concat] at hrun
    obtain ⟨q, hq, hstep⟩ := Option.bind_eq_some_iff.mp hrun
    have hr := Lib.Lts.reachable_of_run hq
    have hopen' := open_of_step hr hstep hopen
    obtain ⟨obs, hobs⟩ := Calls.trace_prefix (Pool.calls_of_step (Pool.ready_of_reachable hr) hstep)
    have htrace : timings t p.internal.trace =
        timings t q.internal.trace ++ timings t obs := by
      rw [← timings_append]
      exact congrArg (timings t) hobs.symm
    rcases List.eq_nil_or_concat (timings t obs) with hnil | ⟨l, o, hconcat⟩
    · -- the step starts nothing
      rw [hnil, List.append_nil] at htrace
      obtain ⟨pre, e', post, q₁, q₂, hes, hpre, hs, hsends, hlast⟩ := ih hq hopen' (htrace ▸ hdeadline)
      refine ⟨pre, e', post ++ [e], q₁, q₂, ?_, hpre, hs, hsends, htrace.trans hlast⟩
      rw [hes, List.append_assoc, List.cons_append]
    · obtain ⟨m, o', hm, ho'⟩ := hdeadline
      rw [htrace, hconcat, List.concat_eq_append, ← List.append_assoc,
        List.append_cons m _ [o']] at hm
      obtain ⟨hprev, hlast⟩ := List.append_inj' hm rfl
      obtain rfl : o = o' := (List.cons.inj hlast).1
      rcases List.eq_nil_or_concat l with rfl | ⟨l, o₁, rfl⟩
      · -- a start for a send does not outlive the step it is made in
        have hsettled := (watched_of_reachable hr hopen').settled
        rw [List.append_nil] at hprev
        rw [hprev, List.getLast?_append] at hsettled
        exact absurd rfl hsettled
      · rw [List.concat_eq_append, ← List.append_assoc] at hprev
        obtain ⟨-, hfirst⟩ := List.append_inj' hprev rfl
        obtain rfl : o₁ = .uvTimerStart t .send := (List.cons.inj hfirst).1
        refine ⟨es, e, [], q, p, rfl, hq, hstep, ⟨l, o, ?_, ho'⟩, rfl⟩
        rw [htrace, hconcat]
        simp

/-- **The watchdog.** At the end of every run an initialised stream that is neither closing nor
listening has its timer armed; if there are bytes in its write queue, with the send timeout, and
the timer was last started in the step of the last write or of a graceful close after it. -/
theorem watchdog_armed (hrun : poolSystem.run es = some p)
    (htcp : (p.internal.tcps t).tcpInited = true) (hopen : (p.internal.tcps t).Open) :
    (p.internal.tcps t).timer.armed.isSome = true ∧
      (0 < (p.internal.tcps t).tcp.writeQueueSize →
        (p.internal.tcps t).timer.armed = some .send ∧ StartedInStep t es p) := by
  have hwatched := watched_of_reachable (Lib.Lts.reachable_of_run hrun) hopen
  refine ⟨hwatched.armed htcp, fun hpos => ?_⟩
  obtain ⟨harmed, hdeadline⟩ := hwatched.queue htcp hpos
  exact ⟨harmed, startedInStep_of_deadline hrun hopen hdeadline⟩

/-- A connection with a message in its write queue. -/
theorem watchdog_armed_written :
    ∃ p, poolSystem.run (openRun 0) = some p ∧ 0 < (p.internal.tcps 0).tcp.writeQueueSize ∧
      (p.internal.tcps 0).timer.armed = some .send ∧ StartedInStep 0 (openRun 0) p := by
  have hrun := (Option.some_get (x := poolSystem.run (openRun 0)) (by decide)).symm
  have hpos : 0 < (((poolSystem.run (openRun 0)).get (by decide)).internal.tcps 0).tcp.writeQueueSize := by
    decide
  exact ⟨_, hrun, hpos, (watchdog_armed hrun (by decide) ⟨by decide, by decide⟩).2 hpos⟩

end Runs

end NetworkPool
