import NetworkPool.Pool.CallSteps

/-!
# The life of a handle

The calls made on the handles of an object, and its deletion, are a function of its flags
(`Ctcp.history`): each initialised handle is passed to `uv_close` once, and the object is deleted
once, after the close callbacks of all of them. `Call.life` shows that every call keeps this.
-/

namespace NetworkPool

open Table

/-! ## Objects -/

/-- The entries about the life of the object `t`. -/
def Obs.about (t : ℕ) : Obs → Bool
  | .uvClose (.tcp t') | .uvClose (.timer t') | .delete (.tcp t') => t' = t
  | _ => false

namespace Ctcp

/-- The entries about the life of an object, in order. -/
def history (t : ℕ) (c : Ctcp) : List Obs :=
  (if c.tcp.closing then [.uvClose (.tcp t)] else []) ++
    (if c.timer.closing then [.uvClose (.timer t)] else []) ++
    (if c.tcpInited || c.timerInited then [] else [.delete (.tcp t)])

/-- How the flags of an object fit together. -/
structure Flags (c : Ctcp) : Prop where
  listener : c.tcp.listening = true → c.tcpInited = true ∧ c.closing = false
  queue : c.Connecting → c.tcp.writeQueueSize = 0
  tcpClosing : c.tcp.closing = true → c.closing = true
  timerClosing : c.timer.closing = true → c.closing = true
  tcpInited : c.closing = true → c.tcpInited = true → c.tcp.closing = true
  timerInited : c.closing = true → c.timerInited = true → c.timer.closing = true
  tcpClosed : c.tcp.closed = (c.tcp.closing && !c.tcpInited)
  timerClosed : c.timer.closed = (c.timer.closing && !c.timerInited)

variable {c : Ctcp}

theorem Flags.default : Flags {} := by
  constructor <;> simp [Connecting]

/-- An object that is closed now. -/
theorem afterClose_of_open (htcp : c.tcpInited = true) (hclosing : c.closing = false) :
    c.afterClose = { c with
      tcp := { c.tcp with closing := true, reading := false, listening := false }
      timer := if c.timerInited then { c.timer with closing := true, armed := none } else c.timer
      closing := true } := by
  unfold afterClose
  rw [if_pos (by simp [htcp, hclosing]), if_pos htcp]

theorem Flags.afterClose (h : c.Flags) (htcp : c.tcpInited = true) : c.afterClose.Flags := by
  by_cases hclosing : c.closing = true
  · rw [afterClose_of_closing hclosing]
    exact h
  · have hopen : c.closing = false := by simpa using hclosing
    have htcpClosed := h.tcpClosed
    have htimerClosed := h.timerClosed
    have htimer : c.timer.closing = false := by
      by_contra hc
      exact hclosing (h.timerClosing (by simpa using hc))
    have hstream : c.tcp.closing = false := by
      by_contra hc
      exact hclosing (h.tcpClosing (by simpa using hc))
    rw [afterClose_of_open htcp hopen]
    refine ⟨by simp, h.queue, by simp, by simp, by simp, ?_, ?_, ?_⟩
    · intro _ ht
      simp only at ht ⊢
      rw [if_pos ht]
    · simpa [htcp, hstream] using htcpClosed
    · cases ht : c.timerInited <;> simp_all

/-- The calls of `close_set_nullptr` on an object that is open. -/
theorem history_afterClose (h : c.Flags) (t : ℕ) (htcp : c.tcpInited = true)
    (hclosing : c.closing = false) :
    c.history t = [] ∧ c.afterClose.history t =
      .uvClose (.tcp t) :: (if c.timerInited then [.uvClose (.timer t)] else []) := by
  have htimer : c.timer.closing = false := by
    by_contra hc
    rw [h.timerClosing (by simpa using hc)] at hclosing
    exact absurd hclosing (by simp)
  have hstream : c.tcp.closing = false := by
    by_contra hc
    rw [h.tcpClosing (by simpa using hc)] at hclosing
    exact absurd hclosing (by simp)
  rw [afterClose_of_open htcp hclosing]
  unfold history
  cases ht : c.timerInited <;> simp [htcp, htimer, hstream]

end Ctcp

/-- `close_set_nullptr` on an object that is open. -/
theorem closeSetNullptr_of_open {s : Internal} {t : ℕ} (htcp : (s.tcps t).tcpInited = true)
    (hclosing : (s.tcps t).closing = false) :
    Ctcp.closeSetNullptr t s = (s.setTcp t (s.tcps t).afterClose).emit
      (.uvClose (.tcp t) :: (if (s.tcps t).timerInited then [.uvClose (.timer t)] else [])) := by
  rw [Ctcp.afterClose_of_open htcp hclosing]
  unfold Ctcp.closeSetNullptr
  simp only [htcp, hclosing, Bool.true_or, Bool.not_false, if_true]
  have hstream : (uvCloseTcp t s).tcps t = { s.tcps t with
      tcp := { (s.tcps t).tcp with closing := true, reading := false, listening := false } } :=
    uvCloseTcp_tcps t s
  cases htimer : (s.tcps t).timerInited with
  | false =>
    simp only [Bool.false_eq_true, if_false]
    rw [hstream]
    simp [uvCloseTcp, Internal.setTcp, Internal.emit, htcp, htimer]
  | true =>
    simp only [if_true]
    rw [uvCloseTimer_tcps, hstream]
    simp [uvCloseTimer, uvCloseTcp, Internal.setTcp, Internal.emit, htcp, htimer]

/-- A second call does nothing. -/
theorem closeSetNullptr_of_closing {s : Internal} {t : ℕ} (htcp : (s.tcps t).tcpInited = true)
    (hclosing : (s.tcps t).closing = true) : Ctcp.closeSetNullptr t s = s := by
  unfold Ctcp.closeSetNullptr
  simp [htcp, hclosing]

/-! ## Pools -/

namespace Internal

/-- The life of every object so far. -/
structure Life (s : Internal) : Prop where
  flags : ∀ t, (s.tcps t).Flags
  history : ∀ t, t < s.nextTcp → s.trace.filter (Obs.about t) = (s.tcps t).history t
  fresh : ∀ t, s.nextTcp ≤ t → s.tcps t = {} ∧ s.trace.filter (Obs.about t) = []
  udpServers : ∀ u ∈ s.udpServers, u < s.nextUdp
  freshUdp : ∀ u, s.nextUdp ≤ u → (s.udps u).sends = []

variable {s s' : Internal} {t : ℕ} {c : Ctcp} {obs : List Obs}

theorem Life.init : Life {} where
  flags := fun _ => .default
  history := fun t ht => absurd ht (Nat.not_lt_zero t)
  fresh := fun _ _ => ⟨rfl, rfl⟩
  udpServers := by simp
  freshUdp := fun _ _ => rfl

theorem Life.lt_nextTcp (h : s.Life) (ht : (s.tcps t).tcpInited = true) : t < s.nextTcp := by
  by_contra hlt
  rw [(h.fresh t (by omega)).1] at ht
  exact absurd ht (by simp)

/-- The object `t` is replaced by `c`, and `obs` is appended. -/
theorem Life.update (h : s.Life) (ht : t < s.nextTcp) (hflags : c.Flags)
    (hhistory : c.history t = (s.tcps t).history t ++ obs.filter (Obs.about t))
    (hother : ∀ t', t' ≠ t → obs.filter (Obs.about t') = []) :
    ((s.setTcp t c).emit obs).Life where
  flags := by
    intro t'
    show (Function.update s.tcps t c t').Flags
    by_cases heq : t' = t
    · subst heq
      simpa using hflags
    · simpa [heq] using h.flags t'
  history := by
    intro t' ht'
    show (s.trace ++ obs).filter (Obs.about t') = (Function.update s.tcps t c t').history t'
    rw [List.filter_append, h.history t' ht']
    by_cases heq : t' = t
    · subst heq
      simp [hhistory]
    · simp [heq, hother t' heq]
  fresh := by
    intro t' ht'
    have hge : s.nextTcp ≤ t' := ht'
    have hne : t' ≠ t := by omega
    obtain ⟨hobj, hlog⟩ := h.fresh t' ht'
    refine ⟨?_, ?_⟩
    · show Function.update s.tcps t c t' = {}
      simpa [hne] using hobj
    · show (s.trace ++ obs).filter (Obs.about t') = []
      rw [List.filter_append, hlog, hother t' hne]
      rfl
  udpServers := h.udpServers
  freshUdp := h.freshUdp

/-- The object `t` is replaced by one with the same history. -/
theorem Life.setTcp (h : s.Life) (ht : t < s.nextTcp) (hflags : c.Flags)
    (hhistory : c.history t = (s.tcps t).history t) : (s.setTcp t c).Life := by
  have hset : ((s.setTcp t c).emit []).Life :=
    h.update ht hflags (by simpa using hhistory) fun _ _ => rfl
  simpa [Internal.emit] using hset

theorem Life.close (h : s.Life) (htcp : (s.tcps t).tcpInited = true) :
    (Ctcp.closeSetNullptr t s).Life := by
  cases hclosing : (s.tcps t).closing with
  | true =>
    rw [closeSetNullptr_of_closing htcp hclosing]
    exact h
  | false =>
    rw [closeSetNullptr_of_open htcp hclosing]
    obtain ⟨hold, hnew⟩ := Ctcp.history_afterClose (h.flags t) t htcp hclosing
    refine h.update (h.lt_nextTcp htcp) ((h.flags t).afterClose htcp) ?_ fun t' ht => ?_
    · rw [hold, hnew]
      cases (s.tcps t).timerInited <;> simp [Obs.about]
    · cases (s.tcps t).timerInited <;> simp [Obs.about, ht.symm]

/-- The objects stay, and entries about none of them are appended. -/
theorem Life.of_tcps (h : s.Life) (htcps : s'.tcps = s.tcps) (hnext : s'.nextTcp = s.nextTcp)
    (htrace : s'.trace = s.trace ++ obs) (hobs : ∀ t, obs.filter (Obs.about t) = [])
    (hservers : ∀ u ∈ s'.udpServers, u < s'.nextUdp)
    (hudps : ∀ u, s'.nextUdp ≤ u → (s'.udps u).sends = []) : s'.Life where
  flags := by
    rw [htcps]
    exact h.flags
  history := by
    intro t ht
    rw [htrace, List.filter_append, hobs, List.append_nil, htcps]
    exact h.history t (by rwa [hnext] at ht)
  fresh := by
    intro t ht
    rw [htrace, List.filter_append, hobs, List.append_nil, htcps]
    exact h.fresh t (by rwa [hnext] at ht)
  udpServers := hservers
  freshUdp := hudps

/-- The objects and the trace stay. -/
theorem Life.of_objects (h : s.Life) (htcps : s'.tcps = s.tcps) (hnext : s'.nextTcp = s.nextTcp)
    (htrace : s'.trace = s.trace) (hservers : ∀ u ∈ s'.udpServers, u < s'.nextUdp)
    (hudps : ∀ u, s'.nextUdp ≤ u → (s'.udps u).sends = []) : s'.Life := by
  have hnil : s'.trace = s.trace ++ [] := by rw [htrace, List.append_nil]
  exact h.of_tcps htcps hnext hnil (fun _ => rfl) hservers hudps

/-- Entries about no object. -/
theorem Life.emit (h : s.Life) (hobs : ∀ t, obs.filter (Obs.about t) = []) : (s.emit obs).Life :=
  h.of_tcps rfl rfl rfl hobs h.udpServers h.freshUdp

theorem Life.frame (h : s.Life) (hframe : s.Frame s') : s'.Life := by
  obtain ⟨obs, htrace, hneutral⟩ := hframe.trace
  refine h.of_tcps hframe.tcps hframe.nextTcp htrace (fun t => ?_) ?_ ?_
  · refine List.filter_eq_nil_iff.mpr fun o ho => ?_
    have hn := hneutral o ho
    cases o <;> simp_all [Obs.neutral, Obs.about]
  · rw [hframe.udpServers, hframe.nextUdp]
    exact h.udpServers
  · rw [hframe.udps, hframe.nextUdp]
    exact h.freshUdp

/-- The sends of a socket change only if it exists. -/
theorem Life.setUdp (h : s.Life) {u : ℕ} {c : Cudp} {n : ℕ} (hn : s.nextUdp ≤ n)
    (hc : c.sends = (s.udps u).sends ∨ u < n) :
    ∀ u', n ≤ u' → (Function.update s.udps u c u').sends = [] := by
  intro u' hu'
  have hold := h.freshUdp u' (by omega)
  by_cases heq : u' = u
  · subst heq
    rw [Function.update_self]
    rcases hc with hc | hc
    · rw [hc, hold]
    · omega
  · rw [Function.update_of_ne heq]
    exact hold

/-- A new object with the history `obs`. -/
theorem Life.newTcp (h : s.Life) (hflags : c.Flags)
    (hhistory : c.history s.nextTcp = obs.filter (Obs.about s.nextTcp))
    (hother : ∀ t', t' ≠ s.nextTcp → obs.filter (Obs.about t') = []) :
    (({ s with nextTcp := s.nextTcp + 1 }.setTcp s.nextTcp c).emit obs).Life where
  flags := by
    intro t
    show (Function.update s.tcps s.nextTcp c t).Flags
    by_cases heq : t = s.nextTcp
    · subst heq
      simpa using hflags
    · simpa [heq] using h.flags t
  history := by
    intro t ht
    have hlt : t < s.nextTcp + 1 := ht
    show (s.trace ++ obs).filter (Obs.about t) = (Function.update s.tcps s.nextTcp c t).history t
    rw [List.filter_append]
    by_cases heq : t = s.nextTcp
    · subst heq
      rw [(h.fresh s.nextTcp le_rfl).2, List.nil_append, Function.update_self, hhistory]
    · rw [h.history t (by omega), hother t heq, Function.update_of_ne heq, List.append_nil]
  fresh := by
    intro t ht
    have hge : s.nextTcp + 1 ≤ t := ht
    have hne : t ≠ s.nextTcp := by omega
    obtain ⟨hobj, hlog⟩ := h.fresh t (by omega)
    refine ⟨?_, ?_⟩
    · show Function.update s.tcps s.nextTcp c t = {}
      simpa [hne] using hobj
    · show (s.trace ++ obs).filter (Obs.about t) = []
      rw [List.filter_append, hlog, hother t hne]
      rfl
  udpServers := h.udpServers
  freshUdp := h.freshUdp

end Internal

/-! ## Calls -/

/-- Every call keeps the lives of the objects. -/
theorem Call.life {σ σ' : Scope} (hcall : Call σ σ') (h : σ.internal.Life) : σ'.internal.Life := by
  -- an object whose flags of life do not change
  have hsame : ∀ {s : Internal} {t : ℕ} {c : Ctcp}, s.Life → (s.tcps t).tcpInited = true →
      c.Flags → c.history t = (s.tcps t).history t → (s.setTcp t c).Life :=
    fun hs htcp hflags hhistory => hs.setTcp (hs.lt_nextTcp htcp) hflags hhistory
  have hemit : ∀ {s : Internal} {o : Obs}, s.Life → (∀ t, o.about t = false) → (s.emit [o]).Life :=
    fun hs ho => hs.emit fun t => by simp [ho t]
  cases hcall with
  | other held loose hframe => exact h.frame hframe
  | malloc s held loose => exact { h with }
  | free s req held loose => exact hemit h fun _ => rfl
  | newTcp s held =>
    have hnew : (({ s with nextTcp := s.nextTcp + 1 }.setTcp s.nextTcp
        { tcpInited := true }).emit []).Life :=
      h.newTcp (by constructor <;> simp [Ctcp.Connecting]) rfl fun _ _ => rfl
    simpa [Internal.emit] using hnew
  | newTcpFailed s held =>
    refine h.newTcp .default ?_ fun t ht => ?_
    · simp [Ctcp.history, Obs.about]
    · simp [Obs.about, ht.symm]
  | timerInit s held t htcp htimer hclosing hclosed =>
    have hf := h.flags t
    have hopen : (s.tcps t).timer.closing = false := by
      by_contra hc
      rw [hf.timerClosing (by simpa using hc)] at hclosing
      exact absurd hclosing (by simp)
    refine hsame h htcp { hf with timerInited := ?_, timerClosed := ?_ } ?_
    · intro hc
      exact absurd (hclosing.symm.trans hc) (by simp)
    · simp [hclosed, hopen]
    · simp [Ctcp.history, htcp]
  | setNode s held t node htcp => exact hsame h htcp { h.flags t with } rfl
  | listen s held t htcp hclosing =>
    exact hsame h htcp { h.flags t with listener := fun _ => ⟨htcp, hclosing⟩ } rfl
  | watch s held loose t timeout htimeout hloose htcp hclosing hqueue =>
    have hs := hemit (o := .uvTimerStart t timeout) h fun _ => rfl
    exact hsame hs htcp { h.flags t with } rfl
  | watchFailed s held loose t timeout htimeout hloose htcp hclosing =>
    exact hemit (o := .uvTimerStart t timeout) h fun _ => rfl
  | sendTimer s held t ok husable =>
    have hs := hemit (o := .uvTimerStart t .send) h fun _ => rfl
    cases ok with
    | false => exact hs
    | true => exact hsame hs husable.established.tcpInited { h.flags t with } rfl
  | readStart s held t htcp => exact hsame h htcp { h.flags t with } rfl
  | connect s req held t htcp hreq hqueue =>
    exact hemit (hsame h htcp { h.flags t with queue := fun _ => hqueue } rfl) fun _ => rfl
  | write s w held t husable harmed htimer =>
    have hs := hemit (o := .uvWrite t (s.tcps t).node w.buf) h fun _ => rfl
    refine hsame hs husable.established.tcpInited { h.flags t with queue := fun hreq => ?_ } rfl
    unfold Ctcp.Connecting at hreq
    exact absurd (hreq.symm.trans (by rw [husable.established.connectReq])) (by simp)
  | writeFailed s w held t husable =>
    exact hemit (o := .uvWrite t (s.tcps t).node w.buf) h fun _ => rfl
  | shutdown s req held t husable hreq harmed htimer =>
    have hs := hemit (o := .uvShutdown t) h fun _ => rfl
    have hset := hsame (c := { s.tcps t with
      tcp := { (s.tcps t).tcp with shutdownReq := some req }, shutdown := true })
      hs husable.established.tcpInited { h.flags t with } rfl
    have heq : (uvShutdown t s req true).setTcp t
        { (uvShutdown t s req true).tcps t with shutdown := true } =
          (s.emit [.uvShutdown t]).setTcp t { s.tcps t with
            tcp := { (s.tcps t).tcp with shutdownReq := some req }, shutdown := true } := by
      simp [uvShutdown, Internal.setTcp, Internal.emit]
    rw [heq]
    exact hset
  | shutdownFailed s req held t husable =>
    have hs := hemit (o := .uvShutdown t) h fun _ => rfl
    exact (hemit (o := .freeReq req) hs fun _ => rfl).close husable.established.tcpInited
  | close s held loose t hloose htcp => exact Internal.Life.close h htcp
  | fire s held t htcp => exact hsame h htcp { h.flags t with } rfl
  | takeWrite s held t w hw htcp => exact hsame h htcp { h.flags t with } rfl
  | takeConnect s held t req hreq htcp =>
    refine hsame h htcp { h.flags t with queue := fun hc => ?_ } rfl
    exact absurd hc (by simp [Ctcp.Connecting, Ctcp.connectDone])
  | takeShutdown s held t req hreq htcp => exact hsame h htcp { h.flags t with } rfl
  | drained s held t n hn =>
    replace h : s.Life := h
    by_cases ht : t < s.nextTcp
    · refine h.setTcp ht { h.flags t with queue := fun hc => ?_ } rfl
      have hzero : (s.tcps t).tcp.writeQueueSize = 0 := (h.flags t).queue hc
      show n = 0
      omega
    · -- an object that does not exist has no queue
      have hfresh := (h.fresh t (by omega)).1
      have hzero : n = 0 := by
        rw [hfresh] at hn
        simpa using hn
      have hself : s.setTcp t { s.tcps t with
          tcp := { (s.tcps t).tcp with writeQueueSize := n } } = s := by
        have hobj : { s.tcps t with tcp := { (s.tcps t).tcp with writeQueueSize := n } } =
            s.tcps t := by
          rw [hfresh, hzero]
        rw [hobj]
        simp [Internal.setTcp]
      exact hself.symm ▸ h
  | tcpClosed s held t hclosing hclosed hconnect hshutdown hwrites =>
    have hf := h.flags t
    have htcp : (s.tcps t).tcpInited = true := by
      have := hf.tcpClosed
      rw [hclosed, hclosing] at this
      simpa using this.symm
    have hc : (s.tcps t).closing = true := hf.tcpClosing hclosing
    have hflags : Ctcp.Flags { s.tcps t with
        tcp := { (s.tcps t).tcp with closed := true }, tcpInited := false } :=
      { hf with
        listener := fun hl => absurd (hc.symm.trans (hf.listener hl).2) (by simp)
        tcpInited := by simp
        tcpClosed := by simp [hclosing] }
    unfold Ctcp.onTcpClosed
    dsimp only
    by_cases htimer : (!(s.tcps t).timerInited) = true
    · rw [if_pos htimer]
      refine h.update (h.lt_nextTcp htcp) hflags ?_ fun t' ht => ?_
      · simp_all [Ctcp.history, Obs.about]
      · simp [Obs.about, ht.symm]
    · rw [if_neg htimer]
      refine hsame h htcp hflags ?_
      simp_all [Ctcp.history]
  | timerClosed s held t hclosing hclosed =>
    replace h : s.Life := h
    have hf := h.flags t
    have htimer : (s.tcps t).timerInited = true := by
      have := hf.timerClosed
      rw [hclosed, hclosing] at this
      simpa using this.symm
    have ht : t < s.nextTcp := by
      by_contra hlt
      rw [(h.fresh t (by omega)).1] at hclosing
      exact absurd hclosing (by simp)
    have hflags : Ctcp.Flags { s.tcps t with
        timer := { (s.tcps t).timer with closed := true }, timerInited := false } :=
      { hf with
        timerInited := by simp
        timerClosed := by simp [hclosing] }
    unfold Ctcp.onTimerClosed
    dsimp only
    by_cases htcp : (!(s.tcps t).tcpInited) = true
    · rw [if_pos htcp]
      refine h.update ht hflags ?_ fun t' hne => ?_
      · simp_all [Ctcp.history, Obs.about]
      · simp [Obs.about, hne.symm]
    · rw [if_neg htcp]
      refine h.setTcp ht hflags ?_
      simp_all [Ctcp.history]
  | newUdp s held =>
    refine h.of_objects rfl rfl rfl
      (fun u hu => Nat.lt_succ_of_lt (h.udpServers u hu)) ?_
    exact h.setUdp (Nat.le_succ _) (.inr (Nat.lt_succ_self _))
  | newUdpFailed s held =>
    refine h.of_tcps rfl rfl rfl (fun _ => rfl) (fun u hu => Nat.lt_succ_of_lt (h.udpServers u hu)) ?_
    exact h.setUdp (Nat.le_succ _) (.inr (Nat.lt_succ_self _))
  | setUdp s held u node receiving =>
    exact h.of_objects rfl rfl rfl h.udpServers
      (h.setUdp le_rfl (.inl rfl))
  | linkUdp s held u hu =>
    refine h.of_objects rfl rfl rfl (fun u' hu' => ?_)
      h.freshUdp
    rcases List.mem_append.mp hu' with hu' | hu'
    · exact h.udpServers u' hu'
    · rw [List.mem_singleton.mp hu']
      exact hu
  | unlinkUdp s held u =>
    exact h.of_objects rfl rfl rfl
      (fun u' hu' => h.udpServers u' (List.mem_of_mem_erase hu')) h.freshUdp
  | closeUdp s held u =>
    show (Cudp.closeSetNullptr u s).Life
    unfold Cudp.closeSetNullptr
    dsimp only
    split_ifs
    · exact h.of_tcps rfl rfl rfl (fun _ => rfl) h.udpServers (h.setUdp le_rfl (.inl rfl))
    · exact h
    · exact hemit h fun _ => rfl
  | sendUdp s w held u hu =>
    exact h.of_objects rfl rfl rfl h.udpServers
      (h.setUdp le_rfl (.inr hu))
  | takeSend s held u w hw =>
    replace h : s.Life := h
    refine h.of_objects rfl rfl rfl h.udpServers
      (h.setUdp le_rfl (.inr ?_))
    show u < s.nextUdp
    by_contra hu
    rw [h.freshUdp u (by omega)] at hw
    exact absurd hw (by simp)
  | udpClosed s held u =>
    exact h.of_tcps rfl rfl rfl (fun _ => rfl) h.udpServers (h.setUdp le_rfl (.inl rfl))
  | closeAsync s held =>
    show (Casync.closeSetNullptr s).Life
    unfold Casync.closeSetNullptr
    split_ifs
    · exact h.of_tcps rfl rfl rfl (fun _ => rfl) h.udpServers h.freshUdp
    · exact { h with }
    · exact h.of_tcps rfl rfl rfl (fun _ => rfl) h.udpServers h.freshUdp
  | asyncClosed s held => exact h.of_tcps rfl rfl rfl (fun _ => rfl) h.udpServers h.freshUdp

theorem Calls.life {σ σ' : Scope} (hcalls : Calls σ σ') (h : σ.internal.Life) : σ'.internal.Life := by
  induction hcalls with
  | refl => exact h
  | tail _ hcall ih => exact hcall.life ih

/-- What every call on well-formed lives keeps, a sequence of calls keeps. -/
theorem Calls.invariant {I : Scope → Prop} {σ σ' : Scope} (hcalls : Calls σ σ')
    (hlife : σ.internal.Life) (hI : I σ)
    (hcall : ∀ σ σ', σ.internal.Life → I σ → Call σ σ' → I σ') : I σ' := by
  induction hcalls with
  | refl => exact hI
  | tail hcalls hlast ih => exact hcall _ _ (Calls.life hcalls hlife) ih hlast

/-! ## Reachable pools -/

namespace Pool

variable {p p' : Pool} {e : Event}

theorem ready_of_life (hr : poolSystem.Reachable p) (h : p.internal.Life) : p.internal.Ready where
  wf := wf_of_reachable hr
  listener := fun t ht => ((h.flags t).listener ht).1
  queue := fun t => (h.flags t).queue
  entries := entriesRegistered_of_reachable hr
  udpServers := h.udpServers

theorem life_of_reachable (hr : poolSystem.Reachable p) : p.internal.Life :=
  hr.invariant (I := fun p => p.internal.Life) .init fun _ _ _ hr h hstep =>
    (calls_of_step (ready_of_life hr h) hstep).life h

theorem ready_of_reachable (hr : poolSystem.Reachable p) : p.internal.Ready :=
  ready_of_life hr (life_of_reachable hr)

/-- **Call invariants.** What holds of the empty pool, with nothing held and nothing loose, and is
kept by every call of an object whose flags fit, holds of every reachable pool. -/
theorem call_invariant {I : Scope → Prop} (hinit : I ⟨{}, [], none⟩)
    (hcall : ∀ σ σ', σ.internal.Life → I σ → Call σ σ' → I σ') (hr : poolSystem.Reachable p) :
    I ⟨p.internal, [], none⟩ := by
  refine hr.invariant (I := fun p => I ⟨p.internal, [], none⟩) hinit fun p e p' hr hI hstep => ?_
  exact (calls_of_step (ready_of_reachable hr) hstep).invariant (life_of_reachable hr) hI hcall

end Pool

end NetworkPool
