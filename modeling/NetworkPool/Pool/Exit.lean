import NetworkPool.Pool.Homes
import NetworkPool.Pool.Servers
import NetworkPool.Pool.Watchdog

/-!
# Exit

The exit branch of `on_wakeup` closes what the registries hold. `Complete` is what it is to leave
behind, for good; it does exactly when no connection is orphaned at that time
(`exit_complete_iff_no_orphan`).
-/

namespace NetworkPool

open Table

/-! ## What TCP callbacks leave alone -/

/-- The UDP sockets and `m_wakeup` stay. -/
structure Internal.SameRest (s s' : Internal) : Prop where
  udps : s'.udps = s.udps
  nextUdp : s'.nextUdp = s.nextUdp
  udpServers : s'.udpServers = s.udpServers
  async : s'.async = s.async
  wakeup : s'.wakeup = s.wakeup

section SameRest

variable {s s₁ s' : Internal}

theorem Internal.SameRest.refl (s : Internal) : s.SameRest s :=
  ⟨rfl, rfl, rfl, rfl, rfl⟩

theorem Internal.SameRest.trans (h : s.SameRest s₁) (h' : s₁.SameRest s') : s.SameRest s' :=
  ⟨h'.udps.trans h.udps, h'.nextUdp.trans h.nextUdp, h'.udpServers.trans h.udpServers,
    h'.async.trans h.async, h'.wakeup.trans h.wakeup⟩

theorem Internal.SameRest.ite {b : Prop} [Decidable b] (h : s.SameRest s₁) (h' : s.SameRest s') :
    s.SameRest (if b then s₁ else s') := by
  split_ifs
  · exact h
  · exact h'

theorem Internal.Frame.sameRest (h : s.Frame s') : s.SameRest s' :=
  ⟨h.udps, h.nextUdp, h.udpServers, h.async, h.wakeup⟩

end SameRest

/-! ## One object changes -/

/-- The object `t` becomes `c`, and no other object changes. -/
structure Internal.Sets (s s' : Internal) (t : ℕ) (c : Ctcp) : Prop where
  tcps : s'.tcps = Function.update s.tcps t c
  nextTcp : s'.nextTcp = s.nextTcp
  rest : s.SameRest s'

section Sets

variable {s s₁ s' : Internal} {t : ℕ} {c c' : Ctcp}

theorem Internal.sets_setTcp (s : Internal) (t : ℕ) (c : Ctcp) : s.Sets (s.setTcp t c) t c :=
  ⟨rfl, rfl, rfl, rfl, rfl, rfl, rfl⟩

theorem Internal.sets_self (s : Internal) (t : ℕ) : s.Sets s t (s.tcps t) :=
  ⟨(Function.update_eq_self t _).symm, rfl, .refl s⟩

theorem Internal.Sets.trans (h : s.Sets s₁ t c) (h' : s₁.Sets s' t c') : s.Sets s' t c' where
  tcps := by rw [h'.tcps, h.tcps, Function.update_idem]
  nextTcp := h'.nextTcp.trans h.nextTcp
  rest := h.rest.trans h'.rest

theorem Internal.Sets.frame (h : s.Sets s₁ t c) (hs : s₁.Frame s') : s.Sets s' t c where
  tcps := hs.tcps.trans h.tcps
  nextTcp := hs.nextTcp.trans h.nextTcp
  rest := h.rest.trans hs.sameRest

/-- The object as it is now. -/
theorem Internal.Sets.object (h : s.Sets s' t c) : s'.tcps t = c := by
  rw [h.tcps, Function.update_self]

theorem sets_close (t : ℕ) (s : Internal) :
    s.Sets (Ctcp.closeSetNullptr t s) t (s.tcps t).afterClose where
  tcps := congrArg Table.tcps (table_closeSetNullptr t s)
  nextTcp := congrArg Table.nextTcp (table_closeSetNullptr t s)
  rest := by
    have htcp : s.SameRest (if (s.tcps t).tcpInited then uvCloseTcp t s else s) :=
      .ite ⟨rfl, rfl, rfl, rfl, rfl⟩ (.refl s)
    unfold Ctcp.closeSetNullptr
    dsimp only
    refine .ite (.ite ?_ (.refl s)) ⟨rfl, rfl, rfl, rfl, rfl⟩
    generalize (if (s.tcps t).tcpInited then uvCloseTcp t s else s) = s₁ at htcp ⊢
    have htimer : s₁.SameRest (if (s.tcps t).timerInited then uvCloseTimer t s₁ else s₁) :=
      .ite ⟨rfl, rfl, rfl, rfl, rfl⟩ (.refl s₁)
    exact (htcp.trans htimer).trans ⟨rfl, rfl, rfl, rfl, rfl⟩

theorem Internal.Sets.close (h : s.Sets s' t c) :
    s.Sets (Ctcp.closeSetNullptr t s') t c.afterClose := by
  have hclose := h.trans (sets_close t s')
  rwa [h.object] at hclose

theorem sets_uvTimerStart (t : ℕ) (s : Internal) (timeout : Timeout) (ok : Bool) :
    s.Sets (uvTimerStart t s timeout ok) t (if ok then (s.tcps t).arm timeout else s.tcps t) := by
  cases ok with
  | false =>
    exact ⟨(Function.update_eq_self t _).symm, rfl, rfl, rfl, rfl, rfl, rfl⟩
  | true => exact ⟨rfl, rfl, rfl, rfl, rfl, rfl, rfl⟩

theorem sets_onTcpClosed (s : Internal) (t : ℕ) :
    s.Sets (Ctcp.onTcpClosed t s) t { s.tcps t with
      tcp := { (s.tcps t).tcp with closed := true }, tcpInited := false } := by
  unfold Ctcp.onTcpClosed
  dsimp only
  split_ifs <;> exact ⟨rfl, rfl, rfl, rfl, rfl, rfl, rfl⟩

theorem sets_onTimerClosed (s : Internal) (t : ℕ) :
    s.Sets (Ctcp.onTimerClosed t s) t { s.tcps t with
      timer := { (s.tcps t).timer with closed := true }, timerInited := false } := by
  unfold Ctcp.onTimerClosed
  dsimp only
  split_ifs <;> exact ⟨rfl, rfl, rfl, rfl, rfl, rfl, rfl⟩

end Sets

/-! ## UDP sockets -/

/-- UDP sockets that were not deleted are initialised, and those that are open are servers of the
pool, or in the hands of a callback; `m_wakeup` stays initialised, and is set to null when it is
closed. -/
structure Served (σ : Scope) : Prop where
  inited : ∀ u, u < σ.internal.nextUdp → .delete (.udp u) ∉ σ.internal.trace →
    (σ.internal.udps u).inited = true
  udpServers : ∀ u, σ.loose ≠ some (.udp u) → (σ.internal.udps u).inited = true →
    (σ.internal.udps u).closing = false → u ∈ σ.internal.udpServers
  async : σ.internal.async.inited = true
  wakeup : σ.internal.wakeup = !σ.internal.async.closing

section Served

variable {s s' : Internal} {held held' : List ℕ} {loose loose' : Option UvHandle} {u : ℕ} {c : Cudp}

/-- The UDP side stays. -/
theorem Served.frame (h : Served ⟨s, held, loose⟩) (hs : s.SameRest s')
    (htrace : s.trace <+: s'.trace) (hloose : ∀ u, loose = some (.udp u) → loose' = some (.udp u)) :
    Served ⟨s', held', loose'⟩ where
  inited := by
    intro u hu hdel
    dsimp only at hu hdel ⊢
    rw [hs.nextUdp] at hu
    rw [hs.udps]
    exact h.inited u hu fun hin => hdel (htrace.subset hin)
  udpServers := by
    intro u hu
    dsimp only
    rw [hs.udps, hs.udpServers]
    exact h.udpServers u fun hl => hu (hloose u hl)
  async := by
    dsimp only
    rw [hs.async]
    exact h.async
  wakeup := by
    dsimp only
    rw [hs.wakeup, hs.async]
    exact h.wakeup

/-- The socket `u` is replaced. -/
theorem Served.update (h : Served ⟨s, held, loose⟩) (hudps : s'.udps = Function.update s.udps u c)
    (hnext : ∀ u', u' ≠ u → u' < s'.nextUdp → u' < s.nextUdp) (htrace : s.trace <+: s'.trace)
    (hservers : s'.udpServers = s.udpServers) (hasync : s'.async = s.async)
    (hwakeup : s'.wakeup = s.wakeup)
    (hloose : ∀ u', u' ≠ u → loose = some (.udp u') → loose' = some (.udp u'))
    (hinited : u < s'.nextUdp → .delete (.udp u) ∉ s'.trace → c.inited = true)
    (hself : loose' ≠ some (.udp u) → c.inited = true → c.closing = false → u ∈ s.udpServers) :
    Served ⟨s', held', loose'⟩ where
  inited := by
    intro u' hu' hdel
    dsimp only at hu' hdel ⊢
    rw [hudps]
    by_cases heq : u' = u
    · subst heq
      rw [Function.update_self]
      exact hinited hu' hdel
    · rw [Function.update_of_ne heq]
      exact h.inited u' (hnext u' heq hu') fun hin => hdel (htrace.subset hin)
  udpServers := by
    intro u' hu' hi hc
    dsimp only at hi hc ⊢
    rw [hudps] at hi hc
    rw [hservers]
    by_cases heq : u' = u
    · subst heq
      rw [Function.update_self] at hi hc
      exact hself hu' hi hc
    · rw [Function.update_of_ne heq] at hi hc
      exact h.udpServers u' (fun hl => hu' (hloose u' heq hl)) hi hc
  async := by
    dsimp only
    rw [hasync]
    exact h.async
  wakeup := by
    dsimp only
    rw [hwakeup, hasync]
    exact h.wakeup

end Served

/-- Every call keeps the UDP sockets served. -/
theorem Call.served {σ σ' : Scope} (hcall : Call σ σ') (h : Served σ) : Served σ' := by
  have htrace := hcall.trace_prefix
  -- calls on streams and timers
  have htcp : ∀ {s s' : Internal} {held held' : List ℕ} {loose loose' : Option UvHandle},
      Served ⟨s, held, loose⟩ → s.trace <+: s'.trace → (∀ u, loose ≠ some (.udp u)) →
        s.SameRest s' → Served ⟨s', held', loose'⟩ :=
    fun h ht hl hs => h.frame hs ht fun u hu => absurd hu (hl u)
  have hstream : ∀ {loose : Option UvHandle} {t : ℕ}, loose = none ∨ loose = some (.tcp t) →
      ∀ u, loose ≠ some (.udp u) := by
    rintro loose t (rfl | rfl) u <;> simp
  cases hcall with
  | other held loose hframe =>
    exact h.frame hframe.sameRest htrace fun _ hl => hl
  | malloc s held loose | free s req held loose =>
    exact h.frame ⟨rfl, rfl, rfl, rfl, rfl⟩ htrace fun _ hl => hl
  | watch s held loose t timeout htimeout hloose
  | watchFailed s held loose t timeout htimeout hloose =>
    exact htcp h htrace (hstream hloose) (sets_uvTimerStart t s timeout _).rest
  | close s held loose t hloose =>
    exact htcp h htrace (hstream hloose) (sets_close t s).rest
  | sendTimer s held t ok => exact htcp h htrace (by simp) (sets_uvTimerStart t s .send ok).rest
  | shutdownFailed s req held t =>
    have hfree : s.SameRest ((uvShutdown t s req false).emit [.freeReq req]) :=
      ⟨rfl, rfl, rfl, rfl, rfl⟩
    exact htcp h htrace (by simp) (hfree.trans (sets_close t _).rest)
  | tcpClosed s held t =>
    exact htcp h htrace (by simp) (sets_onTcpClosed s t).rest
  | timerClosed s held t =>
    exact htcp h htrace (by simp) (sets_onTimerClosed s t).rest
  | newUdp s held =>
    refine h.update (u := s.nextUdp) rfl (fun u' hne hu' => ?_) htrace rfl rfl rfl
      (fun _ _ hl => absurd hl (by simp)) (fun _ _ => rfl) fun hl => absurd rfl hl
    have hlt : u' < s.nextUdp + 1 := hu'
    omega
  | newUdpFailed s held =>
    refine h.update (u := s.nextUdp) rfl (fun u' hne hu' => ?_) htrace rfl rfl rfl
      (fun _ _ hl => absurd hl (by simp)) (fun _ hdel => ?_) fun _ hi => absurd hi (by simp)
    · have hlt : u' < s.nextUdp + 1 := hu'
      omega
    · exact absurd (List.mem_append_right _ (List.mem_singleton_self _)) hdel
  | setUdp s held u node receiving =>
    exact h.update rfl (fun _ _ hu => hu) htrace rfl rfl rfl (fun _ _ hl => hl)
      (fun hu hdel => h.inited u hu hdel) fun hl => absurd rfl hl
  | linkUdp s held u hu =>
    refine ⟨h.inited, fun u' _ hi hc => ?_, h.async, h.wakeup⟩
    by_cases heq : u' = u
    · subst heq
      exact List.mem_append_right _ (List.mem_singleton_self _)
    · refine List.mem_append_left _ (h.udpServers u' (fun hl => heq ?_) hi hc)
      exact (UvHandle.udp.inj (Option.some.inj hl)).symm
  | unlinkUdp s held u =>
    refine ⟨h.inited, fun u' hu' hi hc => ?_, h.async, h.wakeup⟩
    have hne : u' ≠ u := fun heq => hu' (by rw [heq])
    exact (List.mem_erase_of_ne hne).mpr (h.udpServers u' (by simp) hi hc)
  | closeUdp s held u =>
    have hother : ∀ u', u' ≠ u → some (UvHandle.udp u) = some (.udp u') →
        (none : Option UvHandle) = some (.udp u') :=
      fun u' hne hl => absurd (UvHandle.udp.inj (Option.some.inj hl)).symm hne
    -- the socket was closed, or never initialised
    have hself : ∀ {s' : Internal}, s.SameRest s' → s.trace <+: s'.trace →
        ((s.udps u).inited = true → (s.udps u).closing = true) → Served ⟨s', held, none⟩ := by
      intro s' hs ht hc
      have hupdate : s'.udps = Function.update s.udps u (s.udps u) :=
        hs.udps.trans (Function.update_eq_self u _).symm
      refine h.update hupdate (fun _ _ hu => hs.nextUdp ▸ hu) ht hs.udpServers hs.async hs.wakeup hother
        (fun hu hdel => ?_) fun _ hi ho => absurd ((hc hi).symm.trans ho) (by simp)
      exact h.inited u (hs.nextUdp ▸ hu) fun hin => hdel (ht.subset hin)
    revert htrace
    unfold Cudp.closeSetNullptr
    dsimp only
    split_ifs with hi hc <;> intro htrace
    · exact h.update rfl (fun _ _ hu => hu) htrace rfl rfl rfl hother (fun _ _ => hi)
        fun _ _ ho => absurd ho (by simp)
    · exact hself (.refl s) htrace fun _ => by simpa using hc
    · exact hself ⟨rfl, rfl, rfl, rfl, rfl⟩ htrace fun hi' => absurd hi' hi
  | sendUdp s w held u hu | takeSend s held u w hw =>
    exact h.update (u := u) rfl (fun _ _ hu => hu) htrace rfl rfl rfl (fun _ _ hl => hl)
      (fun hu hdel => h.inited u hu hdel) fun _ hi hc => h.udpServers u (by simp) hi hc
  | udpClosed s held u =>
    exact h.update (u := u) rfl (fun _ _ hu => hu) htrace rfl rfl rfl (fun _ _ hl => hl)
      (fun hu hdel => h.inited u hu fun hin => hdel (htrace.subset hin))
      fun _ hi hc => h.udpServers u (by simp) hi hc
  | closeAsync s held =>
    have hinited : s.async.inited = true := h.async
    revert htrace
    unfold Casync.closeSetNullptr
    rw [if_pos hinited]
    split_ifs with hclosing <;> intro htrace
    · exact ⟨fun u hu hdel => h.inited u hu fun hin => hdel (htrace.subset hin), h.udpServers,
        hinited, rfl⟩
    · exact ⟨h.inited, h.udpServers, hinited, by simpa using hclosing⟩
  | asyncClosed s held =>
    exact ⟨fun u hu hdel => h.inited u hu fun hin => hdel (htrace.subset hin), h.udpServers, h.async,
      h.wakeup⟩
  | _ => exact htcp h htrace (by simp) ⟨rfl, rfl, rfl, rfl, rfl⟩

theorem served_of_reachable {p : Pool} (hr : poolSystem.Reachable p) :
    Served ⟨p.internal, [], none⟩ :=
  Pool.call_invariant ⟨fun _ hu => absurd hu (by simp), fun _ _ hi => absurd hi (by simp), rfl, rfl⟩
    (fun _ _ _ h hcall => hcall.served h) hr

/-! ## After exit -/

/-- The handles were passed to `uv_close`, or the stream shuts down under the send timeout. -/
def Ctcp.Ending (c : Ctcp) : Prop :=
  ((c.tcpInited = true → c.tcp.closing = true) ∧ (c.timerInited = true → c.timer.closing = true)) ∨
    (c.shutdown = true ∧ c.timer.armed = some .send)

instance (c : Ctcp) : Decidable c.Ending :=
  inferInstanceAs (Decidable (_ ∨ _))

/-- What the exit branch is to leave behind: the containers are empty, and every object that was
not deleted is ending. -/
structure Internal.Complete (s : Internal) : Prop where
  tcpServers : s.tcpServers = ∅
  udpServers : s.udpServers = []
  node2stream : s.node2stream = ∅
  connecting : s.connecting = ∅
  waitingSend : s.waitingSend = ∅
  tcps : ∀ t, t < s.nextTcp → .delete (.tcp t) ∉ s.trace → (s.tcps t).Ending
  udps : ∀ u, u < s.nextUdp → .delete (.udp u) ∉ s.trace → (s.udps u).closing = true

/-- The actions of callbacks when there is no listener. -/
def Label.Late : Label → Prop
  | .touch _ | .message _ | .written _ | .lost _ | .teardown _ | .connectFail _ | .connectUp _ _
  | .shutdownDone _ | .dead => True
  | _ => False

theorem UvEvent.Allows.late {e : UvEvent} {l : Label} (h : e.Allows l)
    (he : ∀ server status env, e ≠ .newConnection server status env) : l.Late := by
  cases l with
  | acceptUp peer ok =>
    cases e with
    | newConnection server status env => exact absurd rfl (he server status env)
    | _ => exact absurd h (by simp [UvEvent.Allows])
  | close | park | connect | refuse | discard | write | writeFail | listen | unlisten | notice
  | exit => cases e <;> exact absurd h (by simp [UvEvent.Allows])
  | _ => trivial

namespace Table

/-- The registries and the waiting queues are empty, and an object whose stream is initialised is
closing or shutting down. -/
structure Gone (v : Table) : Prop where
  tcpServers : v.tcpServers = ∅
  node2stream : v.node2stream = ∅
  connecting : v.connecting = ∅
  waitingSend : v.waitingSend = ∅
  ending : ∀ t, (v.tcps t).tcpInited = true → (v.tcps t).closing = true ∨ (v.tcps t).shutdown = true

variable {v v' : Table} {t : ℕ} {c : Ctcp} {batch : List (CnetworkNode × UvBuf)}

/-- An object is replaced by one that is no more open. -/
theorem Gone.setTcp (h : v.Gone)
    (hc : c.tcpInited = true → c.closing = false → c.shutdown = false →
      (v.tcps t).tcpInited = true ∧ (v.tcps t).closing = false ∧ (v.tcps t).shutdown = false) :
    (v.setTcp t c).Gone where
  tcpServers := h.tcpServers
  node2stream := h.node2stream
  connecting := h.connecting
  waitingSend := h.waitingSend
  ending := by
    intro t' hi
    by_cases heq : t' = t
    · subst heq
      rw [setTcp_tcps_self] at hi ⊢
      by_contra hnot
      rw [not_or, Bool.not_eq_true, Bool.not_eq_true] at hnot
      obtain ⟨hi', hc', hs'⟩ := hc hi hnot.1 hnot.2
      rcases h.ending t' hi' with hclosing | hshutdown
      · exact absurd (hc'.symm.trans hclosing) (by simp)
      · exact absurd (hs'.symm.trans hshutdown) (by simp)
    · rw [setTcp_tcps_other v heq] at hi ⊢
      exact h.ending t' hi

theorem Gone.emit (h : v.Gone) (obs : List Obs) : (v.emit obs).Gone :=
  ⟨h.tcpServers, h.node2stream, h.connecting, h.waitingSend, h.ending⟩

/-- A teardown that closes its object. -/
theorem Gone.teardown (h : v.Gone) (b : Bool) (hclosing : c.closing = true) :
    (v.teardown t b c).Gone := by
  have hset : (v.setTcp t c).Gone :=
    h.setTcp fun _ hc => absurd (hclosing.symm.trans hc) (by simp)
  refine ⟨h.tcpServers, ?_, h.connecting, ?_, hset.ending⟩
  · show v.node2stream.erase _ = ∅
    rw [h.node2stream]
    rfl
  · show v.waitingSend.erase _ = ∅
    rw [h.waitingSend]
    rfl

/-- No pending connect is left open. -/
theorem Gone.connectReq (h : v.Gone) (hwf : v.Wf) (hreq : (v.tcps t).tcp.connectReq.isSome = true) :
    (v.tcps t).closing = true := by
  obtain ⟨-, htcp, -⟩ := (hwf.tcps t).connectReq hreq
  refine (h.ending t htcp).resolve_right fun hshutdown => ?_
  rw [((hwf.tcps t).shutdown hshutdown).1] at hreq
  exact absurd hreq (by simp)

/-- The exit branch closes everything but orphans. -/
theorem NoOrphan.gone (h : v.NoOrphan) (hhomed : v.Homed) (hact : Act v (.exit batch) v') :
    v'.Gone := by
  cases hact with
  | exit batch streams connecting queues tcps hstreams hconnecting hqueues htcps =>
    refine ⟨rfl, rfl, rfl, rfl, fun t hi => ?_⟩
    change (tcps t).tcpInited = true at hi
    change (tcps t).closing = true ∨ (tcps t).shutdown = true
    rcases htcps t with ⟨-, heq⟩ | ⟨hout, heq⟩ <;> rw [heq] at hi ⊢
    · rw [Ctcp.afterClose_tcpInited] at hi
      exact .inl (Ctcp.afterClose_closing fun _ => hi)
    · by_contra hnot
      rw [not_or, Bool.not_eq_true, Bool.not_eq_true] at hnot
      -- an open object outside the registries was entered, and lost its entry
      have hreg : IsRegistered t v.trace := by
        rcases (hhomed t).place hi hnot.1 with hin | hin | hin
        · exact absurd (.inl hin) hout
        · exact absurd (.inr (.inr ⟨_, hin⟩)) hout
        · exact hin
      exact hout (.inr (.inl ⟨_, h t ⟨hreg, hnot.1, hnot.2⟩⟩))

/-- The exit branch does not find an orphan. -/
theorem Live.exit (hlive : v.Live t) (hwf : v.Wf) (hhomed : v.Homed)
    (horphan : v.node2stream.lookup (v.tcps t).node ≠ some t) (hact : Act v (.exit batch) v') :
    v'.tcps t = v.tcps t := by
  obtain ⟨hreg, hclosing, -⟩ := hlive
  have hup := (hhomed t).up hreg hclosing
  have hout : ¬ v.InRegistry t := by
    rintro (hin | ⟨node, hin⟩ | ⟨node, hin⟩)
    · have hreq := hwf.connecting t hin
      rw [Ctcp.Connecting, hup.connectReq] at hreq
      exact absurd hreq (by simp)
    · have hnode := (hwf.stream node t hin).node
      exact horphan (hnode ▸ hin)
    · exact absurd (hup.listening.symm.trans (hwf.server node t hin).listening) (by simp)
  cases hact with
  | exit batch streams connecting queues tcps hstreams hconnecting hqueues htcps =>
    exact ((htcps t).resolve_left fun hin => hout hin.1).2

end Table

/-- Callbacks leave nothing open once everything is gone. -/
theorem Act.gone {v v' : Table} {l : Label} (hact : Act v l v') (hwf : v.Wf) (hl : l.Late)
    (h : v.Gone) : v'.Gone := by
  cases hact with
  | touch t c hc =>
    obtain ⟨-, hclosing, hshutdown, -⟩ := hc.same
    refine h.setTcp fun hi ho hs => ⟨?_, hclosing.symm.trans ho, hshutdown.symm.trans hs⟩
    rw [← (hc.inited (hwf.tcps t) (hclosing.symm.trans ho)).1]
    exact hi
  | message t data hreading => exact h.emit _
  | written t w hw | lost t w hw =>
    have hset : (v.setTcp t ((v.tcps t).takeWrite w)).Gone := h.setTcp fun hi hc hs => ⟨hi, hc, hs⟩
    exact hset.emit _
  | teardown t hlistening hconnect => exact h.teardown false (Ctcp.afterClose_closing hconnect)
  | connectFail t armed hreq harmed =>
    obtain ⟨-, htcp, -⟩ := (hwf.tcps t).connectReq hreq
    have herase : Table.Gone { v with connecting := v.connecting.erase t } := by
      refine ⟨h.tcpServers, h.node2stream, ?_, h.waitingSend, h.ending⟩
      rw [h.connecting]
      rfl
    set c := if armed then (v.tcps t).connectDone.arm .idle else (v.tcps t).connectDone with hc
    have hc' : c.tcpInited = true ∧ c.closing = (v.tcps t).closing ∧ c.shutdown = (v.tcps t).shutdown := by
      cases armed <;> exact ⟨htcp, rfl, rfl⟩
    have hset : (({ v with connecting := v.connecting.erase t } : Table).setTcp t c).Gone :=
      herase.setTcp fun _ ho hs => ⟨htcp, hc'.2.1.symm.trans ho, hc'.2.2.symm.trans hs⟩
    exact hset.teardown true (Ctcp.afterClose_closing fun _ => hc'.1)
  | connectUp t ok v' hreq hclosing hstart =>
    exact absurd (hclosing.symm.trans (h.connectReq hwf hreq)) (by simp)
  | shutdownDone t hreq =>
    have htcp := ((hwf.tcps t).shutdownReq hreq).2
    set c : Ctcp := { v.tcps t with tcp := { (v.tcps t).tcp with shutdownReq := none } }
    have hclosed : c.afterClose.closing = true := Ctcp.afterClose_closing fun _ => htcp
    exact h.setTcp fun _ hc => absurd (hclosed.symm.trans hc) (by simp)
  | dead c hc =>
    have hset : (v.setTcp v.nextTcp c).Gone :=
      h.setTcp fun hi ho => absurd ((hc.inited ho).1.symm.trans hi) (by simp)
    exact ⟨hset.tcpServers, hset.node2stream, hset.connecting, hset.waitingSend, hset.ending⟩
  | _ => exact absurd hl (by simp [Label.Late])

theorem Acts.gone {v v' : Table} {ls : List Label} (hacts : Acts v ls v') (hwf : v.Wf)
    (hls : ∀ l ∈ ls, l.Late) (h : v.Gone) : v'.Gone := by
  induction hacts with
  | nil => exact h
  | cons hact _ ih =>
    exact ih (hact.wf hwf) (fun l hl => hls l (List.mem_cons_of_mem _ hl))
      (hact.gone hwf (hls _ (List.mem_cons_self ..)) h)

/-! ## Runs -/

/-- The exit branch stops the UDP servers and closes `m_wakeup`. -/
theorem exitAll_rest {s : Internal} (order : ExitOrder) (b : Batch)
    (hinited : s.async.inited = true) :
    (exitAll order b s).udpServers = [] ∧ (exitAll order b s).async.closing = true := by
  have hasync : (Casync.closeSetNullptr s).async.closing = true := by
    unfold Casync.closeSetNullptr
    rw [if_pos hinited]
    split_ifs with hclosing
    · rfl
    · simpa using hclosing
  -- the loops over the TCP containers
  have htcp : ∀ {α : Type} (l : List α) (f : Internal → α → Internal) (s₁ : Internal),
      (∀ (s₂ : Internal) a, s₂.SameRest (f s₂ a)) → s₁.SameRest (l.foldl f s₁) := by
    intro α l f s₁ hf
    exact List.foldlRecOn (motive := fun s₂ => s₁.SameRest s₂) l f (.refl s₁)
      fun s₂ h a _ => h.trans (hf s₂ a)
  have hclose : ∀ (t : ℕ) (c : Callback) (s₁ : Internal),
      s₁.SameRest (Ctcp.closeSetNullptr t (s₁.call c)) := by
    intro t c s₁
    have hcall : s₁.SameRest (s₁.call c) := ⟨rfl, rfl, rfl, rfl, rfl⟩
    exact hcall.trans (sets_close t _).rest
  -- the loop over the UDP servers
  have hudp : ∀ (l : List ℕ) (s₁ : Internal), s₁.udpServers = [] ∧ s₁.async.closing = true →
      (l.foldl (fun s u => Cudp.closeSetNullptr u (s.call (.bindStatus (s.udps u).node false)))
        s₁).udpServers = [] ∧
      (l.foldl (fun s u => Cudp.closeSetNullptr u (s.call (.bindStatus (s.udps u).node false)))
        s₁).async.closing = true := by
    intro l s₁ h
    refine List.foldlRecOn
      (motive := fun s₂ : Internal => s₂.udpServers = [] ∧ s₂.async.closing = true) l _ h
      fun s₂ h₂ u _ => ?_
    unfold Cudp.closeSetNullptr
    dsimp only
    split_ifs <;> exact h₂
  unfold exitAll
  dsimp only
  set s₁ := Casync.closeSetNullptr s
  set s₂ := order.tcpServers.foldl (fun s pair =>
    Ctcp.closeSetNullptr pair.2 (s.call (.bindStatus pair.1 false))) { s₁ with tcpServers := ∅ }
    with hs₂
  have h₂ : s₂.async.closing = true := by
    have hrest := htcp order.tcpServers (fun s pair =>
      Ctcp.closeSetNullptr pair.2 (s.call (.bindStatus pair.1 false))) { s₁ with tcpServers := ∅ }
      fun s pair => hclose pair.2 _ s
    exact (congrArg Casync.closing hrest.async).trans hasync
  set s₃ := s₂.udpServers.foldl (fun s u =>
    Cudp.closeSetNullptr u (s.call (.bindStatus (s.udps u).node false))) { s₂ with udpServers := [] }
    with hs₃
  have h₃ := hudp s₂.udpServers { s₂ with udpServers := [] } ⟨rfl, h₂⟩
  have hstreams := htcp order.node2stream (fun s pair =>
    Ctcp.closeSetNullptr pair.2 (s.call (.connectionStatus (s.tcps pair.2).node false)))
    { s₃ with node2stream := ∅ } fun s pair => hclose pair.2 _ s
  set s₄ := order.node2stream.foldl (fun s pair =>
    Ctcp.closeSetNullptr pair.2 (s.call (.connectionStatus (s.tcps pair.2).node false)))
    { s₃ with node2stream := ∅ }
  have hconnecting := htcp order.connecting (fun s t =>
    Ctcp.closeSetNullptr t (s.call (.connectionStatus (s.tcps t).node false)))
    { s₄ with connecting := ∅ } fun s t => hclose t _ s
  refine ⟨hconnecting.udpServers.trans (hstreams.udpServers.trans h₃.1), ?_⟩
  exact (congrArg Casync.closing (hconnecting.async.trans hstreams.async)).trans h₃.2

namespace Pool

/-- The state of the pool from the exit branch on. -/
structure Exited (p : Pool) : Prop where
  table : p.table.Gone
  udpServers : p.internal.udpServers = []
  async : p.internal.async.closing = true
  batch : p.batch = none

variable {p p₁ p' : Pool} {e : Event} {order : ExitOrder}

theorem Exited.step (h : p.Exited) (hr : poolSystem.Reachable p)
    (hstep : poolSystem.step p e = some p') : p'.Exited := by
  have hwf := wf_of_reachable hr
  have hasync := h.async
  have hbatch := h.batch
  cases e with
  | bind node bBind | send node data bAutoConnect | close node bForceClose | wantExit =>
    obtain rfl := Option.some.inj hstep
    exact ⟨h.table, h.udpServers, h.async, h.batch⟩
  | wakeup => exact absurd hstep (by simp [poolSystem, Pool.step, hbatch, hasync])
  | dispatch | bindNext | sendNext | closeNext | wakeupDone =>
    exact absurd hstep (by simp [poolSystem, Pool.step, hbatch])
  | uv e =>
    simp only [poolSystem, Pool.step, hbatch] at hstep
    cases hs : uvStep p.internal e with
    | none => exact absurd hstep (by simp [hs])
    | some s =>
      obtain rfl : ({ p with internal := s } : Pool) = p' := by simpa [hs, hbatch] using hstep
      -- a listener would be open
      have hlistening : ∀ t, (p.internal.tcps t).tcp.listening = false := by
        intro t
        by_contra hl
        have hl : (p.internal.tcps t).tcp.listening = true := by simpa using hl
        obtain ⟨htcp, hclosing⟩ := ((life_of_reachable hr).flags t).listener hl
        rcases h.table.ending t htcp with hc | hsh
        · exact absurd (hclosing.symm.trans hc) (by simp)
        · exact absurd (((hwf.tcps t).shutdown hsh).2.1.symm.trans hl) (by simp)
      have he : ∀ server status env, e ≠ .newConnection server status env := by
        rintro server status env rfl
        simp [uvStep, hlistening server] at hs
      have hservers := uvStep_servers hs
      refine ⟨?_, hservers.udpServers.trans h.udpServers, hservers.closing.trans hasync, hbatch⟩
      obtain ⟨ls, v₁, hacts, hls, hlast⟩ := uvStep_acts hwf hs
      have hgone := hacts.gone hwf (fun l hl => (hls l hl).2.late he) h.table
      rcases hlast with ⟨rfl, -⟩ | ⟨l, hact, hallows, -⟩
      · exact hgone
      · exact hact.gone (hacts.wf hwf) (hallows.late he) hgone

/-- Nothing that can receive is left. -/
theorem Exited.complete (h : p.Exited) (hr : poolSystem.Reachable p) : p.internal.Complete where
  tcpServers := h.table.tcpServers
  udpServers := h.udpServers
  node2stream := h.table.node2stream
  connecting := h.table.connecting
  waitingSend := h.table.waitingSend
  tcps := by
    intro t _ _
    have hflags := (life_of_reachable hr).flags t
    have hwf : (p.internal.tcps t).Wf := (wf_of_reachable hr).tcps t
    by_cases hclosing : (p.internal.tcps t).closing = true
    · exact .inl ⟨hflags.tcpInited hclosing, hflags.timerInited hclosing⟩
    · have hopen : (p.internal.tcps t).closing = false := by simpa using hclosing
      by_cases htcp : (p.internal.tcps t).tcpInited = true
      · have hshutdown : (p.internal.tcps t).shutdown = true :=
          (h.table.ending t htcp).resolve_left hclosing
        obtain ⟨-, hlistening, harmed⟩ := hwf.shutdown hshutdown
        have hwatched := watched_of_reachable hr ⟨hopen, hlistening⟩
        refine .inr ⟨hshutdown, harmed.resolve_left fun hnone => ?_⟩
        have hsome := hwatched.armed htcp
        rw [hnone] at hsome
        exact absurd hsome (by simp)
      · refine .inl ⟨fun hi => absurd hi htcp, fun hi => ?_⟩
        exact absurd (hwf.inited hopen hi) htcp
  udps := by
    intro u hu hdel
    have hserved := served_of_reachable hr
    by_contra hclosing
    have hin := hserved.udpServers u (by simp) (hserved.inited u hu hdel) (by simpa using hclosing)
    rw [h.udpServers] at hin
    exact absurd hin (by simp)

/-- The step of the exit branch. -/
theorem exit_cases (hexit : p.exchanged.bWantExit = true)
    (hstep : poolSystem.step p (.dispatch order) = some p₁) :
    ∃ b, order.Enumerates p.internal ∧
      p₁ = { p with internal := exitAll order b p.internal, batch := none } := by
  simp only [poolSystem, Pool.step] at hstep
  split at hstep
  · rw [if_pos hexit] at hstep
    split_ifs at hstep with henum
    exact ⟨_, henum, (Option.some.inj hstep).symm⟩
  · exact absurd hstep (by simp)

end Pool

/-- **Exit.** The exit branch leaves the containers empty and every handle ending, for good, exactly
when no connection is orphaned at the time it runs. -/
theorem exit_complete_iff_no_orphan {p p₁ : Pool} {order : ExitOrder}
    (hr : poolSystem.Reachable p) (hexit : p.exchanged.bWantExit = true)
    (hstep : poolSystem.step p (.dispatch order) = some p₁) :
    (∀ es p₂, poolSystem.exec p₁ es = some p₂ → p₂.internal.Complete) ↔ p.NoOrphan := by
  have hwf := Pool.wf_of_reachable hr
  have hhomed := homed_of_reachable hr
  have hr₁ := hr.step hstep
  obtain ⟨b, henum, heq⟩ := Pool.exit_cases hexit hstep
  have hact : Act p.table (.exit (b.sendCopy.map PendingSend.message)) p₁.table := by
    rw [heq]
    exact exitAll_act henum b
  constructor
  · intro h t hreg hclosing hshutdown
    by_contra horphan
    have hlive : p.table.Live t := ⟨(isRegistered_visible t _).mpr hreg, hclosing, hshutdown⟩
    have hkept : p₁.internal.tcps t = p.internal.tcps t := hlive.exit hwf hhomed horphan hact
    have htcp : (p₁.internal.tcps t).tcpInited = true := by
      rw [hkept]
      exact ((hhomed t).up hlive.1 hclosing).tcpInited
    have hlife := Pool.life_of_reachable hr₁
    have hdel : .delete (.tcp t) ∉ p₁.internal.trace := fun hin =>
      absurd ((inited_of_delete hr₁ hin).1.symm.trans htcp) (by simp)
    rcases (h [] p₁ rfl).tcps t (hlife.lt_nextTcp htcp) hdel with ⟨hclosed, -⟩ | ⟨hshut, -⟩
    · have hc := (hlife.flags t).tcpClosing (hclosed htcp)
      rw [hkept] at hc
      exact absurd (hclosing.symm.trans hc) (by simp)
    · rw [hkept] at hshut
      exact absurd (hshutdown.symm.trans hshut) (by simp)
  · intro h es p₂ hexec
    have hrest := exitAll_rest order b (served_of_reachable hr).async
    have hexited : p₁.Exited := by
      refine ⟨(Pool.noOrphan_table.mp h).gone hhomed hact, ?_, ?_, ?_⟩ <;> rw [heq]
      · exact hrest.1
      · exact hrest.2
    obtain ⟨hr₂, h₂⟩ := Lib.Lts.exec_invariant hexec hr₁ hexited
      fun p e p' hr h hs => h.step hr hs
    exact h₂.complete hr₂

/-- Exit with one connection, stored under its node. -/
theorem exit_complete_stored :
    ∃ p p₁, poolSystem.run (openRun 0 ++ [.wantExit, .wakeup]) = some p ∧
      poolSystem.step p (.dispatch ⟨[], [(sampleNode, 0)], [], []⟩) = some p₁ ∧
      ∀ es p₂, poolSystem.exec p₁ es = some p₂ → p₂.internal.Complete := by
  have hrun := (Option.some_get (x := poolSystem.run (openRun 0 ++ [.wantExit, .wakeup]))
    (by decide)).symm
  set p := (poolSystem.run (openRun 0 ++ [.wantExit, .wakeup])).get (by decide) with hp
  have hstep := (Option.some_get
    (x := poolSystem.step p (.dispatch ⟨[], [(sampleNode, 0)], [], []⟩)) (by decide)).symm
  refine ⟨p, _, hrun, hstep, ?_⟩
  refine (exit_complete_iff_no_orphan (Lib.Lts.reachable_of_run hrun) (by decide) hstep).mpr ?_
  rintro t ⟨node, hin⟩ _ _
  have hregistered : p.internal.trace.filterMap
      (fun o => match o with | .registered t _ => some t | _ => none) = [0] := by decide
  have ht : t ∈ p.internal.trace.filterMap
      (fun o => match o with | .registered t _ => some t | _ => none) :=
    List.mem_filterMap.mpr ⟨_, hin, rfl⟩
  rw [hregistered, List.mem_singleton] at ht
  subst ht
  decide

/-- An orphan outlives the exit branch: it goes on reading and starts its idle timer again. -/
theorem exit_leaves_orphan :
    ∃ p p₁ p₂, poolSystem.run (openRun 0 ++ closeRun false ++ openRun 1 ++
        [.uv (.drained 1 1), .uv (.writeDone 1 4 0 {}), .uv (.tcpRead 0 uvEof [] {}),
          .wantExit, .wakeup]) = some p ∧
      p.exchanged.bWantExit = true ∧
      poolSystem.step p (.dispatch ⟨[], [], [], []⟩) = some p₁ ∧ ¬ p₁.internal.Complete ∧
      poolSystem.exec p₁ [.uv (.tcpRead 1 1 [0] {})] = some p₂ ∧
      (p₂.internal.tcps 1).timer.armed = some .idle ∧ ¬ p₂.internal.Complete := by
  refine ⟨(poolSystem.run _).get (by decide), (poolSystem.step _ _).get (by decide),
    (poolSystem.exec _ _).get (by decide), (Option.some_get _).symm, by decide,
    (Option.some_get _).symm, fun h => ?_, (Option.some_get _).symm, by decide, fun h => ?_⟩
  · have hending := h.tcps 1 (by decide) (by decide)
    exact absurd hending (by decide)
  · have hending := h.tcps 1 (by decide) (by decide)
    exact absurd hending (by decide)

end NetworkPool
