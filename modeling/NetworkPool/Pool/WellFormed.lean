import NetworkPool.Pool.Table

/-!
# Well-formed tables

`Ctcp.Wf` relates the flags of an object to what libuv keeps for its handles. `Table.Wf` says
what the three registries hold: established connections in `m_node2stream`, pending connects in
`m_connecting`, listeners in `m_tcpServers`. `Act.wf` shows that every action keeps it.
-/

namespace NetworkPool

namespace Ctcp

/-- What holds of every object at any time. -/
structure Wf (c : Ctcp) : Prop where
  reading : c.tcp.reading = true → c.tcp.connectReq = none ∧ c.tcp.listening = false ∧
    c.closing = false ∧ c.tcpInited = true ∧ c.timerInited = true
  writes : c.tcp.writes ≠ [] → c.tcp.connectReq = none ∧ c.tcp.listening = false ∧
    c.tcpInited = true ∧ (c.closing = false → c.timerInited = true)
  shutdownReq : c.tcp.shutdownReq.isSome = true → c.shutdown = true ∧ c.tcpInited = true
  shutdown : c.shutdown = true → c.tcp.connectReq = none ∧ c.tcp.listening = false ∧
    (c.timer.armed = none ∨ c.timer.armed = some .send)
  connectReq : c.tcp.connectReq.isSome = true → c.tcp.listening = false ∧ c.tcpInited = true ∧
    (c.closing = false → c.timerInited = true)
  node : c.tcp.connectReq.isSome = true → c.node.IsTcp ∧ c.node.sockaddr.valid = true
  armed : c.timer.armed.isSome = true → c.closing = false ∧ c.tcpInited = true ∧
    c.timerInited = true ∧ c.tcp.listening = false
  tcpClosing : c.tcp.closing = true → c.closing = true
  timerClosing : c.timer.closing = true → c.closing = true
  inited : c.closing = false → c.timerInited = true → c.tcpInited = true

/-- An open connection to `n`. -/
structure Established (n : CnetworkNode) (c : Ctcp) : Prop where
  node : c.node = n
  isTcp : n.IsTcp
  closing : c.closing = false
  shutdown : c.shutdown = false
  connectReq : c.tcp.connectReq = none
  listening : c.tcp.listening = false
  tcpInited : c.tcpInited = true
  timerInited : c.timerInited = true

/-- The connect callback has not run. -/
def Connecting (c : Ctcp) : Prop :=
  c.tcp.connectReq.isSome = true

/-- A listener on `n`. -/
structure Listening (n : CnetworkNode) (c : Ctcp) : Prop where
  node : c.node = n
  listening : c.tcp.listening = true
  closing : c.closing = false
  shutdown : c.shutdown = false

/-! ## `afterClose` and `afterShutdown` -/

section AfterClose

variable (c : Ctcp)

@[simp] theorem afterClose_node : c.afterClose.node = c.node := by
  unfold afterClose; split_ifs <;> rfl

@[simp] theorem afterClose_shutdown : c.afterClose.shutdown = c.shutdown := by
  unfold afterClose; split_ifs <;> rfl

@[simp] theorem afterClose_tcpInited : c.afterClose.tcpInited = c.tcpInited := by
  unfold afterClose; split_ifs <;> rfl

@[simp] theorem afterClose_timerInited : c.afterClose.timerInited = c.timerInited := by
  unfold afterClose; split_ifs <;> rfl

@[simp] theorem afterClose_connectReq : c.afterClose.tcp.connectReq = c.tcp.connectReq := by
  unfold afterClose; split_ifs <;> rfl

@[simp] theorem afterClose_shutdownReq : c.afterClose.tcp.shutdownReq = c.tcp.shutdownReq := by
  unfold afterClose; split_ifs <;> rfl

@[simp] theorem afterClose_writes : c.afterClose.tcp.writes = c.tcp.writes := by
  unfold afterClose; split_ifs <;> rfl

variable {c}

/-- A closing object is left alone. -/
theorem afterClose_of_closing (h : c.closing = true) : c.afterClose = c := by
  unfold afterClose
  rw [if_neg (by simp [h])]

theorem open_of_afterClose (h : c.afterClose.closing = false) : c.closing = false := by
  by_contra hc
  rw [afterClose_of_closing (by simpa using hc)] at h
  exact hc h

theorem afterClose_closing (h : c.closing = false → c.tcpInited = true) :
    c.afterClose.closing = true := by
  by_cases hc : c.closing = true
  · rw [afterClose_of_closing hc, hc]
  · have hc' : c.closing = false := by simpa using hc
    unfold afterClose
    rw [if_pos (by simp [h hc', hc'])]

theorem afterClose_reading (h : c.Wf) : c.afterClose.tcp.reading = false := by
  have hread := h.reading
  unfold afterClose
  cases htcp : c.tcpInited <;> cases hclosing : c.closing <;> cases hr : c.tcp.reading <;>
    cases htimer : c.timerInited <;> simp_all

theorem afterClose_armed (h : c.Wf) : c.afterClose.timer.armed = none := by
  have harmed := h.armed
  unfold afterClose
  cases ha : c.timer.armed with
  | none => split_ifs <;> simp_all
  | some k =>
    obtain ⟨hclosing, htcp, htimer, -⟩ := harmed (by rw [ha]; rfl)
    simp [hclosing, htcp, htimer]

theorem afterClose_listening (h : c.tcp.listening = false) :
    c.afterClose.tcp.listening = false := by
  unfold afterClose
  split_ifs <;> simp_all

/-- Closing keeps the object well formed. -/
theorem Wf.afterClose (h : c.Wf) : c.afterClose.Wf where
  reading := by rw [afterClose_reading h]; simp
  writes := by
    intro hw
    rw [afterClose_writes] at hw
    obtain ⟨h₁, h₂, h₃, h₄⟩ := h.writes hw
    refine ⟨by simpa using h₁, afterClose_listening h₂, by simpa using h₃, fun hclosing => ?_⟩
    rw [afterClose_timerInited]
    exact h₄ (open_of_afterClose hclosing)
  shutdownReq := by simpa using h.shutdownReq
  shutdown := by
    intro hs
    rw [afterClose_shutdown] at hs
    obtain ⟨h₁, h₂, -⟩ := h.shutdown hs
    exact ⟨by simpa using h₁, afterClose_listening h₂, .inl (afterClose_armed h)⟩
  connectReq := by
    intro hr
    rw [afterClose_connectReq] at hr
    obtain ⟨h₁, h₂, -⟩ := h.connectReq hr
    refine ⟨afterClose_listening h₁, by simpa using h₂, fun hclosing => ?_⟩
    rw [afterClose_closing fun _ => h₂] at hclosing
    exact absurd hclosing (by simp)
  node := by simpa using h.node
  armed := by rw [afterClose_armed h]; simp
  tcpClosing := by
    have := h.tcpClosing
    unfold Ctcp.afterClose
    split_ifs <;> simp_all
  timerClosing := by
    have := h.timerClosing
    unfold Ctcp.afterClose
    split_ifs <;> simp_all
  inited := by
    intro hclosing htimer
    rw [afterClose_timerInited] at htimer
    rw [afterClose_tcpInited]
    exact h.inited (open_of_afterClose hclosing) htimer

theorem Connecting.afterClose (h : c.Connecting) : c.afterClose.Connecting := by
  simpa [Connecting] using h

/-- After a teardown the object is closing, or shutting down with its timer as it was. -/
theorem afterShutdown_cases (env : Env) (req : ℕ) {node : CnetworkNode} (h : c.Established node) :
    c.afterShutdown env req = c.afterClose ∨
      c.afterShutdown env req =
        { c with tcp := { c.tcp with shutdownReq := some req }, shutdown := true } := by
  unfold afterShutdown
  simp only [h.tcpInited, h.closing, h.shutdown, Bool.not_true, Bool.false_eq_true, if_false,
    Bool.not_false, Bool.and_self, if_true]
  split_ifs
  · exact .inr rfl
  · exact .inl rfl

end AfterClose

/-! ## Other updates -/

section Updates

variable {c c' : Ctcp}

theorem Wf.default : Wf {} where
  reading := by simp
  writes := by simp
  shutdownReq := by simp
  shutdown := by simp
  connectReq := by simp
  node := by simp
  armed := by simp
  tcpClosing := by simp
  timerClosing := by simp
  inited := by simp

/-- A newly allocated object. -/
theorem Wf.fresh (b : Bool) (node : CnetworkNode) : (fresh b node).Wf where
  reading := by simp [Ctcp.fresh]
  writes := by simp [Ctcp.fresh]
  shutdownReq := by simp [Ctcp.fresh]
  shutdown := by simp [Ctcp.fresh]
  connectReq := by simp [Ctcp.fresh]
  node := by simp [Ctcp.fresh]
  armed := by simp [Ctcp.fresh]
  tcpClosing := by simp [Ctcp.fresh]
  timerClosing := by simp [Ctcp.fresh]
  inited := fun _ _ => rfl

/-- A well-formed object whose timer is started. -/
theorem Wf.arm (h : c.Wf) (timeout : Timeout) (hclosing : c.closing = false)
    (hshutdown : c.shutdown = false) (htcp : c.tcpInited = true) (htimer : c.timerInited = true)
    (hlistening : c.tcp.listening = false) : (c.arm timeout).Wf where
  reading := h.reading
  writes := h.writes
  shutdownReq := h.shutdownReq
  shutdown := fun hs => absurd (hshutdown.symm.trans hs) (by simp)
  connectReq := h.connectReq
  node := h.node
  armed := fun _ => ⟨hclosing, htcp, htimer, hlistening⟩
  tcpClosing := h.tcpClosing
  timerClosing := h.timerClosing
  inited := h.inited

/-- A newly accepted connection. -/
theorem wf_accepted (node : CnetworkNode) : (((fresh true node).arm .idle).startRead).Wf :=
  { (Wf.fresh true node).arm .idle rfl rfl rfl rfl rfl with
    reading := fun _ => ⟨rfl, rfl, rfl, rfl, rfl⟩ }

/-- A connect that was just started. -/
theorem wf_connecting (req : ℕ) {node : CnetworkNode} (htcp : node.IsTcp)
    (hvalid : node.sockaddr.valid = true) :
    ({ (fresh true node).arm .connect with tcp := { connectReq := some req } } : Ctcp).Wf :=
  { (Wf.fresh true node).arm .connect rfl rfl rfl rfl rfl with
    reading := by simp
    writes := by simp
    shutdownReq := by simp
    shutdown := fun hs => absurd hs (by simp [Ctcp.arm, Ctcp.fresh])
    connectReq := fun _ => ⟨rfl, rfl, fun _ => rfl⟩
    node := fun _ => ⟨htcp, hvalid⟩
    tcpClosing := by simp }

/-- A listener that was just opened. -/
theorem wf_listening (node : CnetworkNode) :
    ({ fresh false node with tcp := { listening := true } } : Ctcp).Wf :=
  { Wf.fresh false node with
    reading := by simp
    writes := by simp
    shutdownReq := by simp
    shutdown := by simp [Ctcp.fresh]
    connectReq := by simp
    node := by simp
    armed := by simp [Ctcp.fresh]
    tcpClosing := by simp }

theorem Wf.touch (h : c.Wf) (ht : c.Touch c') : c'.Wf := by
  cases ht with
  | arm timeout hclosing hshutdown htimer hlistening =>
    exact h.arm timeout hclosing hshutdown (h.inited hclosing htimer) htimer hlistening
  | fired =>
    exact { h with
      shutdown := fun hs => ⟨(h.shutdown hs).1, (h.shutdown hs).2.1, .inl rfl⟩
      armed := by simp }
  | drained n _ => exact { h with }
  | tcpClosed hclosing hconnect hshutdown hwrites =>
    have hc := h.tcpClosing hclosing
    exact { h with
      reading := fun hr => absurd (hc.symm.trans (h.reading hr).2.2.1) (by simp)
      writes := fun hw => absurd hwrites hw
      shutdownReq := fun hs => absurd hs (by simp [hshutdown])
      connectReq := fun hs => absurd hs (by simp [hconnect])
      node := fun hs => absurd hs (by simp [hconnect])
      armed := fun ha => absurd (hc.symm.trans (h.armed ha).1) (by simp)
      inited := fun ho => absurd (hc.symm.trans ho) (by simp) }
  | timerClosed hclosing =>
    have hc := h.timerClosing hclosing
    exact { h with
      reading := fun hr => absurd (hc.symm.trans (h.reading hr).2.2.1) (by simp)
      writes := fun hw => ⟨(h.writes hw).1, (h.writes hw).2.1, (h.writes hw).2.2.1,
        fun ho => absurd (hc.symm.trans ho) (by simp)⟩
      connectReq := fun hs => ⟨(h.connectReq hs).1, (h.connectReq hs).2.1,
        fun ho => absurd (hc.symm.trans ho) (by simp)⟩
      armed := fun ha => absurd (hc.symm.trans (h.armed ha).1) (by simp)
      inited := by simp }

/-- What a touch leaves alone. -/
theorem Touch.same (ht : c.Touch c') :
    c'.node = c.node ∧ c'.closing = c.closing ∧ c'.shutdown = c.shutdown ∧
      c'.tcp.connectReq = c.tcp.connectReq ∧ c'.tcp.writes = c.tcp.writes ∧
      c'.tcp.listening = c.tcp.listening ∧ c'.tcp.reading = c.tcp.reading ∧
      c'.tcp.shutdownReq = c.tcp.shutdownReq := by
  cases ht <;> exact ⟨rfl, rfl, rfl, rfl, rfl, rfl, rfl, rfl⟩

/-- A touch of an open object keeps its handles. -/
theorem Touch.inited (ht : c.Touch c') (h : c.Wf) (hclosing : c.closing = false) :
    c'.tcpInited = c.tcpInited ∧ c'.timerInited = c.timerInited := by
  cases ht with
  | tcpClosed hc => exact absurd (hclosing.symm.trans (h.tcpClosing hc)) (by simp)
  | timerClosed hc => exact absurd (hclosing.symm.trans (h.timerClosing hc)) (by simp)
  | _ => exact ⟨rfl, rfl⟩

theorem Established.touch {node : CnetworkNode} (he : c.Established node) (h : c.Wf)
    (ht : c.Touch c') : c'.Established node := by
  obtain ⟨hnode, hclosing, hshutdown, hconnect, -, hlistening, -⟩ := ht.same
  obtain ⟨htcp, htimer⟩ := ht.inited h he.closing
  exact ⟨hnode.trans he.node, he.isTcp, hclosing.trans he.closing, hshutdown.trans he.shutdown,
    hconnect.trans he.connectReq, hlistening.trans he.listening, htcp.trans he.tcpInited,
    htimer.trans he.timerInited⟩

theorem Connecting.touch (hc : c.Connecting) (ht : c.Touch c') : c'.Connecting := by
  obtain ⟨-, -, -, hconnect, -⟩ := ht.same
  unfold Connecting
  rw [hconnect]
  exact hc

theorem Listening.touch {node : CnetworkNode} (hl : c.Listening node) (ht : c.Touch c') :
    c'.Listening node := by
  obtain ⟨hnode, hclosing, hshutdown, -, -, hlistening, -⟩ := ht.same
  exact ⟨hnode.trans hl.node, hlistening.trans hl.listening, hclosing.trans hl.closing,
    hshutdown.trans hl.shutdown⟩

/-- Taking a write request off keeps everything. -/
theorem Wf.takeWrite (h : c.Wf) {w : WriteWithInfo} (hw : w ∈ c.tcp.writes) :
    (c.takeWrite w).Wf :=
  { h with writes := fun _ => h.writes (List.ne_nil_of_mem hw) }

theorem Dead.wf (h : c.Dead) : c.Wf where
  reading := by simp [h.reading]
  writes := by simp [h.writes]
  shutdownReq := by simp [h.shutdownReq]
  shutdown := by simp [h.shutdown]
  connectReq := by simp [h.connectReq]
  node := by simp [h.connectReq]
  armed := by simp [h.armed]
  tcpClosing := h.tcpClosing
  timerClosing := h.timerClosing
  inited := by
    intro hc ht
    rw [(h.inited hc).2] at ht
    exact absurd ht (by simp)

/-- Closing an object whose set-up failed. -/
theorem Wf.dead_afterClose (h : c.Wf) (hconnect : c.tcp.connectReq = none)
    (hreq : c.tcp.shutdownReq = none) (hwrites : c.tcp.writes = [])
    (hlistening : c.tcp.listening = false) (hshutdown : c.shutdown = false) :
    c.afterClose.Dead where
  connectReq := by simpa using hconnect
  shutdownReq := by simpa using hreq
  writes := by simpa using hwrites
  reading := afterClose_reading h
  listening := afterClose_listening hlistening
  shutdown := by simpa using hshutdown
  armed := afterClose_armed h
  tcpClosing := h.afterClose.tcpClosing
  timerClosing := h.afterClose.timerClosing
  inited := by
    intro hclosing
    have htcp : c.tcpInited = false := by
      by_contra ht
      rw [afterClose_closing fun _ => by simpa using ht] at hclosing
      exact absurd hclosing (by simp)
    rw [afterClose_tcpInited, afterClose_timerInited]
    refine ⟨htcp, ?_⟩
    by_contra htimer
    have hinited := h.inited (open_of_afterClose hclosing) (by simpa using htimer)
    exact absurd (htcp.symm.trans hinited) (by simp)

/-- An established connection accepts writes. -/
theorem Wf.queueWrite (h : c.Wf) {node : CnetworkNode} (he : c.Established node)
    (w : WriteWithInfo) : ((c.arm .send).queueWrite w).Wf :=
  { h.arm .send he.closing he.shutdown he.tcpInited he.timerInited he.listening with
    writes := fun _ => ⟨he.connectReq, he.listening, he.tcpInited, fun _ => he.timerInited⟩ }

theorem Established.queueWrite {node : CnetworkNode} (he : c.Established node)
    (w : WriteWithInfo) : ((c.arm .send).queueWrite w).Established node :=
  { he with }

/-- `uv_shutdown` was accepted on an established connection whose timer is the send timer, or
not armed. -/
theorem Wf.afterShutdown (h : c.Wf) (env : Env) (req : ℕ) {node : CnetworkNode}
    (he : c.Established node) (ha : c.timer.armed = none ∨ c.timer.armed = some .send) :
    (c.afterShutdown env req).Wf := by
  rcases afterShutdown_cases env req he with heq | heq
  · rw [heq]
    exact h.afterClose
  · rw [heq]
    exact { h with
      shutdownReq := fun _ => ⟨rfl, he.tcpInited⟩
      shutdown := fun _ => ⟨he.connectReq, he.listening, ha⟩ }

/-- A connect that went through gives an established connection. -/
theorem Connecting.established (hc : c.Connecting) (h : c.Wf) (hclosing : c.closing = false)
    (hshutdown : c.shutdown = false) :
    (c.connectDone.arm .idle).Established c.node := by
  obtain ⟨hlistening, htcp, htimer⟩ := h.connectReq hc
  exact ⟨rfl, (h.node hc).1, hclosing, hshutdown, rfl, hlistening, htcp, htimer hclosing⟩

/-- A pending connect is not shut down. -/
theorem Wf.not_shutdown (h : c.Wf) (hreq : c.Connecting) :
    c.shutdown = false := by
  by_contra hs
  unfold Connecting at hreq
  rw [(h.shutdown (by simpa using hs)).1] at hreq
  exact absurd hreq (by simp)

theorem Established.startRead {node : CnetworkNode} (he : c.Established node) :
    c.startRead.Established node :=
  { he with }

/-- An established connection that starts to read is well formed. -/
theorem Established.wf_startRead {node : CnetworkNode} (he : c.Established node) (h : c.Wf) :
    c.startRead.Wf :=
  { h with
    reading := fun _ => ⟨he.connectReq, he.listening, he.closing, he.tcpInited, he.timerInited⟩ }

theorem Wf.connectDone (h : c.Wf) : c.connectDone.Wf :=
  { h with
    reading := fun hr => ⟨rfl, (h.reading hr).2⟩
    writes := fun hw => ⟨rfl, (h.writes hw).2⟩
    shutdown := fun hs => ⟨rfl, (h.shutdown hs).2⟩
    connectReq := by simp [Ctcp.connectDone]
    node := by simp [Ctcp.connectDone] }

end Updates

end Ctcp

/-! ## Tables -/

namespace Table

/-- What the registries hold. -/
structure Wf (v : Table) : Prop where
  tcps : ∀ t, (v.tcps t).Wf
  fresh : ∀ t, v.nextTcp ≤ t → v.tcps t = {}
  stream : ∀ node t, v.node2stream.lookup node = some t → (v.tcps t).Established node
  connecting : ∀ t, t ∈ v.connecting → (v.tcps t).Connecting
  server : ∀ node t, v.tcpServers.lookup node = some t → (v.tcps t).Listening node

section Wf

variable {v : Table}

/-- An object with an initialised stream has been allocated. -/
theorem Wf.lt_nextTcp (h : v.Wf) {t : ℕ} (ht : (v.tcps t).tcpInited = true) : t < v.nextTcp := by
  by_contra hlt
  rw [h.fresh t (by omega)] at ht
  exact absurd ht (by simp)

/-- The registries hold allocated objects only. -/
theorem Wf.notMem_of_fresh (h : v.Wf) {t : ℕ} (ht : v.tcps t = {}) :
    (∀ node, v.node2stream.lookup node ≠ some t) ∧ t ∉ v.connecting ∧
      ∀ node, v.tcpServers.lookup node ≠ some t := by
  refine ⟨fun node hn => ?_, fun hc => ?_, fun node hn => ?_⟩
  · have := (h.stream node t hn).tcpInited
    rw [ht] at this
    exact absurd this (by simp)
  · have := h.connecting t hc
    rw [ht] at this
    exact absurd this (by simp [Ctcp.Connecting])
  · have := (h.server node t hn).listening
    rw [ht] at this
    exact absurd this (by simp)

/-- A listener is in neither of the other registries. -/
theorem Wf.not_server (h : v.Wf) {t : ℕ} (ht : (v.tcps t).tcp.listening = false)
    (node : CnetworkNode) : v.tcpServers.lookup node ≠ some t := by
  intro hs
  rw [(h.server node t hs).listening] at ht
  exact absurd ht (by simp)

/-- A pending connect is not in the connection map. -/
theorem Wf.not_stream (h : v.Wf) {t : ℕ} (ht : (v.tcps t).Connecting)
    (node : CnetworkNode) : v.node2stream.lookup node ≠ some t := by
  intro hs
  unfold Ctcp.Connecting at ht
  rw [(h.stream node t hs).connectReq] at ht
  exact absurd ht (by simp)

/-- The connection map holds an object under its own node only. -/
theorem Wf.lookup_node (h : v.Wf) {node : CnetworkNode} {t : ℕ}
    (hs : v.node2stream.lookup node = some t) : v.node2stream.lookup (v.tcps t).node = some t := by
  rw [(h.stream node t hs).node]
  exact hs

theorem Wf.init : Wf ⟨∅, ∅, ∅, ∅, fun _ => {}, 0, []⟩ where
  tcps := fun _ => .default
  fresh := fun _ _ => rfl
  stream := fun _ _ h => absurd h (by simp)
  connecting := fun _ h => absurd h (by simp)
  server := fun _ _ h => absurd h (by simp)

@[simp] theorem setTcp_tcps_self (t : ℕ) (c : Ctcp) : (v.setTcp t c).tcps t = c := by
  simp [Table.setTcp]

@[simp] theorem teardown_tcps_self (t : ℕ) (b : Bool) (c : Ctcp) : (v.teardown t b c).tcps t = c := by
  simp [Table.teardown]

theorem setTcp_tcps_other (v : Table) {t t' : ℕ} {c : Ctcp} (h : t' ≠ t) :
    (v.setTcp t c).tcps t' = v.tcps t' := by
  simp [Table.setTcp, h]

theorem Startup.tcps_other {ok : Bool} {v' : Table} {t t' : ℕ} (hstart : Startup ok v t v')
    (h : t' ≠ t) : v'.tcps t' = v.tcps t' := by
  cases hstart with
  | taken hlookup => exact setTcp_tcps_other v h
  | up hlookup _ => rfl
  | flush req hlookup => exact setTcp_tcps_other (v.register t) h
  | down passed hlookup _ =>
    show Function.update (Function.update v.tcps t _) t _ t' = v.tcps t'
    rw [Function.update_of_ne h, Function.update_of_ne h]

theorem Wf.emit (h : v.Wf) (obs : List Obs) : (v.emit obs).Wf := ⟨h.1, h.2, h.3, h.4, h.5⟩

/-- An object replaced by one that fits its places in the registries. -/
theorem Wf.setTcp (h : v.Wf) {t : ℕ} {c : Ctcp} (hc : c.Wf) (ht : t < v.nextTcp)
    (hstream : ∀ node, v.node2stream.lookup node = some t → c.Established node)
    (hconnecting : t ∈ v.connecting → c.Connecting)
    (hserver : ∀ node, v.tcpServers.lookup node = some t → c.Listening node) :
    (v.setTcp t c).Wf where
  tcps := by
    intro t'
    by_cases heq : t' = t
    · subst heq
      simpa [Table.setTcp] using hc
    · simpa [Table.setTcp, heq] using h.tcps t'
  fresh := by
    intro t' hle
    have heq : t' ≠ t := by
      rintro rfl
      exact absurd ht (Nat.not_lt.mpr hle)
    simpa [Table.setTcp, heq] using h.fresh t' hle
  stream := by
    intro node t' hs
    by_cases heq : t' = t
    · subst heq
      simpa [Table.setTcp] using hstream node hs
    · simpa [Table.setTcp, heq] using h.stream node t' hs
  connecting := by
    intro t' hs
    by_cases heq : t' = t
    · subst heq
      simpa [Table.setTcp] using hconnecting hs
    · simpa [Table.setTcp, heq] using h.connecting t' hs
  server := by
    intro node t' hs
    by_cases heq : t' = t
    · subst heq
      simpa [Table.setTcp] using hserver node hs
    · simpa [Table.setTcp, heq] using h.server node t' hs

/-- A touched object. -/
theorem Wf.touch (h : v.Wf) {t : ℕ} {c : Ctcp} (hc : (v.tcps t).Touch c) : (v.setTcp t c).Wf := by
  by_cases ht : t < v.nextTcp
  · exact h.setTcp ((h.tcps t).touch hc) ht (fun node hs => (h.stream node t hs).touch (h.tcps t) hc)
      (fun hs => (h.connecting t hs).touch hc) (fun node hs => (h.server node t hs).touch hc)
  · -- an object not allocated yet is only touched by changes that do nothing
    have hfresh := h.fresh t (by omega)
    have hsame : c = v.tcps t := by
      rw [hfresh] at hc ⊢
      cases hc <;> simp_all
    rw [hsame, Table.setTcp, Function.update_eq_self]
    exact h

@[simp] theorem add_tcps_self (c : Ctcp) : (v.add c).tcps v.nextTcp = c := by
  simp [Table.add, Table.setTcp]

/-- A new object. -/
theorem Wf.add (h : v.Wf) {c : Ctcp} (hc : c.Wf) : (v.add c).Wf := by
  obtain ⟨hstream, hconnecting, hserver⟩ := h.notMem_of_fresh (h.fresh v.nextTcp le_rfl)
  have hne : ∀ {t}, t ≠ v.nextTcp → (v.add c).tcps t = v.tcps t := by
    intro t ht
    simp [Table.add, Table.setTcp, ht]
  refine ⟨fun t => ?_, fun t ht => ?_, fun node t hs => ?_, fun t hs => ?_, fun node t hs => ?_⟩
  · by_cases ht : t = v.nextTcp
    · subst ht
      simpa [Table.add, Table.setTcp] using hc
    · rw [hne ht]
      exact h.tcps t
  · have ht' : v.nextTcp + 1 ≤ t := ht
    rw [hne (by omega)]
    exact h.fresh t (by omega)
  · rw [hne (by rintro rfl; exact hstream node hs)]
    exact h.stream node t hs
  · rw [hne (by rintro rfl; exact hconnecting hs)]
    exact h.connecting t hs
  · rw [hne (by rintro rfl; exact hserver node hs)]
    exact h.server node t hs

/-- A torn down object fits wherever it still is: the entry of its node is gone. -/
theorem Wf.teardown (h : v.Wf) {t : ℕ} {c : Ctcp} (b : Bool) (hc : c.Wf) (ht : t < v.nextTcp)
    (hconnecting : t ∈ v.connecting → c.Connecting)
    (hserver : ∀ node, v.tcpServers.lookup node ≠ some t) : (v.teardown t b c).Wf := by
  have herased : Wf { v with node2stream := v.node2stream.erase (v.tcps t).node } :=
    { h with stream := fun node t' hs => h.stream node t' (Lib.AssocMap.of_lookup_erase hs).2 }
  have hset := herased.setTcp hc ht
    (fun node hs => by
      obtain ⟨hne, hs⟩ := Lib.AssocMap.of_lookup_erase hs
      exact absurd (h.stream node t hs).node.symm hne)
    hconnecting (fun node hs => absurd hs (hserver node))
  exact ⟨hset.1, hset.2, hset.3, hset.4, hset.5⟩

/-- An established connection is entered. -/
theorem Wf.register (h : v.Wf) {t : ℕ} (he : (v.tcps t).Established (v.tcps t).node) :
    (v.register t).Wf :=
  { tcps := h.tcps
    fresh := h.fresh
    connecting := h.connecting
    server := h.server
    stream := by
      intro node t' hs
      rcases Lib.AssocMap.of_lookup_insert hs with ⟨rfl, rfl⟩ | ⟨-, hs⟩
      · exact he
      · exact h.stream node t' hs }

/-- `startupTcpConnection_may_set_nullptr` on an established connection in no registry. -/
theorem Wf.startup (h : v.Wf) {ok : Bool} {t : ℕ} {v' : Table} (ht : t < v.nextTcp)
    (he : (v.tcps t).Established (v.tcps t).node)
    (hstream : ∀ node, v.node2stream.lookup node ≠ some t) (hconnecting : t ∉ v.connecting)
    (hstart : Startup ok v t v') : v'.Wf := by
  have hserver := h.not_server he.listening
  have hwf := h.tcps t
  have harm := hwf.arm .send he.closing he.shutdown he.tcpInited he.timerInited he.listening
  cases hstart with
  | taken hlookup =>
    exact h.setTcp hwf.afterClose ht (fun node hs => absurd hs (hstream node))
      (fun hs => absurd hs hconnecting) (fun node hs => absurd hs (hserver node))
  | up hlookup _ => exact (h.register he).emit _
  | flush req hlookup =>
    refine ((h.register he).setTcp (hwf.queueWrite he _) ht (fun node hs => ?_)
      (fun hs => absurd hs hconnecting) (fun node hs => absurd hs (hserver node))).emit _
    rcases Lib.AssocMap.of_lookup_insert hs with ⟨rfl, -⟩ | ⟨-, hs⟩
    · exact he.queueWrite _
    · exact absurd hs (hstream node)
  | down passed hlookup _ =>
    have hbefore : (if passed then (v.tcps t).arm .send else v.tcps t).Wf := by
      cases passed
      · exact hwf
      · exact harm
    have hset := (h.register he).setTcp hbefore ht
      (fun node hs => by
        rcases Lib.AssocMap.of_lookup_insert hs with ⟨rfl, -⟩ | ⟨-, hs⟩
        · cases passed
          · exact he
          · exact { he with }
        · exact absurd hs (hstream node))
      (fun hs => absurd hs hconnecting) (fun node hs => absurd hs (hserver node))
    exact ((hset.emit _).emit _).teardown false hbefore.afterClose ht
      (fun hs => absurd hs hconnecting) (fun node => hserver node)

/-- An object in no registry may be replaced by any well-formed one. -/
theorem Wf.setTcp_of_notMem (h : v.Wf) {t : ℕ} {c : Ctcp} (hc : c.Wf) (ht : t < v.nextTcp)
    (hstream : ∀ node, v.node2stream.lookup node ≠ some t) (hconnecting : t ∉ v.connecting)
    (hserver : ∀ node, v.tcpServers.lookup node ≠ some t) : (v.setTcp t c).Wf :=
  h.setTcp hc ht (fun node hs => absurd hs (hstream node)) (fun hs => absurd hs hconnecting)
    (fun node hs => absurd hs (hserver node))

/-- A connect leaves the set of pending connects. -/
theorem Wf.eraseConnecting (h : v.Wf) (t : ℕ) :
    Wf { v with connecting := v.connecting.erase t } :=
  { h with connecting := fun t' ht' => h.connecting t' (Finset.mem_of_mem_erase ht') }

/-- Taking a write request off keeps the places of the object. -/
theorem Wf.takeWrite (h : v.Wf) {t : ℕ} {w : WriteWithInfo} (hw : w ∈ (v.tcps t).tcp.writes) :
    (v.setTcp t ((v.tcps t).takeWrite w)).Wf := by
  obtain ⟨-, -, htcp, -⟩ := (h.tcps t).writes (List.ne_nil_of_mem hw)
  exact h.setTcp ((h.tcps t).takeWrite hw) (h.lt_nextTcp htcp)
    (fun node hs => { h.stream node t hs with }) (fun hs => h.connecting t hs)
    (fun node hs => { h.server node t hs with })

/-- A closing or initialised object has been allocated. -/
theorem Wf.lt_nextTcp_of_closing (h : v.Wf) {t : ℕ}
    (ht : (v.tcps t).closing = false → (v.tcps t).tcpInited = true) : t < v.nextTcp := by
  by_contra hlt
  rw [h.fresh t (by omega)] at ht
  exact absurd (ht rfl) (by simp)

/-- The object of a failed connect before it is torn down. -/
theorem Wf.connectDone (h : v.Wf) {t : ℕ} (hreq : (v.tcps t).Connecting) (armed : Bool)
    (harmed : armed = true → (v.tcps t).closing = false) :
    (if armed then (v.tcps t).connectDone.arm .idle else (v.tcps t).connectDone).Wf := by
  have hwf := (h.tcps t).connectDone
  cases armed with
  | false => exact hwf
  | true =>
    obtain ⟨hlistening, htcp, htimer⟩ := (h.tcps t).connectReq hreq
    exact hwf.arm .idle (harmed rfl) ((h.tcps t).not_shutdown hreq) htcp (htimer (harmed rfl))
      hlistening

theorem Wf.connectFail (h : v.Wf) {t : ℕ} (hreq : (v.tcps t).Connecting) {c : Ctcp} (hc : c.Wf) :
    (({ v with connecting := v.connecting.erase t }.setTcp t c).teardown t true
      c.afterClose).Wf := by
  obtain ⟨hlistening, htcp, -⟩ := (h.tcps t).connectReq hreq
  have ht := h.lt_nextTcp htcp
  have hserver := h.not_server hlistening
  have hset := (h.eraseConnecting t).setTcp_of_notMem hc ht (h.not_stream hreq)
    (Finset.notMem_erase t _) hserver
  exact hset.teardown true hc.afterClose ht (fun hs => absurd hs (Finset.notMem_erase t _)) hserver

theorem Wf.connectUp (h : v.Wf) {ok : Bool} {t : ℕ} {v' : Table} (hreq : (v.tcps t).Connecting)
    (hclosing : (v.tcps t).closing = false)
    (hstart : Startup ok ({ v with connecting := v.connecting.erase t }.setTcp t
      (((v.tcps t).connectDone.arm .idle).startRead)) t v') : v'.Wf := by
  obtain ⟨hlistening, htcp, -⟩ := (h.tcps t).connectReq hreq
  have ht := h.lt_nextTcp htcp
  have he := hreq.established (h.tcps t) hclosing ((h.tcps t).not_shutdown hreq)
  have harm : (v.tcps t).connectDone.arm .idle |>.Wf :=
    h.connectDone hreq true fun _ => hclosing
  have hset := (h.eraseConnecting t).setTcp_of_notMem
    (he.wf_startRead harm) ht (h.not_stream hreq)
    (Finset.notMem_erase t _) (h.not_server hlistening)
  refine hset.startup ht ?_ (h.not_stream hreq) (Finset.notMem_erase t _) hstart
  rw [setTcp_tcps_self]
  exact he.startRead

theorem Wf.acceptUp (h : v.Wf) {ok : Bool} {peer : Csockaddr} {v' : Table}
    (hstart : Startup ok (v.add ((Ctcp.fresh true ⟨.protocolTcp, peer⟩).arm .idle).startRead)
      v.nextTcp v') : v'.Wf := by
  obtain ⟨hstream, hconnecting, -⟩ := h.notMem_of_fresh (h.fresh v.nextTcp le_rfl)
  have hadd := h.add (Ctcp.wf_accepted ⟨.protocolTcp, peer⟩)
  refine hadd.startup (Nat.lt_succ_self _) ?_ hstream hconnecting hstart
  rw [add_tcps_self]
  exact ⟨rfl, rfl, rfl, rfl, rfl, rfl, rfl, rfl⟩

/-- The shutdown callback has run. -/
theorem Wf.shutdownDone (h : v.Wf) {t : ℕ} (hreq : (v.tcps t).tcp.shutdownReq.isSome = true) :
    (v.setTcp t ({ v.tcps t with
      tcp := { (v.tcps t).tcp with shutdownReq := none } } : Ctcp).afterClose).Wf := by
  have hwf := h.tcps t
  obtain ⟨hshutdown, htcp⟩ := hwf.shutdownReq hreq
  obtain ⟨hconnect, hlistening, -⟩ := hwf.shutdown hshutdown
  refine h.setTcp_of_notMem ?_ (h.lt_nextTcp htcp) (fun node hs => ?_) (fun hs => ?_)
    (h.not_server hlistening)
  · exact Ctcp.Wf.afterClose { hwf with shutdownReq := by simp }
  · exact absurd (hshutdown.symm.trans (h.stream node t hs).shutdown) (by simp)
  · have := h.connecting t hs
    rw [Ctcp.Connecting, hconnect] at this
    exact absurd this (by simp)

theorem Wf.connect (h : v.Wf) {node : CnetworkNode} (htcp : node.IsTcp)
    (hvalid : node.sockaddr.valid = true) (req : ℕ) (queues : NodeMap (List UvBuf)) :
    Wf { v.add { (Ctcp.fresh true node).arm .connect with tcp := { connectReq := some req } } with
      waitingSend := queues
      connecting := insert v.nextTcp v.connecting } := by
  have hadd := h.add (Ctcp.wf_connecting req htcp hvalid)
  refine { hadd with connecting := fun t ht => ?_ }
  rcases Finset.mem_insert.mp ht with rfl | ht
  · show ((v.add _).tcps v.nextTcp).Connecting
    rw [add_tcps_self]
    rfl
  · exact hadd.connecting t ht

theorem Wf.listen (h : v.Wf) (node : CnetworkNode) :
    Wf { v.add { Ctcp.fresh false node with tcp := { listening := true } } with
      tcpServers := v.tcpServers.insert node v.nextTcp } := by
  have hadd := h.add (Ctcp.wf_listening node)
  refine { hadd with server := fun n t ht => ?_ }
  rcases Lib.AssocMap.of_lookup_insert ht with ⟨rfl, rfl⟩ | ⟨-, ht⟩
  · show ((v.add _).tcps v.nextTcp).Listening n
    rw [add_tcps_self]
    exact ⟨rfl, rfl, rfl, rfl⟩
  · exact hadd.server n t ht

theorem Wf.unlisten (h : v.Wf) {node : CnetworkNode} {t : ℕ}
    (hserver : v.tcpServers.lookup node = some t) :
    ({ v with tcpServers := v.tcpServers.erase node }.setTcp t (v.tcps t).afterClose).Wf := by
  have hl := h.server node t hserver
  have herased : Wf { v with tcpServers := v.tcpServers.erase node } :=
    { h with server := fun n t' hs => h.server n t' (Lib.AssocMap.of_lookup_erase hs).2 }
  have ht : t < v.nextTcp := by
    by_contra hlt
    have := hl.listening
    rw [h.fresh t (by omega)] at this
    exact absurd this (by simp)
  refine herased.setTcp_of_notMem (h.tcps t).afterClose ht (fun n hs => ?_) (fun hs => ?_)
    (fun n hs => ?_)
  · exact absurd (hl.listening.symm.trans (h.stream n t hs).listening) (by simp)
  · have := ((h.tcps t).connectReq (h.connecting t hs)).1
    exact absurd (hl.listening.symm.trans this) (by simp)
  · obtain ⟨hne, hs⟩ := Lib.AssocMap.of_lookup_erase hs
    exact hne ((h.server n t hs).node.symm.trans hl.node)

end Wf

end Table

/-! ## Actions -/

/-- Every action keeps the table well formed. -/
theorem Act.wf {v v' : Table} {l : Label} (hact : Act v l v') (h : v.Wf) : v'.Wf := by
  cases hact with
  | touch t c hc => exact h.touch hc
  | message t data hreading => exact h.emit _
  | written t w hw => exact (h.takeWrite hw).emit _
  | lost t w hw => exact (h.takeWrite hw).emit _
  | teardown t hlistening hconnect =>
    exact h.teardown false (h.tcps t).afterClose (h.lt_nextTcp_of_closing hconnect)
      (fun hs => (h.connecting t hs).afterClose) (h.not_server hlistening)
  | close t node c hlookup hc =>
    have he := h.stream node t hlookup
    have hcwf : c.Wf := by
      rcases hc with rfl | ⟨harmed, env, req, rfl⟩
      · exact (h.tcps t).afterClose
      · exact (h.tcps t).afterShutdown env req he (.inr harmed)
    refine h.teardown false hcwf (h.lt_nextTcp he.tcpInited) (fun hs => ?_)
      (h.not_server he.listening)
    exact absurd hlookup (h.not_stream (h.connecting t hs) node)
  | connectFail t armed hreq harmed => exact h.connectFail hreq (h.connectDone hreq armed harmed)
  | connectUp t ok v' hreq hclosing hstart => exact h.connectUp hreq hclosing hstart
  | acceptUp peer ok v' hstart => exact h.acceptUp hstart
  | shutdownDone t hreq => exact h.shutdownDone hreq
  | dead c hc => exact h.add hc.wf
  | park node b buf hwaiting hlookup => exact { h with }
  | connect node b req htcp hvalid hwaiting hlookup => exact (h.connect htcp hvalid req _).emit _
  | refuse node b hwaiting hlookup => exact h.emit _
  | discard node b => exact h.emit _
  | write t node b req hlookup =>
    have he := h.stream node t hlookup
    refine (h.setTcp ((h.tcps t).queueWrite he _) (h.lt_nextTcp he.tcpInited) (fun n hs => ?_)
      (fun hs => ?_) (fun n hs => absurd hs (h.not_server he.listening n))).emit _
    · exact (h.stream n t hs).queueWrite _
    · exact absurd hlookup (h.not_stream (h.connecting t hs) node)
  | writeFail t node b passed hlookup => exact h.emit _
  | listen node hserver => exact h.listen node
  | unlisten node t hserver => exact h.unlisten hserver
  | notice node hnode => exact h.emit _
  | exit batch streams connecting queues tcps hstreams hconnecting hqueues htcps =>
    refine ⟨fun t => ?_, fun t ht => ?_, by simp, by simp, by simp⟩
    · show (tcps t).Wf
      rcases htcps t with ⟨-, heq⟩ | ⟨-, heq⟩ <;> rw [heq]
      · exact (h.tcps t).afterClose
      · exact h.tcps t
    · show tcps t = {}
      rcases htcps t with ⟨-, heq⟩ | ⟨-, heq⟩ <;> rw [heq, h.fresh t ht]
      rfl

theorem Acts.wf {v v' : Table} {ls : List Label} (hacts : Acts v ls v') (h : v.Wf) : v'.Wf := by
  induction hacts with
  | nil => exact h
  | cons hact _ ih => exact ih (hact.wf h)

end NetworkPool
