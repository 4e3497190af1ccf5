import NetworkPool.Pool.BindAnswers
import NetworkPool.Pool.Confined
import NetworkPool.Pool.Routes

/-!
# The protocol of the callback interface

What an implementation of `CnetworkPoolCallback` may rely on, as a transition system of its own:
`allocateMemoryForMessage` comes before every message, every allocation is given back before
anything else is called, the messages of a connection come from a node that was announced, datagrams
on a socket that is bound, with the address of their sender, errors from nodes that are bound, and
a connection that is up is not announced again. The pool refines it (`callbacks_follow_protocol`):
whatever the callers and libuv do, its calls are a run of the protocol.
-/

namespace NetworkPool

/-! ## The protocol -/

/-- Where the buffer of a read stands. -/
inductive Lending
  | none
  /-- The buffer was allocated for the node. -/
  | buffer (node : CnetworkNode)
  /-- The message in it was reported. -/
  | message (node : CnetworkNode)
deriving DecidableEq

/-- What the implementation has been told: the nodes that are connected, those that once were, and
those that are bound. -/
structure Client where
  connected : CnetworkNode → Bool := fun _ => false
  announced : CnetworkNode → Bool := fun _ => false
  bound : CnetworkNode → Bool := fun _ => false
  lending : Lending := .none

namespace Client

variable (c : Client)

/-- The implementation was told of the connection or the socket. -/
def knows (node : CnetworkNode) : Bool :=
  if node.IsTcp then c.announced node else c.bound node

/-- A connection came up, or is down. -/
def setConnected (node : CnetworkNode) (bSuccess : Bool) : Client :=
  { c with
    connected := Function.update c.connected node bSuccess
    announced := Function.update c.announced node (c.announced node || bSuccess) }

/-- One call of the interface; `none` if it is not allowed. -/
def call : Callback → Option Client
  | .allocateMemoryForMessage node =>
    if c.lending = .none ∧ c.knows node then some { c with lending := .buffer node } else none
  | .message sender _ =>
    match c.lending with
    | .buffer node =>
      -- a datagram comes with the address of its sender
      if sender = node ∨ ¬ node.IsTcp ∧ sender.protocol = .protocolUdp then
        some { c with lending := .message node }
      else none
    | _ => none
  | .deallocateMemoryForMessage node =>
    if c.lending = .buffer node ∨ c.lending = .message node then some { c with lending := .none }
    else none
  | .connectionStatus node bSuccess =>
    if c.lending = .none ∧ (bSuccess → node.IsTcp ∧ ¬ c.connected node) then
      some (c.setConnected node bSuccess)
    else none
  | .bindStatus node bSuccess =>
    if c.lending = .none then some { c with bound := Function.update c.bound node bSuccess }
    else none
  | .tcpListenError node _ =>
    if c.lending = .none ∧ node.IsTcp ∧ c.bound node then some c else none
  | .udpRecvError node _ =>
    if c.lending = .none ∧ ¬ node.IsTcp ∧ c.bound node then some c else none
  | .drop _ _ | .udpSendError _ _ => if c.lending = .none then some c else none

end Client

/-- The protocol. -/
def clientProtocol : Lib.Lts Client Callback where
  init := {}
  step := Client.call

/-! ## What a trace tells -/

/-- `c` knows what the trace says, and has given every buffer back. -/
structure Client.Heard (c : Client) (tr : List Obs) : Prop where
  lending : c.lending = .none
  connected : ∀ node, c.connected node = true ↔ lastStatus node tr = some true
  announced : ∀ node, c.announced node = true ↔ true ∈ statuses node tr
  bound : ∀ node, c.bound node = true ↔ Lib.last node (bindReports tr) = some true

namespace Client

variable {c c' : Client} {tr new : List Obs} {o : Obs}

/-- Entries that neither notify nor ask for anything. -/
theorem Heard.skip (h : c.Heard tr) (hstatus : ∀ node, statuses node new = [])
    (hbind : bindReports new = []) : c.Heard (tr ++ new) := by
  have hstatuses : ∀ node, statuses node (tr ++ new) = statuses node tr := by
    intro node
    rw [statuses_append, hstatus, List.append_nil]
  refine ⟨h.lending, fun node => ?_, fun node => ?_, fun node => ?_⟩
  · rw [lastStatus, hstatuses]
    exact h.connected node
  · rw [hstatuses]
    exact h.announced node
  · rw [bindReports_append, hbind, List.append_nil]
    exact h.bound node

theorem Heard.setConnected (h : c.Heard tr) (node : CnetworkNode) (b : Bool) :
    (c.setConnected node b).Heard (tr ++ [.callback (.connectionStatus node b)]) := by
  have hself : statuses node (tr ++ [.callback (.connectionStatus node b)]) =
      statuses node tr ++ [b] := by
    rw [statuses_append]
    simp [statuses_cons, statusOf]
  have hother : ∀ n, n ≠ node → statuses n (tr ++ [.callback (.connectionStatus node b)]) =
      statuses n tr := by
    intro n hn
    rw [statuses_append]
    simp [statuses_cons, statusOf, Ne.symm hn]
  refine ⟨h.lending, fun n => ?_, fun n => ?_, fun n => ?_⟩
  · show Function.update c.connected node b n = true ↔ _
    by_cases hn : n = node
    · subst hn
      rw [Function.update_self, lastStatus, hself]
      simp
    · rw [Function.update_of_ne hn, lastStatus, hother n hn]
      exact h.connected n
  · show Function.update c.announced node (c.announced node || b) n = true ↔ _
    by_cases hn : n = node
    · subst hn
      rw [Function.update_self, hself, Bool.or_eq_true, h.announced n]
      simp [eq_comm]
    · rw [Function.update_of_ne hn, hother n hn]
      exact h.announced n
  · have hreport : bindReports [.callback (.connectionStatus node b)] = [] := rfl
    rw [bindReports_append, hreport, List.append_nil]
    exact h.bound n

theorem Heard.setBound (h : c.Heard tr) (node : CnetworkNode) (b : Bool) :
    Heard { c with bound := Function.update c.bound node b }
      (tr ++ [.callback (.bindStatus node b)]) := by
  have hstatuses : ∀ n, statuses n (tr ++ [.callback (.bindStatus node b)]) = statuses n tr := by
    intro n
    rw [statuses_append]
    simp [statuses_cons, statusOf]
  refine ⟨h.lending, fun n => ?_, fun n => ?_, fun n => ?_⟩
  · rw [lastStatus, hstatuses]
    exact h.connected n
  · rw [hstatuses]
    exact h.announced n
  · show Function.update c.bound node b n = true ↔
      Lib.last n (bindReports (tr ++ [.callback (.bindStatus node b)])) = some true
    have hreport : bindReports [.callback (.bindStatus node b)] = [(node, b)] := rfl
    rw [bindReports_append, hreport, Lib.last_concat]
    by_cases hn : n = node
    · subst hn
      simp
    · rw [Function.update_of_ne hn, if_neg (Ne.symm hn)]
      exact h.bound n

/-! ## Notices -/

/-- A notice is allowed between reads, an up notification if its node is not up. -/
theorem Heard.notice (h : c.Heard tr) (ho : o.notice = true)
    (hup : ∀ node, o = .callback (.connectionStatus node true) →
      node.IsTcp ∧ lastStatus node tr ≠ some true) :
    ∃ c', clientProtocol.exec c (calls [o]) = some c' ∧ c'.Heard (tr ++ [o]) := by
  have hskip : (∀ node, statusOf node o = none) → bindOf o = none → c.Heard (tr ++ [o]) := by
    intro hstatus hbind
    apply h.skip
    · intro node
      simp [statuses_cons, hstatus node]
    · exact bindReports_eq_nil (by simpa using hbind)
  have hsame : ∀ cb, o = .callback cb → c.call cb = some c → (∀ node, statusOf node o = none) →
      bindOf o = none →
      ∃ c', clientProtocol.exec c (calls [o]) = some c' ∧ c'.Heard (tr ++ [o]) := by
    rintro cb rfl hcall hstatus hbind
    exact ⟨c, Lib.Lts.exec_cons hcall [], hskip hstatus hbind⟩
  cases o with
  | callback cb =>
    cases cb with
    | allocateMemoryForMessage | deallocateMemoryForMessage | message | tcpListenError
      | udpRecvError => exact absurd ho (by simp [Obs.notice])
    | drop node buf =>
      exact hsame _ rfl (if_pos h.lending) (fun _ => rfl) rfl
    | udpSendError node err =>
      exact hsame _ rfl (if_pos h.lending) (fun _ => rfl) rfl
    | bindStatus node b =>
      exact ⟨_, Lib.Lts.exec_cons (if_pos h.lending) [], h.setBound node b⟩
    | connectionStatus node b =>
      have hallowed : b = true → node.IsTcp ∧ ¬ c.connected node = true := by
        rintro rfl
        obtain ⟨htcp, hdown⟩ := hup node rfl
        exact ⟨htcp, fun hconnected => hdown ((h.connected node).mp hconnected)⟩
      exact ⟨_, Lib.Lts.exec_cons (if_pos ⟨h.lending, hallowed⟩) [], h.setConnected node b⟩
  | _ => exact ⟨c, rfl, hskip (fun _ => rfl) rfl⟩

/-- A sequence of notices. -/
theorem Heard.notices (h : c.Heard tr) (hnew : ∀ o ∈ new, o.notice = true)
    (hup : ∀ a node b, new = a ++ .callback (.connectionStatus node true) :: b →
      node.IsTcp ∧ lastStatus node (tr ++ a) ≠ some true) :
    ∃ c', clientProtocol.exec c (calls new) = some c' ∧ c'.Heard (tr ++ new) := by
  induction new using List.reverseRecOn with
  | nil => exact ⟨c, rfl, by rwa [List.append_nil]⟩
  | append_singleton new o ih =>
    have hpre : ∀ a node b, new = a ++ .callback (.connectionStatus node true) :: b →
        node.IsTcp ∧ lastStatus node (tr ++ a) ≠ some true := by
      intro a node b heq
      apply hup a node (b ++ [o])
      rw [heq, List.append_assoc, List.cons_append]
    obtain ⟨c₁, hexec, h₁⟩ := ih (fun o ho => hnew o (List.mem_append_left _ ho)) hpre
    obtain ⟨c', hexec', h'⟩ := h₁.notice (hnew o (by simp)) fun node heq => hup new node [] (by
      rw [heq])
    refine ⟨c', ?_, by rwa [List.append_assoc] at h'⟩
    rw [calls_append]
    exact Lib.Lts.exec_append hexec hexec'

/-! ## Reads -/

/-- A buffer that is given back. -/
theorem Heard.free (h : c.Heard tr) {node : CnetworkNode} {lending : Lending}
    (hlending : lending = .buffer node ∨ lending = .message node) :
    clientProtocol.exec { c with lending := lending } [.deallocateMemoryForMessage node] =
      some c := by
  have hfree : Client.call { c with lending := lending } (.deallocateMemoryForMessage node) =
      some { c with lending := .none } := if_pos hlending
  rw [Lib.Lts.exec_cons hfree, ← h.lending]
  rfl

/-- The calls for a buffer in which nothing came. -/
theorem Heard.empty (h : c.Heard tr) {node : CnetworkNode} (hknown : c.knows node = true) :
    clientProtocol.exec c
        [.allocateMemoryForMessage node, .deallocateMemoryForMessage node] = some c := by
  have halloc : c.call (.allocateMemoryForMessage node) =
      some { c with lending := .buffer node } := if_pos ⟨h.lending, hknown⟩
  rw [Lib.Lts.exec_cons halloc]
  exact h.free (.inl rfl)

/-- The calls for a buffer with a message. -/
theorem Heard.filled (h : c.Heard tr) {node sender : CnetworkNode} (hknown : c.knows node = true)
    (hsender : sender = node ∨ ¬ node.IsTcp ∧ sender.protocol = .protocolUdp)
    (data : List UInt8) :
    clientProtocol.exec c [.allocateMemoryForMessage node, .message sender data,
      .deallocateMemoryForMessage node] = some c := by
  have halloc : c.call (.allocateMemoryForMessage node) =
      some { c with lending := .buffer node } := if_pos ⟨h.lending, hknown⟩
  have hmessage : Client.call { c with lending := .buffer node } (.message sender data) =
      some { c with lending := .message node } := if_pos hsender
  rw [Lib.Lts.exec_cons halloc, Lib.Lts.exec_cons hmessage]
  exact h.free (.inr rfl)

end Client

/-! ## What the callbacks of libuv call -/

namespace Internal

/-- `node` is the node of a socket that is read. -/
def Reads (s : Internal) (node : CnetworkNode) : Prop :=
  (∃ t, (s.tcps t).tcp.reading = true ∧ (s.tcps t).node = node) ∨
    ∃ u, (s.udps u).receiving = true ∧ (s.udps u).node = node

/-- The calls that are no notices. -/
inductive Asks (s : Internal) : List Callback → Prop
  | nothing : s.Asks []
  | empty (node : CnetworkNode) (h : s.Reads node) :
      s.Asks [.allocateMemoryForMessage node, .deallocateMemoryForMessage node]
  | filled (node sender : CnetworkNode) (data : List UInt8) (h : s.Reads node)
      (hsender : sender = node ∨
        (∃ u, (s.udps u).receiving = true ∧ (s.udps u).node = node) ∧
          sender.protocol = .protocolUdp) :
      s.Asks [.allocateMemoryForMessage node, .message sender data,
        .deallocateMemoryForMessage node]
  | recvError (u : ℕ) (err : ℤ) (h : (s.udps u).receiving = true) :
      s.Asks [.allocateMemoryForMessage (s.udps u).node,
        .deallocateMemoryForMessage (s.udps u).node, .udpRecvError (s.udps u).node err]
  | listenError (t : ℕ) (err : ℤ) (h : (s.tcps t).tcp.listening = true) :
      s.Asks [.tcpListenError (s.tcps t).node err]

/-- The calls of `front` are made first, then notices; all are about nodes in `M`. -/
def Calls (M : CnetworkNode → Prop) (s : Internal) (front : List Callback) (s' : Internal) :
    Prop :=
  (∀ c ∈ front, M c.node) ∧
    ∃ s₁ : Internal, (s₁.tcpServers, s₁.node2stream, s₁.waitingSend, s₁.trace) =
      (s.tcpServers, s.node2stream, s.waitingSend, s.trace ++ front.map Obs.callback) ∧
      s₁.Confined M s'

variable {M : CnetworkNode → Prop} {s s₁ s' : Internal}

/-- Notices only. -/
theorem Confined.calls (h : s.Confined M s') : s.Calls M [] s' := by
  refine ⟨by simp, s, ?_, h⟩
  rw [List.map_nil, List.append_nil]

/-- All calls are about one node. -/
theorem Calls.of_front {front : List Callback} {node : CnetworkNode} (hnode : M node)
    (hfront : ∀ c ∈ front, c.node = node)
    (hcalls : (s₁.tcpServers, s₁.node2stream, s₁.waitingSend, s₁.trace) =
      (s.tcpServers, s.node2stream, s.waitingSend, s.trace ++ front.map Obs.callback))
    (h : s₁.Confined M s') : s.Calls M front s' := by
  refine ⟨fun c hc => ?_, s₁, hcalls, h⟩
  rw [hfront c hc]
  exact hnode

end Internal

section Asks

open Internal (Confined)

variable {M : CnetworkNode → Prop} {s s' : Internal}

theorem onTcpRead_asks (env : Env) {t : ℕ} (h : (s.tcps t).tcp.reading = true)
    (hnode : M (s.tcps t).node) (nread : ℤ) (data : List UInt8) :
    ∃ front, s.Asks front ∧
      s.Calls M front (onTcpRead env t nread data (tcpAllocBuffer t s)) := by
  have hreads : s.Reads (s.tcps t).node := .inl ⟨t, h, rfl⟩
  unfold onTcpRead
  dsimp only
  by_cases hnread : 0 < nread
  · rw [if_pos hnread]
    refine ⟨_, .filled _ _ data hreads (.inl rfl), .of_front hnode ?_ ?_
      (local_reset env _ ?_).confined⟩
    · simp [Callback.node]
    · show (_, _, _, s.trace ++ [_] ++ [_] ++ [_]) = (_, _, _, s.trace ++ [_, _, _])
      simp only [List.append_assoc, List.cons_append, List.nil_append]
      rfl
    · exact hnode
  · rw [if_neg hnread]
    refine ⟨_, .empty _ hreads, .of_front hnode ?_ ?_
      (.ite (local_shutdownTcpConnection env _ ?_ _ _).confined (.refl _))⟩
    · simp [Callback.node]
    · show (_, _, _, s.trace ++ [_] ++ [_]) = (_, _, _, s.trace ++ [_, _])
      simp only [List.append_assoc, List.cons_append, List.nil_append]
      rfl
    · exact hnode

theorem onUdpRecv_asks {u : ℕ} (h : (s.udps u).receiving = true) (hnode : M (s.udps u).node)
    (nread : ℤ) (data : List UInt8) (addr : Option Csockaddr)
    (hsender : ∀ a ∈ addr, M ⟨.protocolUdp, a⟩) :
    ∃ front, s.Asks front ∧
      s.Calls M front (onUdpRecv u nread data addr (udpAllocBuffer u s)) := by
  have hsocket : ∃ u', (s.udps u').receiving = true ∧ (s.udps u').node = (s.udps u).node :=
    ⟨u, h, rfl⟩
  unfold onUdpRecv
  dsimp only
  by_cases hnread : nread < 0
  · rw [if_pos hnread]
    refine ⟨_, .recvError u nread h, .of_front hnode ?_ ?_ (.refl _)⟩
    · simp [Callback.node]
    · show (_, _, _, s.trace ++ [_] ++ [_] ++ [_]) = (_, _, _, s.trace ++ [_, _, _])
      simp only [List.append_assoc, List.cons_append, List.nil_append]
      rfl
  · rw [if_neg hnread]
    cases addr with
    | some addr =>
      refine ⟨_, .filled _ ⟨.protocolUdp, addr⟩ data (.inr hsocket) (.inr ⟨hsocket, rfl⟩), ?_, _,
        ?_, .refl _⟩
      · -- the message is from the sender
        simp only [List.forall_mem_cons, Callback.node]
        exact ⟨hnode, hsender addr rfl, hnode, by simp⟩
      · show (_, _, _, s.trace ++ [_] ++ [_] ++ [_]) = (_, _, _, s.trace ++ [_, _, _])
        simp only [List.append_assoc, List.cons_append, List.nil_append]
        rfl
    | none =>
      refine ⟨_, .empty _ (.inr hsocket), .of_front hnode ?_ ?_ (.refl _)⟩
      · simp [Callback.node]
      · show (_, _, _, s.trace ++ [_] ++ [_]) = (_, _, _, s.trace ++ [_, _])
        simp only [List.append_assoc, List.cons_append, List.nil_append]
        rfl

/-- The calls of a callback of libuv are about its nodes. -/
theorem uvStep_asks {e : UvEvent} (h : uvStep s e = some s') (hnodes : ∀ node ∈ e.nodes s, M node) :
    ∃ front, s.Asks front ∧ s.Calls M front s' := by
  cases hasks : e.asks with
  | false => exact ⟨[], .nothing, (uvStep_local h hasks hnodes).confined.calls⟩
  | true =>
    cases e with
    | newConnection server status env =>
      simp only [uvStep, Option.ite_none_right_eq_some, Option.some.injEq] at h
      obtain ⟨hlistening, rfl⟩ := h
      have hstatus : status ≠ 0 := by simpa [UvEvent.asks] using hasks
      have hnode : M (s.tcps server).node := hnodes _ (by simp [UvEvent.nodes, hstatus])
      unfold onNewConnection
      rw [if_pos hstatus]
      refine ⟨_, .listenError server status hlistening, .of_front hnode ?_ rfl (.refl _)⟩
      simp [Callback.node]
    | tcpRead t nread data env =>
      simp only [uvStep, Option.ite_none_right_eq_some, Option.some.injEq] at h
      obtain ⟨⟨hreading, -⟩, rfl⟩ := h
      exact onTcpRead_asks env hreading (hnodes _ (List.mem_singleton_self _)) nread data
    | udpRecv u nread data addr =>
      simp only [uvStep, Option.ite_none_right_eq_some, Option.some.injEq] at h
      obtain ⟨hreceiving, rfl⟩ := h
      apply onUdpRecv_asks hreceiving (hnodes _ List.mem_cons_self)
      intro a ha
      apply hnodes
      simpa [UvEvent.nodes, eq_comm] using Or.inr ha
    | _ => exact absurd hasks (by simp [UvEvent.asks])

end Asks

/-! ## Steps -/

theorem calls_map_callback (cs : List Callback) : calls (cs.map Obs.callback) = cs := by
  unfold calls
  rw [List.filterMap_map]
  exact List.filterMap_some

namespace Pool

variable {p p' : Pool} {e : Event}

/-- The nodes a step is about, unless it is the exit branch. A datagram is about the node it is for
and about the one whose socket is to send it. -/
def nodes (p : Pool) : Event → List CnetworkNode
  | .bind node _ | .send node _ _ | .close node _ => [node]
  | .wantExit | .wakeup | .dispatch _ | .wakeupDone => []
  | .bindNext _ =>
    match p.batch with
    | some ⟨(node, _) :: _, _, _, _⟩ => [node]
    | _ => []
  | .sendNext _ =>
    match p.batch with
    | some ⟨_, req :: _, _, _⟩ =>
      -- a datagram fails on the socket that was to send it
      if req.node.protocol = .protocolUdp then
        [req.node, (p.internal.udps p.internal.udpTurn).node]
      else [req.node]
    | _ => []
  | .closeNext _ =>
    match p.batch with
    | some ⟨_, _, (node, _) :: _, _⟩ => [node]
    | _ => []
  | .uv e => e.nodes p.internal

/-- What a step does to the data of the internal thread. -/
inductive Runs (p : Pool) : Event → Internal → Prop
  | idle (e : Event) : Runs p e p.internal
  | exit (order : ExitOrder) (b : Batch) (hexit : p.exchanged.bWantExit = true)
      (henum : order.Enumerates p.internal) : Runs p (.dispatch order) (exitAll order b p.internal)
  | bind (env : Env) (node : CnetworkNode) (bBind : Bool) (binds : List (CnetworkNode × Bool))
      (sends : List PendingSend) (closes : List (CnetworkNode × Bool))
      (hbatch : p.batch = some ⟨(node, bBind) :: binds, sends, closes, true⟩) :
      Runs p (.bindNext env) (bindOne env node bBind p.internal)
  | send (env : Env) (req : PendingSend) (sends : List PendingSend)
      (closes : List (CnetworkNode × Bool))
      (hbatch : p.batch = some ⟨[], req :: sends, closes, true⟩) :
      Runs p (.sendNext env) (sendOne env req p.internal)
  | close (env : Env) (node : CnetworkNode) (bForceClose : Bool)
      (closes : List (CnetworkNode × Bool))
      (hbatch : p.batch = some ⟨[], [], (node, bForceClose) :: closes, true⟩) :
      Runs p (.closeNext env) (closeOne env node bForceClose p.internal)
  | uv (e : UvEvent) (s : Internal) (hs : uvStep p.internal e = some s) : Runs p (.uv e) s

/-- **Inversion of a step, for the internal thread.** -/
theorem step_runs (hstep : p.step e = some p') : p.Runs e p'.internal := by
  cases e with
  | bind | send | close | wantExit =>
    rw [← Option.some.inj hstep]
    exact .idle _
  | wakeup =>
    simp only [step] at hstep
    split at hstep
    · exact absurd hstep (by simp)
    · split_ifs at hstep
      rw [← Option.some.inj hstep]
      exact .idle _
  | dispatch order =>
    simp only [step] at hstep
    split at hstep
    · split_ifs at hstep with hexit henum
      · rw [← Option.some.inj hstep]
        exact .exit order _ hexit henum
      · rw [← Option.some.inj hstep]
        exact .idle _
    · exact absurd hstep (by simp)
  | bindNext env =>
    simp only [step] at hstep
    split at hstep
    · rename_i hbatch
      rw [← Option.some.inj hstep]
      exact .bind env _ _ _ _ _ hbatch
    · exact absurd hstep (by simp)
  | sendNext env =>
    simp only [step] at hstep
    split at hstep
    · rename_i hbatch
      rw [← Option.some.inj hstep]
      exact .send env _ _ _ hbatch
    · exact absurd hstep (by simp)
  | closeNext env =>
    simp only [step] at hstep
    split at hstep
    · rename_i hbatch
      rw [← Option.some.inj hstep]
      exact .close env _ _ _ hbatch
    · exact absurd hstep (by simp)
  | wakeupDone =>
    simp only [step] at hstep
    split at hstep
    · rw [← Option.some.inj hstep]
      exact .idle _
    · exact absurd hstep (by simp)
  | uv e =>
    simp only [step] at hstep
    split at hstep
    · exact absurd hstep (by simp)
    split at hstep
    · rename_i s hs
      rw [← Option.some.inj hstep]
      exact .uv e s hs
    · exact absurd hstep (by simp)

/-- The calls of a step are about its nodes. -/
theorem step_asks {M : CnetworkNode → Prop} (hr : poolSystem.Reachable p)
    (hstep : p.step e = some p') (hnodes : ∀ node ∈ p.nodes e, M node)
    (hexits : p.Exits e → ∀ node, M node) :
    ∃ front, p.internal.Asks front ∧ p.internal.Calls M front p'.internal := by
  have hnotices : ∀ {s : Internal}, p.internal.Confined M s →
      ∃ front, p.internal.Asks front ∧ p.internal.Calls M front s :=
    fun hconfined => ⟨[], .nothing, hconfined.calls⟩
  have hstream : ∀ {node}, M node → ∀ tcp, p.internal.node2stream.lookup node = some tcp →
      M (p.internal.tcps tcp).node := by
    intro node hnode tcp htcp
    have heq : (p.internal.tcps tcp).node = node := ((wf_of_reachable hr).stream _ _ htcp).node
    rwa [heq]
  have hruns := step_runs hstep
  generalize p'.internal = s at hruns ⊢
  cases hruns with
  | idle => exact hnotices (.refl _)
  | exit order b hexit henum =>
    have hall := hexits ⟨⟨order, rfl⟩, hexit⟩
    obtain rfl : M = fun _ => True := funext fun node => eq_true (hall node)
    exact hnotices (confined_exitAll _ order b)
  | bind env node bBind binds sends closes hbatch =>
    have hnode : M node := hnodes node (by simp [nodes, hbatch])
    exact hnotices (confined_bindOne env _ hnode bBind)
  | send env req sends closes hbatch =>
    have hnode : M req.node := by
      apply hnodes
      simp only [nodes, hbatch]
      split_ifs <;> simp
    have hturn : req.node.protocol = .protocolUdp →
        M (p.internal.udps p.internal.udpTurn).node := by
      intro hudp
      apply hnodes
      simp [nodes, hbatch, hudp]
    exact hnotices (local_sendOne env _ req hnode (hstream hnode) hturn).confined
  | close env node bForceClose closes hbatch =>
    have hnode : M node := hnodes node (by simp [nodes, hbatch])
    exact hnotices (local_closeOne env _ (hstream hnode) bForceClose).confined
  | uv e s hs => exact uvStep_asks hs hnodes

/-- Connections come up for TCP nodes only. -/
theorem up_isTcp (hr : poolSystem.Reachable p) {node : CnetworkNode}
    (h : true ∈ statuses node p.internal.trace) : node.IsTcp := by
  refine hr.invariant (I := fun p => true ∈ statuses node p.internal.trace → node.IsTcp) ?_ ?_ h
  · exact fun hmem => absurd hmem List.not_mem_nil
  · intro p e p' hr hI hstep hmem
    rw [trace_appended hr hstep, statuses_append] at hmem
    rcases List.mem_append.mp hmem with hmem | hmem
    · exact hI hmem
    · obtain ⟨o, ho, hstatus⟩ := List.mem_filterMap.mp hmem
      have hup : o = .callback (.connectionStatus node true) := by
        unfold statusOf at hstatus
        split at hstatus
        · rw [Option.ite_none_right_eq_some, Option.some.injEq] at hstatus
          rw [hstatus.1, hstatus.2]
        · exact absurd hstatus (by simp)
      rw [hup] at ho
      exact (routed_step hr hstep).up node ho

/-- The client knows the sockets that are read. -/
theorem knows_of_reads (hr : poolSystem.Reachable p) {c : Client} (h : c.Heard p.internal.trace)
    {node : CnetworkNode} (hreads : p.internal.Reads node) : c.knows node = true := by
  rcases hreads with ⟨t, hreading, rfl⟩ | ⟨u, hreceiving, rfl⟩
  · have hup := (readersUp_of_reachable hr t hreading).2
    rw [table_trace, statuses_visible, table_tcps] at hup
    rw [Client.knows, if_pos (up_isTcp hr hup)]
    exact (h.announced _).mpr hup
  · have hbound := bound_of_reachable hr
    have hin := (hbound.receiving u).mp hreceiving
    have hudp : ¬ (p.internal.udps u).node.IsTcp := by
      intro htcp
      exact absurd (htcp.symm.trans (hbound.udp u hin)) (by simp)
    rw [Client.knows, if_neg hudp, h.bound]
    exact (hbound.mirrored _).mp (.inr ⟨u, hin, rfl⟩)

/-- The protocol allows what a callback of libuv asks for, and is where it was afterwards. -/
theorem exec_asks (hr : poolSystem.Reachable p) {c : Client} (h : c.Heard p.internal.trace)
    {front : List Callback} (hasks : p.internal.Asks front) :
    clientProtocol.exec c front = some c ∧
      c.Heard (p.internal.trace ++ front.map Obs.callback) := by
  have hbound := bound_of_reachable hr
  have hudp : ∀ u, (p.internal.udps u).receiving = true →
      ¬ (p.internal.udps u).node.IsTcp ∧ c.bound (p.internal.udps u).node = true := by
    intro u hu
    have hin := (hbound.receiving u).mp hu
    refine ⟨fun htcp => absurd (htcp.symm.trans (hbound.udp u hin)) (by simp), ?_⟩
    rw [h.bound]
    exact (hbound.mirrored _).mp (.inr ⟨u, hin, rfl⟩)
  cases hasks with
  | nothing => exact ⟨rfl, h.skip (fun _ => rfl) rfl⟩
  | empty node hreads =>
    exact ⟨h.empty (knows_of_reads hr h hreads), h.skip (fun _ => rfl) rfl⟩
  | filled node sender data hreads hsender =>
    refine ⟨h.filled (knows_of_reads hr h hreads) (hsender.imp_right ?_) data,
      h.skip (fun _ => rfl) rfl⟩
    rintro ⟨⟨u, hu, rfl⟩, hprotocol⟩
    exact ⟨(hudp u hu).1, hprotocol⟩
  | recvError u err hu =>
    refine ⟨?_, h.skip (fun _ => rfl) rfl⟩
    have hread := h.empty (knows_of_reads hr h (.inr ⟨u, hu, rfl⟩))
    have herror : clientProtocol.exec c [.udpRecvError (p.internal.udps u).node err] = some c :=
      Lib.Lts.exec_cons (if_pos ⟨h.lending, hudp u hu⟩) []
    exact Lib.Lts.exec_append hread herror
  | listenError t err ht =>
    refine ⟨?_, h.skip (fun _ => rfl) rfl⟩
    have hstored := listening_stored hr ht
    have hlast := (h.bound _).mpr ((hbound.mirrored _).mp (.inl ⟨t, hstored⟩))
    exact Lib.Lts.exec_cons (if_pos ⟨h.lending, hbound.tcp _ t hstored, hlast⟩) []

/-- **Step.** The calls of a step are allowed after those before it. -/
theorem heard_step (hr : poolSystem.Reachable p) (hstep : p.step e = some p') {c : Client}
    (h : c.Heard p.internal.trace) :
    ∃ c', clientProtocol.exec c (calls (p.appended p')) = some c' ∧
      c'.Heard p'.internal.trace := by
  obtain ⟨front, hasks, -, s₁, hcalls, hconfined⟩ :=
    step_asks hr hstep (M := fun _ => True) (fun _ _ => trivial) fun _ _ => trivial
  have hfront : s₁.trace = p.internal.trace ++ front.map Obs.callback :=
    congrArg (fun fields => fields.2.2.2) hcalls
  obtain ⟨new, htrace, hnew⟩ := hconfined.trace
  have happended : p.appended p' = front.map Obs.callback ++ new := by
    rw [hfront, trace_appended hr hstep, List.append_assoc] at htrace
    exact List.append_cancel_left htrace
  obtain ⟨hexec, hheard⟩ := exec_asks hr h hasks
  rw [← hfront] at hheard
  obtain ⟨c', hexec', hheard'⟩ := hheard.notices (fun o ho => (hnew o ho).1) fun a node b heq => by
    have hmem : .callback (.connectionStatus node true) ∈ p.appended p' := by
      rw [happended, heq]
      simp
    refine ⟨(routed_step hr hstep).up node hmem, fun hlast => ?_⟩
    -- there would be two ups in a row
    have hok := mirrored_of_reachable (.step hr hstep) node
    rw [table_trace, statuses_visible, htrace, heq, ← List.append_assoc, statuses_append,
      statuses_cons] at hok
    have hends := (List.isChain_append.mp hok.chain).2.2
    exact hends true hlast true (by simp [statusOf]) ⟨rfl, rfl⟩
  rw [happended, calls_append, calls_map_callback, htrace]
  exact ⟨c', Lib.Lts.exec_append hexec hexec', hheard'⟩

end Pool

/-- **The pool refines the protocol.** In every reachable state, whatever the callers and libuv
did, the calls made are a run of the protocol in which every buffer was given back, and what they
told is what the pool has: the nodes connected are those of `m_node2stream`, the nodes bound those
with a server. A datagram is taken on a bound socket, and its message carries its sender. -/
theorem callbacks_follow_protocol {p : Pool} (h : poolSystem.Reachable p) :
    ∃ c, clientProtocol.run (calls p.internal.trace) = some c ∧ c.lending = .none ∧
      ∀ node, (c.connected node = true ↔ node ∈ p.internal.node2stream) ∧
        (c.bound node = true ↔ p.internal.IsBound node) := by
  have hinit : clientProtocol.init.Heard poolSystem.init.internal.trace := by
    refine ⟨rfl, fun _ => ?_, fun _ => ?_, fun _ => ?_⟩ <;>
      simp [clientProtocol, poolSystem, lastStatus, bindReports, Lib.last]
  have hrefines : ∃ c, clientProtocol.run (calls p.internal.trace) = some c ∧
      c.Heard p.internal.trace := by
    refine h.refines (fun p => calls p.internal.trace)
      (R := fun p c => Client.Heard c p.internal.trace) rfl hinit ?_
    intro p e p' c hr hheard hstep
    obtain ⟨c', hexec, hheard'⟩ := Pool.heard_step hr hstep hheard
    refine ⟨_, c', ?_, hexec, hheard'⟩
    rw [Pool.trace_appended hr hstep, calls_append]
  obtain ⟨c, hrun, hheard⟩ := hrefines
  refine ⟨c, hrun, hheard.lending, fun node => ⟨?_, ?_⟩⟩
  · have hok := Pool.mirrored_of_reachable h node
    rw [table_trace, statuses_visible] at hok
    rw [hheard.connected, lastStatus, hok.last]
    exact AList.lookup_isSome
  · rw [hheard.bound]
    exact ((Pool.bound_of_reachable h).mirrored node).symm

/-- Data is read on a connection that was opened. -/
theorem callbacks_follow_protocol_read :
    ∃ p, poolSystem.run (openRun 0 ++ [.uv (.tcpRead 0 1 [7] {})]) = some p ∧
      ∃ c, clientProtocol.run [.connectionStatus sampleNode true,
        .allocateMemoryForMessage sampleNode, .message sampleNode [7],
        .deallocateMemoryForMessage sampleNode] = some c ∧ c.lending = .none := by
  have hrun : (poolSystem.run (openRun 0 ++ [.uv (.tcpRead 0 1 [7] {})])).isSome = true := by
    decide
  obtain ⟨p, hp⟩ := Option.isSome_iff_exists.mp hrun
  have hcalls : (poolSystem.run (openRun 0 ++ [.uv (.tcpRead 0 1 [7] {})])).map
      (fun p => calls p.internal.trace) = some [.connectionStatus sampleNode true,
        .allocateMemoryForMessage sampleNode, .message sampleNode [7],
        .deallocateMemoryForMessage sampleNode] := by
    decide
  rw [hp, Option.map_some, Option.some.injEq] at hcalls
  obtain ⟨c, hc, hlending, -⟩ := callbacks_follow_protocol (Lib.Lts.reachable_of_run hp)
  rw [hcalls] at hc
  exact ⟨p, hp, c, hc, hlending⟩

end NetworkPool
