import NetworkPool.Lib.Log
import NetworkPool.Pool.Local

/-!
# Servers

Only the bind loop and the exit branch of `on_wakeup` touch the servers of the pool and report on
them. `SameServers` is what `Local` says of them, whatever the nodes are.
-/

namespace NetworkPool

/-! ## Bind notifications -/

/-- The bind notifications issued, oldest first. -/
def bindReports (tr : List Obs) : List (CnetworkNode × Bool) :=
  tr.filterMap bindOf

@[simp] theorem bindReports_append (a b : List Obs) :
    bindReports (a ++ b) = bindReports a ++ bindReports b :=
  List.filterMap_append ..

theorem bindReports_eq_nil {obs : List Obs} (h : ∀ o ∈ obs, bindOf o = none) :
    bindReports obs = [] :=
  List.filterMap_eq_nil_iff.mpr h

theorem bindReports_dropAll (node : CnetworkNode) (buf : List UvBuf) :
    bindReports (dropAll node buf) = [] :=
  bindReports_eq_nil fun _ ho => bindOf_of_dropAll ho

/-! ## What the other functions leave alone -/

namespace Internal

/-- The servers, the sockets and the bind notifications stay. -/
structure SameServers (s s' : Internal) : Prop where
  tcpServers : s'.tcpServers = s.tcpServers
  udpServers : s'.udpServers = s.udpServers
  nextUdp : s'.nextUdp = s.nextUdp
  sockets : ∀ u, (s'.udps u).bare = (s.udps u).bare
  closing : s'.async.closing = s.async.closing
  reports : bindReports s'.trace = bindReports s.trace

variable {s s₁ s' : Internal}

theorem SameServers.refl (s : Internal) : s.SameServers s :=
  ⟨rfl, rfl, rfl, fun _ => rfl, rfl, rfl⟩

theorem SameServers.trans (h : s.SameServers s₁) (h' : s₁.SameServers s') : s.SameServers s' where
  tcpServers := h'.tcpServers.trans h.tcpServers
  udpServers := h'.udpServers.trans h.udpServers
  nextUdp := h'.nextUdp.trans h.nextUdp
  sockets u := (h'.sockets u).trans (h.sockets u)
  closing := h'.closing.trans h.closing
  reports := h'.reports.trans h.reports

theorem SameServers.ite {b : Prop} [Decidable b] (h : s.SameServers s₁) (h' : s.SameServers s') :
    s.SameServers (if b then s₁ else s') := by
  split_ifs
  · exact h
  · exact h'

theorem SameServers.emit (s : Internal) {obs : List Obs} (h : bindReports obs = []) :
    s.SameServers (s.emit obs) := by
  refine ⟨rfl, rfl, rfl, fun _ => rfl, rfl, ?_⟩
  show bindReports (s.trace ++ obs) = bindReports s.trace
  rw [bindReports_append, h, List.append_nil]

theorem SameServers.call (s : Internal) {c : Callback} (h : bindOf (.callback c) = none) :
    s.SameServers (s.call c) := by
  apply SameServers.emit s
  apply bindReports_eq_nil
  simpa using h

/-- What is local leaves the servers alone. -/
theorem Local.sameServers {M : CnetworkNode → Prop} (h : s.Local M s') : s.SameServers s' where
  tcpServers := h.tcpServers
  udpServers := h.udpServers
  nextUdp := h.nextUdp
  sockets := h.sockets
  closing := h.closing
  reports := by
    obtain ⟨new, htrace, hnew⟩ := h.trace
    rw [htrace, bindReports_append, bindReports_eq_nil fun o ho => (hnew o ho).2, List.append_nil]

/-- What is read of a socket. -/
theorem SameServers.socket (h : s.SameServers s') (u : ℕ) :
    (s'.udps u).node = (s.udps u).node ∧ (s'.udps u).receiving = (s.udps u).receiving ∧
      (s'.udps u).inited = (s.udps u).inited ∧ (s'.udps u).closing = (s.udps u).closing := by
  have hbare := h.sockets u
  exact ⟨(congrArg Cudp.node hbare :), (congrArg Cudp.receiving hbare :),
    (congrArg Cudp.inited hbare :), (congrArg Cudp.closing hbare :)⟩

end Internal

open Internal (SameServers)

section Functions

variable {t : ℕ} (env : Env) (s : Internal)

theorem sameServers_close (t : ℕ) : s.SameServers (Ctcp.closeSetNullptr t s) :=
  (local_close (M := fun _ => True) s t).sameServers

theorem sameServers_bindAndListenTcp (node : CnetworkNode) :
    s.SameServers (bindAndListenTcp env node s).2 :=
  (local_bindAndListenTcp (M := fun _ => True) env s node).sameServers

theorem sameServers_sendOne (req : PendingSend) : s.SameServers (sendOne env req s) :=
  (local_sendOne (M := fun _ => True) env s req trivial (fun _ _ => trivial)
    fun _ => trivial).sameServers

theorem sameServers_closeOne (node : CnetworkNode) (bForceClose : Bool) :
    s.SameServers (closeOne env node bForceClose s) :=
  (local_closeOne (M := fun _ => True) env s (fun _ _ => trivial) bForceClose).sameServers

/-! ### Callbacks that hand something over -/

theorem sameServers_onTcpRead (nread : ℤ) (data : List UInt8) :
    s.SameServers (onTcpRead env t nread data s) := by
  have hreset := fun s₁ => local_reset (M := fun _ => True) (t := t) env s₁ trivial
  have hlost := fun s₁ => local_shutdownTcpConnection (M := fun _ => True) (t := t) env s₁ trivial
    false false
  have hfree : s.SameServers (s.call (.deallocateMemoryForMessage (s.tcps t).node)) := .call s rfl
  unfold onTcpRead
  refine .ite ?_ (hfree.trans (.ite (hlost _).sameServers (.refl _)))
  exact (SameServers.call s rfl).trans ((SameServers.call _ rfl).trans (hreset _).sameServers)

theorem sameServers_onUdpRecv (u : ℕ) (nread : ℤ) (data : List UInt8) (addr : Option Csockaddr) :
    s.SameServers (onUdpRecv u nread data addr s) := by
  have hcalls : ∀ c c', bindOf (.callback c) = none → bindOf (.callback c') = none →
      s.SameServers ((s.call c).call c') :=
    fun _ _ hc hc' => (SameServers.call s hc).trans (.call _ hc')
  unfold onUdpRecv
  refine .ite (hcalls _ _ rfl rfl) ?_
  cases addr with
  | none => exact .call s rfl
  | some addr => exact hcalls _ _ rfl rfl

variable {s} in
/-- Callbacks of libuv leave the servers alone. -/
theorem uvStep_servers {s' : Internal} {e : UvEvent} (h : uvStep s e = some s') :
    s.SameServers s' := by
  cases hasks : e.asks with
  | false => exact (uvStep_local (M := fun _ => True) h hasks fun _ _ => trivial).sameServers
  | true =>
    cases e with
    | newConnection server status env =>
      simp only [uvStep, Option.ite_none_right_eq_some, Option.some.injEq] at h
      have hstatus : status ≠ 0 := by simpa [UvEvent.asks] using hasks
      rw [← h.2, onNewConnection, if_pos hstatus]
      exact .call s rfl
    | tcpRead t nread data env =>
      simp only [uvStep, Option.ite_none_right_eq_some, Option.some.injEq] at h
      rw [← h.2]
      have halloc : s.SameServers (tcpAllocBuffer t s) := .call s rfl
      exact halloc.trans (sameServers_onTcpRead env _ nread data)
    | udpRecv u nread data addr =>
      simp only [uvStep, Option.ite_none_right_eq_some, Option.some.injEq] at h
      rw [← h.2]
      have halloc : s.SameServers (udpAllocBuffer u s) := .call s rfl
      exact halloc.trans (sameServers_onUdpRecv _ u nread data addr)
    | _ => exact absurd hasks (by simp [UvEvent.asks])

end Functions

end NetworkPool
