import NetworkPool.Pool.Steps

/-!
# Waiting queues

A queue of `m_waitingSend` is never empty, belongs to a node without a connection, and is
covered by the connect most recently started for that node, which is still pending and open.
-/

namespace NetworkPool

open Table

namespace Table

/-- `t` is the connect the queue of `node` waits for. -/
structure Covers (v : Table) (node : CnetworkNode) (t : ℕ) : Prop where
  attempt : lastAttempt node v.trace = some t
  pending : t ∈ v.connecting
  node : (v.tcps t).node = node
  closing : (v.tcps t).closing = false

/-- The queue of `node`, if any, is as it should be. -/
def CoveredAt (v : Table) (node : CnetworkNode) : Prop :=
  ∀ buf, v.waitingSend.lookup node = some buf →
    buf ≠ [] ∧ v.node2stream.lookup node = none ∧ ∃ t, v.Covers node t

/-- Every queue is as it should be. -/
def Covered (v : Table) : Prop :=
  ∀ node, v.CoveredAt node

variable {v v' : Table} {node : CnetworkNode} {t : ℕ}

theorem CoveredAt.of_none (h : v.waitingSend.lookup node = none) : v.CoveredAt node := by
  intro buf hbuf
  rw [h] at hbuf
  exact absurd hbuf (by simp)

/-- What a queue depends on. -/
theorem CoveredAt.frame (h : v.CoveredAt node)
    (hwaiting : v'.waitingSend.lookup node = v.waitingSend.lookup node)
    (hmap : v.node2stream.lookup node = none → v'.node2stream.lookup node = none)
    (htrace : lastAttempt node v'.trace = lastAttempt node v.trace)
    (hobj : ∀ t ∈ v.connecting, (v.tcps t).node = node → (v.tcps t).closing = false →
      t ∈ v'.connecting ∧ (v'.tcps t).node = node ∧ (v'.tcps t).closing = false) :
    v'.CoveredAt node := by
  intro buf hbuf
  obtain ⟨hne, hlookup, t, ht⟩ := h buf (hwaiting ▸ hbuf)
  obtain ⟨hpending, hnode, hclosing⟩ := hobj t ht.pending ht.node ht.closing
  exact ⟨hne, hmap hlookup, t, htrace.trans ht.attempt, hpending, hnode, hclosing⟩

theorem CoveredAt.emit (h : v.CoveredAt node) {obs : List Obs} (hobs : NoAttempt obs) :
    (v.emit obs).CoveredAt node :=
  h.frame rfl id (hobs.lastAttempt node v.trace) fun _ hp hn hc => ⟨hp, hn, hc⟩

theorem Covered.emit (h : v.Covered) {obs : List Obs} (hobs : NoAttempt obs) : (v.emit obs).Covered :=
  fun node => (h node).emit hobs

/-- An object of another node, or one that is not a pending open connect, is replaced. -/
theorem CoveredAt.setTcp (h : v.CoveredAt node) {c : Ctcp}
    (ht : t ∈ v.connecting → (v.tcps t).node = node → (v.tcps t).closing = false →
      c.node = node ∧ c.closing = false) : (v.setTcp t c).CoveredAt node := by
  refine h.frame rfl id rfl fun t' hp hn hc => ?_
  by_cases heq : t' = t
  · subst heq
    rw [setTcp_tcps_self]
    exact ⟨hp, ht hp hn hc⟩
  · rw [show (v.setTcp t c).tcps t' = v.tcps t' by simp [Table.setTcp, heq]]
    exact ⟨hp, hn, hc⟩

/-- A new object. -/
theorem Covered.add (h : v.Covered) (hwf : v.Wf) (c : Ctcp) : (v.add c).Covered := by
  intro node
  have hset := (h node).setTcp (t := v.nextTcp) (c := c) fun hp => by
    exact absurd hp (hwf.notMem_of_fresh (hwf.fresh _ le_rfl)).2.1
  exact hset.frame rfl id rfl fun _ hp hn hc => ⟨hp, hn, hc⟩

/-- A teardown drops the queue of its node and leaves the others alone. -/
theorem CoveredAt.teardown {b : Bool} {c : Ctcp} (h : node ≠ (v.tcps t).node → v.CoveredAt node) :
    (v.teardown t b c).CoveredAt node := by
  by_cases hnode : node = (v.tcps t).node
  · refine .of_none ?_
    show (v.waitingSend.erase (v.tcps t).node).lookup node = none
    rw [hnode, AList.lookup_erase]
  · have hset : (v.setTcp t c).CoveredAt node :=
      (h hnode).setTcp fun _ hn => absurd hn.symm hnode
    refine hset.frame ?_ ?_ ?_ fun _ hp hn hc => ⟨hp, hn, hc⟩
    · exact AList.lookup_erase_ne hnode
    · exact Lib.AssocMap.lookup_erase_eq_none
    · show lastAttempt node (v.trace ++ _ ++ _) = lastAttempt node v.trace
      rw [(noAttempt_dropCalls _ _).lastAttempt]
      refine NoAttempt.lastAttempt ?_ node v.trace
      intro o ho
      split_ifs at ho <;> simp_all

theorem CoveredAt.register (h : node ≠ (v.tcps t).node → v.CoveredAt node) :
    (v.register t).CoveredAt node := by
  by_cases hnode : node = (v.tcps t).node
  · refine .of_none ?_
    show (v.waitingSend.erase (v.tcps t).node).lookup node = none
    rw [hnode, AList.lookup_erase]
  · refine (h hnode).frame ?_ ?_ ?_ fun _ hp hn hc => ⟨hp, hn, hc⟩
    · exact AList.lookup_erase_ne hnode
    · intro hnone
      exact (AList.lookup_insert_ne hnode).trans hnone
    · refine NoAttempt.lastAttempt ?_ node v.trace
      simp [NoAttempt]

/-- A new connection takes the queue of its node, if it is accepted. -/
theorem Covered.startup {ok : Bool} (h : ∀ node, node ≠ (v.tcps t).node → v.CoveredAt node)
    (htaken : v.node2stream.lookup (v.tcps t).node ≠ none →
      v.waitingSend.lookup (v.tcps t).node = none)
    (hstart : Startup ok v t v') : v'.Covered := by
  intro node
  cases hstart with
  | taken hlookup =>
    by_cases hnode : node = (v.tcps t).node
    · exact .of_none (hnode ▸ htaken hlookup)
    · exact (h node hnode).setTcp fun _ hn => absurd hn.symm hnode
  | up hlookup _ =>
    have hreg := CoveredAt.register (h node)
    exact hreg.emit (noAttempt_dropCalls _ _)
  | flush req hlookup =>
    have hreg := CoveredAt.register (h node)
    refine CoveredAt.emit ?_ (by simp [NoAttempt])
    exact hreg.setTcp fun _ hn hc => ⟨hn, hc⟩
  | down passed hlookup _ =>
    refine CoveredAt.teardown fun hnode => ?_
    have hreg := CoveredAt.register (h node)
    refine ((hreg.setTcp fun _ hn hc => ?_).emit ?_).emit (noAttempt_dropCalls _ _)
    · cases passed <;> exact ⟨hn, hc⟩
    · cases passed <;> simp [NoAttempt]

/-- The object of a connect whose callback runs no longer covers a queue. -/
theorem CoveredAt.connectDone (h : v.CoveredAt node) (hnode : node ≠ (v.tcps t).node) (c : Ctcp) :
    ({ v with connecting := v.connecting.erase t }.setTcp t c).CoveredAt node := by
  refine h.frame rfl id rfl fun t' hp hn hc => ?_
  have heq : t' ≠ t := by
    rintro rfl
    exact hnode hn.symm
  refine ⟨Finset.mem_erase.mpr ⟨heq, hp⟩, ?_⟩
  simp [Table.setTcp, heq, hn, hc]

/-- A node with a connection has no queue. -/
theorem CoveredAt.waiting_eq_none (h : v.CoveredAt node) (hlookup : v.node2stream.lookup node ≠ none) :
    v.waitingSend.lookup node = none := by
  by_contra hne
  obtain ⟨buf, hbuf⟩ := Option.ne_none_iff_exists'.mp hne
  exact hlookup (h buf hbuf).2.1

end Table

/-- Every action keeps the waiting queues covered. -/
theorem Act.covered {v v' : Table} {l : Label} (hact : Act v l v') (hwf : v.Wf)
    (h : v.Covered) : v'.Covered := by
  cases hact with
  | touch t c hc =>
    obtain ⟨hnode, hclosing, -⟩ := hc.same
    exact fun node => (h node).setTcp fun _ hn ho => ⟨hnode.trans hn, hclosing.trans ho⟩
  | message t data hreading =>
    refine h.emit fun o ho => ?_
    have := List.mem_of_mem_filter ho
    simp_all
  | written t w hw =>
    refine Covered.emit ?_ (by simp [NoAttempt])
    exact fun node => (h node).setTcp fun _ hn ho => ⟨hn, ho⟩
  | lost t w hw =>
    refine Covered.emit ?_ (noAttempt_dropCalls _ _)
    exact fun node => (h node).setTcp fun _ hn ho => ⟨hn, ho⟩
  | teardown t hlistening hconnect => exact fun node => CoveredAt.teardown fun _ => h node
  | close t node c hlookup hc => exact fun node => CoveredAt.teardown fun _ => h node
  | connectFail t armed hreq harmed =>
    refine fun node => CoveredAt.teardown fun hnode => (h node).connectDone ?_ _
    rw [setTcp_tcps_self] at hnode
    cases armed <;> exact hnode
  | connectUp t ok v' hreq hclosing hstart =>
    refine Covered.startup (fun node hnode => (h node).connectDone ?_ _) (fun htaken => ?_) hstart
    · rw [setTcp_tcps_self] at hnode
      exact hnode
    · rw [setTcp_tcps_self] at htaken ⊢
      exact (h _).waiting_eq_none htaken
  | acceptUp peer ok v' hstart =>
    have hadd := h.add hwf (((Ctcp.fresh true ⟨.protocolTcp, peer⟩).arm .idle).startRead)
    exact Covered.startup (fun node _ => hadd node) (hadd _).waiting_eq_none hstart
  | shutdownDone t hreq =>
    -- an object that is shutting down is no pending connect
    refine fun node => (h node).setTcp fun hp => ?_
    have hconnect := ((hwf.tcps t).shutdown ((hwf.tcps t).shutdownReq hreq).1).1
    exact absurd (hwf.connecting t hp) (by simp [Ctcp.Connecting, hconnect])
  | dead c hc => exact h.add hwf c
  | park node b buf hwaiting hlookup =>
    intro n
    by_cases hn : n = node
    · subst hn
      obtain ⟨-, hnone, t, ht⟩ := h n buf hwaiting
      intro buf' hbuf'
      have heq : buf ++ [b] = buf' := by
        simpa [AList.lookup_insert] using hbuf'
      exact ⟨by simp [← heq], hnone, t, ht.1, ht.2, ht.3, ht.4⟩
    · exact (h n).frame (AList.lookup_insert_ne hn) id rfl fun _ hp ho hc => ⟨hp, ho, hc⟩
  | connect node b req htcp hvalid hwaiting hlookup =>
    intro n
    by_cases hn : n = node
    · subst hn
      intro buf hbuf
      have heq : [b] = buf := by simpa [Table.emit, AList.lookup_insert] using hbuf
      refine ⟨by simp [← heq], hlookup, v.nextTcp, ?_, Finset.mem_insert_self _ _, ?_, ?_⟩
      · show lastAttempt n (v.trace ++ [_]) = _
        rw [lastAttempt_append]
        simp [lastAttempt, attemptOf]
      · show ((v.add _).tcps v.nextTcp).node = n
        rw [add_tcps_self]
        rfl
      · show ((v.add _).tcps v.nextTcp).closing = false
        rw [add_tcps_self]
        rfl
    · refine (h.add hwf _ n).frame (AList.lookup_insert_ne hn) id ?_ fun _ hp ho hc =>
        ⟨Finset.mem_insert_of_mem hp, ho, hc⟩
      refine lastAttempt_append_of_none ?_
      simp [attemptOf, Ne.symm hn]
  | refuse node b hwaiting hlookup =>
    exact h.emit (NoAttempt.append (a := [_]) (by simp [NoAttempt]) (noAttempt_dropCalls _ _))
  | discard node b => exact h.emit (noAttempt_dropCalls _ _)
  | write t node b req hlookup =>
    refine Covered.emit ?_ (by simp [NoAttempt])
    exact fun n => (h n).setTcp fun _ hn ho => ⟨hn, ho⟩
  | writeFail t node b passed hlookup =>
    refine h.emit (NoAttempt.append ?_ (noAttempt_dropCalls _ _))
    cases passed <;> simp [NoAttempt]
  | listen node hserver =>
    exact fun n => (h.add hwf _ n).frame rfl id rfl fun _ hp hn hc => ⟨hp, hn, hc⟩
  | unlisten node t hserver =>
    -- a listener is no pending connect
    have hl := hwf.server node t hserver
    refine fun n => ((h n).setTcp fun hp => ?_ : (v.setTcp t _).CoveredAt n).frame rfl id rfl
      fun _ hp hn hc => ⟨hp, hn, hc⟩
    have hlistening := ((hwf.tcps t).connectReq (hwf.connecting t hp)).1
    exact absurd (hl.listening.symm.trans hlistening) (by simp)
  | notice node hnode => exact h.emit (by simp [NoAttempt])
  | exit batch streams connecting queues tcps hstreams hconnecting hqueues htcps =>
    exact fun node => .of_none (by simp)

theorem Acts.covered {v v' : Table} {ls : List Label} (hacts : Acts v ls v') (hwf : v.Wf)
    (h : v.Covered) : v'.Covered := by
  induction hacts with
  | nil => exact h
  | cons hact _ ih => exact ih (hact.wf hwf) (hact.covered hwf h)

/-- The waiting queues are covered in every reachable state. -/
theorem Pool.covered_of_reachable {p : Pool} (h : poolSystem.Reachable p) : p.table.Covered :=
  Pool.table_invariant (I := Table.Covered) (fun _ => .of_none rfl)
    (fun _ _ _ hwf hI hact => hact.covered hwf hI) h

/-! ## No message is stranded -/

/-- `startupTcpConnection_may_set_nullptr` leaves the queues alone when it rejects. -/
theorem startup_rejected_waitingSend (env : Env) (t : ℕ) (s : Internal)
    (htaken : s.node2stream.lookup (s.tcps t).node ≠ none) :
    (startupTcpConnectionMaySetNullptr env t s).waitingSend = s.waitingSend := by
  have hclose : (Ctcp.closeSetNullptr t s).waitingSend = s.waitingSend :=
    congrArg Table.waitingSend (table_closeSetNullptr t s)
  unfold startupTcpConnectionMaySetNullptr
  dsimp only
  by_cases hvalid : (!(s.tcps t).node.sockaddr.valid) = true
  · rw [if_pos hvalid]
    exact hclose
  · rw [if_neg hvalid, if_pos (Option.isSome_iff_ne_none.mpr htaken)]
    exact hclose

/-- In every reachable state, a queue of `m_waitingSend` is not empty, its node has no entry in
`m_node2stream`, and an open connect for the node is pending. Hence in any state with these maps,
such as the one in which a callback calls `startupTcpConnection_may_set_nullptr`, a rejected
startup leaves no waiting data for its node, and `size() - 1` does not underflow. -/
theorem waiting_queue_covered {p : Pool} (h : poolSystem.Reachable p) :
    (∀ node buf, p.internal.waitingSend.lookup node = some buf →
      buf ≠ [] ∧ node ∉ p.internal.node2stream ∧
      ∃ t ∈ p.internal.connecting, (p.internal.tcps t).node = node ∧
        (p.internal.tcps t).closing = false) ∧
    ∀ s : Internal, s.node2stream = p.internal.node2stream →
      s.waitingSend = p.internal.waitingSend →
      (∀ env t, s.node2stream.lookup (s.tcps t).node ≠ none →
        (startupTcpConnectionMaySetNullptr env t s).waitingSend.lookup (s.tcps t).node = none) ∧
      ∀ node buf, s.waitingSend.lookup node = some buf → 1 ≤ buf.length := by
  have hcovered := Pool.covered_of_reachable h
  refine ⟨fun node buf hbuf => ?_, fun s hmap hqueue => ⟨fun env t htaken => ?_, fun node buf hbuf => ?_⟩⟩
  · obtain ⟨hne, hnone, t, ht⟩ := hcovered node buf hbuf
    exact ⟨hne, AList.lookup_eq_none.mp hnone, t, ht.pending, ht.node, ht.closing⟩
  · rw [startup_rejected_waitingSend env t s htaken, hqueue]
    rw [hmap] at htaken
    exact (hcovered _).waiting_eq_none htaken
  · rw [hqueue] at hbuf
    exact List.length_pos_iff.mpr (hcovered node buf hbuf).1

/-- A message whose connect is pending. -/
theorem waiting_queue_covered_sent :
    ∃ p, poolSystem.run sendRun = some p ∧
      p.internal.waitingSend.lookup sampleNode = some [⟨0, [1]⟩] ∧
      ∃ t ∈ p.internal.connecting, (p.internal.tcps t).node = sampleNode ∧
        (p.internal.tcps t).closing = false :=
  ⟨(poolSystem.run sendRun).get (by decide), (Option.some_get _).symm, by decide,
    ((waiting_queue_covered (Lib.Lts.reachable_of_run (Option.some_get _).symm)).1
      sampleNode [⟨0, [1]⟩] (by decide)).2.2⟩

end NetworkPool
