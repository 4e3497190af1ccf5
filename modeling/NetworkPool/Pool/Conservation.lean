import Mathlib.Algebra.BigOperators.Group.Finset.Basic
import NetworkPool.Pool.Waiting

/-!
# Conservation of messages

A message accepted by `send` is afterwards in one of six places: the pending queue, the batch of
a running `on_wakeup`, the waiting queue of its node, a write request in flight, the written
messages or the dropped messages. `Act.held` says that an action moves messages between the last
four and takes in those it takes from the batch; `Act.line` says that it keeps their order.
-/

namespace NetworkPool

open Table

/-! ## Places -/

/-- The buffers of `l` that are for `node`, in order. -/
def forNode (node : CnetworkNode) (l : List (CnetworkNode × UvBuf)) : List UvBuf :=
  (l.filter fun m => m.1 = node).map Prod.snd

/-- The messages of the write requests in flight. -/
def Ctcp.inFlight (c : Ctcp) : List (CnetworkNode × UvBuf) :=
  c.tcp.writes.flatMap fun w => w.buf.map fun b => (c.node, b)

/-- How often `m` occurs in a write request in flight. -/
def inFlightCount (tcps : ℕ → Ctcp) (nextTcp : ℕ) (m : CnetworkNode × UvBuf) : ℕ :=
  ∑ t ∈ Finset.range nextTcp, (tcps t).inFlight.count m

namespace Table

/-- How often `m` waits for a connect. -/
def waitingCount (v : Table) (m : CnetworkNode × UvBuf) : ℕ :=
  (v.waiting m.1).count m.2

/-- How often the internal thread holds `m`, has written it or has dropped it. -/
def held (v : Table) (m : CnetworkNode × UvBuf) : ℕ :=
  v.waitingCount m + inFlightCount v.tcps v.nextTcp m + (written v.trace).count m +
    (dropped v.trace).count m

/-- What was passed to `uv_write` for `node`, followed by what waits for it. -/
def line (v : Table) (node : CnetworkNode) : List UvBuf :=
  passedToUvWrite node v.trace ++ v.waiting node

end Table

/-! ## Counting -/

section Count

variable {m : CnetworkNode × UvBuf} {node : CnetworkNode} {buf : List UvBuf}

theorem count_map_pair (m : CnetworkNode × UvBuf) (node : CnetworkNode) (buf : List UvBuf) :
    (buf.map fun b => (node, b)).count m = if m.1 = node then buf.count m.2 else 0 := by
  obtain ⟨n, b⟩ := m
  by_cases h : n = node
  · subst h
    have hinj : Function.Injective fun b : UvBuf => (n, b) := Prod.mk_right_injective n
    rw [if_pos rfl]
    exact List.count_map_of_injective buf _ hinj b
  · rw [if_neg h, List.count_eq_zero]
    intro hmem
    obtain ⟨b', -, heq⟩ := List.mem_map.mp hmem
    exact h (Prod.ext_iff.mp heq).1.symm

/-- The messages for other nodes do not count. -/
theorem count_tcpOnly (hm : m.1.IsTcp) (l : List (CnetworkNode × UvBuf)) :
    (tcpOnly l).count m = l.count m :=
  List.count_filter (by simpa using hm)

@[simp] theorem forNode_append (node : CnetworkNode) (a b : List (CnetworkNode × UvBuf)) :
    forNode node (a ++ b) = forNode node a ++ forNode node b := by
  simp [forNode]

theorem forNode_tcpOnly (hnode : node.IsTcp) (l : List (CnetworkNode × UvBuf)) :
    forNode node (tcpOnly l) = forNode node l := by
  unfold forNode tcpOnly
  rw [List.filter_filter]
  congr 1
  refine List.filter_congr fun m _ => ?_
  by_cases h : m.1 = node
  · simp [h, hnode]
  · simp [h]

/-- The queue of one node erased from the waiting queues. -/
theorem waitingCount_erase (v : Table) (node : CnetworkNode) (m : CnetworkNode × UvBuf) :
    (((v.waitingSend.erase node).lookup m.1).getD []).count m.2 +
      ((v.waiting node).map fun b => (node, b)).count m = v.waitingCount m := by
  rw [count_map_pair]
  unfold waitingCount Table.waiting
  by_cases h : m.1 = node
  · rw [if_pos h, h, AList.lookup_erase]
    simp
  · rw [if_neg h, AList.lookup_erase_ne h]
    omega

/-- A message appended to the queue of its node. -/
theorem waitingCount_insert (v : Table) (node : CnetworkNode) (b : UvBuf)
    (m : CnetworkNode × UvBuf) :
    (((v.waitingSend.insert node (v.waiting node ++ [b])).lookup m.1).getD []).count m.2 =
      v.waitingCount m + [(node, b)].count m := by
  have hone := count_map_pair m node [b]
  rw [List.map_singleton] at hone
  rw [hone]
  unfold waitingCount
  by_cases h : m.1 = node
  · rw [if_pos h, h, AList.lookup_insert, Option.getD_some, List.count_append]
  · rw [if_neg h, AList.lookup_insert_ne h]
    rfl

/-- All waiting queues together, in any order. -/
theorem count_queues {m : CnetworkNode × UvBuf} {queues : List (CnetworkNode × List UvBuf)}
    {map : NodeMap (List UvBuf)} (h : queues.Perm map.toPairs) :
    (queues.flatMap fun pair => pair.2.map fun b => (pair.1, b)).count m =
      ((map.lookup m.1).getD []).count m.2 := by
  have hsum : (queues.flatMap fun pair => pair.2.map fun b => (pair.1, b)).count m =
      Lib.AssocMap.sum (fun node buf => if m.1 = node then buf.count m.2 else 0) map := by
    rw [List.count_flatMap, (h.map _).sum_eq]
    unfold Lib.AssocMap.sum NodeMap.toPairs
    rw [List.map_map]
    congr 1
    refine List.map_congr_left fun e _ => ?_
    exact count_map_pair m e.1 e.2
  rw [hsum]
  cases hlookup : map.lookup m.1 with
  | none =>
    refine Lib.AssocMap.sum_eq_zero _ fun node buf hbuf => if_neg fun heq => ?_
    rw [← heq, hlookup] at hbuf
    exact absurd hbuf (by simp)
  | some buf =>
    rw [Lib.AssocMap.sum_of_lookup _ hlookup, if_pos rfl, Lib.AssocMap.sum_eq_zero]
    · rfl
    · intro node buf' hbuf'
      exact if_neg fun heq => (Lib.AssocMap.of_lookup_erase hbuf').1 heq.symm

end Count

/-! ## Writes in flight -/

section InFlight

variable {v : Table} {t : ℕ} {c : Ctcp} {m : CnetworkNode × UvBuf}

/-- An object is replaced. -/
theorem inFlightCount_update (ht : t < v.nextTcp) (c : Ctcp) (m : CnetworkNode × UvBuf) :
    inFlightCount (Function.update v.tcps t c) v.nextTcp m + (v.tcps t).inFlight.count m =
      inFlightCount v.tcps v.nextTcp m + c.inFlight.count m := by
  have hmem : t ∈ Finset.range v.nextTcp := Finset.mem_range.mpr ht
  unfold inFlightCount
  rw [← Finset.add_sum_erase _ _ hmem, ← Finset.add_sum_erase _ (fun t => (v.tcps t).inFlight.count m)
    hmem, Function.update_self]
  have hrest : ∀ t' ∈ (Finset.range v.nextTcp).erase t,
      (Function.update v.tcps t c t').inFlight.count m = (v.tcps t').inFlight.count m := by
    intro t' ht'
    rw [Function.update_of_ne (Finset.ne_of_mem_erase ht')]
  rw [Finset.sum_congr rfl hrest]
  omega

/-- An object is replaced by one with the same writes. -/
theorem inFlightCount_same (h : c.inFlight = (v.tcps t).inFlight) :
    inFlightCount (Function.update v.tcps t c) v.nextTcp m = inFlightCount v.tcps v.nextTcp m := by
  unfold inFlightCount
  refine Finset.sum_congr rfl fun t' _ => ?_
  by_cases heq : t' = t
  · rw [heq, Function.update_self, h]
  · rw [Function.update_of_ne heq]

/-- A new object without writes. -/
theorem inFlightCount_add (h : v.Wf) (hc : c.inFlight = []) :
    inFlightCount (v.add c).tcps (v.nextTcp + 1) m = inFlightCount v.tcps v.nextTcp m := by
  have hfresh : (v.tcps v.nextTcp).inFlight = [] := by
    rw [h.fresh _ le_rfl]
    rfl
  have hset := inFlightCount_same (v := v) (m := m) (hc.trans hfresh.symm)
  have hlast : ((v.add c).tcps v.nextTcp).inFlight.count m = 0 := by
    rw [add_tcps_self, hc]
    rfl
  unfold inFlightCount at hset ⊢
  rw [Finset.sum_range_succ, hlast]
  exact hset

theorem Ctcp.afterClose_inFlight (c : Ctcp) : c.afterClose.inFlight = c.inFlight := by
  unfold Ctcp.inFlight
  rw [Ctcp.afterClose_writes, Ctcp.afterClose_node]

theorem Ctcp.queueWrite_inFlight (c : Ctcp) (w : WriteWithInfo) (m : CnetworkNode × UvBuf) :
    (c.queueWrite w).inFlight.count m =
      c.inFlight.count m + (w.buf.map fun b => (c.node, b)).count m := by
  simp [Ctcp.inFlight, Ctcp.queueWrite]

/-- The messages of a request that is taken off. -/
theorem Ctcp.takeWrite_inFlight {w : WriteWithInfo} (hw : w ∈ c.tcp.writes)
    (m : CnetworkNode × UvBuf) :
    c.inFlight.count m =
      (c.takeWrite w).inFlight.count m + (w.buf.map fun b => (c.node, b)).count m := by
  have hperm := (List.perm_cons_erase hw).flatMap_right (fun w => w.buf.map fun b => (c.node, b))
  have hcount := hperm.count_eq m
  rw [List.flatMap_cons, List.count_append] at hcount
  have htake : (c.takeWrite w).inFlight =
      (c.tcp.writes.erase w).flatMap fun w => w.buf.map fun b => (c.node, b) := rfl
  rw [htake]
  unfold Ctcp.inFlight
  omega

end InFlight

/-! ## What the internal thread holds -/

namespace Table

variable {v v' : Table} {t : ℕ} {m : CnetworkNode × UvBuf}

/-- Entries that record neither a write nor a drop of `m`. -/
theorem held_emit {obs : List Obs} (hwritten : (written obs).count m = 0)
    (hdropped : (dropped obs).count m = 0) : (v.emit obs).held m = v.held m := by
  show v.waitingCount m + _ + (written (v.trace ++ obs)).count m +
    (dropped (v.trace ++ obs)).count m = _
  rw [written_append, dropped_append, List.count_append, List.count_append, hwritten, hdropped]
  rfl

/-- Drops add to what is held. -/
theorem held_drop (node : CnetworkNode) (buf : List UvBuf) :
    (v.emit (dropCalls node buf)).held m =
      v.held m + (buf.map fun b => (node, b)).count m := by
  show v.waitingCount m + inFlightCount v.tcps v.nextTcp m + (written (v.trace ++ _)).count m +
    (dropped (v.trace ++ _)).count m = _
  rw [written_append, dropped_append, written_dropCalls, dropped_dropCalls, List.append_nil,
    List.count_append]
  unfold held
  omega

/-- A completed write adds to what is held. -/
theorem held_written (node : CnetworkNode) (buf : List UvBuf) :
    (v.emit [.written node buf]).held m = v.held m + (buf.map fun b => (node, b)).count m := by
  have hnew : written [.written node buf] = buf.map fun b => (node, b) := List.append_nil _
  show v.waitingCount m + inFlightCount v.tcps v.nextTcp m + (written (v.trace ++ _)).count m +
    (dropped (v.trace ++ _)).count m = _
  rw [written_append, dropped_append, hnew, List.count_append, List.count_append]
  show _ + _ + _ + (_ + 0) = _
  unfold held
  omega

/-- An object is replaced by one with the same writes. -/
theorem held_setTcp {c : Ctcp} (hc : c.inFlight = (v.tcps t).inFlight) :
    (v.setTcp t c).held m = v.held m := by
  show v.waitingCount m + inFlightCount (Function.update v.tcps t c) v.nextTcp m + _ + _ = _
  rw [inFlightCount_same hc]
  rfl

theorem held_add (h : v.Wf) {c : Ctcp} (hc : c.inFlight = []) : (v.add c).held m = v.held m := by
  show v.waitingCount m + inFlightCount (v.add c).tcps (v.nextTcp + 1) m + _ + _ = _
  rw [inFlightCount_add h hc]
  rfl

/-- A write request is queued. -/
theorem held_queueWrite (ht : t < v.nextTcp) {c : Ctcp} (w : WriteWithInfo)
    (hc : c.inFlight = (v.tcps t).inFlight) (hnode : c.node = (v.tcps t).node) :
    (v.setTcp t (c.queueWrite w)).held m =
      v.held m + (w.buf.map fun b => ((v.tcps t).node, b)).count m := by
  have hupdate := inFlightCount_update ht (c.queueWrite w) m
  rw [Ctcp.queueWrite_inFlight, hc, hnode] at hupdate
  show v.waitingCount m + inFlightCount (Function.update v.tcps t _) v.nextTcp m +
    (written v.trace).count m + (dropped v.trace).count m = _
  unfold held
  omega

/-- A write request is taken off. -/
theorem held_takeWrite (ht : t < v.nextTcp) {w : WriteWithInfo} (hw : w ∈ (v.tcps t).tcp.writes) :
    (v.setTcp t ((v.tcps t).takeWrite w)).held m +
      (w.buf.map fun b => ((v.tcps t).node, b)).count m = v.held m := by
  have hupdate := inFlightCount_update ht ((v.tcps t).takeWrite w) m
  rw [Ctcp.takeWrite_inFlight hw m] at hupdate
  show v.waitingCount m + inFlightCount (Function.update v.tcps t _) v.nextTcp m +
    (written v.trace).count m + (dropped v.trace).count m + _ = _
  unfold held
  omega

/-- A teardown drops the queue of the node. -/
theorem held_teardown (b : Bool) {c : Ctcp} (hc : c.inFlight = (v.tcps t).inFlight) :
    (v.teardown t b c).held m = v.held m := by
  have hqueue := waitingCount_erase v (v.tcps t).node m
  show (((v.waitingSend.erase (v.tcps t).node).lookup m.1).getD []).count m.2 +
    inFlightCount (Function.update v.tcps t c) v.nextTcp m +
    (written (v.trace ++ _ ++ _)).count m + (dropped (v.trace ++ _ ++ _)).count m = _
  rw [inFlightCount_same hc, written_append, written_append, dropped_append, dropped_append,
    written_dropCalls, dropped_dropCalls, List.count_append, List.count_append, List.count_append,
    List.count_append]
  have hnotice : ∀ b : Bool, written (if b = true then
      [.callback (.connectionStatus (v.tcps t).node false)] else []) = [] ∧
      dropped (if b = true then [.callback (.connectionStatus (v.tcps t).node false)] else []) = [] := by
    intro b
    cases b <;> exact ⟨rfl, rfl⟩
  rw [(hnotice _).1, (hnotice _).2]
  unfold held
  simp only [List.count_nil]
  omega

/-- What waits for the node is taken out of its queue. -/
theorem held_register : (v.register t).held m +
    ((v.waiting (v.tcps t).node).map fun b => ((v.tcps t).node, b)).count m = v.held m := by
  have hqueue := waitingCount_erase v (v.tcps t).node m
  show (((v.waitingSend.erase (v.tcps t).node).lookup m.1).getD []).count m.2 +
    inFlightCount v.tcps v.nextTcp m + (written (v.trace ++ _)).count m +
    (dropped (v.trace ++ _)).count m + _ = _
  rw [written_append, dropped_append, List.count_append, List.count_append]
  unfold held
  simp only [written, dropped, List.flatMap_cons, List.flatMap_nil, List.filterMap_cons,
    List.filterMap_nil, writtenOf, dropOf, List.append_nil, List.count_nil]
  omega

theorem held_startup {ok : Bool} (ht : t < v.nextTcp) (hstart : Startup ok v t v') :
    v'.held m = v.held m := by
  have hreg := held_register (v := v) (t := t) (m := m)
  cases hstart with
  | taken hlookup => exact held_setTcp (Ctcp.afterClose_inFlight _)
  | up hlookup _ =>
    rw [held_drop]
    exact hreg
  | flush req hlookup =>
    have hqueue := held_queueWrite (v := v.register t) (m := m) ht
      (c := (v.tcps t).arm .send) ⟨req, v.waiting (v.tcps t).node⟩ rfl rfl
    rw [held_emit rfl rfl, hqueue]
    exact hreg
  | down passed hlookup _ =>
    have hset : ((v.register t).setTcp t (if passed then (v.tcps t).arm .send else v.tcps t)).held m =
        (v.register t).held m := by
      refine held_setTcp ?_
      cases passed <;> rfl
    rw [held_teardown, held_drop, held_emit, hset]
    · exact hreg
    · cases passed <;> rfl
    · cases passed <;> rfl
    · rw [emit_table_tcps, emit_table_tcps, setTcp_tcps_self, Ctcp.afterClose_inFlight]

end Table

theorem written_dropEach {α : Type} (l : List α) (n : α → CnetworkNode) (buf : α → List UvBuf) :
    written (l.flatMap fun a => dropCalls (n a) (buf a)) = [] := by
  induction l with
  | nil => rfl
  | cons a l ih => rw [List.flatMap_cons, written_append, ih, written_dropCalls]; rfl

theorem dropped_dropEach {α : Type} (l : List α) (n : α → CnetworkNode) (buf : α → List UvBuf) :
    dropped (l.flatMap fun a => dropCalls (n a) (buf a)) =
      l.flatMap fun a => (buf a).map fun b => (n a, b) := by
  induction l with
  | nil => rfl
  | cons a l ih => rw [List.flatMap_cons, dropped_append, ih, dropped_dropCalls, List.flatMap_cons]

/-- An action takes in the messages it takes from the batch, and loses and repeats none. -/
theorem Act.held {v v' : Table} {l : Label} (hact : Act v l v') (hwf : v.Wf)
    (m : CnetworkNode × UvBuf) : v'.held m = v.held m + l.taken.count m := by
  cases hact with
  | touch t c hc =>
    obtain ⟨hnode, -, -, -, hwrites, -⟩ := hc.same
    refine held_setTcp ?_
    unfold Ctcp.inFlight
    rw [hnode, hwrites]
  | message t data hreading =>
    refine held_emit ?_ ?_
    · rw [written_visible]
      rfl
    · rw [dropped_visible]
      rfl
  | written t w hw =>
    have ht := hwf.lt_nextTcp ((hwf.tcps t).writes (List.ne_nil_of_mem hw)).2.2.1
    rw [held_written]
    exact held_takeWrite ht hw
  | lost t w hw =>
    have ht := hwf.lt_nextTcp ((hwf.tcps t).writes (List.ne_nil_of_mem hw)).2.2.1
    rw [held_drop]
    exact held_takeWrite ht hw
  | teardown t hlistening hconnect => exact held_teardown false (Ctcp.afterClose_inFlight _)
  | close t node c hlookup hc =>
    have he := hwf.stream node t hlookup
    refine held_teardown false ?_
    rcases hc with rfl | ⟨-, env, req, rfl⟩
    · exact Ctcp.afterClose_inFlight _
    · rcases Ctcp.afterShutdown_cases env req he with heq | heq <;> rw [heq]
      · exact Ctcp.afterClose_inFlight _
      · rfl
  | connectFail t armed hreq harmed =>
    have hset : ({ v with connecting := v.connecting.erase t }.setTcp t
        (if armed then (v.tcps t).connectDone.arm .idle else (v.tcps t).connectDone)).held m =
          v.held m := by
      refine held_setTcp (v := { v with connecting := v.connecting.erase t }) ?_
      cases armed <;> rfl
    rw [held_teardown, hset]
    · rfl
    · rw [setTcp_tcps_self, Ctcp.afterClose_inFlight]
  | connectUp t ok v' hreq hclosing hstart =>
    have ht := hwf.lt_nextTcp ((hwf.tcps t).connectReq hreq).2.1
    have hset : ({ v with connecting := v.connecting.erase t }.setTcp t
        (((v.tcps t).connectDone.arm .idle).startRead)).held m = v.held m :=
      held_setTcp (v := { v with connecting := v.connecting.erase t }) rfl
    refine (held_startup ?_ hstart).trans hset
    exact ht
  | acceptUp peer ok v' hstart =>
    exact (held_startup (Nat.lt_succ_self v.nextTcp) hstart).trans (held_add hwf rfl)
  | shutdownDone t hreq =>
    refine held_setTcp ?_
    rw [Ctcp.afterClose_inFlight]
    rfl
  | dead c hc =>
    refine held_add hwf ?_
    unfold Ctcp.inFlight
    rw [hc.writes]
    rfl
  | park node b buf hwaiting hlookup =>
    have hqueue : buf = v.waiting node := by
      unfold Table.waiting
      rw [hwaiting]
      rfl
    have hinsert := waitingCount_insert v node b m
    subst hqueue
    show (((v.waitingSend.insert node _).lookup m.1).getD []).count m.2 +
      inFlightCount v.tcps v.nextTcp m + _ + _ = _
    rw [hinsert]
    unfold Table.held
    simp only [Label.taken]
    omega
  | connect node b req htcp hvalid hwaiting hlookup =>
    have hqueue : [b] = v.waiting node ++ [b] := by
      unfold Table.waiting
      rw [hwaiting]
      rfl
    have hinsert := waitingCount_insert v node b m
    rw [held_emit rfl rfl]
    show (((v.waitingSend.insert node [b]).lookup m.1).getD []).count m.2 +
      inFlightCount (v.add _).tcps (v.nextTcp + 1) m + _ + _ = _
    rw [hqueue, hinsert, inFlightCount_add hwf rfl]
    show v.waitingCount m + [(node, b)].count m + inFlightCount v.tcps v.nextTcp m +
      (NetworkPool.written v.trace).count m + (dropped v.trace).count m =
      v.held m + [(node, b)].count m
    unfold Table.held
    omega
  | refuse node b hwaiting hlookup =>
    have hnotice : (v.emit [.callback (.connectionStatus node false)]).held m = v.held m :=
      held_emit rfl rfl
    have hdrop := held_drop (v := v.emit [.callback (.connectionStatus node false)]) (m := m) node [b]
    rw [emit_emit, hnotice] at hdrop
    exact hdrop
  | discard node b => exact held_drop node [b]
  | write t node b req hlookup =>
    have he := hwf.stream node t hlookup
    have hqueue := held_queueWrite (m := m) (hwf.lt_nextTcp he.tcpInited)
      (c := (v.tcps t).arm .send) ⟨req, [b]⟩ rfl rfl
    rw [he.node] at hqueue
    rw [held_emit rfl rfl]
    exact hqueue
  | writeFail t node b passed hlookup =>
    have hwrite : (v.emit (if passed then [.uvWrite t (v.tcps t).node [b]] else [])).held m =
        v.held m := by
      cases passed <;> exact held_emit rfl rfl
    have hdrop := held_drop (v := v.emit (if passed then [.uvWrite t (v.tcps t).node [b]] else []))
      (m := m) node [b]
    rw [emit_emit, hwrite] at hdrop
    exact hdrop
  | listen node hserver => exact held_add hwf rfl
  | unlisten node t hserver =>
    exact held_setTcp (v := { v with tcpServers := v.tcpServers.erase node })
      (Ctcp.afterClose_inFlight _)
  | notice node hnode => exact held_emit rfl rfl
  | exit batch streams connecting queues tcps hstreams hconnecting hqueues htcps =>
    have hflight : inFlightCount tcps v.nextTcp m = inFlightCount v.tcps v.nextTcp m := by
      refine Finset.sum_congr rfl fun t _ => ?_
      rcases htcps t with ⟨-, heq⟩ | ⟨-, heq⟩ <;> rw [heq]
      rw [Ctcp.afterClose_inFlight]
    have hwaiting : (queues.flatMap fun pair => pair.2.map fun b => (pair.1, b)).count m =
        v.waitingCount m := count_queues hqueues
    have hnotices : ∀ {α : Type} (l : List α) (n : α → CnetworkNode),
        dropped (l.map fun a => .callback (.connectionStatus (n a) false)) = [] ∧
          NetworkPool.written (l.map fun a => .callback (.connectionStatus (n a) false)) = [] := by
      intro α l n
      simp [dropped, NetworkPool.written, dropOf, writtenOf]
    have hbatch : (batch.flatMap fun pair => [(pair.1, pair.2)]).count m = batch.count m := by
      rw [List.flatMap_singleton']
    show 0 + inFlightCount tcps v.nextTcp m + (NetworkPool.written (v.trace ++ _ ++ _ ++ _ ++ _)).count m +
      (dropped (v.trace ++ _ ++ _ ++ _ ++ _)).count m = _
    simp only [written_append, dropped_append, List.count_append, (hnotices _ _).1, (hnotices _ _).2,
      written_dropEach, dropped_dropEach, List.count_nil, hflight, hwaiting, List.map_singleton]
    unfold Table.held
    rw [hbatch]
    simp only [Label.taken]
    omega

/-! ## Order -/

namespace Table

variable {v v' : Table} {t : ℕ} {node : CnetworkNode}

theorem line_emit {obs : List Obs} (h : passedToUvWrite node obs = []) :
    (v.emit obs).line node = v.line node := by
  show passedToUvWrite node (v.trace ++ obs) ++ v.waiting node = _
  rw [passedToUvWrite_append, h, List.append_nil]
  rfl

/-- The queue of a node after one queue was erased. -/
theorem waiting_erase (v : Table) (n node : CnetworkNode) :
    ((v.waitingSend.erase n).lookup node).getD [] = if node = n then [] else v.waiting node := by
  by_cases h : node = n
  · rw [if_pos h, h, AList.lookup_erase]
    rfl
  · rw [if_neg h, AList.lookup_erase_ne h]
    rfl

/-- The queue of a node after one queue was replaced. -/
theorem waiting_insert (v : Table) (n node : CnetworkNode) (b : UvBuf) :
    ((v.waitingSend.insert n (v.waiting n ++ [b])).lookup node).getD [] =
      v.waiting node ++ forNode node [(n, b)] := by
  by_cases h : node = n
  · subst h
    rw [AList.lookup_insert]
    simp [forNode]
  · rw [AList.lookup_insert_ne h]
    have hnil : forNode node [(n, b)] = [] := by simp [forNode, Ne.symm h]
    rw [hnil, List.append_nil]
    rfl

/-- A queue is erased, and nothing is passed to `uv_write`. -/
theorem line_erase {obs : List Obs} (n : CnetworkNode) (h : passedToUvWrite node obs = []) :
    (passedToUvWrite node (v.trace ++ obs) ++ ((v.waitingSend.erase n).lookup node).getD []).Sublist
      (v.line node) := by
  rw [passedToUvWrite_append, h, List.append_nil, waiting_erase]
  refine List.Sublist.append_left ?_ _
  split_ifs
  · exact List.nil_sublist _
  · exact List.Sublist.refl _

theorem line_teardown (b : Bool) (c : Ctcp) :
    ((v.teardown t b c).line node).Sublist (v.line node) := by
  show (passedToUvWrite node (v.trace ++ _ ++ _) ++ _).Sublist _
  rw [List.append_assoc]
  refine line_erase _ ?_
  rw [passedToUvWrite_append, passedToUvWrite_dropCalls]
  split_ifs <;> rfl

theorem line_register : ((v.register t).line node).Sublist (v.line node) :=
  line_erase _ rfl

/-- What waits for the node is passed to `uv_write`. -/
theorem line_flush (t' : ℕ) :
    ((v.register t).emit [.uvWrite t' (v.tcps t).node (v.waiting (v.tcps t).node)]).line node =
      v.line node := by
  show passedToUvWrite node (v.trace ++ _ ++ _) ++ _ = _
  have hqueue : (v.register t).waiting node =
      if node = (v.tcps t).node then [] else v.waiting node := waiting_erase v _ node
  rw [passedToUvWrite_append, passedToUvWrite_append]
  show passedToUvWrite node v.trace ++ [] ++ _ ++ (v.register t).waiting node = _
  rw [hqueue, List.append_nil]
  unfold line passedToUvWrite
  by_cases h : node = (v.tcps t).node
  · rw [if_pos h, ← h]
    simp [passedOf]
  · rw [if_neg h]
    simp [passedOf, Ne.symm h]

/-- A message for a node without a queue is passed to `uv_write`. -/
theorem line_write (t : ℕ) {n : CnetworkNode} (b : UvBuf) {obs : List Obs}
    (hqueue : v.waiting n = []) (h : passedToUvWrite node obs = []) :
    (v.emit (.uvWrite t n [b] :: obs)).line node = v.line node ++ forNode node [(n, b)] := by
  show passedToUvWrite node (v.trace ++ ([.uvWrite t n [b]] ++ obs)) ++ v.waiting node = _
  rw [passedToUvWrite_append, passedToUvWrite_append, h, List.append_nil]
  unfold line
  by_cases hn : node = n
  · subst hn
    rw [hqueue]
    simp [passedToUvWrite, passedOf, forNode]
  · simp [passedToUvWrite, passedOf, forNode, Ne.symm hn]

theorem line_startup {ok : Bool} (hstart : Startup ok v t v') :
    (v'.line node).Sublist (v.line node) := by
  have hreg : ((v.register t).line node).Sublist (v.line node) := line_register
  cases hstart with
  | taken hlookup => exact List.Sublist.refl _
  | up hlookup _ =>
    rw [line_emit (passedToUvWrite_dropCalls _ _ _)]
    exact hreg
  | flush req hlookup =>
    show (((v.register t).emit [.uvWrite t (v.tcps t).node (v.waiting (v.tcps t).node)]).line
      node).Sublist _
    rw [line_flush]
  | down passed hlookup _ =>
    refine (line_teardown _ _).trans ?_
    rw [line_emit (passedToUvWrite_dropCalls _ _ _)]
    cases passed with
    | false =>
      rw [line_emit rfl]
      exact hreg
    | true =>
      show (((v.register t).emit [.uvWrite t (v.tcps t).node (v.waiting (v.tcps t).node)]).line
        node).Sublist _
      rw [line_flush]

end Table

theorem passedToUvWrite_dropEach {α : Type} (node : CnetworkNode) (l : List α)
    (n : α → CnetworkNode) (buf : α → List UvBuf) :
    passedToUvWrite node (l.flatMap fun a => dropCalls (n a) (buf a)) = [] := by
  induction l with
  | nil => rfl
  | cons a l ih =>
    rw [List.flatMap_cons, passedToUvWrite_append, ih, passedToUvWrite_dropCalls]
    rfl

/-- An action keeps the order of the messages for a node; those it takes from the batch come
last. -/
theorem Act.line {v v' : Table} {l : Label} (hact : Act v l v') (hwf : v.Wf) (hcovered : v.Covered)
    (node : CnetworkNode) : (v'.line node).Sublist (v.line node ++ forNode node l.taken) := by
  have hsame : ∀ {v₁ : Table}, (v₁.line node).Sublist (v.line node) →
      (v₁.line node).Sublist (v.line node ++ forNode node l.taken) :=
    fun h => h.trans (List.sublist_append_left _ _)
  have hequal : ∀ {v₁ : Table}, v₁.line node = v.line node →
      (v₁.line node).Sublist (v.line node ++ forNode node l.taken) := by
    intro v₁ h
    exact hsame (by rw [h])
  cases hact with
  | message t data hreading =>
    refine hequal (line_emit ?_)
    rw [passedToUvWrite_visible]
    rfl
  | written t w hw =>
    have hnone : passedToUvWrite node [.written (v.tcps t).node w.buf] = [] := rfl
    exact hequal (line_emit (v := v.setTcp t _) hnone)
  | lost t w hw => exact hequal (line_emit (v := v.setTcp t _) (passedToUvWrite_dropCalls _ _ _))
  | teardown t hlistening hconnect => exact hsame (line_teardown _ _)
  | close t n c hlookup hc => exact hsame (line_teardown _ _)
  | connectFail t armed hreq harmed => exact hsame (line_teardown _ _)
  | connectUp t ok v' hreq hclosing hstart =>
    refine hsame ((line_startup hstart).trans ?_)
    exact List.Sublist.refl (v.line node)
  | acceptUp peer ok v' hstart =>
    refine hsame ((line_startup hstart).trans ?_)
    exact List.Sublist.refl (v.line node)
  | park n b buf hwaiting hlookup =>
    have hqueue : buf = v.waiting n := by
      unfold Table.waiting
      rw [hwaiting]
      rfl
    subst hqueue
    show (passedToUvWrite node v.trace ++ ((v.waitingSend.insert n _).lookup node).getD []).Sublist _
    rw [waiting_insert, ← List.append_assoc]
    exact List.Sublist.refl _
  | connect n b req htcp hvalid hwaiting hlookup =>
    have hqueue : [b] = v.waiting n ++ [b] := by
      unfold Table.waiting
      rw [hwaiting]
      rfl
    rw [line_emit rfl]
    show (passedToUvWrite node v.trace ++ ((v.waitingSend.insert n [b]).lookup node).getD []).Sublist _
    rw [hqueue, waiting_insert, ← List.append_assoc]
    exact List.Sublist.refl _
  | refuse n b hwaiting hlookup =>
    refine hequal (line_emit ?_)
    exact passedToUvWrite_dropCalls node n [b]
  | discard n b => exact hequal (line_emit (passedToUvWrite_dropCalls _ _ _))
  | write t n b req hlookup =>
    -- a node with a connection has no queue
    have hqueue : v.waiting n = [] := by
      unfold Table.waiting
      rw [(hcovered n).waiting_eq_none (by rw [hlookup]; simp)]
      rfl
    rw [(hwf.stream n t hlookup).node]
    have hline : ((v.setTcp t (((v.tcps t).arm .send).queueWrite ⟨req, [b]⟩)).emit
        [.uvWrite t n [b]]).line node = v.line node ++ forNode node [(n, b)] :=
      line_write (v := v.setTcp t _) t b hqueue rfl
    rw [hline]
    exact List.Sublist.refl _
  | writeFail t n b passed hlookup =>
    have hqueue : v.waiting n = [] := by
      unfold Table.waiting
      rw [(hcovered n).waiting_eq_none (by rw [hlookup]; simp)]
      rfl
    rw [(hwf.stream n t hlookup).node]
    have hdrop := passedToUvWrite_dropCalls node n [b]
    cases passed with
    | false => exact hequal (line_emit hdrop)
    | true =>
      show ((v.emit (.uvWrite t n [b] :: dropCalls n [b])).line node).Sublist _
      rw [line_write t b hqueue hdrop]
      exact List.Sublist.refl _
  | notice n hnode => exact hequal (line_emit rfl)
  | exit batch streams connecting queues tcps hstreams hconnecting hqueues htcps =>
    refine hsame ?_
    have hnotices : ∀ {α : Type} (l : List α) (n : α → CnetworkNode),
        passedToUvWrite node (l.map fun a => .callback (.connectionStatus (n a) false)) = [] := by
      intro α l n
      simp [passedToUvWrite, passedOf]
    show (passedToUvWrite node (v.trace ++ _ ++ _ ++ _ ++ _) ++ []).Sublist _
    rw [passedToUvWrite_append, passedToUvWrite_append, passedToUvWrite_append,
      passedToUvWrite_append, hnotices, hnotices, passedToUvWrite_dropEach, passedToUvWrite_dropEach,
      List.append_nil, List.append_nil, List.append_nil, List.append_nil, List.append_nil]
    exact List.sublist_append_left _ _
  | _ => exact hsame (List.Sublist.refl _)

theorem Acts.held {v v' : Table} {ls : List Label} (hacts : Acts v ls v') (hwf : v.Wf)
    (m : CnetworkNode × UvBuf) : v'.held m = v.held m + (ls.flatMap Label.taken).count m := by
  induction hacts with
  | nil => rfl
  | cons hact _ ih =>
    rw [ih (hact.wf hwf), hact.held hwf, List.flatMap_cons, List.count_append]
    omega

theorem Acts.line {v v' : Table} {ls : List Label} (hacts : Acts v ls v') (hwf : v.Wf)
    (hcovered : v.Covered) (node : CnetworkNode) :
    (v'.line node).Sublist (v.line node ++ forNode node (ls.flatMap Label.taken)) := by
  induction hacts with
  | nil => exact List.sublist_append_left _ _
  | cons hact _ ih =>
    refine (ih (hact.wf hwf) (hact.covered hwf hcovered)).trans ?_
    rw [List.flatMap_cons, forNode_append, ← List.append_assoc]
    exact (hact.line hwf hcovered node).append_right _

/-! ## Pools -/

namespace Pool

variable {p p' : Pool} {e : Event}

/-- Where the accepted messages for TCP nodes are. -/
structure Conserved (p : Pool) : Prop where
  count : ∀ m : CnetworkNode × UvBuf, m.1.IsTcp →
    p.pendingMessages.count m + p.batchMessages.count m + p.table.held m =
      p.acceptedMessages.count m
  order : ∀ node : CnetworkNode, node.IsTcp →
    (p.table.line node ++ forNode node (p.batchMessages ++ p.pendingMessages)).Sublist
      (forNode node p.acceptedMessages)

open scoped List in
theorem conserved_step (hr : poolSystem.Reachable p) (h : p.Conserved)
    (hstep : poolSystem.step p e = some p') : p'.Conserved := by
  have hwf := wf_of_reachable hr
  obtain ⟨ls, took, new, hacts, htook, hflow, haccepted⟩ := (step_cases hwf hstep).flow
  constructor
  · intro m hm
    have hheld := hacts.held hwf m
    have htaken : (ls.flatMap Label.taken).count m = took.count m := by
      rw [← count_tcpOnly hm, htook, count_tcpOnly hm]
    have hmoved := congrArg (List.count m) hflow
    simp only [List.count_append] at hmoved
    have hbefore := h.count m hm
    rw [haccepted, List.count_append]
    omega
  · intro node hnode
    have htaken : forNode node (ls.flatMap Label.taken) = forNode node took := by
      rw [← forNode_tcpOnly hnode, htook, forNode_tcpOnly hnode]
    have hline := hacts.line hwf (covered_of_reachable hr) node
    rw [htaken] at hline
    calc p'.table.line node ++ forNode node (p'.batchMessages ++ p'.pendingMessages)
      _ <+ p.table.line node ++ forNode node took ++
          forNode node (p'.batchMessages ++ p'.pendingMessages) := hline.append_right _
      _ = p.table.line node ++ forNode node (p.batchMessages ++ (p.pendingMessages ++ new)) := by
        rw [hflow, forNode_append node took, List.append_assoc]
      _ = p.table.line node ++ forNode node (p.batchMessages ++ p.pendingMessages) ++
          forNode node new := by
        rw [← List.append_assoc p.batchMessages, forNode_append _ _ new, List.append_assoc]
      _ <+ forNode node p.acceptedMessages ++ forNode node new := (h.order node hnode).append_right _
      _ = forNode node p'.acceptedMessages := by rw [haccepted, forNode_append]

theorem conserved_of_reachable (h : poolSystem.Reachable p) : p.Conserved := by
  refine h.invariant (I := Conserved) ⟨fun m _ => ?_, fun node _ => ?_⟩
    fun p e p' hr hI hs => conserved_step hr hI hs
  · rfl
  · exact List.nil_sublist _

/-- The accepted messages are numbered in order. -/
theorem accepted_of_reachable (h : poolSystem.Reachable p) :
    p.exchanged.accepted.map (fun req => req.data.base) =
      List.range p.exchanged.accepted.length := by
  refine h.invariant (I := fun p => p.exchanged.accepted.map (fun req => req.data.base) =
    List.range p.exchanged.accepted.length) rfl fun p e p' hr hI hs => ?_
  exact (step_cases (wf_of_reachable hr) hs).accepted hI

/-- No message is accepted twice. -/
theorem nodup_accepted (h : poolSystem.Reachable p) : p.acceptedMessages.Nodup := by
  have hbases : (p.acceptedMessages.map fun m => m.2.base).Nodup := by
    unfold acceptedMessages
    rw [List.map_map]
    show (p.exchanged.accepted.map fun req => req.data.base).Nodup
    rw [accepted_of_reachable h]
    exact List.nodup_range
  exact hbases.of_map _

/-- An accepted message for a TCP node is in one place, once. -/
theorem message_count (h : poolSystem.Reachable p) {m : CnetworkNode × UvBuf}
    (hmem : m ∈ p.acceptedMessages) (hm : m.1.IsTcp) :
    p.pendingMessages.count m + p.batchMessages.count m +
      ((p.internal.waitingSend.lookup m.1).getD []).count m.2 +
      inFlightCount p.internal.tcps p.internal.nextTcp m +
      (written p.internal.trace).count m + (dropped p.internal.trace).count m = 1 := by
  have hone : p.acceptedMessages.count m = 1 := List.count_eq_one_of_mem (nodup_accepted h) hmem
  have hcount := (conserved_of_reachable h).count m hm
  unfold Table.held waitingCount Table.waiting at hcount
  rw [table_trace, written_visible, dropped_visible, hone] at hcount
  change p.pendingMessages.count m + p.batchMessages.count m +
    (((p.internal.waitingSend.lookup m.1).getD []).count m.2 +
      inFlightCount p.internal.tcps p.internal.nextTcp m +
      (written p.internal.trace).count m + (dropped p.internal.trace).count m) = 1 at hcount
  omega

end Pool

/-! ## Messages are conserved and ordered -/

/-- In every reachable state, an accepted message for a TCP node is in exactly one place, once:
the pending queue, the batch of `on_wakeup`, the waiting queue of its node, a write request in
flight, the written messages or the dropped ones. So it is dropped at most once, and exactly once
if it is nowhere else. What was passed to `uv_write` for a node is a subsequence of what was
accepted for it, without repetition. -/
theorem messages_conserved {p : Pool} (h : poolSystem.Reachable p) :
    (∀ m ∈ p.acceptedMessages, m.1.IsTcp →
      p.pendingMessages.count m + p.batchMessages.count m +
        ((p.internal.waitingSend.lookup m.1).getD []).count m.2 +
        inFlightCount p.internal.tcps p.internal.nextTcp m +
        (written p.internal.trace).count m + (dropped p.internal.trace).count m = 1 ∧
      (dropped p.internal.trace).count m ≤ 1 ∧
      (m ∉ p.pendingMessages → m ∉ p.batchMessages →
        m.2 ∉ (p.internal.waitingSend.lookup m.1).getD [] →
        (∀ t w, w ∈ (p.internal.tcps t).tcp.writes → (p.internal.tcps t).node = m.1 → m.2 ∉ w.buf) →
        m ∉ written p.internal.trace → (dropped p.internal.trace).count m = 1)) ∧
    ∀ node : CnetworkNode, node.IsTcp →
      (passedToUvWrite node p.internal.trace).Sublist (forNode node p.acceptedMessages) ∧
        (passedToUvWrite node p.internal.trace).Nodup := by
  have hconserved := Pool.conserved_of_reachable h
  have hnodup := Pool.nodup_accepted h
  refine ⟨fun m hmem hm => ?_, fun node hnode => ?_⟩
  · have hcount := Pool.message_count h hmem hm
    refine ⟨hcount, by omega, fun hpending hbatch hwaiting hflight hwritten => ?_⟩
    have hzero : inFlightCount p.internal.tcps p.internal.nextTcp m = 0 := by
      refine Finset.sum_eq_zero fun t _ => List.count_eq_zero.mpr fun hin => ?_
      obtain ⟨w, hw, hin⟩ := List.mem_flatMap.mp hin
      obtain ⟨b, hb, rfl⟩ := List.mem_map.mp hin
      exact hflight t w hw rfl hb
    rw [List.count_eq_zero.mpr hpending, List.count_eq_zero.mpr hbatch,
      List.count_eq_zero.mpr hwaiting, hzero, List.count_eq_zero.mpr hwritten] at hcount
    omega
  · have hsub : (passedToUvWrite node p.internal.trace).Sublist (forNode node p.acceptedMessages) := by
      have hline := hconserved.order node hnode
      unfold Table.line at hline
      rw [table_trace, passedToUvWrite_visible] at hline
      exact ((List.sublist_append_left _ _).trans (List.sublist_append_left _ _)).trans hline
    refine ⟨hsub, hsub.nodup ?_⟩
    unfold forNode
    refine (hnodup.filter _).map_on ?_
    intro a ha b hb hab
    have ha' := (List.mem_filter.mp ha).2
    have hb' := (List.mem_filter.mp hb).2
    exact Prod.ext (by simp_all) hab

/-- A message in flight. -/
theorem messages_conserved_sent :
    ∃ p, poolSystem.run (openRun 0) = some p ∧
      passedToUvWrite sampleNode p.internal.trace = [⟨0, [1]⟩] ∧
      (dropped p.internal.trace).count (sampleNode, ⟨0, [1]⟩) ≤ 1 ∧
      (passedToUvWrite sampleNode p.internal.trace).Nodup := by
  have hrun : poolSystem.run (openRun 0) = some ((poolSystem.run (openRun 0)).get (by decide)) :=
    (Option.some_get _).symm
  obtain ⟨hplaces, horder⟩ := messages_conserved (Lib.Lts.reachable_of_run hrun)
  exact ⟨_, hrun, by decide,
    (hplaces (sampleNode, ⟨0, [1]⟩) (by decide) (by decide)).2.1, (horder sampleNode (by decide)).2⟩

end NetworkPool
