import NetworkPool.Pool.Isolation
import NetworkPool.Pool.Notifications

/-!
# Nodes the pool does not connect to

A node that no message is sent to with `bAutoConnect` is connected from its side only. The pool
starts no connect to it and keeps no message waiting for it, and its notifications alternate and
begin with an up: there is no down notification without a connection (`passive_node`).
-/

namespace NetworkPool

open Table

/-! ## Alternating notifications -/

/-- `l` alternates, begins with an up, and ends with the connection up, or not up, as `isUp`
says. -/
structure Alternating (isUp : Bool) (l : List Bool) : Prop where
  last : (false :: l).getLast? = some isUp
  chain : (false :: l).IsChain fun a b => a ≠ b

theorem Alternating.nil : Alternating false [] := ⟨rfl, .singleton _⟩

theorem Alternating.concat {isUp : Bool} {l : List Bool} (h : Alternating isUp l) :
    Alternating (!isUp) (l ++ [!isUp]) := by
  have hcons : false :: (l ++ [!isUp]) = (false :: l) ++ [!isUp] := rfl
  constructor
  · rw [hcons]
    exact List.getLast?_concat ..
  · rw [hcons]
    refine List.isChain_append.mpr ⟨h.chain, .singleton _, ?_⟩
    intro a ha b hb
    obtain rfl : isUp = a := Option.some.inj (h.last.symm.trans ha)
    obtain rfl : (!isUp) = b := Option.some.inj hb
    simp

/-! ## The table -/

/-- Actions that answer a send to `node` with a connect. -/
def Label.Opens (node : CnetworkNode) : Label → Prop
  | .connect n _ | .refuse n _ => n = node
  | _ => False

/-- The object is not connecting to `node`. -/
def Ctcp.Avoids (c : Ctcp) (node : CnetworkNode) : Prop :=
  c.tcp.connectReq.isSome = true → c.node ≠ node

theorem Ctcp.Avoids.afterClose {c : Ctcp} {node : CnetworkNode} (h : c.Avoids node) :
    c.afterClose.Avoids node := by
  unfold Ctcp.Avoids
  rwa [Ctcp.afterClose_connectReq, Ctcp.afterClose_node]

/-- An object that is not connecting avoids every node. -/
theorem Ctcp.Avoids.of_none {c : Ctcp} (h : c.tcp.connectReq = none) (node : CnetworkNode) :
    c.Avoids node := by
  intro hreq
  exact absurd hreq (by simp [h])

namespace Table

/-- `node` is not connected to, nothing waits for it, and its notifications alternate. -/
structure Passive (v : Table) (node : CnetworkNode) : Prop where
  connecting : ∀ t, (v.tcps t).Avoids node
  waiting : v.waitingSend.lookup node = none
  uncalled : ∀ t, Obs.uvTcpConnect t node ∉ v.trace
  alternating : Alternating (v.node2stream.lookup node).isSome (statuses node v.trace)

variable {v v' : Table} {node : CnetworkNode} {t : ℕ} {c : Ctcp}

theorem Passive.init : Passive ⟨∅, ∅, ∅, ∅, fun _ => {}, 0, []⟩ node :=
  ⟨fun _ => .of_none rfl node, rfl, by simp, .nil⟩

theorem avoids_update (h : v.Passive node) (hc : c.Avoids node) :
    ∀ t', (Function.update v.tcps t c t').Avoids node := by
  intro t'
  by_cases ht : t' = t
  · rw [ht, Function.update_self]
    exact hc
  · rw [Function.update_of_ne ht]
    exact h.connecting t'

theorem Passive.setTcp (h : v.Passive node) (t : ℕ) (hc : c.Avoids node) :
    (v.setTcp t c).Passive node :=
  ⟨avoids_update h hc, h.waiting, h.uncalled, h.alternating⟩

theorem Passive.add (h : v.Passive node) (hc : c.Avoids node) : (v.add c).Passive node :=
  ⟨avoids_update h hc, h.waiting, h.uncalled, h.alternating⟩

/-- Entries other than notifications and connects. -/
theorem Passive.emit (h : v.Passive node) {l : List Obs} (hstatus : statuses node l = [])
    (hl : ∀ t, Obs.uvTcpConnect t node ∉ l) : (v.emit l).Passive node := by
  refine ⟨h.connecting, h.waiting, fun t ht => ?_, ?_⟩
  · rcases List.mem_append.mp ht with ht | ht
    · exact h.uncalled t ht
    · exact hl t ht
  · show Alternating _ (statuses node (v.trace ++ l))
    rw [statuses_append, hstatus, List.append_nil]
    exact h.alternating

theorem Passive.drops (h : v.Passive node) (n : CnetworkNode) (buf : List UvBuf) :
    (v.emit (dropCalls n buf)).Passive node :=
  h.emit (statuses_dropCalls ..) (by simp [dropCalls])

/-- A teardown notifies of a down if there was a connection. -/
theorem Passive.teardown (h : v.Passive node) (t : ℕ) {b : Bool} (hc : c.Avoids node)
    (hb : b = true → (v.tcps t).node ≠ node) : (v.teardown t b c).Passive node := by
  have hother : ∀ (n : CnetworkNode) (b : Bool), n ≠ node →
      statusOf node (.callback (.connectionStatus n b)) = none := by
    intro n b hn
    simp [statusOf, hn]
  refine ⟨avoids_update h hc, ?_, fun t' ht' => ?_, ?_⟩
  · show (v.waitingSend.erase (v.tcps t).node).lookup node = none
    by_cases hnode : node = (v.tcps t).node
    · rw [hnode]
      exact AList.lookup_erase ..
    · rw [AList.lookup_erase_ne hnode]
      exact h.waiting
  · rcases List.mem_append.mp ht' with ht' | ht'
    · rcases List.mem_append.mp ht' with ht' | ht'
      · exact h.uncalled t' ht'
      · split_ifs at ht' <;> simp at ht'
    · simp [dropCalls] at ht'
  · show Alternating ((v.node2stream.erase (v.tcps t).node).lookup node).isSome
      (statuses node (v.trace ++ _ ++ _))
    rw [statuses_append, statuses_append, statuses_dropCalls, List.append_nil]
    by_cases hnode : node = (v.tcps t).node
    · have halt := h.alternating
      have hnever : b = false := by
        by_contra hb'
        exact hb (by simpa using hb') hnode.symm
      rw [hnode] at halt ⊢
      rw [AList.lookup_erase, hnever, Bool.or_false]
      cases hup : (v.node2stream.lookup (v.tcps t).node).isSome with
      | true =>
        rw [hup] at halt
        simpa [statuses_cons, statusOf] using halt.concat
      | false =>
        rw [hup] at halt
        simpa using halt
    · rw [AList.lookup_erase_ne hnode]
      have hnone : statuses node (if (v.node2stream.lookup (v.tcps t).node).isSome || b then
          [.callback (.connectionStatus (v.tcps t).node false)] else []) = [] := by
        split_ifs
        · simp [statuses_cons, hother _ _ (Ne.symm hnode)]
        · rfl
      rw [hnone, List.append_nil]
      exact h.alternating

/-- An up notification for a node that is not up. -/
theorem Passive.register (h : v.Passive node)
    (hlookup : v.node2stream.lookup (v.tcps t).node = none) : (v.register t).Passive node := by
  refine ⟨h.connecting, ?_, fun t' ht' => ?_, ?_⟩
  · show (v.waitingSend.erase (v.tcps t).node).lookup node = none
    by_cases hnode : node = (v.tcps t).node
    · rw [hnode]
      exact AList.lookup_erase ..
    · rw [AList.lookup_erase_ne hnode]
      exact h.waiting
  · rcases List.mem_append.mp ht' with ht' | ht'
    · exact h.uncalled t' ht'
    · simp at ht'
  · show Alternating ((v.node2stream.insert (v.tcps t).node t).lookup node).isSome
      (statuses node (v.trace ++ [.registered t (v.tcps t).node,
        .callback (.connectionStatus (v.tcps t).node true)]))
    have halt := h.alternating
    rw [statuses_append]
    by_cases hnode : node = (v.tcps t).node
    · rw [hnode, hlookup] at halt
      rw [hnode, AList.lookup_insert]
      simpa [statuses_cons, statusOf] using halt.concat
    · rw [AList.lookup_insert_ne hnode]
      simpa [statuses_cons, statusOf, Ne.symm hnode] using halt

theorem Passive.startup (h : v.Passive node) {ok : Bool} (hstart : Startup ok v t v') :
    v'.Passive node := by
  have hconnecting := h.connecting t
  cases hstart with
  | taken hlookup => exact h.setTcp t hconnecting.afterClose
  | up hlookup _ => exact (h.register hlookup).drops _ _
  | flush req hlookup =>
    have hset := (h.register hlookup).setTcp t (c := ((v.tcps t).arm .send).queueWrite
      ⟨req, v.waiting (v.tcps t).node⟩) hconnecting
    exact hset.emit (by simp [statuses_cons, statusOf]) (by simp)
  | down passed hlookup _ =>
    have hc : (if passed then (v.tcps t).arm .send else v.tcps t).Avoids node := by
      cases passed <;> exact hconnecting
    have hset := (h.register hlookup).setTcp t hc
    have hwritten := hset.emit (l := if passed then
        [.uvWrite t (v.tcps t).node (v.waiting (v.tcps t).node)] else [])
      (by cases passed <;> simp [statuses_cons, statusOf]) (by cases passed <;> simp)
    exact (hwritten.drops _ _).teardown t hc.afterClose (by simp)

end Table

/-! ## Actions -/

/-- The down notifications of a loop, one for each time the node comes up in the list. -/
theorem statuses_downs (node : CnetworkNode) (l : List CnetworkNode) :
    statuses node (l.map fun n => .callback (.connectionStatus n false)) =
      List.replicate (l.count node) false := by
  induction l with
  | nil => rfl
  | cons n l ih =>
    rw [List.map_cons, statuses_cons, ih]
    by_cases hn : n = node
    · rw [hn, List.count_cons_self, List.replicate_succ]
      simp [statusOf]
    · rw [List.count_cons_of_ne hn]
      simp [statusOf, hn]

/-- The exit branch reports each connection once. -/
theorem exit_downs_eq {v : Table} (hwf : v.Wf) {streams : List (CnetworkNode × ℕ)}
    (hstreams : streams.Perm v.node2stream.toPairs) (node : CnetworkNode) :
    statuses node
        (streams.map fun pair => .callback (.connectionStatus (v.tcps pair.2).node false)) =
      if (v.node2stream.lookup node).isSome then [false] else [] := by
  have hnodes : (streams.map fun pair => Obs.callback (.connectionStatus (v.tcps pair.2).node
      false)) = (streams.map Prod.fst).map fun n => .callback (.connectionStatus n false) := by
    rw [List.map_map]
    apply List.map_congr_left
    rintro ⟨n, t⟩ hmem
    have hstream := hwf.stream n t (mem_toPairs.mp (hstreams.mem_iff.mp hmem))
    show Obs.callback (.connectionStatus (v.tcps t).node false) = _
    rw [hstream.node]
    rfl
  have hkeys : v.node2stream.toPairs.map Prod.fst = v.node2stream.keys := by
    unfold NodeMap.toPairs
    rw [List.map_map]
    rfl
  have hcount : (streams.map Prod.fst).count node = v.node2stream.keys.count node := by
    rw [(hstreams.map Prod.fst).count_eq, hkeys]
  rw [hnodes, statuses_downs, hcount]
  have hnodup : v.node2stream.keys.Nodup := v.node2stream.keys_nodup
  by_cases hup : (v.node2stream.lookup node).isSome = true
  · rw [if_pos hup, List.count_eq_one_of_mem hnodup (AList.lookup_isSome.mp hup)]
    rfl
  · rw [if_neg hup, List.count_eq_zero_of_not_mem fun hmem => hup (AList.lookup_isSome.mpr hmem)]
    rfl

/-- **Every action that opens no connection to a node keeps it passive.** -/
theorem Act.passive {v v' : Table} {l : Label} {node : CnetworkNode} (hact : Act v l v')
    (hwf : v.Wf) (htcp : node.IsTcp) (hl : ¬ l.Opens node) (h : v.Passive node) :
    v'.Passive node := by
  cases hact with
  | touch t c hc =>
    apply h.setTcp
    cases hc <;> exact h.connecting t
  | message t data hreading =>
    apply h.emit
    · rw [statuses_visible]
      simp [statuses_cons, statusOf]
    · simp [visible]
  | written t w hw =>
    have htaken := h.setTcp t (c := (v.tcps t).takeWrite w) (h.connecting t)
    exact htaken.emit (by simp [statuses_cons, statusOf]) (by simp)
  | lost t w hw =>
    have htaken := h.setTcp t (c := (v.tcps t).takeWrite w) (h.connecting t)
    exact htaken.drops _ _
  | teardown t hlistening hconnect =>
    exact h.teardown t (h.connecting t).afterClose (by simp)
  | close t n c hlookup hc =>
    refine h.teardown t ?_ (by simp)
    rcases hc with rfl | ⟨-, env, req, rfl⟩
    · exact (h.connecting t).afterClose
    · rcases Ctcp.afterShutdown_cases env req (hwf.stream n t hlookup) with heq | heq <;> rw [heq]
      · exact (h.connecting t).afterClose
      · exact h.connecting t
  | connectFail t armed hreq harmed =>
    -- the connect was for another node
    have hnode := h.connecting t hreq
    have hset : Passive { v with connecting := v.connecting.erase t } node :=
      ⟨h.connecting, h.waiting, h.uncalled, h.alternating⟩
    have hc : ∀ c, c = (if armed then (v.tcps t).connectDone.arm .idle else
        (v.tcps t).connectDone) → c.node ≠ node := by
      rintro c rfl
      cases armed <;> exact hnode
    refine (hset.setTcp t fun _ => hc _ rfl).teardown t (fun _ => ?_) fun _ => ?_
    · rw [Ctcp.afterClose_node]
      exact hc _ rfl
    · rw [setTcp_tcps_self]
      exact hc _ rfl
  | connectUp t ok v' hreq hclosing hstart =>
    have hset : Passive { v with connecting := v.connecting.erase t } node :=
      ⟨h.connecting, h.waiting, h.uncalled, h.alternating⟩
    have hread := hset.setTcp t (c := ((v.tcps t).connectDone.arm .idle).startRead)
      fun _ => h.connecting t hreq
    exact hread.startup hstart
  | acceptUp peer ok v' hstart => exact (h.add (.of_none rfl node)).startup hstart
  | shutdownDone t hreq =>
    have hdone : Ctcp.Avoids { v.tcps t with
        tcp := { (v.tcps t).tcp with shutdownReq := none } } node := h.connecting t
    exact h.setTcp t hdone.afterClose
  | dead c hc => exact h.add (.of_none hc.connectReq node)
  | park n b buf hwaiting hlookup =>
    have hn : node ≠ n := by
      rintro rfl
      exact absurd (hwaiting.symm.trans h.waiting) (by simp)
    refine ⟨h.connecting, ?_, h.uncalled, h.alternating⟩
    show (v.waitingSend.insert n _).lookup node = none
    rw [AList.lookup_insert_ne hn]
    exact h.waiting
  | connect n b req hntcp hvalid hwaiting hlookup =>
    have hn : n ≠ node := hl
    have hadd := h.add (c := { (Ctcp.fresh true n).arm .connect with
      tcp := { connectReq := some req } }) fun _ => hn
    have hwait : (v.waitingSend.insert n [b]).lookup node = none := by
      rw [AList.lookup_insert_ne hn.symm]
      exact h.waiting
    have hopened : Passive { v.add { (Ctcp.fresh true n).arm .connect with
        tcp := { connectReq := some req } } with
          waitingSend := v.waitingSend.insert n [b]
          connecting := insert v.nextTcp v.connecting } node :=
      ⟨hadd.connecting, hwait, hadd.uncalled, hadd.alternating⟩
    exact hopened.emit (by simp [statuses_cons, statusOf]) (by simp [Ne.symm hn])
  | refuse n b hwaiting hlookup =>
    have hn : n ≠ node := hl
    apply h.emit
    · rw [statuses_cons, statuses_dropCalls]
      simp [statusOf, hn]
    · simp [dropCalls]
  | discard n b => exact h.drops _ _
  | write t n b req hlookup =>
    have hqueued := h.setTcp t (c := ((v.tcps t).arm .send).queueWrite ⟨req, [b]⟩) (h.connecting t)
    exact hqueued.emit (by simp [statuses_cons, statusOf]) (by simp)
  | writeFail t n b passed hlookup =>
    apply h.emit
    · split_ifs <;> simp [statuses_cons, statusOf]
    · split_ifs <;> simp [dropCalls]
  | listen n hserver =>
    have hadd := h.add (c := { Ctcp.fresh false n with tcp := { listening := true } })
      (.of_none rfl node)
    exact ⟨hadd.connecting, hadd.waiting, hadd.uncalled, hadd.alternating⟩
  | unlisten n t hserver =>
    have hset : Passive { v with tcpServers := v.tcpServers.erase n } node :=
      ⟨h.connecting, h.waiting, h.uncalled, h.alternating⟩
    exact hset.setTcp t (h.connecting t).afterClose
  | notice n hn =>
    apply h.emit
    · have hne : n ≠ node := fun heq => hn (heq ▸ htcp)
      simp [statuses_cons, statusOf, hne]
    · simp
  | exit batch streams connecting queues tcps hstreams hconnecting hqueues htcps =>
    have hnone : statuses node (connecting.map fun t =>
        .callback (.connectionStatus (v.tcps t).node false)) = [] := by
      apply List.filterMap_eq_nil_iff.mpr
      intro o ho
      obtain ⟨t, ht, rfl⟩ := List.mem_map.mp ho
      have hin : t ∈ v.connecting := hconnecting ▸ List.mem_toFinset.mpr ht
      simp [statusOf, h.connecting t (hwf.connecting t hin)]
    have hclosed : ∀ t, (tcps t).Avoids node := by
      intro t
      rcases htcps t with ⟨-, heq⟩ | ⟨-, heq⟩ <;> rw [heq]
      · exact (h.connecting t).afterClose
      · exact h.connecting t
    refine ⟨hclosed, rfl, fun t ht => ?_, ?_⟩
    · simp [dropCalls, h.uncalled t] at ht
    · show Alternating false (statuses node (v.trace ++ _ ++ _ ++ _ ++ _))
      rw [statuses_append, statuses_append, statuses_append, statuses_append, statuses_dropEach,
        statuses_dropEach, hnone, exit_downs_eq hwf hstreams, List.append_nil, List.append_nil,
        List.append_nil]
      have halt := h.alternating
      split_ifs with hup
      · rw [hup] at halt
        exact halt.concat
      · rw [Bool.not_eq_true] at hup
        rw [hup] at halt
        rwa [List.append_nil]

/-- A sequence of such actions. -/
theorem Acts.passive {v v' : Table} {ls : List Label} {node : CnetworkNode}
    (hacts : Acts v ls v') (htcp : node.IsTcp) (hls : ∀ l ∈ ls, ¬ l.Opens node) (hwf : v.Wf)
    (h : v.Passive node) : v'.Passive node := by
  induction hacts with
  | nil => exact h
  | cons hact _ ih =>
    rw [List.forall_mem_cons] at hls
    exact ih hls.2 (hact.wf hwf) (hact.passive hwf htcp hls.1 h)

/-- The handling of requests of other nodes. -/
theorem WakeupActs.passive {v v' : Table} {took : List (CnetworkNode × UvBuf)}
    {node : CnetworkNode} (hacts : WakeupActs took v v') (htcp : node.IsTcp)
    (htook : ∀ m ∈ took, m.1 ≠ node) (hwf : v.Wf) (h : v.Passive node) : v'.Passive node := by
  obtain ⟨ls, hacts, -, htaken⟩ := hacts
  refine hacts.passive htcp (fun l hl hopens => ?_) hwf h
  -- the message it takes would be one of `took`
  have hnone : ∀ b, (node, b) ∉ l.taken := by
    intro b hb
    have hmem : (node, b) ∈ tcpOnly (ls.flatMap Label.taken) :=
      List.mem_filter.mpr ⟨List.mem_flatMap.mpr ⟨l, hl, hb⟩, by simpa using htcp⟩
    rw [htaken] at hmem
    exact htook _ (List.mem_filter.mp hmem).1 rfl
  cases l with
  | connect n b | refuse n b =>
    obtain rfl : n = node := hopens
    exact hnone b (List.mem_singleton_self _)
  | _ => exact hopens

/-! ## Sends -/

section Send

variable {s : Internal} {req : PendingSend} (env : Env)

/-- A send to a node that is connected. -/
theorem passive_sendOnStream (h : s.table.Passive req.node) {tcp : ℕ} :
    (sendOnStream env req tcp s).table.Passive req.node := by
  unfold sendOnStream
  cases env.mallocWrite with
  | false =>
    simp only [Bool.not_false, if_true]
    rw [table_drop]
    exact h.drops _ _
  | true =>
    simp only [Bool.not_true, Bool.false_eq_true, if_false]
    cases env.timerStart with
    | false =>
      simp only [Bool.not_false, if_true]
      rw [table_dropWrite_teardown, table_uvTimerStart_fail, table_mallocReq]
      exact (h.drops _ _).teardown tcp (h.connecting tcp).afterClose (by simp)
    | true =>
      have harmed : (uvTimerStart tcp (mallocReq s).2 .send true).table.Passive req.node := by
        rw [table_uvTimerStart]
        exact Passive.setTcp h tcp (h.connecting tcp)
      simp only [Bool.not_true, Bool.false_eq_true, if_false]
      generalize uvTimerStart tcp (mallocReq s).2 .send true = s₁ at harmed ⊢
      cases env.write with
      | true =>
        simp only [Bool.not_true, Bool.false_eq_true, if_false]
        rw [table_uvWrite]
        have hqueued := harmed.setTcp tcp (c := (s₁.tcps tcp).queueWrite
          ⟨(mallocReq s).1, [req.data]⟩) (harmed.connecting tcp)
        exact hqueued.emit (by simp [statuses_cons, statusOf]) (by simp)
      | false =>
        simp only [Bool.not_false, if_true]
        rw [table_dropWrite_teardown, table_uvWrite_fail]
        have hwritten := harmed.emit (l := [.uvWrite tcp (s₁.tcps tcp).node [req.data]])
          (by simp [statuses_cons, statusOf]) (by simp)
        exact (hwritten.drops _ _).teardown tcp (harmed.connecting tcp).afterClose (by simp)

/-- A send that does not connect. -/
theorem passive_sendOne {node : CnetworkNode} (htcp : node.IsTcp) (hwf : s.table.Wf)
    (h : s.table.Passive node) (hreq : req.node = node → req.bAutoConnect = false) :
    (sendOne env req s).table.Passive node := by
  by_cases hnode : req.node = node
  · subst hnode
    have hprotocol : req.node.protocol = .protocolTcp := htcp
    unfold sendOne
    rw [hprotocol]
    dsimp only
    cases getStreamByNode req.node s with
    | none =>
      -- nothing waits, so the message is dropped
      have hwaiting : s.waitingSend.lookup req.node = none := h.waiting
      show (sendWithoutStream env req s).table.Passive req.node
      unfold sendWithoutStream
      simp only [hwaiting, hreq rfl, Option.isNone_none, Bool.not_false, Bool.and_self, if_true]
      rw [table_drop]
      exact h.drops _ _
    | some tcp => exact passive_sendOnStream env h
  · exact (sendOne_acts env hwf).passive htcp (by simpa using hnode) hwf h

end Send

/-! ## Steps -/

namespace Pool

variable {p p' : Pool} {e : Event} {node : CnetworkNode}

/-- Where the sends that are still to be handled come from. -/
theorem unsent_of_step (hstep : p.step e = some p') : ∀ req ∈ p'.unsent,
    req ∈ p.unsent ∨ ∃ data, e = .send req.node data req.bAutoConnect := by
  intro req hreq
  cases e with
  | bind | wantExit =>
    rw [← Option.some.inj hstep] at hreq
    exact .inl hreq
  | close n bForceClose =>
    rw [← Option.some.inj hstep] at hreq
    simp only [unsent, Exchanged.close] at hreq
    split_ifs at hreq <;> exact .inl hreq
  | send n data bAutoConnect =>
    rw [← Option.some.inj hstep] at hreq
    simp only [unsent, Exchanged.send] at hreq
    split_ifs at hreq
    · exact .inl hreq
    · exact .inl hreq
    · rw [← List.append_assoc] at hreq
      rcases List.mem_append.mp hreq with hreq | hreq
      · exact .inl hreq
      · rw [List.mem_singleton.mp hreq]
        exact .inr ⟨data, rfl⟩
  | wakeup =>
    simp only [step] at hstep
    split at hstep
    · exact absurd hstep (by simp)
    · rename_i hbatch
      split_ifs at hstep
      rw [← Option.some.inj hstep] at hreq
      simpa [unsent, hbatch] using hreq
  | dispatch order =>
    simp only [step] at hstep
    split at hstep
    · rename_i hbatch
      split_ifs at hstep <;> rw [← Option.some.inj hstep] at hreq
      · exact .inl (List.mem_append_right _ hreq)
      · exact .inl (by simpa [unsent, hbatch] using hreq)
    · exact absurd hstep (by simp)
  | bindNext env | closeNext env | wakeupDone =>
    simp only [step] at hstep
    split at hstep
    · rename_i hbatch
      rw [← Option.some.inj hstep] at hreq
      exact .inl (by simpa [unsent, hbatch] using hreq)
    · exact absurd hstep (by simp)
  | sendNext env =>
    simp only [step] at hstep
    split at hstep
    · rename_i hbatch
      rw [← Option.some.inj hstep] at hreq
      left
      rw [unsent, hbatch]
      exact List.mem_cons_of_mem _ hreq
    · exact absurd hstep (by simp)
  | uv e =>
    simp only [step] at hstep
    split at hstep
    · exact absurd hstep (by simp)
    split at hstep
    · rw [← Option.some.inj hstep] at hreq
      exact .inl hreq
    · exact absurd hstep (by simp)

/-- **Step.** A node stays passive while no send to it connects. -/
theorem passive_step (hr : poolSystem.Reachable p) (hstep : p.step e = some p')
    (htcp : node.IsTcp) (h : p.table.Passive node)
    (hreqs : ∀ req ∈ p.unsent, req.node = node → req.bAutoConnect = false) :
    p'.table.Passive node := by
  have hwf := wf_of_reachable hr
  have hruns := step_runs hstep
  show p'.internal.table.Passive node
  generalize p'.internal = s at hruns ⊢
  cases hruns with
  | idle => exact h
  | exit order b hexit henum => exact (exitAll_act henum b).passive hwf htcp not_false h
  | bind env n bBind => exact (bindOne_acts env _ bBind).passive htcp (by simp) hwf h
  | send env req sends closes hbatch =>
    exact passive_sendOne env htcp hwf h (hreqs req (by simp [unsent, hbatch]))
  | close env n bForceClose =>
    exact (closeOne_acts env hwf n bForceClose).passive htcp (by simp) hwf h
  | uv e s hs =>
    have hopens : ∀ l, e.Allows l → ¬ l.Opens node := by
      intro l hallows hopens
      cases l with
      | connect | refuse => cases e <;> exact hallows
      | _ => exact hopens
    obtain ⟨ls, v₁, hacts, hls, hlast⟩ := uvStep_acts hwf hs
    have h₁ := hacts.passive htcp (fun l hl => hopens l (hls l hl).2) hwf h
    rcases hlast with ⟨rfl, -⟩ | ⟨l, hact, hallows, -⟩
    · exact h₁
    · exact hact.passive (hacts.wf hwf) htcp (hopens l hallows) h₁

end Pool

/-- **The pool never connects on its own.** In every run in which no message is sent to a TCP node
with `bAutoConnect`, whatever else is sent, bound, accepted and closed, the pool starts no connect
to the node and keeps no message waiting for it, and the notifications for it alternate and begin
with an up: no connection that was not there is reported down. -/
theorem passive_node {es : List Event} {p : Pool} {node : CnetworkNode}
    (hrun : poolSystem.run es = some p) (htcp : node.IsTcp)
    (hsend : ∀ data, Event.send node data true ∉ es) :
    (∀ t, Obs.uvTcpConnect t node ∉ p.internal.trace) ∧ node ∉ p.internal.waitingSend ∧
      (false :: statuses node p.internal.trace).IsChain fun a b => a ≠ b := by
  have hes : poolSystem.EachStep (fun _ e _ => ∀ data, e ≠ .send node data true) es := by
    intro pre e post s s' heq _ _ data he
    exact hsend data (by rw [heq, he]; simp)
  have hpassive : p.table.Passive node ∧
      ∀ req ∈ p.unsent, req.node = node → req.bAutoConnect = false := by
    refine hes.invariant hrun (I := fun p => p.table.Passive node ∧
      ∀ req ∈ p.unsent, req.node = node → req.bAutoConnect = false)
      ⟨.init, by simp [Pool.unsent, poolSystem]⟩ ?_
    intro p e p' hr hI he hstep
    refine ⟨Pool.passive_step hr hstep htcp hI.1 hI.2, fun req hreq hnode => ?_⟩
    rcases Pool.unsent_of_step hstep req hreq with hold | ⟨data, hsent⟩
    · exact hI.2 req hold hnode
    · rw [hnode] at hsent
      by_contra hauto
      rw [Bool.not_eq_false] at hauto
      rw [hauto] at hsent
      exact he data hsent
  obtain ⟨h, -⟩ := hpassive
  refine ⟨fun t ht => h.uncalled t ?_, ?_, ?_⟩
  · exact List.mem_filter.mpr ⟨ht, rfl⟩
  · have hwaiting : p.internal.waitingSend.lookup node = none := h.waiting
    exact AList.lookup_eq_none.mp hwaiting
  · have hchain := h.alternating.chain
    rwa [table_trace, statuses_visible] at hchain

/-- A node that connects, is sent a message and is closed. -/
theorem passive_node_accepted :
    ∃ p, poolSystem.run ([.bind ⟨.protocolTcp, .in4 80 2⟩ true, .wakeup,
        .dispatch ⟨[], [], [], []⟩, .bindNext {}, .wakeupDone,
        .uv (.newConnection 0 0 { peer := .in4 80 1 }), .send sampleNode [1] false, .wakeup,
        .dispatch ⟨[], [], [], []⟩, .sendNext {}, .wakeupDone] ++ closeRun true) = some p ∧
      statuses sampleNode p.internal.trace = [true, false] ∧
      (∀ t, Obs.uvTcpConnect t sampleNode ∉ p.internal.trace) ∧
      sampleNode ∉ p.internal.waitingSend ∧
      (false :: statuses sampleNode p.internal.trace).IsChain fun a b => a ≠ b :=
  ⟨(poolSystem.run _).get (by decide), (Option.some_get _).symm, by decide,
    passive_node (Option.some_get _).symm (by decide) (by simp [closeRun])⟩

end NetworkPool
