import Mathlib.Algebra.Order.BigOperators.Group.Finset
import NetworkPool.Pool.Conservation

/-!
# Dropping a waiting queue

A waiting queue should be dropped by the failure of the connect it waits for, by a new connection
that cannot take it over, or by exit (`DropReason`). `shutdownTcpConnection_set_nullptr` drops the
queue of the node of its argument, so this holds in exactly the runs in which it is never called
on an object while a queue for its node waits for another connect (`SparesQueues`).
-/

namespace NetworkPool

open Table

/-- The connection a callback is about. -/
def UvEvent.object : UvEvent → Option ℕ
  | .connectDone t _ _ | .tcpRead t _ _ _ | .writeDone t _ _ _ | .timeout t | .shutdownDone t
  | .tcpClosed t | .timerClosed t | .drained t _ => some t
  | _ => none

/-- A callback tears down the object it is about. -/
theorem tearsDown_object {s : Internal} {e : UvEvent} {t : ℕ} (h : tearsDown s e = some t) :
    e.object = some t := by
  cases e <;> simp_all [tearsDown, UvEvent.object]

/-! ## What becomes of a queue -/

namespace Table

variable {v v' : Table} {t : ℕ} {node : CnetworkNode} {buf : List UvBuf}

/-- A new connection for another node. -/
theorem Startup.queue_other {ok : Bool} (hstart : Startup ok v t v')
    (hnode : (v.tcps t).node ≠ node) :
    v'.waitingSend.lookup node = v.waitingSend.lookup node := by
  cases hstart with
  | taken hlookup => rfl
  | up hlookup _ => exact AList.lookup_erase_ne hnode.symm
  | flush req hlookup => exact AList.lookup_erase_ne hnode.symm
  | down passed hlookup _ =>
    set c := if passed then (v.tcps t).arm .send else v.tcps t with hc
    have hsame : c.node = (v.tcps t).node := by cases passed <;> rfl
    show ((v.waitingSend.erase _).erase
      (Function.update v.tcps t c t).node).lookup node = _
    rw [Function.update_self, hsame, AList.lookup_erase_ne hnode.symm,
      AList.lookup_erase_ne hnode.symm]

/-- A new connection that can take the queue of its node over. -/
theorem Startup.queue_flushed (hstart : Startup true v t v') (ht : t < v.nextTcp)
    (buf : List UvBuf) (hbuf : v.waitingSend.lookup (v.tcps t).node = some buf)
    (hlookup : v.node2stream.lookup (v.tcps t).node = none) :
    ∀ b ∈ buf, 0 < inFlightCount v'.tcps v'.nextTcp ((v.tcps t).node, b) := by
  intro b hb
  cases hstart with
  | taken htaken => exact absurd hlookup htaken
  | up _ hwaiting =>
    rw [hwaiting rfl] at hbuf
    exact absurd hbuf (by simp)
  | flush req _ =>
    have hqueue : v.waiting (v.tcps t).node = buf := by
      unfold Table.waiting
      rw [hbuf]
      rfl
    have hin : 0 < (((v.tcps t).arm .send).queueWrite
        ⟨req, v.waiting (v.tcps t).node⟩).inFlight.count ((v.tcps t).node, b) := by
      rw [Ctcp.queueWrite_inFlight, hqueue]
      have hmem : 0 < (buf.map fun b => ((v.tcps t).node, b)).count ((v.tcps t).node, b) :=
        List.count_pos_iff.mpr (List.mem_map_of_mem hb)
      exact Nat.add_pos_right _ hmem
    have hupdate := inFlightCount_update ht (((v.tcps t).arm .send).queueWrite
      ⟨req, v.waiting (v.tcps t).node⟩) ((v.tcps t).node, b)
    have hbefore : (v.tcps t).inFlight.count ((v.tcps t).node, b) ≤
        inFlightCount v.tcps v.nextTcp ((v.tcps t).node, b) :=
      Finset.single_le_sum (f := fun t' => (v.tcps t').inFlight.count ((v.tcps t).node, b))
        (fun _ _ => Nat.zero_le _) (Finset.mem_range.mpr ht)
    show 0 < inFlightCount (Function.update v.tcps t _) v.nextTcp _
    omega
  | down passed _ hok => exact absurd hok (by simp)

end Table

/-- What an action can do to the queue of `node`: it stays, possibly with a message from the
batch appended, or the action is one of four that take it away. -/
theorem Act.queue {v v' : Table} {l : Label} {node : CnetworkNode} {buf : List UvBuf}
    (hact : Act v l v') (hwf : v.Wf) (hcovered : v.Covered)
    (hbuf : v.waitingSend.lookup node = some buf) :
    (∃ more, v'.waitingSend.lookup node = some (buf ++ more) ∧ (l.taken = [] → more = [])) ∨
    (∃ t, l.torn = some t ∧ (v.tcps t).node = node) ∨
    (∃ t ok, l = .connectUp t ok ∧ (v.tcps t).node = node ∧ (v.tcps t).closing = false ∧
      (v.tcps t).shutdown = false ∧
      (ok = true → ∀ b ∈ buf, 0 < inFlightCount v'.tcps v'.nextTcp (node, b))) ∨
    (∃ peer ok, l = .acceptUp peer ok ∧ node = ⟨.protocolTcp, peer⟩ ∧
      (ok = true → ∀ b ∈ buf, 0 < inFlightCount v'.tcps v'.nextTcp (node, b))) ∨
    ∃ batch, l = .exit batch := by
  have hnone := (hcovered node buf hbuf).2.1
  have hsame : v'.waitingSend.lookup node = v.waitingSend.lookup node →
      ∃ more, v'.waitingSend.lookup node = some (buf ++ more) ∧ (l.taken = [] → more = []) :=
    fun h => ⟨[], by rw [h, hbuf, List.append_nil], fun _ => rfl⟩
  cases hact with
  | teardown t hlistening hconnect =>
    by_cases hnode : (v.tcps t).node = node
    · exact .inr (.inl ⟨t, rfl, hnode⟩)
    · exact .inl (hsame (AList.lookup_erase_ne (Ne.symm hnode)))
  | close t n c hlookup hc =>
    -- a node with a connection has no queue
    refine .inl (hsame (AList.lookup_erase_ne fun hnode => ?_))
    rw [hnode, hwf.lookup_node hlookup] at hnone
    exact absurd hnone (by simp)
  | connectFail t armed hreq harmed =>
    by_cases hnode : (v.tcps t).node = node
    · exact .inr (.inl ⟨t, rfl, hnode⟩)
    · refine .inl (hsame (AList.lookup_erase_ne fun heq => hnode ?_))
      rw [setTcp_tcps_self] at heq
      rw [heq]
      cases armed <;> rfl
  | connectUp t ok v' hreq hclosing hstart =>
    have ht := hwf.lt_nextTcp ((hwf.tcps t).connectReq hreq).2.1
    by_cases hnode : (v.tcps t).node = node
    · refine .inr (.inr (.inl ⟨t, ok, rfl, hnode, hclosing, (hwf.tcps t).not_shutdown hreq, ?_⟩))
      rintro rfl
      subst hnode
      have hflushed := hstart.queue_flushed ht buf
      rw [setTcp_tcps_self] at hflushed
      exact hflushed hbuf hnone
    · refine .inl (hsame ((hstart.queue_other ?_).trans rfl))
      rw [setTcp_tcps_self]
      exact hnode
  | acceptUp peer ok v' hstart =>
    by_cases hnode : node = ⟨.protocolTcp, peer⟩
    · refine .inr (.inr (.inr (.inl ⟨peer, ok, rfl, hnode, ?_⟩)))
      rintro rfl
      subst hnode
      have hflushed := hstart.queue_flushed (Nat.lt_succ_self v.nextTcp) buf
      rw [add_tcps_self] at hflushed
      exact hflushed hbuf hnone
    · refine .inl (hsame ((hstart.queue_other ?_).trans rfl))
      rw [add_tcps_self]
      exact fun h => hnode h.symm
  | park n b queue hwaiting hlookup =>
    refine .inl ?_
    by_cases hn : node = n
    · subst hn
      rw [hwaiting, Option.some.injEq] at hbuf
      subst hbuf
      exact ⟨[b], AList.lookup_insert _, by simp [Label.taken]⟩
    · exact hsame (AList.lookup_insert_ne hn)
  | connect n b req htcp hvalid hwaiting hlookup =>
    refine .inl (hsame (AList.lookup_insert_ne fun hn => ?_))
    rw [hn, hwaiting] at hbuf
    exact absurd hbuf (by simp)
  | exit batch => exact .inr (.inr (.inr (.inr ⟨batch, rfl⟩)))
  | _ => exact .inl (hsame rfl)

/-- The loops of `on_wakeup` only append to a queue. -/
theorem Acts.queue {v v' : Table} {ls : List Label} {node : CnetworkNode} {buf : List UvBuf}
    (hacts : Acts v ls v') (hwf : v.Wf) (hcovered : v.Covered) (hls : ∀ l ∈ ls, l.InLoop)
    (hbuf : v.waitingSend.lookup node = some buf) :
    ∃ more, v'.waitingSend.lookup node = some (buf ++ more) := by
  induction hacts generalizing buf with
  | nil => exact ⟨[], by rw [hbuf, List.append_nil]⟩
  | cons hact _ ih =>
    have hloop := hls _ (List.mem_cons_self ..)
    obtain ⟨more, hmore⟩ : ∃ more, _ = some (buf ++ more) := by
      rcases hact.queue hwf hcovered hbuf with ⟨more, h, -⟩ | ⟨t, h, -⟩ | ⟨t, ok, rfl, -⟩ |
        ⟨peer, ok, rfl, -⟩ | ⟨batch, rfl⟩
      · exact ⟨more, h⟩
      · exact absurd (hloop.torn.symm.trans h) (by simp)
      · exact absurd hloop (by simp [Label.InLoop])
      · exact absurd hloop (by simp [Label.InLoop])
      · exact absurd hloop (by simp [Label.InLoop])
    obtain ⟨more', hmore'⟩ := ih (hact.wf hwf) (hact.covered hwf hcovered)
      (fun l hl => hls l (List.mem_cons_of_mem _ hl)) hmore
    exact ⟨more ++ more', by rw [hmore', List.append_assoc]⟩

/-- What a callback can do to the queue of `node`: nothing, or it tears down an object of the
node, or it is the start of a new connection for the node. -/
theorem UvActs.queue {s : Internal} {e : UvEvent} {v v' : Table} {node : CnetworkNode}
    {buf : List UvBuf} (h : UvActs s e v v') (hwf : v.Wf) (hcovered : v.Covered)
    (hbuf : v.waitingSend.lookup node = some buf) :
    v'.waitingSend.lookup node = some buf ∨
    (∃ t, tearsDown s e = some t ∧ (v.tcps t).node = node) ∨
    (∃ t status env, e = .connectDone t status env ∧ tearsDown s e = none ∧
      (v.tcps t).node = node ∧ (v.tcps t).closing = false ∧ (v.tcps t).shutdown = false ∧
      (env.handsOver = true → ∀ b ∈ buf, 0 < inFlightCount v'.tcps v'.nextTcp (node, b))) ∨
    ∃ server status env, e = .newConnection server status env ∧ node = ⟨.protocolTcp, env.peer⟩ ∧
      (env.handsOver = true → ∀ b ∈ buf, 0 < inFlightCount v'.tcps v'.nextTcp (node, b)) := by
  obtain ⟨ls, v₁, hacts, hls, hlast⟩ := h
  have hsame := hacts.sameRegistries fun l hl => (hls l hl).1
  have hbuf₁ : v₁.waitingSend.lookup node = some buf := by
    rw [hsame.waitingSend]
    exact hbuf
  rcases hlast with ⟨rfl, -⟩ | ⟨l, hact, hallows, -, htorn⟩
  · exact .inl hbuf₁
  have hcovered₁ := hacts.covered hwf hcovered
  rcases hact.queue (hacts.wf hwf) hcovered₁ hbuf₁ with ⟨more, hmore, hnil⟩ | ⟨t, ht, hnode⟩ |
    ⟨t, ok, rfl, hnode, hclosing, hshutdown, hflight⟩ | ⟨peer, ok, rfl, hnode, hflight⟩ | ⟨batch, rfl⟩
  · rw [hnil (UvEvent.Allows.taken hallows), List.append_nil] at hmore
    exact .inl hmore
  · exact .inr (.inl ⟨t, htorn.trans ht, (hsame.object t).1.symm.trans hnode⟩)
  · obtain ⟨h₁, h₂, h₃⟩ := hsame.object t
    cases e with
    | connectDone t' status env =>
      obtain ⟨rfl, rfl⟩ := hallows
      exact .inr (.inr (.inl ⟨t', status, env, rfl, htorn, h₁.symm.trans hnode,
        h₂.symm.trans hclosing, h₃.symm.trans hshutdown, hflight⟩))
    | _ => exact absurd hallows (by simp [UvEvent.Allows])
  · cases e with
    | newConnection server status env =>
      obtain ⟨rfl, rfl⟩ := hallows
      exact .inr (.inr (.inr ⟨server, status, env, rfl, hnode, hflight⟩))
    | _ => exact absurd hallows (by simp [UvEvent.Allows])
  · cases e <;> exact absurd hallows (by simp [UvEvent.Allows])

/-! ## Reasons -/

namespace Pool

/-- The reasons for which the queue of `node` may be dropped. -/
inductive DropReason (p : Pool) (node : CnetworkNode) : Event → Prop
  /-- The connect the queue waits for fails. -/
  | connect (t : ℕ) (status : ℤ) (env : Env)
      (hattempt : lastAttempt node p.internal.trace = some t)
      (hfails : tearsDown p.internal (.connectDone t status env) = some t) :
      DropReason p node (.uv (.connectDone t status env))
  /-- The connect the queue waits for times out. -/
  | timeout (t : ℕ) (hattempt : lastAttempt node p.internal.trace = some t) :
      DropReason p node (.uv (.timeout t))
  /-- A connect to the node goes through, and the queue cannot be handed over. -/
  | connected (t : ℕ) (status : ℤ) (env : Env) (hnode : (p.internal.tcps t).node = node)
      (hup : tearsDown p.internal (.connectDone t status env) = none)
      (hfails : env.handsOver = false) : DropReason p node (.uv (.connectDone t status env))
  /-- A connection from the node is accepted, and the queue cannot be handed over. -/
  | accepted (server : ℕ) (status : ℤ) (env : Env) (hnode : node = ⟨.protocolTcp, env.peer⟩)
      (hfails : env.handsOver = false) : DropReason p node (.uv (.newConnection server status env))
  | exit (order : ExitOrder) (hexit : p.exchanged.bWantExit = true) :
      DropReason p node (.dispatch order)

/-- Messages waiting for a connect are dropped for one of the reasons only; a callback about
another object of the node, closing or shutting down, leaves the queue alone. -/
def DropsForReason (p : Pool) (e : Event) (p' : Pool) : Prop :=
  ∀ node buf, p.internal.waitingSend.lookup node = some buf →
    (∀ b ∈ buf, (node, b) ∉ dropped p.internal.trace → (node, b) ∈ dropped p'.internal.trace →
      p.DropReason node e) ∧
    ∀ e' t, e = .uv e' → e'.object = some t → (p.internal.tcps t).node = node →
      lastAttempt node p.internal.trace ≠ some t →
      ((p.internal.tcps t).closing = true ∨ (p.internal.tcps t).shutdown = true) →
        p'.internal.waitingSend.lookup node = some buf

/-- If the event is a callback that tears down `t`, a queue for the node of `t`, if any, waits for
the connect `t`. -/
def SparesQueues (p : Pool) (e : Event) : Prop :=
  ∀ t, p.Tears e t → p.internal.waitingSend.lookup (p.internal.tcps t).node ≠ none →
    lastAttempt (p.internal.tcps t).node p.internal.trace = some t

variable {p p' : Pool} {e : Event}

/-- A message for a TCP node is held at most once. -/
theorem held_le_one (h : poolSystem.Reachable p) {m : CnetworkNode × UvBuf} (hm : m.1.IsTcp) :
    p.table.held m ≤ 1 := by
  have hcount := (conserved_of_reachable h).count m hm
  have hone := List.nodup_iff_count_le_one.mp (nodup_accepted h) m
  omega

/-- A dropped message neither waits nor is in flight. -/
theorem notMem_of_dropped (h : poolSystem.Reachable p) {node : CnetworkNode} (hnode : node.IsTcp)
    {b : UvBuf} (hb : (node, b) ∈ dropped p.internal.trace) :
    (∀ buf, p.internal.waitingSend.lookup node = some buf → b ∉ buf) ∧
      inFlightCount p.internal.tcps p.internal.nextTcp (node, b) = 0 := by
  have hheld := held_le_one h (m := (node, b)) hnode
  have hdropped : 0 < (dropped p.table.trace).count (node, b) := by
    rw [table_trace, dropped_visible]
    exact List.count_pos_iff.mpr hb
  unfold Table.held at hheld
  refine ⟨fun buf hbuf hmem => ?_, ?_⟩
  · have hwaiting : 0 < p.table.waitingCount (node, b) := by
      unfold waitingCount Table.waiting
      show 0 < ((p.internal.waitingSend.lookup node).getD []).count b
      rw [hbuf]
      exact List.count_pos_iff.mpr hmem
    omega
  · show inFlightCount p.table.tcps p.table.nextTcp (node, b) = 0
    omega

/-- The nodes of the waiting queues are TCP nodes. -/
theorem isTcp_of_waiting (h : poolSystem.Reachable p) {node : CnetworkNode} {buf : List UvBuf}
    (hbuf : p.internal.waitingSend.lookup node = some buf) : node.IsTcp := by
  obtain ⟨-, -, t, ht⟩ := covered_of_reachable h node buf hbuf
  have hwf := wf_of_reachable h
  rw [← ht.node]
  exact ((hwf.tcps t).node (hwf.connecting t ht.pending)).1

/-- Only the failure and the timeout of a connect tear down a pending one. -/
theorem dropReason_of_tears (h : poolSystem.Reachable p) {node : CnetworkNode} {t : ℕ}
    (htears : p.Tears e t) (hstep : poolSystem.step p e = some p')
    (hpending : t ∈ p.internal.connecting)
    (hattempt : lastAttempt node p.internal.trace = some t) : p.DropReason node e := by
  obtain ⟨e', rfl, ht⟩ := htears
  have hwf := wf_of_reachable h
  have hconnect : (p.internal.tcps t).tcp.connectReq ≠ none :=
    Option.isSome_iff_ne_none.mp (hwf.connecting t hpending)
  have hcases : Step p (.uv e') p' := step_cases hwf hstep
  obtain ⟨s, hs⟩ : ∃ s, uvStep p.internal e' = some s := by
    cases hcases with
    | outside _ x new he => exact absurd rfl (he e')
    | loop _ s b took he => exact absurd rfl (he e')
    | uv _ s hs => exact ⟨s, hs⟩
  have hobject := tearsDown_object ht
  cases e' with
  | timeout t' =>
    obtain rfl : t' = t := Option.some.inj hobject
    exact .timeout t' hattempt
  | connectDone t' status env =>
    obtain rfl : t' = t := Option.some.inj hobject
    exact .connect t' status env hattempt ht
  | tcpRead t' nread data env =>
    -- a pending connect does not read
    obtain rfl : t' = t := Option.some.inj hobject
    simp only [uvStep, Option.ite_none_right_eq_some] at hs
    exact absurd ((hwf.tcps t').reading hs.1.1).1 hconnect
  | writeDone t' req status env =>
    -- a pending connect has no writes
    obtain rfl : t' = t := Option.some.inj hobject
    simp only [uvStep] at hs
    split at hs
    · rename_i w hw
      have hne := List.ne_nil_of_mem (List.mem_of_find?_eq_some hw)
      exact absurd ((hwf.tcps t').writes hne).1 hconnect
    · exact absurd hs (by simp)
  | _ => exact absurd ht (by simp [tearsDown])

/-- A step drops waiting messages for one of the reasons only exactly when it spares the queues
that wait for another connect. -/
theorem dropsForReason_step (hr : poolSystem.Reachable p) (hstep : poolSystem.step p e = some p') :
    p.DropsForReason e p' ↔ p.SparesQueues e := by
  have hwf := wf_of_reachable hr
  have hcovered := covered_of_reachable hr
  have hr' : poolSystem.Reachable p' := .step hr hstep
  have hcases : Step p e p' := step_cases hwf hstep
  constructor
  · intro hreason t htears hqueue
    obtain ⟨buf, hbuf⟩ := Option.ne_none_iff_exists'.mp hqueue
    by_contra hattempt
    obtain ⟨hne, -⟩ := hcovered _ buf hbuf
    obtain ⟨b, hb⟩ := List.exists_mem_of_ne_nil buf hne
    -- the teardown drops the whole queue
    have hdrop : ((p.internal.tcps t).node, b) ∈ dropped p'.internal.trace := by
      obtain ⟨v₁, hsame, -, htorn⟩ := hcases.tornDown hwf htears
      obtain ⟨notify, htrace⟩ := htorn.trace
      have hwaiting : v₁.waiting (v₁.tcps t).node = buf := by
        unfold Table.waiting
        rw [hsame.waitingSend, (hsame.object t).1]
        show ((p.internal.waitingSend.lookup (p.internal.tcps t).node).getD []) = buf
        rw [hbuf]
        rfl
      rw [← dropped_visible, ← table_trace]
      show _ ∈ dropped p'.table.trace
      rw [htrace, dropped_append, dropped_dropCalls, hwaiting, (hsame.object t).1]
      exact List.mem_append_right _ (List.mem_map_of_mem hb)
    have hbefore : ((p.internal.tcps t).node, b) ∉ dropped p.internal.trace := fun hin =>
      (notMem_of_dropped hr (isTcp_of_waiting hr hbuf) hin).1 buf hbuf hb
    obtain ⟨e', rfl, ht⟩ := htears
    cases (hreason _ buf hbuf).1 b hb hbefore hdrop with
    | connect t' status env hattempt' hfails =>
      obtain rfl : t' = t := Option.some.inj (hfails.symm.trans ht)
      exact hattempt hattempt'
    | timeout t' hattempt' =>
      obtain rfl : t' = t := Option.some.inj ht
      exact hattempt hattempt'
    | connected t' status env hnode hup => exact absurd (hup.symm.trans ht) (by simp)
    | accepted server status env => exact absurd ht (by simp [tearsDown])
  · intro hspares node buf hbuf
    obtain ⟨hne, hnone, t₀, ht₀⟩ := hcovered node buf hbuf
    have hattempt₀ : lastAttempt node p.internal.trace = some t₀ := by
      rw [← lastAttempt_visible, ← table_trace]
      exact ht₀.attempt
    have htearsNode : ∀ t, p.Tears e t → (p.internal.tcps t).node = node → t = t₀ := by
      intro t ht hnode
      have hlast := hspares t ht (by rw [hnode, hbuf]; simp)
      rw [hnode, hattempt₀] at hlast
      exact (Option.some.inj hlast).symm
    constructor
    · intro b hb _ hdrop
      obtain ⟨hnot, hflight⟩ := notMem_of_dropped hr' (isTcp_of_waiting hr hbuf) hdrop
      cases hcases with
      | outside => exact absurd hb (hnot buf hbuf)
      | wakeup => exact absurd hb (hnot buf hbuf)
      | loop _ s batch took he hacts =>
        obtain ⟨ls, hacts, hls, -⟩ := hacts
        obtain ⟨more, hmore⟩ := hacts.queue hwf hcovered hls hbuf
        exact absurd (List.mem_append_left _ hb) (hnot _ hmore)
      | exit order s hexit hact => exact .exit order hexit
      | uv e' s hs hacts =>
        rcases hacts.queue hwf hcovered hbuf with hkept | ⟨t, ht, hnode⟩ |
          ⟨t, status, env, rfl, hup, hnode, -, -, hin⟩ | ⟨server, status, env, rfl, hnode, hin⟩
        · exact absurd hb (hnot buf hkept)
        · obtain rfl := htearsNode t ⟨e', rfl, ht⟩ hnode
          exact dropReason_of_tears hr ⟨e', rfl, ht⟩ hstep ht₀.pending hattempt₀
        · cases hok : env.handsOver with
          | false => exact .connected t status env hnode hup hok
          | true => exact absurd hflight (Nat.ne_of_gt (hin hok b hb))
        · cases hok : env.handsOver with
          | false => exact .accepted server status env hnode hok
          | true => exact absurd hflight (Nat.ne_of_gt (hin hok b hb))
    · rintro e' t rfl hobject hnode hother hclosed
      cases hcases with
      | outside _ x new he => exact absurd rfl (he e')
      | loop _ s batch took he => exact absurd rfl (he e')
      | uv _ s hs hacts =>
        rcases hacts.queue hwf hcovered hbuf with hkept | ⟨t', ht', hnode'⟩ |
          ⟨t', status, env, rfl, -, -, hclosing, hshutdown, -⟩ | ⟨server, status, env, rfl, -⟩
        · exact hkept
        · obtain rfl : t' = t := Option.some.inj ((tearsDown_object ht').symm.trans hobject)
          obtain rfl := htearsNode t' ⟨e', rfl, ht'⟩ hnode'
          exact absurd hattempt₀ hother
        · obtain rfl : t' = t := Option.some.inj hobject
          rcases hclosed with hc | hs
          · exact absurd (hclosing.symm.trans hc) (by simp)
          · exact absurd (hshutdown.symm.trans hs) (by simp)
        · exact absurd hobject (by simp [UvEvent.object])

end Pool

/-! ## Runs -/

/-- In a run, waiting messages are dropped for one of the reasons only, and callbacks about other
objects of their node leave them alone, exactly when no callback calls
`shutdownTcpConnection_set_nullptr` on an object while a queue for its node waits for another
connect. -/
theorem queue_drops_iff_spares_queues (es : List Event) :
    poolSystem.EachStep Pool.DropsForReason es ↔
      poolSystem.EachStep (fun p e _ => p.SparesQueues e) es :=
  Lib.Lts.eachStep_congr (fun _ _ _ hr hs => Pool.dropsForReason_step hr hs) es

/-- The peer of a connection that is shutting down closes it while a message waits for a new
connect to the node: the message is dropped. -/
theorem queue_dropped_by_other_connection :
    ∃ p p', poolSystem.run (openRun 0 ++ closeRun false ++ sendRun) = some p ∧
      poolSystem.step p (.uv (.tcpRead 0 uvEof [] {})) = some p' ∧
      p.internal.waitingSend.lookup sampleNode = some [⟨1, [1]⟩] ∧
      p'.internal.waitingSend.lookup sampleNode = none ∧
      ¬ p.DropsForReason (.uv (.tcpRead 0 uvEof [] {})) p' := by
  refine ⟨(poolSystem.run _).get (by decide), (poolSystem.step _ _).get (by decide),
    (Option.some_get _).symm, (Option.some_get _).symm, by decide, by decide, fun h => ?_⟩
  have hkept := (h sampleNode [⟨1, [1]⟩] (by decide)).2 _ 0 rfl rfl (by decide) (by decide)
    (.inr (by decide))
  exact absurd hkept (by decide)

end NetworkPool
