import NetworkPool.Pool.Notifications
import NetworkPool.Pool.Orphans

/-!
# Reported messages

Data is reported for a TCP node by reading a connection that was entered for it. While that
connection is neither shutting down nor orphaned it is the entry of its node, so the last
notification for the node was an up notification. A connection whose graceful shutdown is in
progress still reads, after its node was reported down.
-/

namespace NetworkPool

open Table

/-! ## Readers -/

namespace Table

/-- A connection that reads was entered and reported for its node. -/
def ReadersUp (v : Table) : Prop :=
  ∀ t, (v.tcps t).tcp.reading = true →
    IsRegistered t v.trace ∧ true ∈ statuses (v.tcps t).node v.trace

variable {v v' : Table} {t : ℕ}

theorem ReadersUp.frame (h : v.ReadersUp) (htrace : v.trace <+: v'.trace)
    (hobj : ∀ t, (v'.tcps t).tcp.reading = true →
      (v.tcps t).tcp.reading = true ∧ (v'.tcps t).node = (v.tcps t).node) : v'.ReadersUp := by
  intro t ht
  obtain ⟨hreading, hnode⟩ := hobj t ht
  obtain ⟨hreg, hup⟩ := h t hreading
  rw [hnode]
  obtain ⟨obs, hobs⟩ := htrace
  refine ⟨hreg.mono ⟨obs, hobs⟩, ?_⟩
  rw [← hobs, statuses_append]
  exact List.mem_append_left _ hup

/-- An object is replaced by one that does not start to read. -/
theorem ReadersUp.replace (h : v.ReadersUp) (htrace : v.trace <+: v'.trace) {c : Ctcp}
    (htcps : v'.tcps = Function.update v.tcps t c)
    (hc : c.tcp.reading = true → (v.tcps t).tcp.reading = true ∧ c.node = (v.tcps t).node) :
    v'.ReadersUp := by
  refine h.frame htrace fun t' ht' => ?_
  rw [htcps] at ht' ⊢
  by_cases heq : t' = t
  · subst heq
    rw [Function.update_self] at ht' ⊢
    exact hc ht'
  · rw [Function.update_of_ne heq] at ht' ⊢
    exact ⟨ht', rfl⟩

/-- A reading connection starts up: all other readers are as they were. -/
theorem ReadersUp.startup {ok : Bool} (h : ∀ t', t' ≠ t → (v.tcps t').tcp.reading = true →
      IsRegistered t' v.trace ∧ true ∈ statuses (v.tcps t').node v.trace)
    (hwf : (v.tcps t).Wf) (harm : ((v.tcps t).arm .send).Wf) (hstart : Startup ok v t v') :
    v'.ReadersUp := by
  have hother : ∀ t', t' ≠ t → (v'.tcps t').tcp.reading = true →
      IsRegistered t' v'.trace ∧ true ∈ statuses (v'.tcps t').node v'.trace := by
    intro t' ht' hreading
    have hsame := hstart.tcps_other ht'
    rw [hsame] at hreading ⊢
    obtain ⟨hreg, hup⟩ := h t' ht' hreading
    obtain ⟨obs, hobs⟩ := hstart.trace_prefix
    refine ⟨hreg.mono ⟨obs, hobs⟩, ?_⟩
    rw [← hobs, statuses_append]
    exact List.mem_append_left _ hup
  have hself : (v'.tcps t).tcp.reading = true →
      IsRegistered t v'.trace ∧ true ∈ statuses (v'.tcps t).node v'.trace := by
    have hnew : IsRegistered t (v.register t).trace ∧
        true ∈ statuses (v.tcps t).node (v.register t).trace := by
      constructor
      · exact ⟨(v.tcps t).node, by simp [Table.register]⟩
      · simp [Table.register, statuses_cons, statusOf]
    intro hreading
    cases hstart with
    | taken hlookup =>
      rw [setTcp_tcps_self, Ctcp.afterClose_reading hwf] at hreading
      exact absurd hreading (by simp)
    | up hlookup _ =>
      refine ⟨hnew.1.mono (trace_prefix_emit _ _), ?_⟩
      show true ∈ statuses (v.tcps t).node ((v.register t).trace ++ _)
      rw [statuses_append]
      exact List.mem_append_left _ hnew.2
    | flush req hlookup =>
      refine ⟨hnew.1.mono (trace_prefix_emit ((v.register t).setTcp t _) _), ?_⟩
      show true ∈ statuses (Function.update v.tcps t _ t).node ((v.register t).trace ++ _)
      rw [Function.update_self, statuses_append]
      exact List.mem_append_left _ hnew.2
    | down passed hlookup _ =>
      have hclosed : (if passed then (v.tcps t).arm .send else v.tcps t).afterClose.tcp.reading =
          false := by
        cases passed
        · exact Ctcp.afterClose_reading hwf
        · exact Ctcp.afterClose_reading harm
      rw [teardown_tcps_self, hclosed] at hreading
      exact absurd hreading (by simp)
  intro t' ht'
  by_cases heq : t' = t
  · subst heq
    exact hself ht'
  · exact hother t' heq ht'

end Table

/-- Every action keeps the readers entered. -/
theorem Act.readersUp {v v' : Table} {l : Label} (hact : Act v l v') (hwf : v.Wf)
    (h : v.ReadersUp) : v'.ReadersUp := by
  have htrace := hact.trace_prefix
  have hclose : ∀ t, (v.tcps t).afterClose.tcp.reading = false :=
    fun t => Ctcp.afterClose_reading (hwf.tcps t)
  have hadd : ∀ c : Ctcp, c.tcp.reading = false → ∀ t, ((v.add c).tcps t).tcp.reading = true →
      (v.tcps t).tcp.reading = true ∧ ((v.add c).tcps t).node = (v.tcps t).node := by
    intro c hc t ht
    by_cases heq : t = v.nextTcp
    · subst heq
      rw [add_tcps_self, hc] at ht
      exact absurd ht (by simp)
    · have hsame : (v.add c).tcps t = v.tcps t := Function.update_of_ne heq _ _
      rw [hsame] at ht ⊢
      exact ⟨ht, rfl⟩
  cases hact with
  | touch t c hc =>
    obtain ⟨hnode, -, -, -, -, -, hreading, -⟩ := hc.same
    exact h.replace htrace rfl fun hr => ⟨hreading.symm.trans hr, hnode⟩
  | written t w hw => exact h.replace htrace rfl fun hr => ⟨hr, rfl⟩
  | lost t w hw => exact h.replace htrace rfl fun hr => ⟨hr, rfl⟩
  | teardown t hlistening hconnect =>
    exact h.replace htrace rfl fun hr => absurd ((hclose t).symm.trans hr) (by simp)
  | close t node c hlookup hc =>
    refine h.replace htrace rfl fun hr => ?_
    rcases hc with rfl | ⟨-, env, req, rfl⟩
    · exact absurd ((hclose t).symm.trans hr) (by simp)
    · rcases Ctcp.afterShutdown_cases env req (hwf.stream node t hlookup) with heq | heq <;>
        rw [heq] at hr ⊢
      · exact absurd ((hclose t).symm.trans hr) (by simp)
      · exact ⟨hr, rfl⟩
  | connectFail t armed hreq harmed =>
    have hclosed := Ctcp.afterClose_reading (hwf.connectDone hreq armed harmed)
    refine h.replace htrace (Function.update_idem ..) fun hr => ?_
    exact absurd (hclosed.symm.trans hr) (by simp)
  | connectUp t ok v' hreq hclosing hstart =>
    have hc := hwf.tcps t
    have he := Ctcp.Connecting.established hreq hc hclosing (hc.not_shutdown hreq)
    have hread := he.wf_startRead (hwf.connectDone hreq true fun _ => hclosing)
    refine ReadersUp.startup (fun t' ht' hr => ?_) ?_ ?_ hstart
    · rw [setTcp_tcps_other _ ht'] at hr ⊢
      exact h t' hr
    · rw [setTcp_tcps_self]
      exact hread
    · rw [setTcp_tcps_self]
      exact hread.arm .send he.closing he.shutdown he.tcpInited he.timerInited he.listening
  | acceptUp peer ok v' hstart =>
    have hread := Ctcp.wf_accepted ⟨.protocolTcp, peer⟩
    refine ReadersUp.startup (fun t' ht' hr => ?_) ?_ ?_ hstart
    · have hsame : (v.add (((Ctcp.fresh true ⟨.protocolTcp, peer⟩).arm .idle).startRead)).tcps t' =
          v.tcps t' := setTcp_tcps_other v ht'
      rw [hsame] at hr ⊢
      exact h t' hr
    · rw [add_tcps_self]
      exact hread
    · rw [add_tcps_self]
      exact hread.arm .send rfl rfl rfl rfl rfl
  | shutdownDone t hreq =>
    have hc : ({ v.tcps t with tcp := { (v.tcps t).tcp with shutdownReq := none } } : Ctcp).Wf :=
      { hwf.tcps t with shutdownReq := by simp }
    refine h.replace htrace rfl fun hr => ?_
    exact absurd ((Ctcp.afterClose_reading hc).symm.trans hr) (by simp)
  | dead c hc => exact h.frame htrace (hadd c hc.reading)
  | connect node b req htcp hvalid hwaiting hlookup => exact h.frame htrace (hadd _ rfl)
  | write t node b req hlookup => exact h.replace htrace rfl fun hr => ⟨hr, rfl⟩
  | listen node hserver => exact h.frame htrace (hadd _ rfl)
  | unlisten node t hserver =>
    exact h.replace htrace rfl fun hr => absurd ((hclose t).symm.trans hr) (by simp)
  | exit batch streams connecting queues tcps hstreams hconnecting hqueues htcps =>
    refine h.frame htrace fun t ht => ?_
    change (tcps t).tcp.reading = true at ht
    show _ ∧ (tcps t).node = _
    rcases htcps t with ⟨-, heq⟩ | ⟨-, heq⟩ <;> rw [heq] at ht ⊢
    · exact absurd ((hclose t).symm.trans ht) (by simp)
    · exact ⟨ht, rfl⟩
  | _ => exact h.frame htrace fun t ht => ⟨ht, rfl⟩

/-! ## Messages -/

theorem messages_dropEach {α : Type} (l : List α) (n : α → CnetworkNode) (buf : α → List UvBuf) :
    messages (l.flatMap fun a => dropCalls (n a) (buf a)) = [] := by
  induction l with
  | nil => rfl
  | cons a l ih => rw [List.flatMap_cons, messages_append, ih, messages_dropCalls]; rfl

theorem messages_teardown (v : Table) (t : ℕ) (b : Bool) (c : Ctcp) :
    messages (v.teardown t b c).trace = messages v.trace := by
  show messages (v.trace ++ _ ++ _) = _
  rw [messages_append, messages_append, messages_dropCalls, List.append_nil]
  split_ifs
  · exact List.append_nil _
  · exact List.append_nil _

theorem messages_startup {ok : Bool} {v v' : Table} {t : ℕ} (hstart : Startup ok v t v') :
    messages v'.trace = messages v.trace := by
  have hreg : messages (v.register t).trace = messages v.trace := by
    show messages (v.trace ++ [_, _]) = _
    rw [messages_append]
    exact List.append_nil _
  cases hstart with
  | taken hlookup => rfl
  | up hlookup _ =>
    show messages ((v.register t).trace ++ _) = _
    rw [messages_append, messages_dropCalls, List.append_nil, hreg]
  | flush req hlookup =>
    show messages ((v.register t).trace ++ [_]) = _
    rw [messages_append, hreg]
    exact List.append_nil _
  | down passed hlookup _ =>
    rw [messages_teardown]
    show messages ((v.register t).trace ++ _ ++ _) = _
    rw [messages_append, messages_append, messages_dropCalls, List.append_nil, hreg]
    cases passed <;> exact List.append_nil _

/-- Only a read reports messages. -/
theorem Act.messages {v v' : Table} {l : Label} (hact : Act v l v') :
    messages v'.trace = messages v.trace ∨
      ∃ t data, l = .message t ∧ messages v'.trace =
        messages v.trace ++ messages [.callback (.message (v.tcps t).node data)] := by
  cases hact with
  | message t data hreading =>
    refine .inr ⟨t, data, rfl, ?_⟩
    show NetworkPool.messages (v.trace ++ _) = _
    rw [messages_append, messages_visible]
  | written t w hw =>
    refine .inl ?_
    show NetworkPool.messages (v.trace ++ [_]) = _
    rw [messages_append]
    exact List.append_nil _
  | lost t w hw =>
    refine .inl ?_
    show NetworkPool.messages (v.trace ++ _) = _
    rw [messages_append, messages_dropCalls, List.append_nil]
  | teardown t hlistening hconnect => exact .inl (messages_teardown _ _ _ _)
  | close t node c hlookup hc => exact .inl (messages_teardown _ _ _ _)
  | connectFail t armed hreq harmed => exact .inl (messages_teardown _ _ _ _)
  | connectUp t ok v' hreq hclosing hstart => exact .inl ((messages_startup hstart).trans rfl)
  | acceptUp peer ok v' hstart => exact .inl ((messages_startup hstart).trans rfl)
  | connect node b req htcp hvalid hwaiting hlookup =>
    refine .inl ?_
    show NetworkPool.messages (v.trace ++ [_]) = _
    rw [messages_append]
    exact List.append_nil _
  | refuse node b hwaiting hlookup =>
    refine .inl ?_
    show NetworkPool.messages (v.trace ++ _) = _
    rw [messages_append]
    exact List.append_nil _
  | discard node b =>
    refine .inl ?_
    show NetworkPool.messages (v.trace ++ _) = _
    rw [messages_append, messages_dropCalls, List.append_nil]
  | write t node b req hlookup =>
    refine .inl ?_
    show NetworkPool.messages (v.trace ++ [_]) = _
    rw [messages_append]
    exact List.append_nil _
  | writeFail t node b passed hlookup =>
    refine .inl ?_
    show NetworkPool.messages (v.trace ++ (_ ++ _)) = _
    rw [messages_append, messages_append, messages_dropCalls]
    cases passed <;> exact List.append_nil _
  | notice node hnode =>
    refine .inl ?_
    show NetworkPool.messages (v.trace ++ [_]) = _
    rw [messages_append]
    exact List.append_nil _
  | exit batch streams connecting queues tcps hstreams hconnecting hqueues htcps =>
    have hnotices : ∀ {α : Type} (l : List α) (n : α → CnetworkNode),
        NetworkPool.messages (l.map fun a => .callback (.connectionStatus (n a) false)) = [] := by
      intro α l n
      simp [NetworkPool.messages, messageOf]
    refine .inl ?_
    show NetworkPool.messages (v.trace ++ _ ++ _ ++ _ ++ _) = _
    simp only [messages_append, hnotices, messages_dropEach, List.append_nil]
  | _ => exact .inl rfl

theorem Acts.messages_eq {v v' : Table} {ls : List Label} (hacts : Acts v ls v')
    (hls : ∀ l ∈ ls, ∀ t, l ≠ .message t) : messages v'.trace = messages v.trace := by
  induction hacts with
  | nil => rfl
  | cons hact _ ih =>
    rw [ih fun l hl => hls l (List.mem_cons_of_mem _ hl)]
    rcases hact.messages with h | ⟨t, data, rfl, -⟩
    · exact h
    · exact absurd rfl (hls _ (List.mem_cons_self ..) t)

/-- What quiet actions report is read on connections to the node. -/
theorem Acts.messages_quiet {v v' : Table} {ls : List Label} (hacts : Acts v ls v')
    (hls : ∀ l ∈ ls, l.Quiet) :
    ∃ new, messages v'.trace = messages v.trace ++ new ∧
      ∀ m ∈ new, ∃ t, .message t ∈ ls ∧ m.1 = (v.tcps t).node := by
  induction hacts with
  | nil => exact ⟨[], (List.append_nil _).symm, by simp⟩
  | @cons v v₁ v₂ l ls hact _ ih =>
    obtain ⟨new, hnew, hread⟩ := ih fun l hl => hls l (List.mem_cons_of_mem _ hl)
    have hsame := hact.sameRegistries (hls l (List.mem_cons_self ..))
    have hrest : ∀ m ∈ new, ∃ t, .message t ∈ l :: ls ∧ m.1 = (v.tcps t).node := by
      intro m hm
      obtain ⟨t, hmem, hnode⟩ := hread m hm
      exact ⟨t, List.mem_cons_of_mem _ hmem, hnode.trans (hsame.object t).1⟩
    rcases hact.messages with h | ⟨t, data, rfl, h⟩
    · exact ⟨new, by rw [hnew, h], hrest⟩
    · refine ⟨messages [.callback (.message (v.tcps t).node data)] ++ new, ?_, fun m hm => ?_⟩
      · rw [hnew, h, List.append_assoc]
      rcases List.mem_append.mp hm with hm | hm
      · refine ⟨t, List.mem_cons_self .., ?_⟩
        obtain ⟨o, ho, hm⟩ := List.mem_filterMap.mp hm
        rw [List.mem_singleton.mp ho] at hm
        simp only [messageOf, Option.ite_none_right_eq_some, Option.some.injEq] at hm
        rw [← hm.2]
      · exact hrest m hm

/-! ## Pools -/

namespace Pool

variable {p p' : Pool} {e : Event}

/-- What a step reports for TCP nodes is read on a connection to the node. -/
theorem Step.reports (h : Step p e p') :
    ∃ new, messages p'.internal.trace = messages p.internal.trace ++ new ∧
      ∀ m ∈ new, ∃ t nread data env, e = .uv (.tcpRead t nread data env) ∧
        (p.internal.tcps t).tcp.reading = true ∧ (p.internal.tcps t).node = m.1 := by
  have hnone : messages p'.table.trace = messages p.table.trace →
      ∃ new, messages p'.internal.trace = messages p.internal.trace ++ new ∧
        ∀ m ∈ new, ∃ t nread data env, e = .uv (.tcpRead t nread data env) ∧
          (p.internal.tcps t).tcp.reading = true ∧ (p.internal.tcps t).node = m.1 := by
    intro heq
    rw [table_trace, table_trace, messages_visible, messages_visible] at heq
    exact ⟨[], by rw [heq, List.append_nil], by simp⟩
  cases h with
  | outside => exact hnone rfl
  | wakeup => exact hnone rfl
  | loop _ s b took he hacts =>
    obtain ⟨ls, hacts, hls, -⟩ := hacts
    refine hnone (hacts.messages_eq fun l hl t => ?_)
    rintro rfl
    exact hls _ hl
  | exit order s hexit hact =>
    exact hnone ((Acts.single hact).messages_eq (by simp))
  | uv e s hstep hacts =>
    obtain ⟨ls, v₁, hquiet, hls, hlast⟩ := hacts
    obtain ⟨new, hnew, hread⟩ := hquiet.messages_quiet fun l hl => (hls l hl).1
    have hafter : messages s.table.trace = messages v₁.trace := by
      rcases hlast with ⟨rfl, -⟩ | ⟨l, hact, -, hquiet, -⟩
      · rfl
      · refine (Acts.single hact).messages_eq fun l' hl' t => ?_
        rw [List.mem_singleton.mp hl']
        rintro rfl
        exact hquiet trivial
    refine ⟨new, ?_, fun m hm => ?_⟩
    · show messages s.trace = _
      rw [hnew, table_trace, table_trace, messages_visible, messages_visible] at hafter
      exact hafter
    · obtain ⟨t, hmem, hnode⟩ := hread m hm
      have hallows := (hls _ hmem).2
      cases e with
      | tcpRead t' nread data env =>
        obtain rfl : t' = t := hallows
        simp only [uvStep, Option.ite_none_right_eq_some] at hstep
        exact ⟨t', nread, data, env, rfl, hstep.1.1, hnode.symm⟩
      | _ => exact absurd hallows (by simp [UvEvent.Allows])

theorem readersUp_of_reachable (h : poolSystem.Reachable p) : p.table.ReadersUp :=
  table_invariant (I := Table.ReadersUp) (fun _ h => absurd h (by simp))
    (fun _ _ _ hwf hI hact => hact.readersUp hwf hI) h

/-- What a step reports for a TCP node `node` is read on a connection to it, after `node` was
reported up; and the last notification for `node` was an up notification, unless that connection
is shutting down. -/
def ReportedWhileUp (p : Pool) (e : Event) (p' : Pool) : Prop :=
  ∀ node data, (node, data) ∈ (messages p'.internal.trace).drop (messages p.internal.trace).length →
    ∃ t nread bytes env, e = .uv (.tcpRead t nread bytes env) ∧ (p.internal.tcps t).node = node ∧
      true ∈ statuses node p.internal.trace ∧
      (lastStatus node p.internal.trace = some true ∨ (p.internal.tcps t).shutdown = true)

/-- A connection that is not orphaned reports while its node is up or while it shuts down. -/
theorem reportedWhileUp_of_noOrphan (hr : poolSystem.Reachable p) (h : p.NoOrphan)
    (hstep : poolSystem.step p e = some p') : p.ReportedWhileUp e p' := by
  have hwf := wf_of_reachable hr
  have hcases : Step p e p' := step_cases hwf hstep
  intro node data hmem
  obtain ⟨new, hnew, hread⟩ := hcases.reports
  rw [hnew, List.drop_left] at hmem
  obtain ⟨t, nread, bytes, env, rfl, hreading, hnode⟩ := hread _ hmem
  obtain ⟨hreg, hup⟩ := readersUp_of_reachable hr t hreading
  rw [table_trace, isRegistered_visible] at hreg
  rw [table_trace, statuses_visible, table_tcps] at hup
  obtain rfl : (p.internal.tcps t).node = node := hnode
  refine ⟨t, nread, bytes, env, rfl, rfl, hup, ?_⟩
  by_cases hshutdown : (p.internal.tcps t).shutdown = true
  · exact .inr hshutdown
  · -- the connection is the entry of its node
    have hclosing := ((hwf.tcps t).reading hreading).2.2.1
    have hentry := h t hreg hclosing (by simpa using hshutdown)
    have hmirrored := (mirrored_of_reachable hr (p.internal.tcps t).node).last
    rw [table_trace, statuses_visible, table_node2stream, hentry] at hmirrored
    exact .inl (hmirrored.mpr rfl)

end Pool

/-! ## Runs -/

/-- In a run in which no callback calls `shutdownTcpConnection_set_nullptr` on an object while
another object is stored under its node, data for a TCP node is reported only after an up
notification for the node, and while the last notification for it is an up notification or the
connection the data is read from is shutting down. -/
theorem messages_reported_while_up {es : List Event}
    (hes : poolSystem.EachStep (fun p e _ => p.OwnTeardown e) es) :
    poolSystem.EachStep Pool.ReportedWhileUp es := by
  intro pre e post p p' heq hrun hstep
  have hpre : poolSystem.EachStep (fun p e _ => p.OwnTeardown e) pre := by
    subst heq
    exact hes.of_append
  have hnoOrphan : p.NoOrphan := by
    refine hpre.invariant hrun ?_ fun p e p' hr h hown hs => (Pool.noOrphan_step hr h hs).mpr hown
    rintro t ⟨node, hmem⟩
    exact absurd hmem (by simp [poolSystem])
  exact Pool.reportedWhileUp_of_noOrphan (Lib.Lts.reachable_of_run hrun) hnoOrphan hstep

/-- Data read on an open connection. -/
theorem messages_reported_while_up_open :
    poolSystem.EachStep Pool.ReportedWhileUp (openRun 0 ++ [.uv (.tcpRead 0 1 [7] {})]) := by
  have hsend : poolSystem.EachStep (fun p e _ => p.OwnTeardown e) sendRun := by
    rintro pre e post p p' heq - - t t' ⟨e', rfl, -⟩ -
    have hmem : Event.uv e' ∈ sendRun := by
      rw [heq]
      simp
    exact absurd hmem (by simp [sendRun])
  refine messages_reported_while_up ((hsend.concat fun p p' hrun _ => ?_).concat fun p p' _ _ => ?_)
  · rintro t t' ⟨e', he, htorn⟩ -
    obtain rfl := Event.uv.inj he
    have hclosing : ((poolSystem.run sendRun).map fun p => (p.internal.tcps 0).closing) = some false := by
      decide
    rw [hrun, Option.map_some, Option.some.injEq] at hclosing
    exact absurd htorn (by simp [tearsDown, hclosing])
  · rintro t t' ⟨e', he, htorn⟩ -
    obtain rfl := Event.uv.inj he
    exact absurd htorn (by simp [tearsDown, idleTimerFails])

/-- A connection that was closed gracefully, and reported down, reads on. -/
theorem message_after_graceful_close :
    ∃ p p', poolSystem.run (openRun 0 ++ closeRun false) = some p ∧
      poolSystem.step p (.uv (.tcpRead 0 1 [7] {})) = some p' ∧
      lastStatus sampleNode p.internal.trace = some false ∧
      lastStatus sampleNode p'.internal.trace = some false ∧
      messages p'.internal.trace = messages p.internal.trace ++ [(sampleNode, [7])] :=
  ⟨(poolSystem.run _).get (by decide), (poolSystem.step _ _).get (by decide),
    (Option.some_get _).symm, (Option.some_get _).symm, by decide, by decide, by decide⟩

end NetworkPool
