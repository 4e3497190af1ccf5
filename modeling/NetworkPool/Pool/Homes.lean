import NetworkPool.Pool.Orphans

/-!
# Where open objects are

Every open object is a pending connect, a listener of the pool or was entered in `m_node2stream`,
and what was entered there is a connection that came up (`Home`). The exit branch of `on_wakeup`
walks the registries only, so this says which objects it can miss.
-/

namespace NetworkPool

open Table

/-- A connection that came up: its connect callback, if it had one, has run. -/
structure Ctcp.Up (c : Ctcp) : Prop where
  tcpInited : c.tcpInited = true
  connectReq : c.tcp.connectReq = none
  listening : c.tcp.listening = false

namespace Table

/-- The place of `t`, if it is open. -/
structure Home (v : Table) (t : ℕ) : Prop where
  place : (v.tcps t).tcpInited = true → (v.tcps t).closing = false →
    t ∈ v.connecting ∨ v.tcpServers.lookup (v.tcps t).node = some t ∨ IsRegistered t v.trace
  up : IsRegistered t v.trace → (v.tcps t).closing = false → (v.tcps t).Up

def Homed (v : Table) : Prop :=
  ∀ t, v.Home t

variable {v v' : Table} {t : ℕ} {c : Ctcp}

theorem Home.of_closing (h : (v.tcps t).closing = true) : v.Home t where
  place := fun _ hc => absurd (h.symm.trans hc) (by simp)
  up := fun _ hc => absurd (h.symm.trans hc) (by simp)

theorem Home.of_up (hreg : IsRegistered t v.trace) (hup : (v.tcps t).Up) : v.Home t where
  place := fun _ _ => .inr (.inr hreg)
  up := fun _ _ => hup

/-- The object stays where it is. -/
theorem Home.keep (h : v.Home t) (hopen : (v'.tcps t).closing = false → (v.tcps t).closing = false)
    (hnode : (v'.tcps t).node = (v.tcps t).node)
    (htcp : (v'.tcps t).closing = false → (v'.tcps t).tcpInited = (v.tcps t).tcpInited)
    (hup : (v.tcps t).Up → (v'.tcps t).closing = false → (v'.tcps t).Up)
    (hconnecting : t ∈ v.connecting → t ∈ v'.connecting)
    (hserver : v.tcpServers.lookup (v.tcps t).node = some t →
      v'.tcpServers.lookup (v.tcps t).node = some t)
    (hreg : IsRegistered t v'.trace ↔ IsRegistered t v.trace) : v'.Home t where
  place := by
    intro hi hc
    rw [htcp hc] at hi
    rw [hnode, hreg]
    rcases h.place hi (hopen hc) with hin | hin | hin
    · exact .inl (hconnecting hin)
    · exact .inr (.inl (hserver hin))
    · exact .inr (.inr hin)
  up := fun hr hc => hup (h.up (hreg.mp hr) (hopen hc)) hc

/-- Only the object `t₀` and its place change. -/
theorem Homed.update (h : v.Homed) (t₀ : ℕ) (htcps : ∀ t, t ≠ t₀ → v'.tcps t = v.tcps t)
    (hconnecting : ∀ t, t ≠ t₀ → t ∈ v.connecting → t ∈ v'.connecting)
    (hserver : ∀ t node, t ≠ t₀ → v.tcpServers.lookup node = some t →
      v'.tcpServers.lookup node = some t)
    (hreg : ∀ t, t ≠ t₀ → (IsRegistered t v'.trace ↔ IsRegistered t v.trace))
    (hself : v'.Home t₀) : v'.Homed := by
  intro t
  by_cases ht : t = t₀
  · rw [ht]
    exact hself
  · have hobj := htcps t ht
    refine (h t).keep ?_ ?_ ?_ ?_ (hconnecting t ht) (hserver t _ ht) (hreg t ht) <;> rw [hobj]
    · exact id
    · exact fun _ => rfl
    · exact fun hup _ => hup

/-- Entries that enter nothing. -/
theorem Homed.emit (h : v.Homed) {obs : List Obs} (hobs : ∀ t, ¬ IsRegistered t obs) :
    (v.emit obs).Homed := by
  have hreg : ∀ t, IsRegistered t (v.emit obs).trace ↔ IsRegistered t v.trace := fun t =>
    (isRegistered_append t _ _).trans (or_iff_left (hobs t))
  exact h.update 0 (fun _ _ => rfl) (fun _ _ => id) (fun _ _ _ => id) (fun t _ => hreg t)
    ((h 0).keep id rfl (fun _ => rfl) (fun hup _ => hup) id id (hreg 0))

/-- One object is replaced. -/
theorem Homed.setTcp (h : v.Homed) (hself : (v.setTcp t c).Home t) : (v.setTcp t c).Homed :=
  h.update _ (fun _ ht => setTcp_tcps_other v ht) (fun _ _ => id) (fun _ _ _ => id)
    (fun _ _ => Iff.rfl) hself

/-- One object is replaced by one at the same place. -/
theorem Homed.replace (h : v.Homed) (hclosing : c.closing = (v.tcps t).closing)
    (hnode : c.node = (v.tcps t).node)
    (htcp : c.closing = false → c.tcpInited = (v.tcps t).tcpInited)
    (hconnect : c.tcp.connectReq = (v.tcps t).tcp.connectReq)
    (hlistening : c.tcp.listening = (v.tcps t).tcp.listening) : (v.setTcp t c).Homed := by
  refine h.setTcp ((h t).keep ?_ ?_ ?_ ?_ id id Iff.rfl) <;> rw [setTcp_tcps_self]
  · exact fun hc => hclosing.symm.trans hc
  · exact hnode
  · exact htcp
  · exact fun hup hc => ⟨(htcp hc).trans hup.tcpInited, hconnect.trans hup.connectReq,
      hlistening.trans hup.listening⟩

/-- A new object that is not open, or has a place. -/
theorem Homed.add (h : v.Homed) (hself : (v.add c).Home v.nextTcp) : (v.add c).Homed :=
  h.update _ (fun _ ht => setTcp_tcps_other v ht) (fun _ _ => id) (fun _ _ _ => id)
    (fun _ _ => Iff.rfl) hself

theorem isRegistered_teardown (v : Table) (t t' : ℕ) (b : Bool) (c : Ctcp) :
    IsRegistered t' (v.teardown t b c).trace ↔ IsRegistered t' v.trace := by
  simp only [Table.teardown, isRegistered_append, isRegistered_dropCalls, or_false]
  refine or_iff_left ?_
  split_ifs <;> simp [IsRegistered]

theorem Homed.teardown (h : v.Homed) (b : Bool) (hself : (v.teardown t b c).Home t) :
    (v.teardown t b c).Homed :=
  h.update t (fun _ ht => Function.update_of_ne ht _ _) (fun _ _ => id) (fun _ _ _ => id)
    (fun t' _ => isRegistered_teardown v t t' b c) hself

/-- A teardown that closes its object. -/
theorem Homed.close (h : v.Homed) (b : Bool) (hclosing : c.closing = true) :
    (v.teardown t b c).Homed := by
  refine h.teardown b (.of_closing ?_)
  rw [teardown_tcps_self]
  exact hclosing

/-- A connection starts up. -/
theorem Homed.startup {ok : Bool} (h : ∀ t', t' ≠ t → v.Home t') (hup : (v.tcps t).Up)
    (hstart : Startup ok v t v') : v'.Homed := by
  have hclosed : ∀ {c : Ctcp}, c.Up → c.afterClose.closing = true :=
    fun hc => Ctcp.afterClose_closing fun _ => hc.tcpInited
  -- the object and its entry
  have hreg : ∀ {c : Ctcp} {obs : List Obs}, c.Up → (∀ t', ¬ IsRegistered t' obs) →
      (((v.register t).setTcp t c).emit obs).Homed := by
    intro c obs hc hobs
    have htrace : ∀ t', IsRegistered t' (((v.register t).setTcp t c).emit obs).trace ↔
        IsRegistered t' v.trace ∨ t' = t := by
      intro t'
      show IsRegistered t' ((v.trace ++ _) ++ obs) ↔ _
      rw [isRegistered_append, isRegistered_append, or_iff_left (hobs t')]
      refine or_congr Iff.rfl ?_
      simp [IsRegistered, eq_comm]
    intro t'
    by_cases ht : t' = t
    · subst ht
      refine .of_up ((htrace t').mpr (.inr rfl)) ?_
      rw [emit_table_tcps, setTcp_tcps_self]
      exact hc
    · have hobj : (((v.register t).setTcp t c).emit obs).tcps t' = v.tcps t' :=
        setTcp_tcps_other (v.register t) ht
      refine (h t' ht).keep ?_ ?_ ?_ ?_ id id ((htrace t').trans (or_iff_left ht)) <;> rw [hobj]
      · exact id
      · exact fun _ => rfl
      · exact fun hup _ => hup
  cases hstart with
  | taken hlookup =>
    intro t'
    by_cases ht : t' = t
    · subst ht
      refine .of_closing ?_
      rw [setTcp_tcps_self]
      exact hclosed hup
    · refine (h t' ht).keep ?_ ?_ ?_ ?_ id id Iff.rfl <;> rw [setTcp_tcps_other v ht]
      · exact id
      · exact fun _ => rfl
      · exact fun hup _ => hup
  | up hlookup _ =>
    have hself : (v.register t).setTcp t (v.tcps t) = v.register t := by
      simp [Table.setTcp, Table.register]
    have hset := hreg hup fun t' => isRegistered_dropCalls t' (v.tcps t).node
      (v.waiting (v.tcps t).node)
    rw [hself] at hset
    exact hset
  | flush req hlookup => exact hreg ⟨hup.1, hup.2, hup.3⟩ (by simp [IsRegistered])
  | down passed hlookup _ =>
    have hc : (if passed then (v.tcps t).arm .send else v.tcps t).Up := by
      cases passed
      · exact hup
      · exact ⟨hup.1, hup.2, hup.3⟩
    have hpassed : ∀ t', ¬ IsRegistered t' (if passed then
        [.uvWrite t (v.tcps t).node (v.waiting (v.tcps t).node)] else []) := by
      cases passed <;> simp [IsRegistered]
    exact ((hreg hc hpassed).emit fun t' => isRegistered_dropCalls t' _ _).close false (hclosed hc)

end Table

/-- Every action keeps open objects at their places. -/
theorem Act.homed {v v' : Table} {l : Label} (hact : Act v l v') (hwf : v.Wf) (h : v.Homed) :
    v'.Homed := by
  -- an object that is closed, and was open and initialised
  have hclosed : ∀ {c : Ctcp}, c.tcpInited = true → c.afterClose.closing = true :=
    fun hc => Ctcp.afterClose_closing fun _ => hc
  -- an object that does not exist was not entered
  have hnew : ¬ IsRegistered v.nextTcp v.trace := by
    intro hr
    have hfresh := hwf.fresh v.nextTcp le_rfl
    have hup := (h v.nextTcp).up hr (by rw [hfresh])
    rw [hfresh] at hup
    exact absurd hup.tcpInited (by simp)
  -- an object passed to `close_set_nullptr`
  have hafter : ∀ {v' : Table} (t : ℕ), v'.tcps t = (v.tcps t).afterClose →
      (IsRegistered t v'.trace ↔ IsRegistered t v.trace) → v'.Home t := by
    intro v' t heq hreg
    by_cases htcp : (v.tcps t).tcpInited = true
    · refine .of_closing ?_
      rw [heq]
      exact hclosed htcp
    · refine ⟨fun hi => ?_, fun hr hc => ?_⟩
      · rw [heq, Ctcp.afterClose_tcpInited] at hi
        exact absurd hi htcp
      · rw [heq] at hc
        exact absurd ((h t).up (hreg.mp hr) (Ctcp.open_of_afterClose hc)).tcpInited htcp
  cases hact with
  | touch t c hc =>
    obtain ⟨hnode, hclosing, -, hconnect, -, hlistening, -⟩ := hc.same
    refine h.replace hclosing hnode (fun ho => ?_) hconnect hlistening
    exact (hc.inited (hwf.tcps t) (hclosing.symm.trans ho)).1
  | message t data hreading =>
    refine h.emit fun t' => ?_
    rw [isRegistered_visible]
    simp [IsRegistered]
  | written t w hw =>
    have hset : (v.setTcp t ((v.tcps t).takeWrite w)).Homed :=
      h.replace rfl rfl (fun _ => rfl) rfl rfl
    exact hset.emit (by simp [IsRegistered])
  | lost t w hw =>
    have hset : (v.setTcp t ((v.tcps t).takeWrite w)).Homed :=
      h.replace rfl rfl (fun _ => rfl) rfl rfl
    exact hset.emit fun t' => isRegistered_dropCalls t' _ _
  | teardown t hlistening hconnect => exact h.close false (Ctcp.afterClose_closing hconnect)
  | close t node c hlookup hc =>
    have he := hwf.stream node t hlookup
    rcases hc with rfl | ⟨-, env, req, rfl⟩
    · exact h.close false (hclosed he.tcpInited)
    · rcases Ctcp.afterShutdown_cases env req he with heq | heq <;> rw [heq]
      · exact h.close false (hclosed he.tcpInited)
      · refine h.teardown false ((h t).keep ?_ ?_ ?_ ?_ id id (isRegistered_teardown v t t _ _)) <;>
          rw [teardown_tcps_self]
        · exact id
        · exact fun _ => rfl
        · exact fun hup _ => ⟨hup.1, hup.2, hup.3⟩
  | connectFail t armed hreq harmed =>
    obtain ⟨-, htcp, -⟩ := (hwf.tcps t).connectReq hreq
    set c := if armed then (v.tcps t).connectDone.arm .idle else (v.tcps t).connectDone with hc
    have hc' : c.tcpInited = true := by cases armed <;> exact htcp
    refine h.update t (fun t' ht => ?_) (fun t' ht hin => Finset.mem_erase.mpr ⟨ht, hin⟩)
      (fun _ _ _ => id) (fun t' _ => isRegistered_teardown _ t t' _ _) (.of_closing ?_)
    · exact (Function.update_of_ne ht _ _).trans (Function.update_of_ne ht _ _)
    · rw [teardown_tcps_self]
      exact hclosed hc'
  | connectUp t ok v' hreq hclosing hstart =>
    obtain ⟨hlistening, htcp, -⟩ := (hwf.tcps t).connectReq hreq
    refine Homed.startup (fun t' ht => ?_) ?_ hstart
    · have hobj : ({ v with connecting := v.connecting.erase t }.setTcp t
          (((v.tcps t).connectDone.arm .idle).startRead)).tcps t' = v.tcps t' :=
        Function.update_of_ne ht _ _
      refine (h t').keep ?_ ?_ ?_ ?_ (fun hin => Finset.mem_erase.mpr ⟨ht, hin⟩) id Iff.rfl <;>
        rw [hobj]
      · exact id
      · exact fun _ => rfl
      · exact fun hup _ => hup
    · rw [setTcp_tcps_self]
      exact ⟨htcp, rfl, hlistening⟩
  | acceptUp peer ok v' hstart =>
    refine Homed.startup (fun t' ht => ?_) ?_ hstart
    · have hobj : (v.add ((Ctcp.fresh true ⟨.protocolTcp, peer⟩).arm .idle).startRead).tcps t' =
          v.tcps t' := setTcp_tcps_other v ht
      refine (h t').keep ?_ ?_ ?_ ?_ id id Iff.rfl <;> rw [hobj]
      · exact id
      · exact fun _ => rfl
      · exact fun hup _ => hup
    · rw [add_tcps_self]
      exact ⟨rfl, rfl, rfl⟩
  | shutdownDone t hreq =>
    refine h.setTcp (.of_closing ?_)
    rw [setTcp_tcps_self]
    exact hclosed ((hwf.tcps t).shutdownReq hreq).2
  | dead c hc =>
    refine h.add ⟨fun hi ho => ?_, fun hr => absurd hr hnew⟩
    rw [add_tcps_self] at hi ho
    exact absurd ((hc.inited ho).1.symm.trans hi) (by simp)
  | park node b buf hwaiting hlookup => exact fun t => ⟨(h t).place, (h t).up⟩
  | connect node b req htcp hvalid hwaiting hlookup =>
    have hadd : Table.Homed
        { v.add { (Ctcp.fresh true node).arm .connect with tcp := { connectReq := some req } } with
          waitingSend := v.waitingSend.insert node [b]
          connecting := insert v.nextTcp v.connecting } := by
      refine h.update v.nextTcp (fun _ ht => setTcp_tcps_other v ht)
        (fun t _ hin => Finset.mem_insert_of_mem hin) (fun _ _ _ => id) (fun _ _ => Iff.rfl) ?_
      exact ⟨fun _ _ => .inl (Finset.mem_insert_self _ _), fun hr => absurd hr hnew⟩
    exact hadd.emit (by simp [IsRegistered])
  | refuse node b hwaiting hlookup => exact h.emit (by simp [IsRegistered, dropCalls])
  | discard node b => exact h.emit fun t' => isRegistered_dropCalls t' _ _
  | write t node b req hlookup =>
    have hset : (v.setTcp t (((v.tcps t).arm .send).queueWrite ⟨req, [b]⟩)).Homed :=
      h.replace rfl rfl (fun _ => rfl) rfl rfl
    exact hset.emit (by simp [IsRegistered])
  | writeFail t node b passed hlookup =>
    exact h.emit (by cases passed <;> simp [IsRegistered, dropCalls])
  | listen node hserver =>
    refine h.update v.nextTcp (fun _ ht => setTcp_tcps_other v ht) (fun _ _ => id)
      (fun t n ht hin => ?_) (fun _ _ => Iff.rfl) ⟨fun _ _ => ?_, fun hr => absurd hr hnew⟩
    · have hne : n ≠ node := by
        rintro rfl
        exact absurd (hserver.symm.trans hin) (by simp)
      exact (AList.lookup_insert_ne hne).trans hin
    · refine .inr (.inl ?_)
      have hobj := add_tcps_self (v := v) { Ctcp.fresh false node with tcp := { listening := true } }
      exact (congrArg (fun c : Ctcp => (v.tcpServers.insert node v.nextTcp).lookup c.node) hobj).trans
        (AList.lookup_insert _)
  | unlisten node t hserver =>
    refine h.update t (fun _ ht => setTcp_tcps_other _ ht) (fun _ _ => id)
      (fun t' n ht hin => ?_) (fun _ _ => Iff.rfl) ?_
    · have hne : n ≠ node := by
        rintro rfl
        exact ht (Option.some.inj (hin.symm.trans hserver))
      exact (AList.lookup_erase_ne hne).trans hin
    · have htcp : ({ v with tcpServers := v.tcpServers.erase node }.setTcp t
          (v.tcps t).afterClose).tcps t = (v.tcps t).afterClose := setTcp_tcps_self t _
      exact hafter t htcp Iff.rfl
  | notice node hnode => exact h.emit (by simp [IsRegistered])
  | exit batch streams connecting queues tcps hstreams hconnecting hqueues htcps =>
    intro t
    have hreg : IsRegistered t (v.trace ++
        streams.map (fun pair => .callback (.connectionStatus (v.tcps pair.2).node false)) ++
        connecting.map (fun t => .callback (.connectionStatus (v.tcps t).node false)) ++
        queues.flatMap (fun pair => dropCalls pair.1 pair.2) ++
        batch.flatMap (fun pair => dropCalls pair.1 [pair.2])) ↔ IsRegistered t v.trace := by
      simp [IsRegistered, dropCalls]
    rcases htcps t with ⟨-, heq⟩ | ⟨hout, heq⟩
    · exact hafter t heq hreg
    · -- an object outside the registries was entered
      refine ⟨fun hi hc => .inr (.inr (hreg.mpr ?_)), fun hr hc => ?_⟩
      · change (tcps t).tcpInited = true at hi
        change (tcps t).closing = false at hc
        rw [heq] at hi hc
        rcases (h t).place hi hc with hin | hin | hin
        · exact absurd (.inl hin) hout
        · exact absurd (.inr (.inr ⟨_, hin⟩)) hout
        · exact hin
      · change (tcps t).closing = false at hc
        change (tcps t).Up
        rw [heq] at hc ⊢
        exact (h t).up (hreg.mp hr) hc

theorem homed_of_reachable {p : Pool} (hr : poolSystem.Reachable p) : p.table.Homed := by
  refine Pool.table_invariant (I := Table.Homed) (fun t => ⟨by simp, by simp⟩) ?_ hr
  exact fun _ _ _ hwf h hact => hact.homed hwf h

end NetworkPool
