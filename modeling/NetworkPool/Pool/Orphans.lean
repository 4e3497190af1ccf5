import NetworkPool.Pool.Steps

/-!
# Orphaned connections

A connection is orphaned when it was entered in `m_node2stream`, is neither closing nor shutting
down, and is no longer the value stored under its node. `shutdownTcpConnection_set_nullptr`
erases the entry of the node of its argument, whatever object is stored there; the runs without
orphans are exactly those in which it is never called on an object while another one is stored
under the same node (`OwnTeardown`).
-/

namespace NetworkPool

open Table

namespace Table

/-- `t` was entered in the connection map and neither closed nor shut down since. -/
def Live (v : Table) (t : ℕ) : Prop :=
  IsRegistered t v.trace ∧ (v.tcps t).closing = false ∧ (v.tcps t).shutdown = false

/-- Every live connection is stored under its node. -/
def NoOrphan (v : Table) : Prop :=
  ∀ t, v.Live t → v.node2stream.lookup (v.tcps t).node = some t

/-- No other object is stored under the node of `t`. -/
def Own (v : Table) (t : ℕ) : Prop :=
  ∀ t', v.node2stream.lookup (v.tcps t).node = some t' → t' = t

/-- The connection map holds objects that were entered. -/
def EntriesRegistered (v : Table) : Prop :=
  ∀ node t, v.node2stream.lookup node = some t → IsRegistered t v.trace

variable {v v' : Table} {t : ℕ}

/-- Live objects are kept with their entries. -/
theorem NoOrphan.frame (h : v.NoOrphan)
    (hstep : ∀ t, v'.Live t → v.Live t ∧ (v'.tcps t).node = (v.tcps t).node ∧
      (v.node2stream.lookup (v.tcps t).node = some t →
        v'.node2stream.lookup (v.tcps t).node = some t)) : v'.NoOrphan := by
  intro t ht
  obtain ⟨hlive, hnode, hkeep⟩ := hstep t ht
  rw [hnode]
  exact hkeep (h t hlive)

theorem NoOrphan.emit (h : v.NoOrphan) {obs : List Obs} (hobs : ∀ t, ¬ IsRegistered t obs) :
    (v.emit obs).NoOrphan := by
  refine h.frame fun t ht => ⟨⟨?_, ht.2⟩, rfl, id⟩
  exact ((isRegistered_append t _ _).mp ht.1).resolve_right (hobs t)

/-- An object is replaced: by one that is not open, or by one at the same place. -/
theorem NoOrphan.setTcp (h : v.NoOrphan) {c : Ctcp}
    (hc : c.closing = false → c.shutdown = false → c.node = (v.tcps t).node ∧
      (v.tcps t).closing = false ∧ (v.tcps t).shutdown = false) : (v.setTcp t c).NoOrphan := by
  refine h.frame fun t' ⟨hreg, hclosing, hshutdown⟩ => ?_
  by_cases ht : t' = t
  · subst ht
    rw [setTcp_tcps_self] at hclosing hshutdown ⊢
    obtain ⟨hnode, hopen⟩ := hc hclosing hshutdown
    exact ⟨⟨hreg, hopen⟩, hnode, id⟩
  · have hsame : (v.setTcp t c).tcps t' = v.tcps t' := by simp [Table.setTcp, ht]
    rw [hsame] at hclosing hshutdown ⊢
    exact ⟨⟨hreg, hclosing, hshutdown⟩, rfl, id⟩

/-- A new object has not been entered. -/
theorem NoOrphan.add (h : v.NoOrphan) (hwf : v.Wf) (c : Ctcp) : (v.add c).NoOrphan := by
  have hfresh := hwf.fresh v.nextTcp le_rfl
  have hset : (v.setTcp v.nextTcp c).NoOrphan := by
    refine h.frame fun t' ⟨hreg, hclosing, hshutdown⟩ => ?_
    by_cases ht : t' = v.nextTcp
    · subst ht
      have hentry := h v.nextTcp ⟨hreg, by rw [hfresh], by rw [hfresh]⟩
      exact absurd hentry ((hwf.notMem_of_fresh hfresh).1 _)
    · have hsame : (v.setTcp v.nextTcp c).tcps t' = v.tcps t' := by simp [Table.setTcp, ht]
      rw [hsame] at hclosing hshutdown ⊢
      exact ⟨⟨hreg, hclosing, hshutdown⟩, rfl, id⟩
  exact hset.frame fun _ ht => ⟨ht, rfl, id⟩

/-- A teardown of `t` that finds its own entry, or none. -/
theorem NoOrphan.tornDown (h : v.NoOrphan) (hown : v.Own t) (ht : v.TornDown t v') :
    v'.NoOrphan := by
  refine h.frame fun t' ⟨hreg, hclosing, hshutdown⟩ => ?_
  have hne : t' ≠ t := by
    rintro rfl
    rcases ht.closed with hc | hs
    · exact absurd (hc.symm.trans hclosing) (by simp)
    · exact absurd (hs.symm.trans hshutdown) (by simp)
  rw [ht.other t' hne] at hclosing hshutdown ⊢
  have hlive : v.Live t' := ⟨(ht.registered t').mp hreg, hclosing, hshutdown⟩
  refine ⟨hlive, rfl, fun hentry => ?_⟩
  have hnode : (v.tcps t').node ≠ (v.tcps t).node := by
    intro heq
    exact hne (hown t' (heq ▸ hentry))
  rw [ht.node2stream, AList.lookup_erase_ne hnode]
  exact hentry

/-- A teardown of `t` that finds the entry of another object orphans it. -/
theorem TornDown.orphan (ht : v.TornDown t v') (hwf : v.Wf) (hreg : v.EntriesRegistered)
    (hown : ¬ v.Own t) : ¬ v'.NoOrphan := by
  unfold Own at hown
  push Not at hown
  obtain ⟨t', hentry, hne⟩ := hown
  have he := hwf.stream _ t' hentry
  intro h
  have hkept := h t' ⟨(ht.registered t').mpr (hreg _ t' hentry), by rw [ht.other t' hne, he.closing],
    by rw [ht.other t' hne, he.shutdown]⟩
  rw [ht.other t' hne, ht.node2stream, he.node, AList.lookup_erase] at hkept
  exact absurd hkept (by simp)

/-- A connection is entered under a node that has no entry. -/
theorem NoOrphan.register (h : v.NoOrphan)
    (hlookup : v.node2stream.lookup (v.tcps t).node = none) : (v.register t).NoOrphan := by
  intro t' ⟨hreg, hclosing, hshutdown⟩
  show (v.node2stream.insert (v.tcps t).node t).lookup (v.tcps t').node = some t'
  by_cases ht : t' = t
  · rw [ht, AList.lookup_insert]
  · have hold : IsRegistered t' v.trace := by
      refine ((isRegistered_append t' _ _).mp hreg).resolve_right ?_
      simp [IsRegistered, ht]
    have hentry := h t' ⟨hold, hclosing, hshutdown⟩
    have hnode : (v.tcps t').node ≠ (v.tcps t).node := by
      intro heq
      rw [heq, hlookup] at hentry
      exact absurd hentry (by simp)
    rw [AList.lookup_insert_ne hnode]
    exact hentry

/-- An open connection that is not in the map starts up. -/
theorem NoOrphan.startup {ok : Bool} (h : v.NoOrphan) (htcp : (v.tcps t).tcpInited = true)
    (hstart : Startup ok v t v') : v'.NoOrphan := by
  cases hstart with
  | taken hlookup =>
    refine h.setTcp fun hclosing => ?_
    rw [Ctcp.afterClose_closing fun _ => htcp] at hclosing
    exact absurd hclosing (by simp)
  | up hlookup _ => exact (h.register hlookup).emit fun t' => isRegistered_dropCalls t' _ _
  | flush req hlookup =>
    refine NoOrphan.emit ?_ (by simp [IsRegistered])
    exact (h.register hlookup).setTcp fun hclosing hshutdown => ⟨rfl, hclosing, hshutdown⟩
  | down passed hlookup _ =>
    set c := if passed then (v.tcps t).arm .send else v.tcps t with hc
    have hnode : c.node = (v.tcps t).node := by cases passed <;> rfl
    have hinited : c.tcpInited = true := by cases passed <;> exact htcp
    have hset : ((v.register t).setTcp t c).NoOrphan := by
      refine (h.register hlookup).setTcp fun hclosing hshutdown => ?_
      cases passed <;> exact ⟨rfl, hclosing, hshutdown⟩
    have hpassed : ∀ t', ¬ IsRegistered t' (if passed then
        [.uvWrite t (v.tcps t).node (v.waiting (v.tcps t).node)] else []) := by
      cases passed <;> simp [IsRegistered]
    refine ((hset.emit hpassed).emit fun t' => isRegistered_dropCalls t' _ _).tornDown
      (fun t' ht' => ?_)
      (tornDown_teardown false (.inl (Ctcp.afterClose_closing fun _ => hinited)))
    -- the entry is the one just made
    have hentry : (v.node2stream.insert (v.tcps t).node t).lookup c.node = some t' := by
      rwa [emit_table_tcps, emit_table_tcps, setTcp_tcps_self] at ht'
    rw [hnode, AList.lookup_insert] at hentry
    exact (Option.some.inj hentry).symm

end Table

/-- Every action other than a teardown that finds the entry of another object. -/
theorem Act.noOrphan {v v' : Table} {l : Label} (hact : Act v l v') (hwf : v.Wf)
    (hown : ∀ t, l.torn = some t → v.Own t) (h : v.NoOrphan) : v'.NoOrphan := by
  cases hact with
  | touch t c hc =>
    obtain ⟨hnode, hclosing, hshutdown, -⟩ := hc.same
    exact h.setTcp fun ho hs => ⟨hnode, hclosing.symm.trans ho, hshutdown.symm.trans hs⟩
  | message t data hreading =>
    refine h.emit fun t' => ?_
    rw [isRegistered_visible]
    simp [IsRegistered]
  | written t w hw =>
    refine NoOrphan.emit ?_ (by simp [IsRegistered])
    exact h.setTcp fun hclosing hshutdown => ⟨rfl, hclosing, hshutdown⟩
  | lost t w hw =>
    refine NoOrphan.emit ?_ fun t' => isRegistered_dropCalls t' _ _
    exact h.setTcp fun hclosing hshutdown => ⟨rfl, hclosing, hshutdown⟩
  | teardown t hlistening hconnect =>
    exact h.tornDown (hown t rfl) (tornDown_teardown false (.inl (Ctcp.afterClose_closing hconnect)))
  | close t node c hlookup hc =>
    have he := hwf.stream node t hlookup
    refine h.tornDown (fun t' ht' => ?_) (tornDown_teardown false ?_)
    · rw [he.node, hlookup] at ht'
      exact (Option.some.inj ht').symm
    · have hclose := Ctcp.afterClose_closing (c := v.tcps t) fun _ => he.tcpInited
      rcases hc with rfl | ⟨-, env, req, rfl⟩
      · exact .inl hclose
      · rcases Ctcp.afterShutdown_cases env req he with heq | heq <;> rw [heq]
        · exact .inl hclose
        · exact .inr rfl
  | connectFail t armed hreq harmed =>
    exact h.tornDown (hown t rfl) ((Act.connectFail t armed hreq harmed).tornDown hwf rfl)
  | connectUp t ok v' hreq hclosing hstart =>
    obtain ⟨-, htcp, -⟩ := (hwf.tcps t).connectReq hreq
    have herase : Table.NoOrphan { v with connecting := v.connecting.erase t } := h
    have hset := herase.setTcp (t := t) (c := ((v.tcps t).connectDone.arm .idle).startRead)
      fun hopen hshutdown => ⟨rfl, hopen, hshutdown⟩
    refine hset.startup ?_ hstart
    rw [setTcp_tcps_self]
    exact htcp
  | acceptUp peer ok v' hstart =>
    refine (h.add hwf _).startup ?_ hstart
    rw [add_tcps_self]
    rfl
  | shutdownDone t hreq =>
    obtain ⟨hshutdown, -⟩ := (hwf.tcps t).shutdownReq hreq
    refine h.setTcp fun _ hs => ?_
    rw [Ctcp.afterClose_shutdown] at hs
    exact absurd (hshutdown.symm.trans hs) (by simp)
  | dead c hc => exact h.add hwf c
  | park node b buf hwaiting hlookup => exact h
  | connect node b req htcp hvalid hwaiting hlookup =>
    have hadd : ∀ c, (v.add c).NoOrphan := h.add hwf
    exact NoOrphan.emit (hadd _) (by simp [IsRegistered])
  | refuse node b hwaiting hlookup => exact h.emit (by simp [IsRegistered, dropCalls])
  | discard node b => exact h.emit fun t' => isRegistered_dropCalls t' _ _
  | write t node b req hlookup =>
    refine NoOrphan.emit ?_ (by simp [IsRegistered])
    exact h.setTcp fun hclosing hshutdown => ⟨rfl, hclosing, hshutdown⟩
  | writeFail t node b passed hlookup =>
    exact h.emit (by cases passed <;> simp [IsRegistered, dropCalls])
  | listen node hserver => exact h.add hwf _
  | unlisten node t hserver =>
    -- a listener was never entered
    refine NoOrphan.setTcp (v := { v with tcpServers := _ }) h fun hclosing hshutdown => ?_
    rw [Ctcp.afterClose_shutdown] at hshutdown
    exact ⟨Ctcp.afterClose_node _, Ctcp.open_of_afterClose hclosing, hshutdown⟩
  | notice node hnode => exact h.emit (by simp [IsRegistered])
  | exit batch streams connecting queues tcps hstreams hconnecting hqueues htcps =>
    rintro t ⟨hreg, hclosing, hshutdown⟩
    change (tcps t).closing = false at hclosing
    change (tcps t).shutdown = false at hshutdown
    have hold : IsRegistered t v.trace := by
      simpa [IsRegistered, dropCalls] using hreg
    rcases htcps t with ⟨hin, heq⟩ | ⟨hout, heq⟩ <;> rw [heq] at hclosing hshutdown
    · -- a live connection has its entry, so it was closed
      rw [Ctcp.afterClose_shutdown] at hshutdown
      have hentry := h t ⟨hold, Ctcp.open_of_afterClose hclosing, hshutdown⟩
      have htcp := (hwf.stream _ t hentry).tcpInited
      rw [Ctcp.afterClose_closing fun _ => htcp] at hclosing
      exact absurd hclosing (by simp)
    · exact absurd (.inr (.inl ⟨_, h t ⟨hold, hclosing, hshutdown⟩⟩)) hout

/-- The entries of the map were entered. -/
theorem Table.Startup.entriesRegistered {ok : Bool} {t : ℕ} {v v' : Table}
    (hstart : Startup ok v t v') (h : v.EntriesRegistered) : v'.EntriesRegistered := by
  have hreg : (v.register t).EntriesRegistered := by
    intro node t' ht'
    rcases Lib.AssocMap.of_lookup_insert ht' with ⟨rfl, rfl⟩ | ⟨-, ht'⟩
    · exact ⟨(v.tcps t').node, by simp [Table.register]⟩
    · exact (h node t' ht').mono (List.prefix_append _ _)
  cases hstart with
  | taken hlookup => exact h
  | up hlookup _ => exact fun node t' ht' => (hreg node t' ht').mono (trace_prefix_emit _ _)
  | flush req hlookup =>
    intro node t' ht'
    exact (hreg node t' ht').mono (trace_prefix_emit ((v.register t).setTcp t _) _)
  | down passed hlookup _ =>
    intro node t' ht'
    refine (hreg node t' (Lib.AssocMap.of_lookup_erase ht').2).mono ?_
    exact (trace_prefix_emit ((v.register t).setTcp t _) _).trans
      ((trace_prefix_emit _ _).trans (trace_prefix_teardown _ _ _ _))

theorem Act.entriesRegistered {v v' : Table} {l : Label} (hact : Act v l v')
    (h : v.EntriesRegistered) : v'.EntriesRegistered := by
  have htrace := hact.trace_prefix
  have hkeep : (∀ node t, v'.node2stream.lookup node = some t → v.node2stream.lookup node = some t) →
      v'.EntriesRegistered := fun hmap node t ht => (h node t (hmap node t ht)).mono htrace
  cases hact with
  | teardown t hlistening hconnect => exact hkeep fun _ _ ht => (Lib.AssocMap.of_lookup_erase ht).2
  | close t node c hlookup hc => exact hkeep fun _ _ ht => (Lib.AssocMap.of_lookup_erase ht).2
  | connectFail t armed hreq harmed => exact hkeep fun _ _ ht => (Lib.AssocMap.of_lookup_erase ht).2
  | connectUp t ok v' hreq hclosing hstart =>
    refine hstart.entriesRegistered fun node t' ht' => ?_
    exact h node t' ht'
  | acceptUp peer ok v' hstart =>
    refine hstart.entriesRegistered fun node t' ht' => ?_
    exact h node t' ht'
  | exit => exact hkeep fun _ _ ht => absurd ht (by simp)
  | _ => exact hkeep fun _ _ ht => ht

theorem Acts.noOrphan {v v' : Table} {ls : List Label} (hacts : Acts v ls v') (hwf : v.Wf)
    (hls : ∀ l ∈ ls, l.torn = none) (h : v.NoOrphan) : v'.NoOrphan := by
  induction hacts with
  | nil => exact h
  | cons hact _ ih =>
    have hown := hls _ (List.mem_cons_self ..)
    refine ih (hact.wf hwf) (fun l hl => hls l (List.mem_cons_of_mem _ hl)) ?_
    exact hact.noOrphan hwf (fun t ht => absurd (hown.symm.trans ht) (by simp)) h

/-! ## Quiet actions -/

section Quiet

variable {v v' : Table} {t : ℕ}

theorem Table.NoOrphan.of_sameRegistries (h : v.NoOrphan) (hsame : v.SameRegistries v') :
    v'.NoOrphan := by
  refine h.frame fun t ⟨hreg, hclosing, hshutdown⟩ => ?_
  obtain ⟨hnode, hc, hs⟩ := hsame.object t
  refine ⟨⟨(hsame.registered t).mp hreg, hc.symm.trans hclosing, hs.symm.trans hshutdown⟩, hnode, ?_⟩
  rw [hsame.node2stream]
  exact id

theorem Table.SameRegistries.own_iff (hsame : v.SameRegistries v') : v'.Own t ↔ v.Own t := by
  unfold Table.Own
  rw [hsame.node2stream, (hsame.object t).1]

theorem Table.EntriesRegistered.of_sameRegistries (h : v.EntriesRegistered)
    (hsame : v.SameRegistries v') : v'.EntriesRegistered := by
  intro node t ht
  rw [hsame.node2stream] at ht
  exact (hsame.registered t).mpr (h node t ht)

end Quiet

/-! ## Pools -/

namespace Pool

/-- No connection of the pool is orphaned: a `Ctcp` that was entered in `m_node2stream`, and is
neither closing nor shutting down, is the value stored under its own node. -/
def NoOrphan (p : Pool) : Prop :=
  ∀ t, IsRegistered t p.internal.trace → (p.internal.tcps t).closing = false →
    (p.internal.tcps t).shutdown = false →
      p.internal.node2stream.lookup (p.internal.tcps t).node = some t

/-- If the event is a callback that calls `shutdownTcpConnection_set_nullptr` on an object, no
other object is stored under the node of that object. -/
def OwnTeardown (p : Pool) (e : Event) : Prop :=
  ∀ t t', p.Tears e t →
    p.internal.node2stream.lookup (p.internal.tcps t).node = some t' → t' = t

/-- If the event is a callback that tears down `t`, the entries of other objects stay. -/
def KeepsOthers (p : Pool) (e : Event) (p' : Pool) : Prop :=
  ∀ t node t', p.Tears e t → t' ≠ t →
    p.internal.node2stream.lookup node = some t' → p'.internal.node2stream.lookup node = some t'

variable {p p' : Pool} {e : Event}

theorem noOrphan_table : p.NoOrphan ↔ p.table.NoOrphan := by
  unfold NoOrphan Table.NoOrphan Table.Live
  simp only [table_trace, isRegistered_visible, table_tcps, table_node2stream, and_imp]

theorem entriesRegistered_of_reachable (h : poolSystem.Reachable p) : p.table.EntriesRegistered :=
  table_invariant (I := Table.EntriesRegistered) (fun _ _ h => absurd h (by simp))
    (fun _ _ _ _ hI hact => hact.entriesRegistered hI) h

/-- A step keeps every connection in its place exactly when it tears down nothing but its own
entry. -/
theorem noOrphan_step (hr : poolSystem.Reachable p) (h : p.NoOrphan)
    (hstep : poolSystem.step p e = some p') : p'.NoOrphan ↔ p.OwnTeardown e := by
  have hwf := wf_of_reachable hr
  have hcases := step_cases hwf hstep
  rw [noOrphan_table] at h ⊢
  by_cases htears : ∃ t, p.Tears e t
  · obtain ⟨t, ht⟩ := htears
    obtain ⟨v₁, hsame, hwf₁, htorn⟩ := hcases.tornDown hwf ht
    have hown : p.OwnTeardown e ↔ v₁.Own t := by
      rw [hsame.own_iff]
      refine ⟨fun h t' => h t t' ht, fun h t₁ t' ht₁ => ?_⟩
      obtain ⟨e', rfl, he⟩ := ht
      obtain ⟨e₁, heq, he₁⟩ := ht₁
      obtain rfl := Event.uv.inj heq
      obtain rfl : t = t₁ := Option.some.inj (he.symm.trans he₁)
      exact h t'
    rw [hown]
    constructor
    · intro hkeep
      by_contra hnot
      exact htorn.orphan hwf₁ ((entriesRegistered_of_reachable hr).of_sameRegistries hsame) hnot hkeep
    · intro hyes
      exact (h.of_sameRegistries hsame).tornDown hyes htorn
  · push Not at htears
    obtain ⟨ls, hacts, hls⟩ := hcases.acts_of_not_tears htears
    exact iff_of_true (hacts.noOrphan hwf hls h) fun t _ ht => absurd ht (htears t)

/-- A step leaves the entries of other objects alone exactly when it tears down nothing but its
own entry. -/
theorem keepsOthers_step (hr : poolSystem.Reachable p) (hstep : poolSystem.step p e = some p') :
    p.KeepsOthers e p' ↔ p.OwnTeardown e := by
  have hwf := wf_of_reachable hr
  have hmap : ∀ t, p.Tears e t →
      p'.internal.node2stream = p.internal.node2stream.erase (p.internal.tcps t).node := by
    intro t ht
    obtain ⟨v₁, hsame, -, htorn⟩ := (step_cases hwf hstep).tornDown hwf ht
    have herase := htorn.node2stream
    rwa [hsame.node2stream, (hsame.object t).1] at herase
  constructor
  · intro h t t' ht hentry
    by_contra hne
    have hkept := h t _ t' ht hne hentry
    rw [hmap t ht, AList.lookup_erase] at hkept
    exact absurd hkept (by simp)
  · intro h t node t' ht hne hentry
    have hnode : node ≠ (p.internal.tcps t).node := by
      rintro rfl
      exact hne (h t t' ht hentry)
    rw [hmap t ht, AList.lookup_erase_ne hnode]
    exact hentry

end Pool

/-! ## Orphans -/

/-- In a run, no connection is ever orphaned exactly when no callback calls
`shutdownTcpConnection_set_nullptr` on an object while another object is stored under its node;
and under the same condition, no such callback removes the entry of another object. -/
theorem no_orphan_iff_own_teardown (es : List Event) :
    (poolSystem.EachState Pool.NoOrphan es ↔
      poolSystem.EachStep (fun p e _ => p.OwnTeardown e) es) ∧
    (poolSystem.EachStep Pool.KeepsOthers es ↔
      poolSystem.EachStep (fun p e _ => p.OwnTeardown e) es) := by
  constructor
  · refine Lib.Lts.eachState_iff_eachStep ?_ (fun p e p' hr h hs => Pool.noOrphan_step hr h hs) es
    rintro t ⟨node, hmem⟩
    exact absurd hmem (by simp [poolSystem])
  · exact Lib.Lts.eachStep_congr (fun p e p' hr hs => Pool.keepsOthers_step hr hs) es

/-- The peer of a connection that is shutting down closes it after a new connection to the node
has come up: the new connection is orphaned. -/
theorem orphan_after_graceful_close :
    ∃ p p', poolSystem.run (openRun 0 ++ closeRun false ++ openRun 1) = some p ∧
      poolSystem.step p (.uv (.tcpRead 0 uvEof [] {})) = some p' ∧
      p.internal.node2stream.lookup sampleNode = some 1 ∧
      p'.internal.node2stream.lookup sampleNode = none ∧ ¬ p'.NoOrphan := by
  refine ⟨(poolSystem.run _).get (by decide), (poolSystem.step _ _).get (by decide),
    (Option.some_get _).symm, (Option.some_get _).symm, by decide, by decide, fun h => ?_⟩
  have hentry := h 1 ⟨sampleNode, by decide⟩ (by decide) (by decide)
  exact absurd hentry (by decide)

end NetworkPool
