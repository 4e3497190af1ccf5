import NetworkPool.Lib.Log
import NetworkPool.Pool.HandleLifecycle

/-!
# Registered connections are usable

What `m_node2stream` holds is open and connected. Every `uv_write` and `uv_shutdown`, and every
`uv_timer_start` with the send timeout, is made on such a connection: an object that was entered
in the map and on no handle of which `uv_close` or `uv_shutdown` was called before.
-/

namespace NetworkPool

open Table
open Lib (EachEntry)

/-! ## Open connections -/

/-- After `tr`, `t` is a connection that came up and that nothing was done to end. -/
structure OpenAt (t : ℕ) (tr : List Obs) : Prop where
  registered : IsRegistered t tr
  /-- Neither handle was passed to `uv_close`, and the object was not deleted. -/
  life : ∀ o ∈ tr, o.about t = false
  shutdown : .uvShutdown t ∉ tr

/-- The calls for connections are made on open connections. -/
def UsesOpen (tr : List Obs) : Prop :=
  EachEntry (fun a o => ∀ t, o.uses t = true → OpenAt t a) tr

/-- What keeps `UsesOpen`: an open object was not shut down. -/
structure OpenUse (s : Internal) : Prop where
  uses : UsesOpen s.trace
  shutdown : ∀ t, (s.tcps t).closing = false → (s.tcps t).shutdown = false →
    .uvShutdown t ∉ s.trace

/-- A handle that is not closing has no history. -/
theorem Internal.Life.untouched {s : Internal} (h : s.Life) {t : ℕ}
    (htcp : (s.tcps t).tcpInited = true) (hclosing : (s.tcps t).closing = false) :
    ∀ o ∈ s.trace, o.about t = false := by
  have hhistory := h.history t (h.lt_nextTcp htcp)
  rw [(Ctcp.history_afterClose (h.flags t) t htcp hclosing).1] at hhistory
  intro o ho
  simpa using List.filter_eq_nil_iff.mp hhistory o ho

theorem Internal.Usable.openAt {s : Internal} {t : ℕ} (h : s.Usable t) (hlife : s.Life)
    (huse : OpenUse s) : OpenAt t s.trace where
  registered := h.registered
  life := hlife.untouched h.established.tcpInited h.established.closing
  shutdown := huse.shutdown t h.established.closing h.established.shutdown

/-- Every call keeps it. -/
theorem Call.openUse {σ σ' : Scope} (hcall : Call σ σ') (hlife : σ.internal.Life)
    (h : OpenUse σ.internal) : OpenUse σ'.internal := by
  obtain ⟨obs, htrace, happends⟩ := hcall.appends
  have hgrows := hcall.grows hlife
  -- entries that start no timer concern no connection
  have huntimed : ∀ {obs : List Obs}, Untimed obs → ∀ o ∈ obs, ∀ a : List Obs, ∀ t,
      o.uses t = true → OpenAt t a := by
    intro obs hobs o ho a t huse
    exact absurd ((hobs o ho t).symm.trans (Obs.timed_of_uses huse)) (by simp)
  -- an object that is open after the call was open before it
  have hopen : ∀ t, (σ'.internal.tcps t).closing = false → (σ'.internal.tcps t).shutdown = false →
      .uvShutdown t ∉ σ.internal.trace := by
    intro t hclosing hshutdown
    refine h.shutdown t ?_ ?_
    · by_contra hc
      exact absurd (hclosing.symm.trans ((hgrows t).closing (by simpa using hc))) (by simp)
    · by_contra hs
      exact absurd (hshutdown.symm.trans ((hgrows t).shutdown (by simpa using hs))) (by simp)
  cases happends with
  | untimed hobs =>
    constructor
    · rw [htrace]
      exact h.uses.append (huntimed hobs)
    · intro t hclosing hshutdown hmem
      rw [htrace] at hmem
      rcases List.mem_append.mp hmem with hmem | hmem
      · exact hopen t hclosing hshutdown hmem
      · exact absurd (hobs _ hmem t) (by simp [Obs.timed])
  | timed t o rest ho hrest husable hshut =>
    constructor
    · rw [htrace, List.append_cons]
      refine EachEntry.append (h.uses.concat fun t' huse => ?_) (huntimed hrest)
      obtain rfl := Obs.timed_unique ho (Obs.timed_of_uses huse)
      exact (husable huse).openAt hlife h
    · intro t' hclosing hshutdown hmem
      rw [htrace] at hmem
      rcases List.mem_append.mp hmem with hmem | hmem
      · exact hopen t' hclosing hshutdown hmem
      · rcases List.mem_cons.mp hmem with hfirst | hmem
        · obtain rfl : t = t' := Obs.timed_unique ho (by rw [← hfirst]; simp [Obs.timed])
          rcases hshut hfirst.symm with hc | hs
          · exact absurd (hclosing.symm.trans hc) (by simp)
          · exact absurd (hshutdown.symm.trans hs) (by simp)
        · exact absurd (hrest _ hmem t') (by simp [Obs.timed])

/-! ## Reachable pools -/

section Reachable

variable {p : Pool}

theorem openUse_of_reachable (hr : poolSystem.Reachable p) : OpenUse p.internal :=
  Pool.call_invariant (I := fun σ => OpenUse σ.internal)
    ⟨EachEntry.nil _, fun _ _ _ => by simp⟩ (fun _ _ hlife h hcall => hcall.openUse hlife h) hr

/-- **Registered connections are usable.** The object stored under a node has that node, is neither
closing nor shut down, and is no pending connect; and each time the pool has called `uv_write`,
`uv_shutdown` or `uv_timer_start` for a send, it was on an open connection. -/
theorem registered_connections_usable (hr : poolSystem.Reachable p) :
    (∀ node t, p.internal.node2stream.lookup node = some t →
      (p.internal.tcps t).node = node ∧ (p.internal.tcps t).closing = false ∧
        (p.internal.tcps t).shutdown = false ∧ t ∉ p.internal.connecting) ∧
    UsesOpen p.internal.trace := by
  refine ⟨fun node t hlookup => ?_, (openUse_of_reachable hr).uses⟩
  have hwf := Pool.wf_of_reachable hr
  have he := hwf.stream node t hlookup
  refine ⟨he.node, he.closing, he.shutdown, fun hconnecting => ?_⟩
  exact hwf.not_stream (hwf.connecting t hconnecting) node hlookup

/-- A message is written on a connection that is closed gracefully later. -/
theorem registered_connections_usable_closed :
    ∃ p, poolSystem.run (openRun 0 ++ closeRun false) = some p ∧
      .uvShutdown 0 ∈ p.internal.trace ∧ UsesOpen p.internal.trace := by
  have hrun := (Option.some_get (x := poolSystem.run (openRun 0 ++ closeRun false))
    (by decide)).symm
  exact ⟨_, hrun, by decide,
    (registered_connections_usable (Lib.Lts.reachable_of_run hrun)).2⟩

end Reachable

end NetworkPool
