import NetworkPool.Pool.Notifications
import NetworkPool.Server.Routing

/-!
# Contexts and connections

`m_context` of the server has an entry for each entry of `m_node2stream` of the pool, as soon as
the callbacks of the pool were made: the server follows the notifications, and these mirror the
map. A new connection of a node gets a new context, so nothing that an earlier connection left
behind is parsed with its data.
-/

namespace NetworkPool

namespace System

variable {n : ℕ} {σ σ' : System}

/-- `done` are the calls of the callback interface that were made. The server has a context for
the nodes they left connected. -/
structure Follows (σ : System) (done : List Callback) : Prop where
  made : calls σ.pool.internal.trace = done ++ σ.callbacks
  context : ∀ node, node ∈ σ.server.context ↔
    lastStatus node (done.map Obs.callback) = some true

/-- Steps that make no callback and add none. -/
theorem Follows.congr {done : List Callback} (h : σ.Follows done)
    (hinternal : σ'.pool.internal = σ.pool.internal) (hcallbacks : σ'.callbacks = σ.callbacks)
    (hcontext : σ'.server.context = σ.server.context) : σ'.Follows done := by
  constructor
  · rw [hinternal, hcallbacks]
    exact h.made
  · rw [hcontext]
    exact h.context

/-- The next callback is made. -/
theorem lastStatus_append_callback (node : CnetworkNode) (done : List Callback) (c : Callback) :
    lastStatus node ((done ++ [c]).map Obs.callback) =
      (statusOf node (.callback c)).or (lastStatus node (done.map Obs.callback)) := by
  unfold lastStatus
  rw [List.map_append, statuses_append, List.map_singleton, statuses_cons, statuses_nil,
    List.append_nil, List.getLast?_append]
  cases statusOf node (.callback c) with
  | none => rfl
  | some b => rfl

theorem Follows.callback {c : Callback} {callbacks done : List Callback}
    {acts : List (CnetworkNode × HttpAct)} {server : ChttpServer} (h : σ.Follows done)
    (hcallbacks : σ.callbacks = c :: callbacks)
    (hcall : ChttpServer.Called c σ.server acts server) :
    Follows { σ with server := server, callbacks := callbacks, acts := acts } (done ++ [c]) := by
  constructor
  · show calls σ.pool.internal.trace = done ++ [c] ++ callbacks
    rw [h.made, hcallbacks, List.append_assoc, List.singleton_append]
  · intro node
    rw [lastStatus_append_callback]
    apply (hcall.context node).trans
    by_cases hstatus : ∃ b, c = .connectionStatus node b
    · -- the notification decides
      obtain ⟨b, rfl⟩ := hstatus
      simp [statusOf]
    · have hne : ∀ b, c ≠ .connectionStatus node b := fun b heq => hstatus ⟨b, heq⟩
      have hnone : statusOf node (.callback c) = none := by
        cases c with
        | connectionStatus other b =>
          have hother : other ≠ node := by
            rintro rfl
            exact hne b rfl
          simp [statusOf, hother]
        | _ => rfl
      have hup : ¬ ∃ b, c = .connectionStatus node b ∧ b = true := by
        rintro ⟨b, heq, -⟩
        exact hne b heq
      rw [hnone, Option.none_or, ← h.context node]
      exact ⟨fun h => (h.resolve_left hup).2, fun h => .inr ⟨hne, h⟩⟩

/-- The server follows the notifications in every reachable state. -/
theorem follows_of_reachable (h : (serverSystem n).Reachable σ) : ∃ done, σ.Follows done := by
  induction h with
  | init => exact ⟨[], rfl, fun node => by simp [serverSystem, lastStatus]⟩
  | @step σ e σ' hr hstep ih =>
    obtain ⟨done, h⟩ := ih
    cases step_cases hstep with
    | pool pe p hpe hidle =>
      refine ⟨done, ?_, h.context⟩
      show calls p.internal.trace = done ++ (σ.callbacks ++ calls (σ.pool.appended p))
      rw [Pool.trace_appended (reachable_pool hr) hpe, calls_append, h.made, List.append_assoc]
    | callback garbage newTask c callbacks acts server hacts hcallbacks hcall =>
      exact ⟨done ++ [c], h.callback hcallbacks hcall⟩
    | _ => exact ⟨done, h.congr rfl rfl rfl⟩

/-- The notifications made so far, and those that are left. -/
theorem Follows.statuses {done : List Callback} (h : σ.Follows done) (node : CnetworkNode) :
    statuses node σ.pool.internal.trace =
      NetworkPool.statuses node (done.map Obs.callback) ++
        NetworkPool.statuses node (σ.callbacks.map Obs.callback) := by
  rw [← statuses_calls, h.made, List.map_append, statuses_append]

/-- **Contexts mirror connections.** In every reachable state of the server, with any number of
threads and any interleaving, there is a context for a node exactly when the callbacks made so far
left it connected; once all were made, exactly when the pool has a connection for it. A connection
that is announced finds no context of an earlier one, and gets a new one. -/
theorem contexts_mirror_connections (h : (serverSystem n).Reachable σ) :
    (∃ made, calls σ.pool.internal.trace = made ++ σ.callbacks ∧
      ∀ node, node ∈ σ.server.context ↔ lastStatus node (made.map Obs.callback) = some true) ∧
      (σ.callbacks = [] →
        ∀ node, node ∈ σ.server.context ↔ node ∈ σ.pool.internal.node2stream) ∧
      ∀ node callbacks garbage newTask σ',
        σ.callbacks = .connectionStatus node true :: callbacks →
        σ.step n (.callback garbage newTask) = some σ' →
        node ∉ σ.server.context ∧ σ'.server.context.lookup node = some (.new 0x1000000) := by
  obtain ⟨made, hfollows⟩ := follows_of_reachable h
  have hok : ∀ node, StatusOk (σ.pool.internal.node2stream.lookup node).isSome
      (statuses node σ.pool.internal.trace) := by
    intro node
    have hmirrored := Pool.mirrored_of_reachable (reachable_pool h) node
    rwa [table_trace, statuses_visible] at hmirrored
  refine ⟨⟨made, hfollows.made, hfollows.context⟩, ?_, ?_⟩
  · intro hnil node
    have hmade := hfollows.statuses node
    rw [hnil, List.map_nil, statuses_nil, List.append_nil] at hmade
    rw [hfollows.context node, lastStatus, ← hmade, (hok node).last]
    exact AList.lookup_isSome
  · intro node callbacks garbage newTask σ' hnext hstep
    have hnew : node ∉ σ.server.context := by
      rw [hfollows.context node]
      intro hlast
      -- there would be two ups in a row
      have hchain := (hok node).chain
      rw [hfollows.statuses node, hnext, List.map_cons, statuses_cons] at hchain
      have hends := (List.isChain_append.mp hchain).2.2
      exact hends true hlast true (by simp [statusOf]) ⟨rfl, rfl⟩
    refine ⟨hnew, ?_⟩
    have hacts : σ.acts = [] := by
      cases step_cases hstep with
      | callback _ _ _ _ _ _ hacts => exact hacts
      | idle _ _ _ hevent => exact absurd hevent (by simp)
    obtain ⟨-, hstep⟩ := step_eq_some.mp hstep
    simp only [advance, hacts, hnext, ChttpServer.callback, Option.some.injEq] at hstep
    rw [← hstep]
    show (σ.server.connectionStatus node true).context.lookup node = some (.new 0x1000000)
    unfold ChttpServer.connectionStatus
    rw [if_pos rfl, if_neg hnew]
    exact AList.lookup_insert _

/-- A connection that was announced. -/
theorem contexts_mirror_connections_served :
    ∃ σ, (serverSystem 1).run serveRun = some σ ∧
      sampleNode ∈ σ.pool.internal.node2stream ∧ sampleNode ∈ σ.server.context := by
  have hrun := (Option.some_get (x := (serverSystem 1).run serveRun) (by decide)).symm
  set σ := ((serverSystem 1).run serveRun).get (by decide) with hσ
  obtain ⟨hcallbacks, hstored⟩ :
      σ.callbacks = [] ∧ sampleNode ∈ σ.pool.internal.node2stream := by
    rw [hσ]
    decide
  exact ⟨σ, hrun, hstored, ((contexts_mirror_connections
    (Lib.Lts.reachable_of_run hrun)).2.1 hcallbacks sampleNode).mpr hstored⟩

end System

end NetworkPool
