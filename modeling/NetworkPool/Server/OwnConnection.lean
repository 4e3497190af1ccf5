import NetworkPool.Server.Responses

/-!
# A response stays on the connection of its request

What keeps a response to one node on its connection, whatever happens to the other nodes: that no
connection is entered for the node while the response is under way, and that data of the node is
not read from one connection while another is stored (`SeparateAt`). `cancelTask` comes too late
where `run` is past the test of the flag, and `on_wakeup` looks for the connection by the node
alone, so a response can go to a later connection of the same node (`response_on_later_connection`).
-/

namespace NetworkPool

open Lib.CString

namespace System

variable {n : ℕ} {σ σ' : System} {e : SystemEvent}

/-! ## Responses to a node -/

/-- The step reads no data of `node` from one connection while another is stored under it, and
enters a connection for `node` only where no response to it is under way. -/
def SeparateAt (node : CnetworkNode) (σ : System) : SystemEvent → System → Prop
  | .pool e, σ' =>
    (∀ t, Pool.receives e = some t → (σ.pool.internal.tcps t).node = node →
      ∀ t', σ.stream node = some t' → t' = t) ∧
      ∀ t, .registered t node ∈ σ.pool.appended σ'.pool → ¬ σ.UnderWay node
  | _, _ => True

/-- The responses to requests of `node` were passed to `uv_write`, if at all, on the connections
whose reads completed the requests. -/
def OnOwnConnection (node : CnetworkNode) (σ : System) : Prop :=
  ∀ task b, .send task b.base ∈ σ.replies → (σ.server.heap task).node = node →
    ∀ t peer buf, .uvWrite t peer buf ∈ σ.pool.internal.trace → b ∈ buf →
      t = (σ.server.heap task).reader

/-- **A response stays on the connection of its request.** Whatever happens to other nodes, for any
number of threads and any interleaving, the responses to a node are on the connections of their
requests in every state of a run whose steps are separate for the node. -/
theorem response_on_own_connection (n : ℕ) (node : CnetworkNode) (es : List SystemEvent)
    (hsep : (serverSystem n).EachStep (SeparateAt node) es) :
    (serverSystem n).EachState (OnOwnConnection node) es := by
  intro pre post σ hes hrun
  rw [hes] at hsep
  have hhomed : Homed (fun node' => node' = node) σ := by
    refine hsep.of_append.invariant hrun homed_init fun s e s' hr hI hC hs => homed_step hr hI ?_ hs
    rintro pe rfl
    refine ⟨?_, ?_⟩
    · rintro t ht rfl t' ht'
      exact hC.1 t ht rfl t' ht'
    · rintro t _ rfl
      exact hC.2 t
  intro task b hsend hnode t peer buf hwrite hb
  exact (hhomed.passed t peer buf hwrite b hb).2 task hsend hnode

/-! ## Runs that reconnect -/

/-- A test for `UnderWay`: no thread is past the flag, and no message waits. -/
def quiets (σ : System) (node : CnetworkNode) : Bool :=
  (List.range σ.workQueue.created).all (fun i => σ.runs i != .checked) &&
    σ.pool.pendingMessages.isEmpty && σ.pool.batchMessages.isEmpty &&
      (σ.pool.table.waiting node).isEmpty

theorem not_underWay_of_quiets {node : CnetworkNode} (hr : (serverSystem n).Reachable σ)
    (h : σ.quiets node = true) : ¬ σ.UnderWay node := by
  simp only [quiets, Bool.and_eq_true, List.isEmpty_iff, List.all_eq_true, List.mem_range] at h
  obtain ⟨⟨⟨hruns, hpending⟩, hbatch⟩, hwaiting⟩ := h
  rintro (⟨i, entry, hi, hrun, -⟩ | ⟨task, b, -, hway⟩)
  · have hlt : i < σ.workQueue.created := by
      by_contra hge
      have hunborn := ((reachable_registered hr).1.unborn i).mpr (by omega)
      exact absurd (hi.symm.trans hunborn) (by simp)
    exact absurd (hruns i hlt) (by simp [hrun])
  · rcases hway with hin | hin | hin
    · rw [hpending] at hin
      exact absurd hin List.not_mem_nil
    · rw [hbatch] at hin
      exact absurd hin List.not_mem_nil
    · rw [hwaiting] at hin
      exact absurd hin List.not_mem_nil

/-- A test for `SeparateAt`. -/
def separatesAt (node : CnetworkNode) (σ : System) : SystemEvent → System → Bool
  | .pool e, σ' =>
    (Pool.receives e).all (fun t => (σ.stream node).all (· == t)) &&
      ((σ.pool.appended σ'.pool).all (fun o => match o with
        | .registered _ _ => false
        | _ => true) || σ.quiets node)
  | _, _ => true

theorem separateAt_of_separatesAt {node : CnetworkNode} (hr : (serverSystem n).Reachable σ)
    (h : separatesAt node σ e σ' = true) : SeparateAt node σ e σ' := by
  cases e with
  | pool pe =>
    obtain ⟨hreads, hentered⟩ := Bool.and_eq_true_iff.mp h
    refine ⟨fun t ht _ t' ht' => ?_, fun t hreg => ?_⟩
    · rw [ht, Option.all_some, ht', Option.all_some] at hreads
      exact eq_of_beq hreads
    · rcases Bool.or_eq_true_iff.mp hentered with hnone | hquiet
      · have hfalse := List.all_eq_true.mp hnone _ hreg
        exact absurd hfalse (by simp)
      · exact not_underWay_of_quiets hr hquiet
  | _ => trivial

/-- Behind the answered request the peer closes the connection and connects again. -/
def reconnectRun : List SystemEvent :=
  answeredRun ++
  [.pool .wakeupDone, .pool (.uv (.tcpRead 1 (-1) [] {})),
    .callback (fun _ => 0) (fun _ => true), .callback (fun _ => 0) (fun _ => true),
    .callback (fun _ => 0) (fun _ => true),
    .pool (.uv (.newConnection 0 0 { peer := .in4 80 1 })),
    .callback (fun _ => 0) (fun _ => true)]

theorem response_on_own_connection_reconnect :
    ∃ σ, (serverSystem 1).run reconnectRun = some σ ∧ σ.stream sampleNode = some 2 ∧
      .uvWrite 1 sampleNode [⟨0, resp⟩] ∈ σ.pool.internal.trace ∧ .send 0 0 ∈ σ.replies ∧
      1 = (σ.server.heap 0).reader := by
  have hrun := (Option.some_get (x := (serverSystem 1).run reconnectRun) (by decide +kernel)).symm
  set σ := ((serverSystem 1).run reconnectRun).get (by decide +kernel) with hσ
  obtain ⟨hstream, hwrite, hsend, hnode⟩ : σ.stream sampleNode = some 2 ∧
      .uvWrite 1 sampleNode [⟨0, resp⟩] ∈ σ.pool.internal.trace ∧ Reply.send 0 0 ∈ σ.replies ∧
      (σ.server.heap 0).node = sampleNode := by
    rw [hσ]
    decide +kernel
  have hsep : (serverSystem 1).EachStep (SeparateAt sampleNode) reconnectRun := by
    intro pre e post s s' hes hpre hstep
    have htest : (serverSystem 1).EachStep
        (fun s e s' => separatesAt sampleNode s e s' = true) reconnectRun :=
      Lib.Lts.eachStep_of_allSteps (by decide +kernel)
    exact separateAt_of_separatesAt (Lib.Lts.reachable_of_run hpre)
      (htest pre e post s s' hes hpre hstep)
  have hown := response_on_own_connection 1 sampleNode reconnectRun hsep reconnectRun [] σ
    (List.append_nil _).symm hrun
  exact ⟨σ, hrun, hstream, hwrite, hsend,
    hown 0 ⟨0, resp⟩ hsend hnode 1 sampleNode _ hwrite (List.mem_singleton_self _)⟩

/-- The connection goes down while the response waits to be taken by `on_wakeup`, and the peer
connects again before it is taken. -/
def overtakenRun : List SystemEvent :=
  serveRun ++
  [.pool (.uv (.tcpRead 1 9 (lit "A B C\r\n\r\n") {})),
    .callback (fun _ => 0) (fun _ => true), .callback (fun _ => 0) (fun _ => true),
    .act none, .act none, .callback (fun _ => 0) (fun _ => true),
    .worker 0, .worker 0, .worker 0, .worker 0, .pool (.uv (.tcpRead 1 (-1) [] {})),
    .callback (fun _ => 0) (fun _ => true), .callback (fun _ => 0) (fun _ => true),
    .callback (fun _ => 0) (fun _ => true),
    .pool (.uv (.newConnection 0 0 { peer := .in4 80 1 })),
    .callback (fun _ => 0) (fun _ => true),
    .pool .wakeup, .pool (.dispatch ⟨[], [], [], []⟩), .pool (.sendNext {})]

/-- The response goes to the later connection of the node, whose first one went down. -/
theorem response_on_later_connection :
    ∃ σ, (serverSystem 1).run overtakenRun = some σ ∧ ¬ OnOwnConnection sampleNode σ ∧
      (σ.server.heap 0).reader = 1 ∧
      .callback (.connectionStatus sampleNode false) ∈ σ.pool.internal.trace ∧
      .uvWrite 2 sampleNode [⟨0, resp⟩] ∈ σ.pool.internal.trace := by
  have hrun := (Option.some_get (x := (serverSystem 1).run overtakenRun) (by decide +kernel)).symm
  set σ := ((serverSystem 1).run overtakenRun).get (by decide +kernel) with hσ
  obtain ⟨hsend, hnode, hreader, hdown, hwrite⟩ : Reply.send 0 0 ∈ σ.replies ∧
      (σ.server.heap 0).node = sampleNode ∧ (σ.server.heap 0).reader = 1 ∧
      .callback (.connectionStatus sampleNode false) ∈ σ.pool.internal.trace ∧
      .uvWrite 2 sampleNode [⟨0, resp⟩] ∈ σ.pool.internal.trace := by
    rw [hσ]
    decide +kernel
  refine ⟨σ, hrun, fun hown => ?_, hreader, hdown, hwrite⟩
  have hsame := hown 0 ⟨0, resp⟩ hsend hnode 2 sampleNode _ hwrite (List.mem_singleton_self _)
  rw [hreader] at hsame
  exact absurd hsame (by decide)

end System

end NetworkPool
