import NetworkPool.Pool.Conservation
import NetworkPool.Server.Routing

/-!
# Where a response is

From the call of `send` on, a response is an accepted message of the pool for the node of its task
(`Filed`). So it is in a queue of the pool, in flight, written or dropped, once; and in runs whose
steps are separate it is in flight only on the connection whose read completed the request
(`responses_routed`).
-/

namespace NetworkPool

open Lib.CString

namespace Pool

variable {p : Pool}

/-- What is in flight on a connection was passed to `uv_write` on it. -/
theorem passed_of_inFlight (h : poolSystem.Reachable p) {t : ℕ} {m : CnetworkNode × UvBuf}
    (hm : m ∈ (p.internal.tcps t).inFlight) :
    ∃ node buf, .uvWrite t node buf ∈ p.internal.trace ∧ m.2 ∈ buf := by
  obtain ⟨w, hw, hin⟩ := List.mem_flatMap.mp hm
  obtain ⟨b, hb, rfl⟩ := List.mem_map.mp hin
  obtain ⟨node, hpassed⟩ := passed_of_reachable h t w hw
  exact ⟨node, w.buf, List.mem_of_mem_filter hpassed, hb⟩

/-- Where only `t` was passed the message, it is in flight on no other connection. -/
theorem inFlightCount_eq (h : poolSystem.Reachable p) {t : ℕ} {m : CnetworkNode × UvBuf}
    (honly : ∀ t' node buf, .uvWrite t' node buf ∈ p.internal.trace → m.2 ∈ buf → t' = t) :
    inFlightCount p.internal.tcps p.internal.nextTcp m = (p.internal.tcps t).inFlight.count m := by
  refine Finset.sum_eq_single t (fun t' _ ht => ?_) fun hunborn => ?_
  · refine List.count_eq_zero.mpr fun hin => ?_
    obtain ⟨node, buf, hwrite, hmem⟩ := passed_of_inFlight h hin
    exact ht (honly t' node buf hwrite hmem)
  · rw [Finset.mem_range, not_lt] at hunborn
    have hfresh : p.internal.tcps t = {} := (wf_of_reachable h).fresh t hunborn
    rw [hfresh]
    rfl

end Pool

namespace System

variable {n : ℕ} {σ σ' : System} {e : SystemEvent}

/-! ## Accepted responses -/

/-- Tasks are for TCP nodes, and what was sent for a task was accepted for its node. -/
structure Filed (σ : System) : Prop where
  acts : ∀ a ∈ σ.acts, a.1.IsTcp
  tasks : ∀ task < σ.server.nextTask, (σ.server.heap task).node.IsTcp
  replies : ∀ task base, .send task base ∈ σ.replies → task < σ.server.nextTask ∧
    ((σ.server.heap task).node, ⟨base, resp⟩) ∈ σ.pool.acceptedMessages

/-- Nothing is constructed or sent. -/
theorem Filed.frame (h : Filed σ) (hacts : ∀ a ∈ σ'.acts, a.1.IsTcp)
    (hnext : σ'.server.nextTask = σ.server.nextTask)
    (hnode : ∀ task, (σ'.server.heap task).node = (σ.server.heap task).node)
    (hreplies : ∀ task base, .send task base ∈ σ'.replies → .send task base ∈ σ.replies)
    (haccepted : σ.pool.acceptedMessages ⊆ σ'.pool.acceptedMessages) : Filed σ' where
  acts := hacts
  tasks := by
    intro task htask
    rw [hnode]
    exact h.tasks task (hnext ▸ htask)
  replies := by
    intro task base hsend
    obtain ⟨hborn, hmem⟩ := h.replies task base (hreplies task base hsend)
    rw [hnext, hnode]
    exact ⟨hborn, haccepted hmem⟩

/-- Contexts are of TCP nodes. -/
theorem context_isTcp (hr : (serverSystem n).Reachable σ) {node : CnetworkNode}
    (hnode : node ∈ σ.server.context) : node.IsTcp := by
  have hhomed : Homed (fun _ => False) σ := by
    refine hr.invariant homed_init fun s e s' hr hI hs => homed_step hr hI ?_ hs
    exact fun pe _ => ⟨fun _ _ h => h.elim, fun _ _ h => h.elim⟩
  exact (hhomed.contexts node hnode).1

theorem accepted_of_step {p p' : Pool} {pe : Event} (hr : poolSystem.Reachable p)
    (hstep : p.step pe = some p') : p.acceptedMessages ⊆ p'.acceptedMessages := by
  obtain ⟨-, -, new, -, -, -, haccepted⟩ := (Pool.step_cases (Pool.wf_of_reachable hr) hstep).flow
  rw [haccepted]
  exact List.subset_append_left _ _

theorem filed_step (hr : (serverSystem n).Reachable σ) (h : Filed σ)
    (hstep : σ.step n e = some σ') : Filed σ' := by
  have hpool := reachable_pool hr
  have hsame : ∀ {σ' : System}, (∀ a ∈ σ'.acts, a ∈ σ.acts) → σ'.server = σ.server →
      (∀ task base, .send task base ∈ σ'.replies → .send task base ∈ σ.replies) →
        σ.pool.acceptedMessages ⊆ σ'.pool.acceptedMessages → Filed σ' := by
    intro σ' hacts hserver hreplies haccepted
    refine h.frame (fun a ha => h.acts a (hacts a ha)) ?_ (fun task => ?_) hreplies haccepted
    · rw [hserver]
    · rw [hserver]
  cases step_cases hstep with
  | pool pe p hpe => exact hsame (fun _ => id) rfl (fun _ _ => id) (accepted_of_step hpool hpe)
  | callback garbage newTask c callbacks acts server hacts hcallbacks hcall =>
    refine h.frame (fun a ha => ?_) hcall.nextTask (fun task => ?_) (fun _ _ => id) fun _ => id
    · exact context_isTcp hr (hcall.acts a ha).2.2
    · show (server.heap task).node = _
      rcases hcall.heap task with heq | heq <;> rw [heq]
  | build woken node context acts hacts =>
    have hheap : ∀ {task}, task < σ.server.nextTask →
        (σ.server.newTask node context σ.reader).heap task = σ.server.heap task :=
      fun hlt => Function.update_of_ne (by omega) _ _
    have hnew : (σ.server.newTask node context σ.reader).heap σ.server.nextTask =
        { node := node, context := context, reader := σ.reader } := Function.update_self _ _ _
    refine ⟨h.acts, fun task htask => ?_, fun task base hsend => ?_⟩
    · show ((σ.server.newTask node context σ.reader).heap task).node.IsTcp
      rcases Nat.lt_succ_iff_lt_or_eq.mp htask with hlt | rfl
      · rw [hheap hlt]
        exact h.tasks task hlt
      · rw [hnew]
        exact h.acts (node, .pushTask context) (hacts ▸ List.mem_cons_self)
    · obtain ⟨hlt, hmem⟩ := h.replies task base hsend
      refine ⟨Nat.lt_succ_of_lt hlt, ?_⟩
      show (((σ.server.newTask node context σ.reader).heap task).node, _) ∈ _
      rw [hheap hlt]
      exact hmem
  | push woken node context acts task q hacts =>
    exact hsame (fun a ha => hacts ▸ List.mem_cons_of_mem _ ha) rfl (fun _ _ => id) fun _ => id
  | close woken node acts hacts =>
    exact hsame (fun a ha => hacts ▸ List.mem_cons_of_mem _ ha) rfl (fun _ _ => id)
      (accepted_of_step hpool (rfl : σ.pool.step (.close node false) = _))
  | send i entry hthread =>
    obtain ⟨-, haccounted, hregistered⟩ := reachable_registered hr
    have hsend : σ.pool.step (.send (σ.server.heap entry.task).node resp false) = some { σ.pool with
      exchanged := σ.pool.exchanged.send (σ.server.heap entry.task).node resp false } := rfl
    have haccepted := accepted_of_step hpool hsend
    refine ⟨h.acts, h.tasks, fun task base hmem => ?_⟩
    rcases List.mem_append.mp hmem with hold | hnew
    · obtain ⟨hlt, hin⟩ := h.replies task base hold
      exact ⟨hlt, haccepted hin⟩
    · -- the number of the block is the length of the list it is appended to
      obtain ⟨rfl, rfl⟩ := Reply.send.inj (List.mem_singleton.mp hnew)
      have hheld : (σ.workQueue.threads i).held = some (entry, [.run entry]) := by
        rw [hthread]
        rfl
      have hpushed := haccounted.mem_of_dequeued (haccounted.held i entry _ hheld).1
      refine ⟨hregistered.pushed entry hpushed, ?_⟩
      unfold Pool.acceptedMessages
      rw [send_eq _ _ (by rw [resp_length]; omega) (by rw [resp_length]; omega), List.map_append]
      exact List.mem_append_right _ (List.mem_singleton_self _)
  | replyClose i entry hthread =>
    refine hsame (fun _ => id) rfl (fun task base hmem => ?_)
      (accepted_of_step hpool (rfl : σ.pool.step (.close (σ.server.heap entry.task).node false) = _))
    exact (List.mem_append.mp hmem).resolve_right (by simp)
  | setNetworkPool | finish | sweep =>
    exact h.frame h.acts rfl (fun _ => rfl) (fun _ _ => id) fun _ => id
  | _ => exact hsame (fun _ => id) rfl (fun _ _ => id) fun _ => id

theorem filed_init : Filed {} := by
  refine ⟨by simp, fun task htask => ?_, by simp⟩
  exact absurd htask (Nat.not_lt_zero task)

theorem filed_of_reachable (hr : (serverSystem n).Reachable σ) : Filed σ :=
  hr.invariant filed_init fun _ _ _ hr hI hs => filed_step hr hI hs

/-! ## Routes of responses -/

/-- How often the response with the number `base`, sent for `task`, is in a queue of the pool, in
flight on the connection whose read completed the request, written or dropped. -/
def places (σ : System) (task base : ℕ) : ℕ :=
  let m : CnetworkNode × UvBuf := ((σ.server.heap task).node, ⟨base, resp⟩)
  σ.pool.pendingMessages.count m + σ.pool.batchMessages.count m +
    (σ.pool.table.waiting m.1).count m.2 +
    (σ.pool.internal.tcps (σ.server.heap task).reader).inFlight.count m +
    (written σ.pool.internal.trace).count m + (dropped σ.pool.internal.trace).count m

/-- **Responses go to the connection of their request, and none is lost.** In a run whose steps are
separate, for any number of threads and any interleaving, a response is passed to `uv_write` only on
the connection whose read completed its request. A response that was sent is in one place, once: a
queue of the pool, in flight on that connection, written or dropped. -/
theorem responses_routed (n : ℕ) (es : List SystemEvent) (σ : System)
    (hrun : (serverSystem n).run es = some σ) (hsep : (serverSystem n).EachStep Separate es) :
    (∀ t node buf, .uvWrite t node buf ∈ σ.pool.internal.trace → ∀ b ∈ buf, ∀ task,
      .send task b.base ∈ σ.replies → t = (σ.server.heap task).reader) ∧
    ∀ task base, .send task base ∈ σ.replies → σ.places task base = 1 := by
  have hhomed : Homed (fun _ => True) σ := by
    refine hsep.invariant hrun homed_init fun s e s' hr hI hC hs => homed_step hr hI ?_ hs
    rintro pe rfl
    exact ⟨fun t ht _ t' ht' => Option.some.inj (ht'.symm.trans (hC.1 t ht)),
      fun t node _ => hC.2 t node⟩
  refine ⟨fun t node buf hwrite b hb task hsend => ?_, fun task base hsend => ?_⟩
  · exact (hhomed.passed t node buf hwrite b hb).2 task hsend trivial
  · have hr := Lib.Lts.reachable_of_run hrun
    have hpool := reachable_pool hr
    have hfiled := filed_of_reachable hr
    obtain ⟨hborn, hmem⟩ := hfiled.replies task base hsend
    have hcount := Pool.message_count hpool hmem (hfiled.tasks task hborn)
    rw [Pool.inFlightCount_eq hpool fun t node buf hwrite hb =>
      (hhomed.passed t node buf hwrite _ hb).2 task hsend trivial] at hcount
    exact hcount

/-- A request is read, answered, and its response handed to `uv_write`. -/
def answeredRun : List SystemEvent :=
  serveRun ++
  [.pool (.uv (.tcpRead 1 9 (lit "A B C\r\n\r\n") {})),
    .callback (fun _ => 0) (fun _ => true), .callback (fun _ => 0) (fun _ => true),
    .act none, .act none, .callback (fun _ => 0) (fun _ => true),
    .worker 0, .worker 0, .worker 0, .worker 0,
    .pool .wakeup, .pool (.dispatch ⟨[], [], [], []⟩), .pool (.sendNext {})]

/-- A test for `Separate`: connections are entered while no task has been dequeued. -/
def separates (σ : System) : SystemEvent → System → Bool
  | .pool e, σ' =>
    (Pool.receives e).all (fun t => σ.stream (σ.pool.internal.tcps t).node == some t) &&
      ((σ.pool.appended σ'.pool).all (fun o => match o with
        | .registered _ _ => false
        | _ => true) || (σ.replies.isEmpty && σ.workQueue.dequeued.isEmpty))
  | _, _ => true

theorem separate_of_separates (hr : (serverSystem n).Reachable σ)
    (h : separates σ e σ' = true) : Separate σ e σ' := by
  cases e with
  | pool pe =>
    obtain ⟨hreads, hentered⟩ := Bool.and_eq_true_iff.mp h
    refine ⟨fun t ht => ?_, fun t node hreg hway => ?_⟩
    · rw [ht, Option.all_some] at hreads
      simpa using hreads
    · rcases Bool.or_eq_true_iff.mp hentered with hnone | hfirst
      · have hfalse := List.all_eq_true.mp hnone _ hreg
        exact absurd hfalse (by simp)
      · simp only [Bool.and_eq_true, List.isEmpty_iff] at hfirst
        obtain ⟨-, haccounted, -⟩ := reachable_registered hr
        rcases hway with ⟨i, entry, hi, -, -⟩ | ⟨task, b, hsend, -⟩
        · have hthread : (σ.workQueue.threads i).held = some (entry, [.run entry]) := by
            rw [hi]
            rfl
          have hin := (haccounted.held i entry _ hthread).1
          rw [hfirst.2] at hin
          exact absurd hin List.not_mem_nil
        · rw [hfirst.1] at hsend
          exact absurd hsend List.not_mem_nil
  | _ => trivial

theorem responses_routed_answered :
    ∃ σ, (serverSystem 1).run answeredRun = some σ ∧
      .uvWrite 1 sampleNode [⟨0, resp⟩] ∈ σ.pool.internal.trace ∧ .send 0 0 ∈ σ.replies ∧
      1 = (σ.server.heap 0).reader ∧ σ.places 0 0 = 1 := by
  have hrun := (Option.some_get (x := (serverSystem 1).run answeredRun) (by decide +kernel)).symm
  set σ := ((serverSystem 1).run answeredRun).get (by decide +kernel) with hσ
  obtain ⟨hwrite, hsend⟩ : .uvWrite 1 sampleNode [⟨0, resp⟩] ∈ σ.pool.internal.trace ∧
      Reply.send 0 0 ∈ σ.replies := by
    rw [hσ]
    decide +kernel
  have hsep : (serverSystem 1).EachStep Separate answeredRun := by
    intro pre e post s s' hes hpre hstep
    have htest : (serverSystem 1).EachStep (fun s e s' => separates s e s' = true) answeredRun :=
      Lib.Lts.eachStep_of_allSteps (by decide +kernel)
    exact separate_of_separates (Lib.Lts.reachable_of_run hpre)
      (htest pre e post s s' hes hpre hstep)
  obtain ⟨hrouted, hplaces⟩ := responses_routed 1 answeredRun σ hrun hsep
  exact ⟨σ, hrun, hwrite, hsend, hrouted 1 sampleNode [⟨0, resp⟩] hwrite ⟨0, resp⟩
    (List.mem_singleton_self _) 0 hsend, hplaces 0 0 hsend⟩

/-- The connection goes down while the thread is past the test of the flag, and the peer connects
again before the response is sent. -/
def reopenedRun : List SystemEvent :=
  serveRun ++
  [.pool (.uv (.tcpRead 1 9 (lit "A B C\r\n\r\n") {})),
    .callback (fun _ => 0) (fun _ => true), .callback (fun _ => 0) (fun _ => true),
    .act none, .act none, .callback (fun _ => 0) (fun _ => true),
    .worker 0, .worker 0, .worker 0, .pool (.uv (.tcpRead 1 (-1) [] {})),
    .callback (fun _ => 0) (fun _ => true), .callback (fun _ => 0) (fun _ => true),
    .callback (fun _ => 0) (fun _ => true),
    .pool (.uv (.newConnection 0 0 { peer := .in4 80 1 })),
    .callback (fun _ => 0) (fun _ => true),
    .worker 0, .pool .wakeup, .pool (.dispatch ⟨[], [], [], []⟩), .pool (.sendNext {})]

/-- The condition is needed: a response goes to the connection that came after its own. -/
theorem response_misrouted :
    ∃ σ, (serverSystem 1).run reopenedRun = some σ ∧
      .uvWrite 2 sampleNode [⟨0, resp⟩] ∈ σ.pool.internal.trace ∧ .send 0 0 ∈ σ.replies ∧
      (σ.server.heap 0).reader = 1 := by
  refine ⟨((serverSystem 1).run reopenedRun).get (by decide +kernel), (Option.some_get _).symm, ?_⟩
  decide +kernel

end System

end NetworkPool
