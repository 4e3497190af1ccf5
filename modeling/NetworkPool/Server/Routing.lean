import NetworkPool.Pool.Routes
import NetworkPool.Server.Registry

/-!
# Responses go to the connection of their request

A connection can come up for a node while a response to an earlier connection of the node is still
under way, and a connection whose entry is gone can still be read from; both are told apart by
`Separate`. In runs without them the cancel flags and the drop of messages without a stream do
what they are for: contexts, tasks and responses stay with the connection of their request
(`Homed`). The invariant is about the nodes of a set.
-/

namespace NetworkPool

open WorkQueue Lib.CString

/-! ## Calls from other threads -/

namespace Pool

variable {p p' : Pool} {e : Event}

/-- Calls from other threads leave the internal data alone. -/
theorem internal_of_outside (he : e.outside = true) (hstep : p.step e = some p') :
    p'.internal = p.internal := by
  cases e with
  | bind | send | close | wantExit =>
    rw [← Option.some.inj hstep]
  | _ => exact absurd he (by simp [Event.outside])

theorem appended_of_outside (he : e.outside = true) (hstep : p.step e = some p') :
    p.appended p' = [] := by
  unfold appended
  rw [internal_of_outside he hstep, List.drop_length]

end Pool

namespace System

variable {n : ℕ} {σ σ' : System} {e : SystemEvent}

/-! ## The pool of the system -/

/-- The pool of the server behaves as a pool. -/
theorem Step.poolStep (h : Step n σ e σ') :
    σ'.pool = σ.pool ∨ ∃ pe, σ.pool.step pe = some σ'.pool := by
  cases h with
  | pool pe p hstep hidle => exact .inr ⟨pe, hstep⟩
  | close woken node acts hacts => exact .inr ⟨.close node false, rfl⟩
  | send i entry hthread hrun hpool =>
    exact .inr ⟨.send (σ.server.heap entry.task).node resp false, rfl⟩
  | replyClose i entry hthread hrun =>
    exact .inr ⟨.close (σ.server.heap entry.task).node false, rfl⟩
  | _ => exact .inl rfl

theorem reachable_pool (h : (serverSystem n).Reachable σ) : poolSystem.Reachable σ.pool := by
  induction h with
  | init => exact .init
  | step _ hstep ih =>
    rcases (step_cases hstep).poolStep with heq | ⟨pe, hpe⟩
    · rw [heq]
      exact ih
    · exact .step ih hpe

/-- The callbacks still to be made are the last of the trace. -/
theorem callbacks_suffix (h : (serverSystem n).Reachable σ) :
    σ.callbacks <:+ calls σ.pool.internal.trace := by
  refine h.invariant (I := fun σ => σ.callbacks <:+ calls σ.pool.internal.trace)
    (List.suffix_refl []) fun σ e σ' hr hI hstep => ?_
  cases step_cases hstep with
  | pool pe p hpe hidle =>
    show σ.callbacks ++ calls (σ.pool.appended p) <:+ calls p.internal.trace
    rw [Pool.trace_appended (reachable_pool hr) hpe, calls_append]
    obtain ⟨pre, hpre⟩ := hI
    exact ⟨pre, by rw [← List.append_assoc, hpre]⟩
  | callback garbage newTask c callbacks acts server hacts hcallbacks hcall =>
    rw [hcallbacks] at hI
    exact (List.suffix_cons c callbacks).trans hI
  | _ => exact hI

/-! ## Homes -/

/-- The connection stored under `node`. -/
abbrev stream (σ : System) (node : CnetworkNode) : Option ℕ :=
  σ.pool.internal.node2stream.lookup node

/-- `t` is the connection of `node`, or it went down and this is still to be reported. -/
def Serves (σ : System) (node : CnetworkNode) (t : ℕ) : Prop :=
  σ.stream node = some t ∨ (σ.stream node = none ∧ .connectionStatus node false ∈ σ.callbacks)

/-- The node of the task has no connection but the one its request was read from. -/
def Home (σ : System) (task : ℕ) : Prop :=
  ∀ t, σ.stream (σ.server.heap task).node = some t → t = (σ.server.heap task).reader

/-- A response to `node` is under way: a thread is past the test of the flag, or the response is
in a queue of the pool. -/
def UnderWay (σ : System) (node : CnetworkNode) : Prop :=
  (∃ i entry, σ.workQueue.threads i = .running entry ∧ σ.runs i = .checked ∧
    (σ.server.heap entry.task).node = node) ∨
  ∃ task b, .send task b.base ∈ σ.replies ∧ σ.pool.OnWay node b

/-- The step reads data only from the connection stored under its node, and enters a connection
only for a node no response is under way to. -/
def Separate (σ : System) : SystemEvent → System → Prop
  | .pool e, σ' =>
    (∀ t, Pool.receives e = some t → σ.stream (σ.pool.internal.tcps t).node = some t) ∧
      ∀ t node, .registered t node ∈ σ.pool.appended σ'.pool → ¬ σ.UnderWay node
  | _, _ => True

theorem Serves.home {task : ℕ}
    (h : σ.Serves (σ.server.heap task).node (σ.server.heap task).reader) : σ.Home task := by
  intro t ht
  rcases h with h | ⟨hnone, -⟩
  · exact Option.some.inj (ht.symm.trans h)
  · rw [hnone] at ht
    exact absurd ht (by simp)

/-- A step of the pool that reads no data of a node in `M` from one connection while another is
stored under it, and enters a connection for such a node only where no response to it is under
way. -/
structure Apart (M : CnetworkNode → Prop) (σ : System) (e : Event) (p : Pool) : Prop where
  reads : ∀ t, Pool.receives e = some t → M (σ.pool.internal.tcps t).node →
    ∀ t', σ.stream (σ.pool.internal.tcps t).node = some t' → t' = t
  entered : ∀ t node, M node → .registered t node ∈ σ.pool.appended p → ¬ σ.UnderWay node

/-- Where the contexts belong, and the messages, tasks and responses for nodes in `M`. -/
structure Homed (M : CnetworkNode → Prop) (σ : System) : Prop where
  contexts : ∀ node ∈ σ.server.context, node.IsTcp ∧
    (σ.stream node = none → .connectionStatus node false ∈ σ.callbacks)
  statuses : ∀ node, .connectionStatus node true ∈ σ.callbacks → node.IsTcp
  messages : ∀ node data, .message node data ∈ σ.callbacks → node.IsTcp → M node →
    ∀ t, σ.stream node = some t → t = σ.reader
  acts : ∀ a ∈ σ.acts, M a.1 → σ.Serves a.1 σ.reader
  tasks : ∀ node task, (node, task) ∈ σ.server.tasks → (σ.server.heap task).canceled = false →
    M (σ.server.heap task).node →
      σ.Serves (σ.server.heap task).node (σ.server.heap task).reader
  checked : ∀ i entry, σ.workQueue.threads i = .running entry → σ.runs i = .checked →
    M (σ.server.heap entry.task).node → σ.Home entry.task
  replies : ∀ task base, .send task base ∈ σ.replies →
    base < σ.pool.exchanged.accepted.length ∧ task < σ.server.nextTask
  onWay : ∀ task b node, .send task b.base ∈ σ.replies → σ.pool.OnWay node b →
    node = (σ.server.heap task).node ∧ (M node → σ.Home task)
  numbered : ∀ node b, σ.pool.OnWay node b → b.base < σ.pool.exchanged.accepted.length
  passed : ∀ t node buf, .uvWrite t node buf ∈ σ.pool.internal.trace → ∀ b ∈ buf,
    b.base < σ.pool.exchanged.accepted.length ∧
      ∀ task, .send task b.base ∈ σ.replies → M (σ.server.heap task).node →
        t = (σ.server.heap task).reader

section Homed

variable {M : CnetworkNode → Prop}

theorem homed_init : Homed M {} := by
  have hnone : ∀ node b, ¬ ({} : System).pool.OnWay node b := by
    intro node b h
    rcases h with h | h | h
    · exact absurd h List.not_mem_nil
    · exact absurd h List.not_mem_nil
    · exact absurd h List.not_mem_nil
  refine ⟨?_, by simp, by simp, by simp, by simp, ?_, by simp, ?_, ?_, by simp⟩
  · intro node hnode
    exact absurd hnode (AList.notMem_empty node)
  · intro i entry hi
    exact absurd hi (by simp)
  · intro task b node h
    exact absurd h List.not_mem_nil
  · exact fun node b h => absurd h (hnone node b)

/-! ## Steps that leave the pool alone -/

/-- The node and the connection of a task never change. -/
theorem Homed.frame (h : Homed M σ) (hpool : σ'.pool = σ.pool)
    (hcontext : σ'.server.context = σ.server.context) (hheap : σ'.server.heap = σ.server.heap)
    (hnext : σ'.server.nextTask = σ.server.nextTask) (hcallbacks : σ'.callbacks = σ.callbacks)
    (hreader : σ'.reader = σ.reader) (hacts : ∀ a ∈ σ'.acts, a ∈ σ.acts)
    (htasks : ∀ a ∈ σ'.server.tasks, a ∈ σ.server.tasks)
    (hreplies : ∀ task base, .send task base ∈ σ'.replies → .send task base ∈ σ.replies)
    (hchecked : ∀ i entry, σ'.workQueue.threads i = .running entry → σ'.runs i = .checked →
      M (σ.server.heap entry.task).node → σ.Home entry.task) : Homed M σ' := by
  have hstream : ∀ node, σ'.stream node = σ.stream node := by
    intro node
    unfold stream
    rw [hpool]
  have hserves : ∀ node t, σ'.Serves node t ↔ σ.Serves node t := by
    intro node t
    unfold Serves
    rw [hstream, hcallbacks]
  have hhome : ∀ task, σ'.Home task ↔ σ.Home task := by
    intro task
    unfold Home
    rw [hheap, hstream]
  constructor
  · intro node hnode
    rw [hstream, hcallbacks]
    rw [hcontext] at hnode
    exact h.contexts node hnode
  · rw [hcallbacks]
    exact h.statuses
  · intro node data hmessage
    rw [hstream, hreader]
    rw [hcallbacks] at hmessage
    exact h.messages node data hmessage
  · intro a ha
    rw [hserves, hreader]
    exact h.acts a (hacts a ha)
  · intro node task hin
    rw [hserves, hheap]
    exact h.tasks node task (htasks _ hin)
  · intro i entry hi hrun
    rw [hhome, hheap]
    exact hchecked i entry hi hrun
  · intro task base hsend
    rw [hpool, hnext]
    exact h.replies task base (hreplies _ _ hsend)
  · intro task b node hsend
    rw [hpool, hheap, hhome]
    exact h.onWay task b node (hreplies _ _ hsend)
  · rw [hpool]
    exact h.numbered
  · rw [hpool, hheap]
    intro t node buf hwrite b hb
    obtain ⟨hbase, hreader⟩ := h.passed t node buf hwrite b hb
    exact ⟨hbase, fun task hsend => hreader task (hreplies _ _ hsend)⟩

/-- A thread moves on in `run`. -/
theorem Homed.run (h : Homed M σ) (i : ℕ) (run : Run) (replies : List Reply)
    (hreplies : ∀ task base, .send task base ∈ replies → .send task base ∈ σ.replies)
    (hhome : ∀ entry, σ.workQueue.threads i = .running entry → run = .checked →
      M (σ.server.heap entry.task).node → σ.Home entry.task) :
    Homed M { σ with runs := Function.update σ.runs i run, replies := replies } := by
  refine h.frame rfl rfl rfl rfl rfl rfl (fun _ => id) (fun _ => id) hreplies ?_
  intro j entry hj hrun
  change Function.update σ.runs i run j = .checked at hrun
  by_cases hji : j = i
  · rw [hji, Function.update_self] at hrun
    rw [hji] at hj
    exact hhome entry hj hrun
  · rw [Function.update_of_ne hji] at hrun
    exact h.checked j entry hj hrun

/-- The threads that run are the same. -/
theorem Homed.queue (h : Homed M σ) {q : WorkQueue.State ℕ Unit}
    (hq : ∀ i entry, q.threads i = .running entry → σ.workQueue.threads i = .running entry) :
    Homed M { σ with workQueue := q } :=
  h.frame rfl rfl rfl rfl rfl rfl (fun _ => id) (fun _ => id) (fun _ _ => id)
    fun i entry hi => h.checked i entry (hq i entry hi)

/-- A thread is through with `run`. -/
theorem Homed.leave (h : Homed M σ) (i : ℕ) {t : WorkQueue.Thread ℕ Unit}
    (ht : ∀ entry, t ≠ .running entry) (log : List (WorkQueue.Call ℕ Unit)) :
    Homed M { σ with workQueue := { σ.workQueue with
      threads := Function.update σ.workQueue.threads i t, log := log } } := by
  apply h.queue
  intro j entry hj
  change Function.update σ.workQueue.threads i t j = .running entry at hj
  by_cases hji : j = i
  · rw [hji, Function.update_self] at hj
    exact absurd hj (ht entry)
  · rwa [Function.update_of_ne hji] at hj

/-! ## Steps of the pool -/

/-- What a step of the pool does to the connections, the messages and the responses. -/
theorem Serves.step {pe : Event} {p : Pool} {node : CnetworkNode} {t : ℕ}
    {callbacks : List Callback} {reader : ℕ} (h : σ.Serves node t) (hr : poolSystem.Reachable σ.pool)
    (hstep : σ.pool.step pe = some p) (hidle : pe.outside = false → σ.Idle)
    (hcallbacks : callbacks = σ.callbacks ++ calls (σ.pool.appended p)) :
    Serves { σ with pool := p, callbacks := callbacks, reader := reader } node t := by
  unfold Serves stream at h ⊢
  dsimp only
  rw [hcallbacks]
  cases hout : pe.outside with
  | true =>
    rw [Pool.internal_of_outside hout hstep]
    exact h.imp_right fun hdown => ⟨hdown.1, List.mem_append_left _ hdown.2⟩
  | false =>
    -- nothing is left to be reported
    have hnil := (hidle hout).1
    rcases h with hup | ⟨-, hdown⟩
    · rcases Pool.entry_cases hr hstep hup with hsame | ⟨hnone, hreported⟩
      · exact .inl hsame
      · exact .inr ⟨hnone, List.mem_append_right _ (mem_calls.mpr hreported)⟩
    · rw [hnil] at hdown
      exact absurd hdown List.not_mem_nil

/-- A home stays one, unless a connection is entered for its node. -/
theorem Home.step {pe : Event} {p : Pool} {task : ℕ} {callbacks : List Callback} {reader : ℕ}
    (h : σ.Home task) (hr : poolSystem.Reachable σ.pool) (hstep : σ.pool.step pe = some p)
    (hnot : ∀ t, .registered t (σ.server.heap task).node ∉ σ.pool.appended p) :
    Home { σ with pool := p, callbacks := callbacks, reader := reader } task := by
  intro t ht
  rcases (Pool.routed_step hr hstep).entry _ t ht with hsame | hreg
  · exact h t hsame
  · exact absurd hreg (hnot t)

/-- **Steps of the pool.** -/
theorem Homed.poolStep {pe : Event} {p : Pool} (h : Homed M σ) (hr : poolSystem.Reachable σ.pool)
    (hstep : σ.pool.step pe = some p) (hidle : pe.outside = false → σ.Idle)
    (hapart : σ.Apart M pe p) :
    Homed M { σ with
      pool := p
      callbacks := σ.callbacks ++ calls (σ.pool.appended p)
      reader := pe.reads.getD σ.reader } := by
  have hrouted := Pool.routed_step hr hstep
  have htrace := Pool.trace_appended hr hstep
  have hserves : ∀ {node t} reader, σ.Serves node t → Serves { σ with
      pool := p, callbacks := σ.callbacks ++ calls (σ.pool.appended p), reader := reader } node t :=
    fun reader hs => hs.step hr hstep hidle rfl
  have houtside : pe.outside = true → pe.reads = none := by
    intro hout
    cases pe with
    | bind | send | close | wantExit => rfl
    | _ => exact absurd hout (by simp [Event.outside])
  constructor
  · intro node hnode
    obtain ⟨htcp, hdown⟩ := h.contexts node hnode
    refine ⟨htcp, fun hnone => ?_⟩
    have hs : ∃ t, σ.Serves node t := by
      cases hup : σ.stream node with
      | none => exact ⟨0, .inr ⟨hup, hdown hup⟩⟩
      | some t => exact ⟨t, .inl hup⟩
    obtain ⟨t, hs⟩ := hs
    rcases hserves σ.reader hs with hup | ⟨-, hreported⟩
    · exact absurd (hnone.symm.trans hup) (by simp)
    · exact hreported
  · intro node hmem
    rcases List.mem_append.mp hmem with hmem | hmem
    · exact h.statuses node hmem
    · exact hrouted.up node (mem_calls.mp hmem)
  · intro node data hmem htcp hM t ht
    cases hout : pe.outside with
    | true =>
      rw [Pool.appended_of_outside hout hstep] at hmem
      rw [houtside hout]
      have hmem' : .message node data ∈ σ.callbacks := by simpa [calls] using hmem
      change p.internal.node2stream.lookup node = some t at ht
      rw [Pool.internal_of_outside hout hstep] at ht
      exact h.messages node data hmem' htcp hM t ht
    | false =>
      rw [(hidle hout).1, List.nil_append, mem_calls] at hmem
      obtain ⟨t', hreceives, hnode⟩ := Pool.receives_of_message hr hstep htcp hmem
      have hreader : pe.reads = some t' := by
        unfold Pool.receives at hreceives
        split at hreceives
        · exact (Option.ite_none_right_eq_some.mp hreceives).2
        · exact absurd hreceives (by simp)
      rw [hreader]
      rcases hrouted.entry node t ht with hsame | hreg
      · rw [← hnode] at hM hsame
        exact hapart.reads t' hreceives hM t hsame
      · exact absurd hreg (Pool.not_registered_of_receives hr hstep hreceives t node)
  · intro a ha hM
    cases hout : pe.outside with
    | true =>
      rw [houtside hout]
      exact hserves _ (h.acts a ha hM)
    | false =>
      have hnil := List.isEmpty_iff.mp (hidle hout).2
      change a ∈ σ.acts at ha
      rw [hnil] at ha
      exact absurd ha List.not_mem_nil
  · intro node task hin hcanceled hM
    exact hserves _ (h.tasks node task hin hcanceled hM)
  · intro i entry hi hrun hM
    exact (h.checked i entry hi hrun hM).step hr hstep fun t hreg =>
      hapart.entered t _ hM hreg (.inl ⟨i, entry, hi, hrun, rfl⟩)
  · intro task base hsend
    obtain ⟨hbase, hborn⟩ := h.replies task base hsend
    exact ⟨lt_of_lt_of_le hbase hrouted.accepted, hborn⟩
  · intro task b node hsend hway
    rcases hrouted.onWay node b hway with hway | ⟨hbase, -⟩
    · obtain ⟨hnode, hhome⟩ := h.onWay task b node hsend hway
      refine ⟨hnode, fun hM => (hhome hM).step hr hstep fun t hreg => ?_⟩
      rw [← hnode] at hreg
      exact hapart.entered t node hM hreg (.inr ⟨task, b, hsend, hway⟩)
    · have hlt := (h.replies task _ hsend).1
      omega
  · intro node b hway
    rcases hrouted.onWay node b hway with hway | ⟨-, hlt⟩
    · exact lt_of_lt_of_le (h.numbered node b hway) hrouted.accepted
    · exact hlt
  · intro t node buf hwrite b hb
    change .uvWrite t node buf ∈ p.internal.trace at hwrite
    rw [htrace] at hwrite
    rcases List.mem_append.mp hwrite with hwrite | hwrite
    · obtain ⟨hbase, hreader⟩ := h.passed t node buf hwrite b hb
      exact ⟨lt_of_lt_of_le hbase hrouted.accepted, hreader⟩
    · obtain ⟨hentry, hway⟩ := hrouted.written t node buf hwrite
      refine ⟨lt_of_lt_of_le (h.numbered node b (hway b hb)) hrouted.accepted, fun task hsend hM => ?_⟩
      obtain ⟨hnode, hhome⟩ := h.onWay task b node hsend (hway b hb)
      rw [← hnode] at hM
      rcases hentry with hentry | hreg
      · rw [hnode] at hentry
        exact hhome hM t hentry
      · exact absurd (.inr ⟨task, b, hsend, hway b hb⟩) (hapart.entered t node hM hreg)

/-- A call from another thread. -/
theorem Homed.outside {pe : Event} {p : Pool} (h : Homed M σ) (hr : poolSystem.Reachable σ.pool)
    (hstep : σ.pool.step pe = some p) (hout : pe.outside = true) :
    Homed M { σ with pool := p } := by
  have hnil := Pool.appended_of_outside hout hstep
  have hreads : pe.reads = none ∧ Pool.receives pe = none := by
    cases pe with
    | bind | send | close | wantExit => exact ⟨rfl, rfl⟩
    | _ => exact absurd hout (by simp [Event.outside])
  have hnext := h.poolStep hr hstep (fun hfalse => absurd (hout.symm.trans hfalse) (by simp))
    ⟨fun t ht => absurd (hreads.2.symm.trans ht) (by simp), fun t node _ hreg => by
      rw [hnil] at hreg
      exact absurd hreg List.not_mem_nil⟩
  rw [hnil, hreads.1] at hnext
  have hcalls : σ.callbacks ++ calls [] = σ.callbacks := List.append_nil _
  rw [hcalls] at hnext
  exact hnext

/-! ## Callbacks and tasks -/

/-- A node that is reported up and has no connection any more is still to be reported down. -/
theorem down_after_up (hr : poolSystem.Reachable σ.pool)
    (hsuffix : σ.callbacks <:+ calls σ.pool.internal.trace) {node : CnetworkNode}
    {callbacks : List Callback}
    (hcallbacks : σ.callbacks = .connectionStatus node true :: callbacks)
    (hnone : σ.stream node = none) : .connectionStatus node false ∈ callbacks := by
  by_contra hnot
  have hmirror := (notifications_mirror_node2stream hr node).1
  have hlast : lastStatus node σ.pool.internal.trace = some true := by
    obtain ⟨pre, hpre⟩ := hsuffix
    have htrue : ∀ b ∈ statuses node (callbacks.map Obs.callback), b = true := by
      intro b hb
      by_contra hfalse
      apply hnot
      obtain ⟨o, ho, hstatus⟩ := List.mem_filterMap.mp hb
      obtain ⟨c, hc, rfl⟩ := List.mem_map.mp ho
      cases c with
      | connectionStatus n b' =>
        simp only [statusOf, Option.ite_none_right_eq_some, Option.some.injEq] at hstatus
        have hb' : b' = false := by
          rw [hstatus.2]
          simpa using hfalse
        rw [hstatus.1, hb'] at hc
        exact hc
      | _ => exact absurd hstatus (by simp [statusOf])
    have hhead : statuses node ((σ.callbacks).map Obs.callback) =
        true :: statuses node (callbacks.map Obs.callback) := by
      rw [hcallbacks, List.map_cons]
      simp [statuses, statusOf]
    have hall : (true :: statuses node (callbacks.map Obs.callback)).getLast? = some true := by
      rw [List.getLast?_eq_some_getLast (List.cons_ne_nil _ _), Option.some_inj]
      rcases List.mem_cons.mp (List.getLast_mem (List.cons_ne_nil _ _)) with heq | hin
      · exact heq
      · exact htrue _ hin
    rw [lastStatus, ← statuses_calls, ← hpre, List.map_append, statuses_append, hhead,
      List.getLast?_append, hall, Option.some_or]
  rw [← hmirror, ← AList.lookup_isSome] at hlast
  rw [show σ.pool.internal.node2stream.lookup node = none from hnone] at hlast
  exact absurd hlast (by simp)

/-- A callback. -/
theorem Homed.callback {c : Callback} {callbacks : List Callback}
    {acts : List (CnetworkNode × HttpAct)} {server : ChttpServer} (h : Homed M σ)
    (hr : poolSystem.Reachable σ.pool) (hregistered : Registered σ)
    (hsuffix : σ.callbacks <:+ calls σ.pool.internal.trace)
    (hcallbacks : σ.callbacks = c :: callbacks)
    (hcall : ChttpServer.Called c σ.server acts server) :
    Homed M { σ with server := server, callbacks := callbacks, acts := acts } := by
  have htail : ∀ {c'}, c' ∈ callbacks → c' ∈ σ.callbacks := by
    intro c' hc'
    rw [hcallbacks]
    exact List.mem_cons_of_mem c hc'
  have hnode : ∀ task, (server.heap task).node = (σ.server.heap task).node ∧
      (server.heap task).reader = (σ.server.heap task).reader := by
    intro task
    rcases hcall.heap task with heq | heq
    · rw [heq]
      exact ⟨rfl, rfl⟩
    · rw [heq]
      exact ⟨rfl, rfl⟩
  have hhome : ∀ {task}, σ.Home task →
      Home { σ with server := server, callbacks := callbacks, acts := acts } task := by
    intro task hh t ht
    change σ.stream (server.heap task).node = some t at ht
    show t = (server.heap task).reader
    rw [(hnode task).1] at ht
    rw [(hnode task).2]
    exact hh t ht
  constructor
  · intro node hin
    rcases (hcall.context node).mp hin with ⟨b, rfl, rfl⟩ | ⟨hc, hin⟩
    · refine ⟨h.statuses node ?_, down_after_up hr hsuffix hcallbacks⟩
      rw [hcallbacks]
      exact List.mem_cons_self
    · obtain ⟨htcp, hdown⟩ := h.contexts node hin
      refine ⟨htcp, fun hnone => ?_⟩
      have hmem := hdown hnone
      rw [hcallbacks] at hmem
      exact (List.mem_cons.mp hmem).resolve_left fun heq => hc false heq.symm
  · exact fun node hmem => h.statuses node (htail hmem)
  · exact fun node data hmem => h.messages node data (htail hmem)
  · intro a ha hM
    obtain ⟨-, ⟨data, rfl⟩, hcontext⟩ := hcall.acts a ha
    obtain ⟨htcp, hdown⟩ := h.contexts a.1 hcontext
    have hmessage : .message a.1 data ∈ σ.callbacks := by
      rw [hcallbacks]
      exact List.mem_cons_self
    cases hup : σ.stream a.1 with
    | none =>
      have hmem := hdown hup
      rw [hcallbacks] at hmem
      exact .inr ⟨hup, (List.mem_cons.mp hmem).resolve_left (by simp)⟩
    | some t =>
      left
      rw [← h.messages a.1 data hmessage htcp hM t hup]
      exact hup
  · intro node task hin hcanceled hM
    change (node, task) ∈ server.tasks at hin
    change (server.heap task).canceled = false at hcanceled
    change M (server.heap task).node at hM
    rw [hcall.tasks] at hin
    show Serves _ (server.heap task).node (server.heap task).reader
    rw [(hnode task).1] at hM
    rw [(hnode task).1, (hnode task).2]
    have hbefore : (σ.server.heap task).canceled = false := by
      rcases hcall.heap task with heq | heq
      · rw [← heq]
        exact hcanceled
      · rw [heq] at hcanceled
        exact absurd hcanceled (by simp)
    rcases h.tasks node task hin hbefore hM with hup | ⟨hnone, hmem⟩
    · exact .inl hup
    · refine .inr ⟨hnone, ?_⟩
      rw [hcallbacks] at hmem
      refine (List.mem_cons.mp hmem).resolve_left fun heq => ?_
      -- the callback would have canceled the task
      rw [← ((hregistered.mem node task).mp hin).2.2] at heq
      have hset := hcall.canceled node heq.symm task hin
      exact absurd (hset.symm.trans hcanceled) (by simp)
  · intro i entry hi hrun hM
    change M (server.heap entry.task).node at hM
    rw [(hnode entry.task).1] at hM
    exact hhome (h.checked i entry hi hrun hM)
  · intro task base hsend
    obtain ⟨hbase, hborn⟩ := h.replies task base hsend
    refine ⟨hbase, ?_⟩
    show task < server.nextTask
    rw [hcall.nextTask]
    exact hborn
  · intro task b node hsend hway
    obtain ⟨heq, hh⟩ := h.onWay task b node hsend hway
    refine ⟨?_, fun hM => hhome (hh hM)⟩
    show node = (server.heap task).node
    rw [(hnode task).1]
    exact heq
  · exact h.numbered
  · intro t node buf hwrite b hb
    obtain ⟨hbase, hreader⟩ := h.passed t node buf hwrite b hb
    refine ⟨hbase, fun task hsend hM => ?_⟩
    change M (server.heap task).node at hM
    show t = (server.heap task).reader
    rw [(hnode task).1] at hM
    rw [(hnode task).2]
    exact hreader task hsend hM

/-- `message` constructs a task. -/
theorem Homed.build {node : CnetworkNode} {context : ChttpContext}
    {acts : List (CnetworkNode × HttpAct)} (h : Homed M σ) (hregistered : Registered σ)
    (haccounted : Accounted σ.workQueue) (hacts : σ.acts = (node, .pushTask context) :: acts) :
    Homed M { σ with
      server := σ.server.newTask node context σ.reader
      built := some σ.server.nextTask } := by
  have hheap : ∀ {task}, task < σ.server.nextTask →
      (σ.server.newTask node context σ.reader).heap task = σ.server.heap task := by
    intro task hlt
    exact Function.update_of_ne (by omega) _ _
  have hhome : ∀ {task}, task < σ.server.nextTask → σ.Home task → Home { σ with
      server := σ.server.newTask node context σ.reader
      built := some σ.server.nextTask } task := by
    intro task hlt hh t ht
    change σ.stream ((σ.server.newTask node context σ.reader).heap task).node = some t at ht
    show t = ((σ.server.newTask node context σ.reader).heap task).reader
    rw [hheap hlt] at ht ⊢
    exact hh t ht
  have hheld : ∀ {i entry}, σ.workQueue.threads i = .running entry →
      entry.task < σ.server.nextTask := by
    intro i entry hi
    have hthread : (σ.workQueue.threads i).held = some (entry, [.run entry]) := by
      rw [hi]
      rfl
    have hdequeued := (haccounted.held i entry _ hthread).1
    exact hregistered.pushed entry (haccounted.mem_of_dequeued hdequeued)
  constructor
  · exact h.contexts
  · exact h.statuses
  · exact h.messages
  · exact h.acts
  · intro n' task hin hcanceled hM
    change (n', task) ∈ σ.server.tasks ++ [(_, σ.server.nextTask)] at hin
    show Serves _ ((σ.server.newTask node context σ.reader).heap task).node
      ((σ.server.newTask node context σ.reader).heap task).reader
    change M ((σ.server.newTask node context σ.reader).heap task).node at hM
    rcases List.mem_append.mp hin with hin | hin
    · have hlt := ((hregistered.mem n' task).mp hin).1
      change ((σ.server.newTask node context σ.reader).heap task).canceled = false at hcanceled
      rw [hheap hlt] at hcanceled hM ⊢
      exact h.tasks n' task hin hcanceled hM
    · have htask : task = σ.server.nextTask := (Prod.mk.inj (List.mem_singleton.mp hin)).2
      have hnew : (σ.server.newTask node context σ.reader).heap task =
          { node := node, context := context, reader := σ.reader } := by
        rw [htask]
        exact Function.update_self _ _ _
      rw [hnew] at hM ⊢
      refine h.acts (node, .pushTask context) ?_ hM
      rw [hacts]
      exact List.mem_cons_self
  · intro i entry hi hrun hM
    change M ((σ.server.newTask node context σ.reader).heap entry.task).node at hM
    rw [hheap (hheld hi)] at hM
    exact hhome (hheld hi) (h.checked i entry hi hrun hM)
  · intro task base hsend
    obtain ⟨hbase, hborn⟩ := h.replies task base hsend
    exact ⟨hbase, Nat.lt_succ_of_lt hborn⟩
  · intro task b n' hsend hway
    have hborn := (h.replies task _ hsend).2
    obtain ⟨heq, hh⟩ := h.onWay task b n' hsend hway
    refine ⟨?_, fun hM => hhome hborn (hh hM)⟩
    show n' = ((σ.server.newTask node context σ.reader).heap task).node
    rw [hheap hborn]
    exact heq
  · exact h.numbered
  · intro t n' buf hwrite b hb
    obtain ⟨hbase, hreader⟩ := h.passed t n' buf hwrite b hb
    refine ⟨hbase, fun task hsend hM => ?_⟩
    change M ((σ.server.newTask node context σ.reader).heap task).node at hM
    show t = ((σ.server.newTask node context σ.reader).heap task).reader
    rw [hheap (h.replies task _ hsend).2] at hM ⊢
    exact hreader task hsend hM

/-- A task is destroyed. -/
theorem Homed.delete (h : Homed M σ) (task : ℕ) :
    Homed M { σ with server := σ.server.deleteTask task } :=
  h.frame rfl rfl rfl rfl rfl rfl (fun _ => id) (fun _ hin => List.mem_of_mem_erase hin)
    (fun _ _ => id) h.checked

/-- A message that is neither empty nor too long is appended to the pending sends. -/
theorem send_eq (x : Exchanged) (node : CnetworkNode) {data : List UInt8} (hpos : 0 < data.length)
    (hle : data.length ≤ 65507) (bAutoConnect : Bool) :
    x.send node data bAutoConnect = { x with
      pendingSend := x.pendingSend ++ [⟨node, ⟨x.accepted.length, data⟩, bAutoConnect⟩]
      accepted := x.accepted ++ [⟨node, ⟨x.accepted.length, data⟩, bAutoConnect⟩] } := by
  unfold Exchanged.send
  rw [if_neg (by omega), if_neg (by omega)]

theorem resp_length : resp.length = 663 := by
  decide +kernel

/-- A thread sends the response of its task. -/
theorem Homed.send {i : ℕ} {entry : Entry ℕ Unit} {data : List UInt8} (h : Homed M σ)
    (hr : poolSystem.Reachable σ.pool) (hpos : 0 < data.length) (hle : data.length ≤ 65507)
    (hthread : σ.workQueue.threads i = .running entry) (hrun : σ.runs i = .checked)
    (hborn : entry.task < σ.server.nextTask) :
    Homed M { σ with
      pool := { σ.pool with
        exchanged := σ.pool.exchanged.send (σ.server.heap entry.task).node data false }
      runs := Function.update σ.runs i .sent
      replies := σ.replies ++ [.send entry.task σ.pool.exchanged.accepted.length] } := by
  have hhome := h.checked i entry hthread hrun
  have hstep : σ.pool.step (.send (σ.server.heap entry.task).node data false) = some { σ.pool with
    exchanged := σ.pool.exchanged.send (σ.server.heap entry.task).node data false } := rfl
  have hsent := (h.outside hr hstep rfl).run i .sent σ.replies (fun _ _ => id) (by simp)
  have hreply : ∀ {task base}, Reply.send task base ∈
      σ.replies ++ [.send entry.task σ.pool.exchanged.accepted.length] →
      .send task base ∈ σ.replies ∨
        (task = entry.task ∧ base = σ.pool.exchanged.accepted.length) := by
    intro task base hmem
    rcases List.mem_append.mp hmem with hold | hnew
    · exact .inl hold
    · exact .inr (Reply.send.inj (List.mem_singleton.mp hnew))
  refine ⟨hsent.contexts, hsent.statuses, hsent.messages, hsent.acts, hsent.tasks, hsent.checked,
    ?_, ?_, hsent.numbered, ?_⟩
  · intro task base hsend
    rcases hreply hsend with hold | ⟨rfl, rfl⟩
    · exact hsent.replies task base hold
    · refine ⟨?_, hborn⟩
      show σ.pool.exchanged.accepted.length < (σ.pool.exchanged.send _ data false).accepted.length
      rw [send_eq _ _ hpos hle]
      simp
  · intro task b node hsend hway
    rcases hreply hsend with hold | ⟨rfl, hbase⟩
    · exact hsent.onWay task b node hold hway
    · -- the only message with this number is the new one
      have hnode : node = (σ.server.heap entry.task).node := by
        rcases hway with hin | hrest
        · obtain ⟨req, hreq, hmessage⟩ := List.mem_map.mp hin
          change req ∈ (σ.pool.exchanged.send (σ.server.heap entry.task).node data
            false).pendingSend at hreq
          rw [send_eq _ _ hpos hle, List.mem_append, List.mem_singleton] at hreq
          rcases hreq with hold | rfl
          · have hway : σ.pool.OnWay node b := .inl (List.mem_map.mpr ⟨req, hold, hmessage⟩)
            have hlt := h.numbered node b hway
            omega
          · exact (congrArg Prod.fst hmessage).symm
        · have hway : σ.pool.OnWay node b := .inr hrest
          have hlt := h.numbered node b hway
          omega
      exact ⟨hnode, fun hM => hhome (hnode ▸ hM)⟩
  · intro t node buf hwrite b hb
    obtain ⟨hbase, hreader⟩ := hsent.passed t node buf hwrite b hb
    refine ⟨hbase, fun task hsend => ?_⟩
    rcases hreply hsend with hold | ⟨-, hnew⟩
    · exact hreader task hold
    · have hlt := (h.passed t node buf hwrite b hb).1
      omega

/-! ## Runs -/

/-- **Steps that keep the connections apart keep everything at home.** -/
theorem homed_step (hr : (serverSystem n).Reachable σ) (h : Homed M σ)
    (hapart : ∀ pe, e = .pool pe → σ.Apart M pe σ'.pool) (hstep : σ.step n e = some σ') :
    Homed M σ' := by
  obtain ⟨hshape, haccounted, hregistered⟩ := reachable_registered hr
  have hpool := reachable_pool hr
  have hheld : ∀ {i entry}, σ.workQueue.threads i = .running entry →
      entry ∈ σ.workQueue.pushed ∧ .delete entry ∉ σ.workQueue.log := by
    intro i entry hi
    have hthread : (σ.workQueue.threads i).held = some (entry, [.run entry]) := by
      rw [hi]
      rfl
    exact ⟨haccounted.mem_of_dequeued (haccounted.held i entry _ hthread).1,
      haccounted.not_deleted_of_held hthread⟩
  cases step_cases hstep with
  | setNetworkPool | fault =>
    exact h.frame rfl rfl rfl rfl rfl rfl (fun _ => id) (fun _ => id) (fun _ _ => id) h.checked
  | pool pe p hpe hidle => exact h.poolStep hpool hpe hidle (hapart pe rfl)
  | callback garbage newTask c callbacks acts server hacts hcallbacks hcall =>
    exact h.callback hpool hregistered (callbacks_suffix hr) hcallbacks hcall
  | build woken node context acts hacts hbuilt => exact h.build hregistered haccounted hacts
  | push woken node context acts task q hacts hbuilt hq =>
    obtain ⟨entry, -, -, -, hrunning⟩ := WorkQueue.pushTask_records hq
    refine h.frame rfl rfl rfl rfl rfl rfl (fun a ha => ?_) (fun _ => id) (fun _ _ => id) ?_
    · rw [hacts]
      exact List.mem_cons_of_mem _ ha
    · exact fun i entry' hi => h.checked i entry' ((hrunning i entry').mp hi)
  | close woken node acts hacts =>
    have hclosed := h.outside hpool (rfl : σ.pool.step (.close node false) = _) rfl
    refine hclosed.frame rfl rfl rfl rfl rfl rfl (fun a ha => ?_) (fun _ => id) (fun _ _ => id)
      hclosed.checked
    show a ∈ σ.acts
    rw [hacts]
    exact List.mem_cons_of_mem _ ha
  | idle e qe q hevent hq hsame =>
    exact h.queue fun i entry hi => ((hsame hshape).running i entry).mp hi
  | start i entry hthread =>
    refine h.frame rfl rfl rfl rfl rfl rfl (fun _ => id) (fun _ => id) (fun _ _ => id) ?_
    intro j entry' hj hrun
    change Function.update σ.workQueue.threads i _ j = _ at hj
    change Function.update σ.runs i .start j = .checked at hrun
    by_cases hji : j = i
    · rw [hji, Function.update_self] at hrun
      exact absurd hrun (by simp)
    · rw [Function.update_of_ne hji] at hj hrun
      exact h.checked j entry' hj hrun
  | skip i entry hthread hrun hcanceled => exact h.run i .done σ.replies (fun _ _ => id) (by simp)
  | check i entry hthread hrun hcanceled =>
    refine h.run i .checked σ.replies (fun _ _ => id) fun entry' hi _ hM => ?_
    obtain rfl : entry = entry' := WorkQueue.Thread.running.inj (hthread.symm.trans hi)
    obtain ⟨hpush, hnot⟩ := hheld hthread
    have halive := hregistered.not_destroyed haccounted hpush hnot
    have hin := (hregistered.mem _ _).mpr ⟨hregistered.pushed entry hpush, halive, rfl⟩
    exact (h.tasks _ _ hin hcanceled hM).home
  | send i entry hthread hrun hset =>
    exact h.send hpool (by rw [resp_length]; omega) (by rw [resp_length]; omega) hthread hrun
      (hregistered.pushed entry (hheld hthread).1)
  | noPool i entry hthread hrun hset => exact h.run i .done σ.replies (fun _ _ => id) (by simp)
  | replyClose i entry hthread hrun =>
    have hclosed := h.outside hpool
      (rfl : σ.pool.step (.close (σ.server.heap entry.task).node false) = _) rfl
    exact hclosed.run i .done _ (by simp) (by simp)
  | keepAlive i entry hthread hrun => exact h.run i .done σ.replies (fun _ _ => id) (by simp)
  | ran i entry hthread hrun => exact h.leave i (by simp) _
  | finish i entry hthread => exact (h.leave i (by simp) _).delete entry.task
  | sweep entry rest howner =>
    have hdeleted := h.delete entry.task
    exact hdeleted.frame rfl rfl rfl rfl rfl rfl (fun _ => id) (fun _ => id) (fun _ _ => id)
      hdeleted.checked

end Homed

end System

end NetworkPool
