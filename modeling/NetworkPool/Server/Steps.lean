import NetworkPool.Server.System
import NetworkPool.WorkQueue.Disposal

/-!
# Steps of the server

`System.step_cases` is the inversion of `System.step`, `ChttpServer.callback_called` that of a
callback.
-/

namespace NetworkPool

/-! ## Callbacks -/

namespace ChttpServer

variable {s s' : ChttpServer} {c : Callback} {acts : List (CnetworkNode × HttpAct)}

/-- What a callback does to the server. -/
structure Called (c : Callback) (s : ChttpServer) (acts : List (CnetworkNode × HttpAct))
    (s' : ChttpServer) : Prop where
  pool : s'.pool = s.pool
  tasks : s'.tasks = s.tasks
  nextTask : s'.nextTask = s.nextTask
  destroyed : s'.destroyed = s.destroyed
  heap : ∀ task, s'.heap task = s.heap task ∨
    s'.heap task = { s.heap task with canceled := true }
  /-- Contexts come and go with the notifications. -/
  context : ∀ node, node ∈ s'.context ↔
    (∃ b, c = .connectionStatus node b ∧ b = true) ∨
      ((∀ b, c ≠ .connectionStatus node b) ∧ node ∈ s.context)
  canceled : ∀ node, c = .connectionStatus node false → ∀ task, (node, task) ∈ s.tasks →
    (s'.heap task).canceled = true
  /-- Only a message to a node with a context leads to calls. -/
  acts : ∀ a ∈ acts, s.pool = true ∧ (∃ data, c = .message a.1 data) ∧ a.1 ∈ s.context

/-- Without a pool `message` calls nothing. -/
theorem messageLoop_noPool (newTask : ℕ → Bool) (fuel n : ℕ) (ctx : ChttpContext) :
    (ctx.messageLoop false newTask fuel n).1 = [] := by
  cases fuel with
  | zero => rfl
  | succ fuel =>
    unfold ChttpContext.messageLoop
    cases ctx.analysis with
    | mk b ctx =>
      cases b with
      | false => rfl
      | true => simp

/-- A call that is no notification and leaves the set of contexts alone. -/
theorem Called.of_same {context : NodeMap ChttpContext}
    (hc : ∀ node b, c ≠ .connectionStatus node b)
    (hcontext : ∀ node, node ∈ context ↔ node ∈ s.context)
    (hacts : ∀ a ∈ acts, s.pool = true ∧ (∃ data, c = .message a.1 data) ∧ a.1 ∈ s.context) :
    Called c s acts { s with context := context } where
  pool := rfl
  tasks := rfl
  nextTask := rfl
  destroyed := rfl
  heap := fun _ => .inl rfl
  context := by
    intro node
    refine (hcontext node).trans ⟨fun h => .inr ⟨hc node, h⟩, ?_⟩
    rintro (⟨b, heq, -⟩ | ⟨-, h⟩)
    · exact absurd heq (hc node b)
    · exact h
  canceled := fun node heq => absurd heq (hc node false)
  acts := hacts

/-- `connectionStatus`. -/
theorem connectionStatus_called (node : CnetworkNode) (b : Bool) :
    Called (.connectionStatus node b) s [] (s.connectionStatus node b) := by
  cases b with
  | true =>
    have hmem : ∀ n, n ∈ (s.connectionStatus node true).context ↔ n = node ∨ n ∈ s.context := by
      intro n
      unfold connectionStatus
      rw [if_pos rfl]
      by_cases hin : node ∈ s.context
      · rw [if_pos hin]
        refine (or_iff_right_of_imp ?_).symm
        rintro rfl
        exact hin
      · rw [if_neg hin]
        exact AList.mem_insert _
    have hsame : ∃ context, s.connectionStatus node true = { s with context := context } := by
      unfold connectionStatus
      rw [if_pos rfl]
      by_cases hin : node ∈ s.context
      · exact ⟨s.context, by rw [if_pos hin]⟩
      · exact ⟨_, by rw [if_neg hin]⟩
    obtain ⟨context, hsame⟩ := hsame
    rw [hsame] at hmem ⊢
    refine ⟨rfl, rfl, rfl, rfl, fun _ => .inl rfl, fun n => (hmem n).trans ?_, by simp, by simp⟩
    by_cases heq : n = node
    · simp [heq]
    · simp [heq, Ne.symm heq]
  | false =>
    have hstatus : s.connectionStatus node false =
        cancelTask { s with context := s.context.erase node } node := rfl
    rw [hstatus]
    refine ⟨rfl, rfl, rfl, rfl, fun task => ?_, fun n => ?_, fun n hn task hin => ?_, by simp⟩
    · unfold cancelTask
      dsimp only
      split_ifs
      · exact .inr rfl
      · exact .inl rfl
    · show n ∈ s.context.erase node ↔ _
      rw [AList.mem_erase]
      by_cases heq : n = node
      · simp [heq]
      · simp [heq, Ne.symm heq]
    · obtain ⟨rfl, -⟩ := Callback.connectionStatus.inj hn
      unfold cancelTask
      dsimp only
      rw [if_pos hin]

/-- **Inversion of a callback.** -/
theorem callback_called {garbage : ℕ → UInt8} {newTask : ℕ → Bool}
    (h : s.callback garbage newTask c = some (acts, s')) : Called c s acts s' := by
  cases c with
  | allocateMemoryForMessage node =>
    simp only [callback, allocateMemoryForMessage] at h
    split at h
    · rename_i ctx hctx
      rw [Option.map_map] at h
      obtain ⟨r, -, hr⟩ := Option.map_eq_some_iff.mp h
      obtain ⟨rfl, rfl⟩ := Prod.mk.inj hr
      exact .of_same (by simp) (fun _ => Lib.AssocMap.mem_insert_of_lookup hctx) (by simp)
    · obtain ⟨rfl, rfl⟩ := Prod.mk.inj (Option.some.inj h)
      exact .of_same (by simp) (fun _ => Iff.rfl) (by simp)
  | message node data =>
    simp only [callback, message] at h
    split at h
    · rename_i ctx hctx
      by_cases hlen : data.length ≤ ctx.buffer.getLength - ctx.nowIndex
      case neg => exact absurd h (by simp [hlen])
      rw [if_pos hlen] at h
      obtain ⟨rfl, rfl⟩ := Prod.mk.inj (Option.some.inj h)
      refine .of_same (by simp) (fun _ => Lib.AssocMap.mem_insert_of_lookup hctx) fun a ha => ?_
      obtain ⟨act, hact, rfl⟩ := List.mem_map.mp ha
      refine ⟨?_, ⟨data, rfl⟩, ?_⟩
      · by_contra hpool
        rw [ChttpContext.message, Bool.eq_false_iff.mpr hpool, messageLoop_noPool] at hact
        exact absurd hact (by simp)
      · rw [← AList.lookup_isSome, hctx]
        rfl
    · obtain ⟨rfl, rfl⟩ := Prod.mk.inj (Option.some.inj h)
      exact .of_same (by simp) (fun _ => Iff.rfl) (by simp)
  | connectionStatus node b =>
    obtain ⟨rfl, rfl⟩ := Prod.mk.inj (Option.some.inj h)
    exact connectionStatus_called node b
  | deallocateMemoryForMessage | drop | bindStatus | tcpListenError | udpSendError | udpRecvError =>
    obtain ⟨rfl, rfl⟩ := Prod.mk.inj (Option.some.inj h)
    exact .of_same (by simp) (fun _ => Iff.rfl) (by simp)

end ChttpServer

/-! ## Steps -/

namespace System

variable {n : ℕ} {σ σ' : System} {e : SystemEvent}

/-- What a step can do. -/
inductive Step (n : ℕ) (σ : System) : SystemEvent → System → Prop
  | setNetworkPool : Step n σ .setNetworkPool { σ with server := { σ.server with pool := true } }
  /-- A call from another thread, or a function of the network thread. -/
  | pool (e : Event) (p : Pool) (hstep : σ.pool.step e = some p)
      (hidle : e.outside = false → σ.Idle) :
      Step n σ (.pool e) { σ with
        pool := p
        callbacks := σ.callbacks ++ calls (p.internal.trace.drop σ.pool.internal.trace.length)
        reader := e.reads.getD σ.reader }
  | callback (garbage : ℕ → UInt8) (newTask : ℕ → Bool) (c : Callback) (callbacks : List Callback)
      (acts : List (CnetworkNode × HttpAct)) (server : ChttpServer) (hacts : σ.acts = [])
      (hcallbacks : σ.callbacks = c :: callbacks)
      (hcall : ChttpServer.Called c σ.server acts server) :
      Step n σ (.callback garbage newTask)
        { σ with server := server, callbacks := callbacks, acts := acts }
  /-- `message` constructs a task. -/
  | build (woken : Option ℕ) (node : CnetworkNode) (context : ChttpContext)
      (acts : List (CnetworkNode × HttpAct)) (hacts : σ.acts = (node, .pushTask context) :: acts)
      (hbuilt : σ.built = none) :
      Step n σ (.act woken) { σ with
        server := σ.server.newTask node context σ.reader
        built := some σ.server.nextTask }
  /-- `message` pushes the task. -/
  | push (woken : Option ℕ) (node : CnetworkNode) (context : ChttpContext)
      (acts : List (CnetworkNode × HttpAct)) (task : ℕ) (q : WorkQueue.State ℕ Unit)
      (hacts : σ.acts = (node, .pushTask context) :: acts) (hbuilt : σ.built = some task)
      (hstep : σ.workQueue.step n (.pushTask task () woken) = some q) :
      Step n σ (.act woken) { σ with workQueue := q, built := none, acts := acts }
  /-- `message` closes the connection. -/
  | close (woken : Option ℕ) (node : CnetworkNode) (acts : List (CnetworkNode × HttpAct))
      (hacts : σ.acts = (node, .close) :: acts) :
      Step n σ (.act woken) { σ with
        pool := { σ.pool with exchanged := σ.pool.exchanged.close node false }, acts := acts }
  /-- A step of the work queue that is no call. -/
  | idle (e : SystemEvent) (qe : WorkQueue.Event ℕ Unit) (q : WorkQueue.State ℕ Unit)
      (hevent : (∃ i, e = .worker i) ∨ e = .workQueue qe) (hstep : σ.workQueue.step n qe = some q)
      (hsame : WorkQueue.Shape σ.workQueue → WorkQueue.Same σ.workQueue q) :
      Step n σ e { σ with workQueue := q }
  /-- A thread calls `run`. -/
  | start (i : ℕ) (entry : WorkQueue.Entry ℕ Unit)
      (hthread : σ.workQueue.threads i = .taken entry) :
      Step n σ (.worker i) { σ with
        workQueue := { σ.workQueue with
          threads := Function.update σ.workQueue.threads i (.running entry)
          log := σ.workQueue.log ++ [.run entry] }
        runs := Function.update σ.runs i .start }
  | skip (i : ℕ) (entry : WorkQueue.Entry ℕ Unit) (hthread : σ.workQueue.threads i = .running entry)
      (hrun : σ.runs i = .start) (hcanceled : (σ.server.heap entry.task).canceled = true) :
      Step n σ (.worker i) { σ with runs := Function.update σ.runs i .done }
  | check (i : ℕ) (entry : WorkQueue.Entry ℕ Unit)
      (hthread : σ.workQueue.threads i = .running entry)
      (hrun : σ.runs i = .start) (hcanceled : (σ.server.heap entry.task).canceled = false) :
      Step n σ (.worker i) { σ with runs := Function.update σ.runs i .checked }
  /-- `getInfo` ends the process. -/
  | fault (i : ℕ) (entry : WorkQueue.Entry ℕ Unit)
      (hthread : σ.workQueue.threads i = .running entry) (hrun : σ.runs i = .checked)
      (f : ChttpContext.Fault)
      (hinfo : (σ.server.heap entry.task).context.getInfo = .error f) :
      Step n σ (.worker i) { σ with ended := true }
  | send (i : ℕ) (entry : WorkQueue.Entry ℕ Unit) (hthread : σ.workQueue.threads i = .running entry)
      (hrun : σ.runs i = .checked) (hpool : σ.server.pool = true)
      (hinfo : ∃ info, (σ.server.heap entry.task).context.getInfo = .ok info) :
      Step n σ (.worker i) { σ with
        pool := { σ.pool with
          exchanged := σ.pool.exchanged.send (σ.server.heap entry.task).node resp false }
        runs := Function.update σ.runs i .sent
        replies := σ.replies ++ [.send entry.task σ.pool.exchanged.accepted.length] }
  | noPool (i : ℕ) (entry : WorkQueue.Entry ℕ Unit)
      (hthread : σ.workQueue.threads i = .running entry)
      (hrun : σ.runs i = .checked) (hpool : σ.server.pool = false)
      (hinfo : ∃ info, (σ.server.heap entry.task).context.getInfo = .ok info) :
      Step n σ (.worker i) { σ with runs := Function.update σ.runs i .done }
  | replyClose (i : ℕ) (entry : WorkQueue.Entry ℕ Unit)
      (hthread : σ.workQueue.threads i = .running entry) (hrun : σ.runs i = .sent) :
      Step n σ (.worker i) { σ with
        pool := { σ.pool with
          exchanged := σ.pool.exchanged.close (σ.server.heap entry.task).node false }
        runs := Function.update σ.runs i .done
        replies := σ.replies ++ [.close entry.task] }
  | keepAlive (i : ℕ) (entry : WorkQueue.Entry ℕ Unit)
      (hthread : σ.workQueue.threads i = .running entry) (hrun : σ.runs i = .sent) :
      Step n σ (.worker i) { σ with runs := Function.update σ.runs i .done }
  /-- `run` returns. -/
  | ran (i : ℕ) (entry : WorkQueue.Entry ℕ Unit) (hthread : σ.workQueue.threads i = .running entry)
      (hrun : σ.runs i = .done) :
      Step n σ (.worker i) { σ with
        workQueue := { σ.workQueue with
          threads := Function.update σ.workQueue.threads i (.ran entry)
          log := σ.workQueue.log ++ [.ran entry] } }
  /-- A thread deletes its task. -/
  | finish (i : ℕ) (entry : WorkQueue.Entry ℕ Unit) (hthread : σ.workQueue.threads i = .ran entry) :
      Step n σ (.worker i) { σ with
        workQueue := { σ.workQueue with
          threads := Function.update σ.workQueue.threads i .locking
          log := σ.workQueue.log ++ [.delete entry] }
        server := σ.server.deleteTask entry.task }
  /-- The destructor of the work queue deletes a task. -/
  | sweep (entry : WorkQueue.Entry ℕ Unit) (rest : List (WorkQueue.Entry ℕ Unit))
      (howner : σ.workQueue.owner = .sweeping (entry :: rest)) :
      Step n σ (.workQueue .sweep) { σ with
        workQueue := { σ.workQueue with
          owner := .sweeping rest
          log := σ.workQueue.log ++ [.delete entry] }
        server := σ.server.deleteTask entry.task }

/-- The steps of a thread of the work queue. -/
theorem worker_cases {i : ℕ} (h : σ.worker i = some σ') : Step n σ (.worker i) σ' := by
  unfold System.worker at h
  cases hthread : σ.workQueue.threads i with
  | unborn | waiting | exited => simp [hthread, WorkQueue.State.thread] at h
  | locking =>
    simp only [hthread] at h
    obtain ⟨q, hq, rfl⟩ := Option.map_eq_some_iff.mp h
    exact .idle _ (.thread i) q (.inl ⟨i, rfl⟩) hq fun _ => WorkQueue.same_of_locking hthread hq
  | taken entry =>
    simp only [hthread, WorkQueue.State.thread, Option.map_some, Option.some.injEq] at h
    rw [← h]
    exact .start i entry hthread
  | ran entry =>
    simp only [hthread, WorkQueue.State.thread, Option.map_some, Option.some.injEq] at h
    rw [← h]
    exact .finish i entry hthread
  | running entry =>
    simp only [hthread] at h
    cases hrun : σ.runs i with
    | start =>
      simp only [hrun] at h
      by_cases hcanceled : (σ.server.heap entry.task).canceled = true
      · rw [if_pos hcanceled] at h
        rw [← Option.some.inj h]
        exact .skip i entry hthread hrun hcanceled
      · rw [if_neg hcanceled] at h
        rw [← Option.some.inj h]
        exact .check i entry hthread hrun (by simpa using hcanceled)
    | checked =>
      simp only [hrun, reply, Option.some.injEq] at h
      cases hinfo : (σ.server.heap entry.task).context.getInfo with
      | error f =>
        simp only [hinfo] at h
        rw [← h]
        exact .fault i entry hthread hrun f hinfo
      | ok info =>
        simp only [hinfo] at h
        by_cases hpool : σ.server.pool = true
        · rw [if_pos hpool] at h
          rw [← h]
          exact .send i entry hthread hrun hpool ⟨info, hinfo⟩
        · rw [if_neg hpool] at h
          rw [← h]
          exact .noPool i entry hthread hrun (by simpa using hpool) ⟨info, hinfo⟩
    | sent =>
      simp only [hrun, System.replyClose, Option.some.injEq] at h
      by_cases hkeep : (!(σ.server.heap entry.task).context.isKeepAlive) = true
      · rw [if_pos hkeep] at h
        rw [← h]
        exact .replyClose i entry hthread hrun
      · rw [if_neg hkeep] at h
        rw [← h]
        exact .keepAlive i entry hthread hrun
    | done =>
      simp only [hrun, WorkQueue.State.thread, hthread, Option.map_some, Option.some.injEq] at h
      rw [← h]
      exact .ran i entry hthread hrun

/-- The calls of `message`. -/
theorem act_cases {woken : Option ℕ} (h : σ.act woken = some σ') : Step n σ (.act woken) σ' := by
  unfold System.act at h
  split at h
  · rename_i node context acts hacts
    cases hbuilt : σ.built with
    | none =>
      simp only [hbuilt, Option.some.injEq] at h
      rw [← h]
      exact .build woken node context acts hacts hbuilt
    | some task =>
      simp only [hbuilt, Option.ite_none_right_eq_some] at h
      obtain ⟨haccepts, h⟩ := h
      obtain ⟨q, hq, rfl⟩ := Option.map_eq_some_iff.mp h
      exact .push woken node context acts task q hacts hbuilt ((if_pos haccepts).trans hq)
  · rename_i node acts hacts
    rw [← Option.some.inj h]
    exact .close woken node acts hacts
  · exact absurd h (by simp)

/-- The steps of the owner of the work queue. -/
theorem workQueueStep_cases {qe : WorkQueue.Event ℕ Unit}
    (h : σ.workQueueStep n qe = some σ') : Step n σ (.workQueue qe) σ' := by
  unfold System.workQueueStep at h
  split at h
  · exact absurd h (by simp)
  · exact absurd h (by simp)
  · split at h
    · rename_i entry rest howner
      simp only [WorkQueue.State.step, howner, Option.map_some, Option.some.injEq] at h
      rw [← h]
      exact .sweep entry rest howner
    · rename_i howner
      obtain ⟨q, hq, rfl⟩ := Option.map_eq_some_iff.mp h
      refine .idle _ .sweep q (.inr rfl) hq fun hshape => ?_
      exact WorkQueue.same_of_owner hq hshape (by simp) (by simp) fun _ entry rest =>
        howner entry rest
  · rename_i hpush hthread hsweep
    obtain ⟨q, hq, rfl⟩ := Option.map_eq_some_iff.mp h
    refine .idle _ qe q (.inr rfl) hq fun hshape => ?_
    exact WorkQueue.same_of_owner hq hshape hpush hthread fun heq => absurd heq hsweep

/-- Only a process that has not ended makes a step. -/
theorem step_eq_some : σ.step n e = some σ' ↔ σ.ended = false ∧ σ.advance n e = some σ' := by
  unfold System.step
  cases σ.ended with
  | false => simp
  | true => simp

/-- **Inversion of `System.step`.** -/
theorem step_cases (h : σ.step n e = some σ') : Step n σ e σ' := by
  obtain ⟨-, h⟩ := step_eq_some.mp h
  cases e with
  | setNetworkPool =>
    rw [← Option.some.inj h]
    exact .setNetworkPool
  | pool e =>
    simp only [System.advance] at h
    split_ifs at h with hguard
    split at h
    · rename_i p hp
      rw [← Option.some.inj h]
      exact .pool e p hp fun hout => hguard.resolve_left (by simp [hout])
    · exact absurd h (by simp)
  | callback garbage newTask =>
    simp only [System.advance] at h
    split at h
    · rename_i c callbacks hacts hcallbacks
      split at h
      · rename_i acts server hcall
        rw [← Option.some.inj h]
        exact .callback garbage newTask c callbacks acts server hacts hcallbacks
          (ChttpServer.callback_called hcall)
      · exact absurd h (by simp)
    · exact absurd h (by simp)
  | act woken => exact act_cases h
  | worker i => exact worker_cases h
  | workQueue qe => exact workQueueStep_cases h

end System

end NetworkPool
