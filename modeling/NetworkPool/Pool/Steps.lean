import NetworkPool.Pool.UvSteps
import NetworkPool.Pool.WakeupSteps

/-!
# Steps of the pool

`Pool.step_cases` is the inversion of `Pool.step`. From it come the well-formedness of every
reachable table and the rule every table invariant is proved with (`table_invariant`): what holds
of the empty table and is kept by each action holds of the table of every reachable pool.
-/

namespace NetworkPool

/-- A message with the node it is for. -/
def PendingSend.message (req : PendingSend) : CnetworkNode × UvBuf :=
  (req.node, req.data)

/-! ## The trace -/

section Trace

variable {v v' : Table}

theorem trace_prefix_emit (v : Table) (obs : List Obs) : v.trace <+: (v.emit obs).trace :=
  List.prefix_append _ _

theorem trace_prefix_teardown (v : Table) (t : ℕ) (b : Bool) (c : Ctcp) :
    v.trace <+: (v.teardown t b c).trace :=
  (List.prefix_append _ _).trans (List.prefix_append _ _)

theorem Table.Startup.trace_prefix {ok : Bool} {t : ℕ} (h : Startup ok v t v') :
    v.trace <+: v'.trace := by
  have hreg : v.trace <+: (v.register t).trace := List.prefix_append _ _
  cases h with
  | taken hlookup => exact List.prefix_refl _
  | up hlookup _ => exact hreg.trans (trace_prefix_emit _ _)
  | flush req hlookup => exact hreg.trans (trace_prefix_emit ((v.register t).setTcp t _) _)
  | down passed hlookup _ =>
    exact hreg.trans ((trace_prefix_emit ((v.register t).setTcp t _) _).trans
      ((trace_prefix_emit _ _).trans (trace_prefix_teardown _ _ _ _)))

/-- The trace only grows. -/
theorem Act.trace_prefix {l : Label} (hact : Act v l v') : v.trace <+: v'.trace := by
  cases hact with
  | touch t c hc => exact List.prefix_refl _
  | message t data hreading => exact trace_prefix_emit _ _
  | written t w hw => exact trace_prefix_emit (v.setTcp t _) _
  | lost t w hw => exact trace_prefix_emit (v.setTcp t _) _
  | teardown t hlistening hconnect => exact trace_prefix_teardown _ _ _ _
  | close t node c hlookup hc => exact trace_prefix_teardown _ _ _ _
  | connectFail t armed hreq harmed =>
    exact (List.prefix_append _ _).trans (List.prefix_append _ _)
  | connectUp t ok v' hreq hclosing hstart => exact hstart.trace_prefix
  | acceptUp peer ok v' hstart => exact hstart.trace_prefix
  | shutdownDone t hreq => exact List.prefix_refl _
  | dead c hc => exact List.prefix_refl _
  | park node b buf hwaiting hlookup => exact List.prefix_refl _
  | connect node b req htcp hvalid hwaiting hlookup => exact List.prefix_append _ _
  | refuse node b hwaiting hlookup => exact trace_prefix_emit _ _
  | discard node b => exact trace_prefix_emit _ _
  | write t node b req hlookup => exact trace_prefix_emit (v.setTcp t _) _
  | writeFail t node b passed hlookup => exact trace_prefix_emit _ _
  | listen node hserver => exact List.prefix_refl _
  | unlisten node t hserver => exact List.prefix_refl _
  | notice node hnode => exact trace_prefix_emit _ _
  | exit batch streams connecting queues tcps hstreams hconnecting hqueues htcps =>
    exact ((List.prefix_append _ _).trans (List.prefix_append _ _)).trans
      ((List.prefix_append _ _).trans (List.prefix_append _ _))

end Trace

/-! ## Steps -/

namespace Pool

variable {p p' : Pool} {e : Event}

/-- The table of the pool. -/
abbrev table (p : Pool) : Table := p.internal.table

/-- The messages of the running `on_wakeup`. -/
def batchMessages (p : Pool) : List (CnetworkNode × UvBuf) :=
  match p.batch with
  | some b => b.sendCopy.map PendingSend.message
  | none => []

/-- The messages of the pending queue. -/
def pendingMessages (p : Pool) : List (CnetworkNode × UvBuf) :=
  p.exchanged.pendingSend.map PendingSend.message

/-- The messages accepted so far. -/
def acceptedMessages (p : Pool) : List (CnetworkNode × UvBuf) :=
  p.exchanged.accepted.map PendingSend.message

/-- What a step can do. -/
inductive Step (p : Pool) : Event → Pool → Prop
  /-- A call from outside; `new` are the messages it adds. -/
  | outside (e : Event) (x : Exchanged) (new : List PendingSend) (he : ∀ e', e ≠ .uv e')
      (haccepted : x.accepted = p.exchanged.accepted ++ new)
      (hpending : x.pendingSend = p.exchanged.pendingSend ++ new)
      (hbase : ∀ req ∈ new, req.data.base = p.exchanged.accepted.length) (hnew : new.length ≤ 1) :
      Step p e { p with exchanged := x }
  /-- `on_wakeup` takes the pending queues. -/
  | wakeup (hbatch : p.batch = none) :
      Step p .wakeup { p with
        exchanged := { p.exchanged with pendingBind := [], pendingSend := [], pendingClose := [] }
        batch := some ⟨p.exchanged.pendingBind, p.exchanged.pendingSend, p.exchanged.pendingClose,
          false⟩ }
  /-- `on_wakeup` handles the part `took` of its batch. -/
  | loop (e : Event) (s : Internal) (b : Option Batch) (took : List (CnetworkNode × UvBuf))
      (he : ∀ e', e ≠ .uv e') (hacts : WakeupActs took p.table s.table)
      (hbatch : p.batchMessages = took ++ ({ p with batch := b } : Pool).batchMessages) :
      Step p e { p with internal := s, batch := b }
  /-- The exit branch. -/
  | exit (order : ExitOrder) (s : Internal) (hexit : p.exchanged.bWantExit = true)
      (hact : Act p.table (.exit p.batchMessages) s.table) :
      Step p (.dispatch order) { p with internal := s, batch := none }
  /-- A callback of libuv. -/
  | uv (e : UvEvent) (s : Internal) (hstep : uvStep p.internal e = some s)
      (hacts : UvActs p.internal e p.table s.table) :
      Step p (.uv e) { p with internal := s }

/-- `send` adds at most one message, with the next number. -/
theorem send_cases (node : CnetworkNode) (data : List UInt8) (bAutoConnect : Bool) (x : Exchanged) :
    ∃ new, (x.send node data bAutoConnect).accepted = x.accepted ++ new ∧
      (x.send node data bAutoConnect).pendingSend = x.pendingSend ++ new ∧
      (∀ req ∈ new, req.data.base = x.accepted.length) ∧ new.length ≤ 1 := by
  unfold Exchanged.send
  split_ifs
  · exact ⟨[], by simp⟩
  · exact ⟨[], by simp⟩
  · exact ⟨[⟨node, ⟨x.accepted.length, data⟩, bAutoConnect⟩], by simp⟩

/-- **Inversion of `Pool.step`.** -/
theorem step_cases (hwf : p.table.Wf) (h : p.step e = some p') : Step p e p' := by
  cases e with
  | bind node bBind =>
    rw [← Option.some.inj h]
    refine .outside _ _ [] (by simp) ?_ ?_ (by simp) (by simp) <;> simp [Exchanged.bind]
  | send node data bAutoConnect =>
    rw [← Option.some.inj h]
    obtain ⟨new, haccepted, hpending, hbase, hnew⟩ := send_cases node data bAutoConnect p.exchanged
    exact .outside _ _ new (by simp) haccepted hpending hbase hnew
  | close node bForceClose =>
    rw [← Option.some.inj h]
    refine .outside _ _ [] (by simp) ?_ ?_ (by simp) (by simp) <;> unfold Exchanged.close <;> split_ifs <;> simp
  | wantExit =>
    rw [← Option.some.inj h]
    exact .outside _ _ [] (by simp) (by simp) (by simp) (by simp) (by simp)
  | wakeup =>
    simp only [Pool.step] at h
    split at h
    · exact absurd h (by simp)
    · rename_i hbatch
      simp only [Option.ite_none_left_eq_some, Option.some.injEq] at h
      rw [← h.2]
      exact .wakeup hbatch
  | dispatch order =>
    simp only [Pool.step] at h
    split at h
    · rename_i binds sends closes hbatch
      split_ifs at h with hexit henum
      · rw [← Option.some.inj h]
        have hact := exitAll_act henum ⟨binds, sends, closes, false⟩
        refine .exit order _ hexit ?_
        unfold batchMessages
        rw [hbatch]
        exact hact
      · rw [← Option.some.inj h]
        refine .loop _ p.internal _ [] (by simp) .nil ?_
        simp [batchMessages, hbatch]
    · exact absurd h (by simp)
  | bindNext env =>
    simp only [Pool.step] at h
    split at h
    · rename_i node bBind binds sends closes hbatch
      rw [← Option.some.inj h]
      exact .loop _ _ _ [] (by simp) (bindOne_acts env _ bBind) (by simp [batchMessages, hbatch])
    · exact absurd h (by simp)
  | sendNext env =>
    simp only [Pool.step] at h
    split at h
    · rename_i req sends closes hbatch
      rw [← Option.some.inj h]
      refine .loop _ _ _ [req.message] (by simp) (sendOne_acts env hwf) ?_
      simp [batchMessages, hbatch]
    · exact absurd h (by simp)
  | closeNext env =>
    simp only [Pool.step] at h
    split at h
    · rename_i node bForceClose closes hbatch
      rw [← Option.some.inj h]
      exact .loop _ _ _ [] (by simp) (closeOne_acts env hwf node bForceClose)
        (by simp [batchMessages, hbatch])
    · exact absurd h (by simp)
  | wakeupDone =>
    simp only [Pool.step] at h
    split at h
    · rename_i hbatch
      rw [← Option.some.inj h]
      exact .loop _ p.internal _ [] (by simp) .nil (by simp [batchMessages, hbatch])
    · exact absurd h (by simp)
  | uv e =>
    simp only [Pool.step] at h
    split at h
    · exact absurd h (by simp)
    · split at h
      · rename_i s hs
        rw [← Option.some.inj h]
        exact .uv e s hs (uvStep_acts hwf hs)
      · exact absurd h (by simp)

/-- A step is a sequence of actions on the table. -/
theorem Step.acts (h : Step p e p') : ∃ ls, Acts p.table ls p'.table := by
  cases h with
  | outside => exact ⟨[], .nil _⟩
  | wakeup => exact ⟨[], .nil _⟩
  | loop _ s b took he hacts hbatch =>
    obtain ⟨ls, hacts, -⟩ := hacts
    exact ⟨ls, hacts⟩
  | exit order s hexit hact => exact ⟨_, .single hact⟩
  | uv e s hstep hacts =>
    obtain ⟨ls, v₁, hacts, -, ⟨rfl, -⟩ | ⟨l, hact, -⟩⟩ := hacts
    · exact ⟨ls, hacts⟩
    · exact ⟨ls ++ [l], hacts.append (.single hact)⟩

/-- Messages move from the accepted ones to the pending queue, to the batch and to the table. -/
theorem Step.flow (h : Step p e p') : ∃ ls took new, Acts p.table ls p'.table ∧
    tcpOnly (ls.flatMap Label.taken) = tcpOnly took ∧
    p.batchMessages ++ (p.pendingMessages ++ new) =
      took ++ (p'.batchMessages ++ p'.pendingMessages) ∧
    p'.acceptedMessages = p.acceptedMessages ++ new := by
  cases h with
  | outside e x new he haccepted hpending =>
    refine ⟨[], [], new.map PendingSend.message, .nil _, rfl, ?_, ?_⟩
    · show _ = p.batchMessages ++ x.pendingSend.map PendingSend.message
      rw [hpending, List.map_append]
      rfl
    · show x.accepted.map PendingSend.message = _
      rw [haccepted, List.map_append]
      rfl
  | wakeup hbatch =>
    refine ⟨[], [], [], .nil _, rfl, ?_, (List.append_nil _).symm⟩
    show p.batchMessages ++ (p.pendingMessages ++ []) = p.pendingMessages ++ []
    unfold batchMessages
    rw [hbatch]
    rfl
  | loop _ s b took he hacts hbatch =>
    obtain ⟨ls, hacts, -, htook⟩ := hacts
    refine ⟨ls, took, [], hacts, htook, ?_, (List.append_nil _).symm⟩
    rw [hbatch, List.append_nil, List.append_assoc]
    rfl
  | exit order s hexit hact =>
    refine ⟨_, p.batchMessages, [], .single hact, ?_, ?_, (List.append_nil _).symm⟩
    · rw [List.flatMap_singleton]
      rfl
    · rw [List.append_nil]
      rfl
  | uv e s hstep hacts =>
    obtain ⟨ls, v₁, hacts, hls, hlast⟩ := hacts
    have hnil : ls.flatMap Label.taken = [] :=
      List.flatMap_eq_nil_iff.mpr fun l hl => UvEvent.Allows.taken (hls l hl).2
    rcases hlast with ⟨rfl, -⟩ | ⟨l, hact, hallows, -⟩
    · refine ⟨ls, [], [], hacts, ?_, ?_, (List.append_nil _).symm⟩
      · rw [hnil]
      · rw [List.append_nil]
        rfl
    · refine ⟨ls ++ [l], [], [], hacts.append (.single hact), ?_, ?_, (List.append_nil _).symm⟩
      · rw [List.flatMap_append, hnil, List.flatMap_singleton, UvEvent.Allows.taken hallows]
        rfl
      · rw [List.append_nil]
        rfl

/-- The event is a callback that tears down `t`. -/
def Tears (p : Pool) (e : Event) (t : ℕ) : Prop :=
  ∃ e', e = .uv e' ∧ tearsDown p.internal e' = some t

/-- An event that tears nothing down. -/
theorem Step.acts_of_not_tears (h : Step p e p') (htears : ∀ t, ¬ p.Tears e t) :
    ∃ ls, Acts p.table ls p'.table ∧ ∀ l ∈ ls, l.torn = none := by
  cases h with
  | outside => exact ⟨[], .nil _, by simp⟩
  | wakeup => exact ⟨[], .nil _, by simp⟩
  | loop _ s b took he hacts hbatch =>
    obtain ⟨ls, hacts, hls, -⟩ := hacts
    exact ⟨ls, hacts, fun l hl => (hls l hl).torn⟩
  | exit order s hexit hact => exact ⟨_, .single hact, by simp [Label.torn]⟩
  | uv e s hstep hacts =>
    have hnone : tearsDown p.internal e = none :=
      Option.eq_none_iff_forall_ne_some.mpr fun t ht => htears t ⟨e, rfl, ht⟩
    obtain ⟨ls, v₁, hacts, hls, ⟨rfl, -⟩ | ⟨l, hact, -, -, htorn⟩⟩ := hacts
    · exact ⟨ls, hacts, fun l hl => (hls l hl).1.torn⟩
    · refine ⟨ls ++ [l], hacts.append (.single hact), fun l' hl' => ?_⟩
      rcases List.mem_append.mp hl' with hl' | hl'
      · exact (hls l' hl').1.torn
      · rw [List.mem_singleton.mp hl', ← htorn, hnone]

/-- An event that tears `t` down does so after quiet actions. -/
theorem Step.tornDown (h : Step p e p') (hwf : p.table.Wf) {t : ℕ} (htears : p.Tears e t) :
    ∃ v₁ : Table, p.table.SameRegistries v₁ ∧ v₁.Wf ∧ v₁.TornDown t p'.table := by
  obtain ⟨e', rfl, ht⟩ := htears
  cases h with
  | outside _ x new he => exact absurd rfl (he e')
  | loop _ s b took he hacts hbatch => exact absurd rfl (he e')
  | uv e s hstep hacts => exact hacts.tornDown hwf ht

/-- The accepted messages are numbered in order. -/
theorem Step.accepted (h : Step p e p')
    (hp : p.exchanged.accepted.map (fun req => req.data.base) =
      List.range p.exchanged.accepted.length) :
    p'.exchanged.accepted.map (fun req => req.data.base) =
      List.range p'.exchanged.accepted.length := by
  cases h with
  | outside e x new he haccepted hpending hbase hnew =>
    show x.accepted.map _ = List.range x.accepted.length
    rw [haccepted, List.map_append, hp, List.length_append]
    match new, hbase, hnew with
    | [], _, _ => simp
    | [req], hbase, _ =>
      rw [List.length_singleton, List.range_succ, List.map_singleton, hbase req (by simp)]
    | _ :: _ :: _, _, hnew => simp at hnew
  | _ => exact hp

/-- The table of every reachable pool is well formed. -/
theorem wf_of_reachable (h : poolSystem.Reachable p) : p.table.Wf := by
  refine h.invariant (I := fun p => p.table.Wf) Table.Wf.init fun p e p' _ hwf hstep => ?_
  obtain ⟨ls, hacts⟩ := (step_cases hwf hstep).acts
  exact hacts.wf hwf

/-- **Table invariants.** What holds of the empty table and is kept by every action on a
well-formed table holds of the table of every reachable pool. -/
theorem table_invariant {I : Table → Prop} (hinit : I ⟨∅, ∅, ∅, ∅, fun _ => {}, 0, []⟩)
    (hact : ∀ v l v', v.Wf → I v → Act v l v' → I v') (h : poolSystem.Reachable p) : I p.table := by
  refine h.invariant (I := fun p => I p.table) hinit fun p e p' hr hI hstep => ?_
  obtain ⟨ls, hacts⟩ := (step_cases (wf_of_reachable hr) hstep).acts
  have hwf := wf_of_reachable hr
  clear hstep
  generalize p.table = v, p'.table = v' at *
  induction hacts with
  | nil => exact hI
  | cons h _ ih => exact ih (hact _ _ _ hwf hI h) (h.wf hwf)

end Pool

end NetworkPool
