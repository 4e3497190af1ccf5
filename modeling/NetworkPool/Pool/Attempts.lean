import NetworkPool.Pool.Homes

/-!
# Connect attempts

Every connect that `on_wakeup` starts is recorded as an attempt, with the calls of
`connectionStatus` made for it (`attemptSystem`): the calls made while it is started, the first
call of its connect callback, and the call of the exit branch, which reports the established
connections before the pending ones.

An attempt is settled when it was reported exactly once if it is over, and not at all while it is
in `m_connecting`. The runs whose attempts are always settled are those whose connect callbacks
meet `ConnectClear`.
-/

namespace NetworkPool

open Table

/-! ## Reading the trace -/

/-- A call of `connectionStatus`. -/
def reportOf : Obs → Option (CnetworkNode × Bool)
  | .callback (.connectionStatus node bSuccess) => some (node, bSuccess)
  | _ => none

/-- A connect accepted by libuv. -/
def connectOf : Obs → Option ℕ
  | .uvTcpConnect t _ => some t
  | _ => none

/-- What `f` reads from the entries added between `p` and `p'`. -/
def newly {α : Type} (f : Obs → Option α) (p p' : Pool) : List α :=
  (p'.internal.trace.filterMap f).drop (p.internal.trace.filterMap f).length

/-! ## Attempts -/

/-- A connect to `node`. `object` is the object whose connect is pending, absent if the connect
failed at once; `outcomes` are the calls of `connectionStatus` made for it. -/
structure Attempt where
  node : CnetworkNode
  object : Option ℕ
  outcomes : List (CnetworkNode × Bool)
deriving DecidableEq, Repr

/-- The calls about `object`. -/
def answersTo (rs : List (ℕ × CnetworkNode × Bool)) (object : Option ℕ) :
    List (CnetworkNode × Bool) :=
  (rs.filter fun r => some r.1 = object).map Prod.snd

/-- The attempt after the calls `rs`. -/
def Attempt.hear (rs : List (ℕ × CnetworkNode × Bool)) (a : Attempt) : Attempt :=
  { a with outcomes := a.outcomes ++ answersTo rs a.object }

/-- The attempt is reported exactly once when it is over, as a success if its object was
registered for the node, and not before. -/
def Attempt.Settled (p : Pool) (a : Attempt) : Prop :=
  match a.object with
  | none => a.outcomes = [(a.node, false)]
  | some t =>
    if t ∈ p.internal.connecting then a.outcomes = []
    else a.outcomes = [(a.node, decide (Obs.registered t a.node ∈ p.internal.trace))]

namespace Pool

/-- The node `on_wakeup` starts a connect for: it has neither a stream nor waiting messages, and
the next message of the batch asks for a connection. -/
def connectsTo (p : Pool) : Event → Option CnetworkNode
  | .sendNext _ =>
    match p.batch with
    | some ⟨[], req :: _, _, true⟩ =>
      if req.node.protocol = .protocolTcp ∧ getStreamByNode req.node p.internal = none ∧
          p.internal.waitingSend.lookup req.node = none ∧ req.bAutoConnect then
        some req.node
      else none
    | _ => none
  | _ => none

/-- The attempt a step starts. -/
def starts (p : Pool) (e : Event) (p' : Pool) : List Attempt :=
  (p.connectsTo e).toList.map fun node =>
    ⟨node, (newly connectOf p p').head?, newly reportOf p p'⟩

/-- Which object a call of `connectionStatus` is about, for the calls that answer attempts started
earlier. A connection that comes up may go down again before its connect callback returns; that
second call is no answer. -/
def answers (e : Event) (new : List (CnetworkNode × Bool)) : List (ℕ × CnetworkNode × Bool) :=
  match e with
  | .uv (.connectDone t _ _) => (new.take 1).map fun r => (t, r)
  | .dispatch order => order.connecting.zip (new.drop order.node2stream.length)
  | _ => []

/-- The attempts after a step. -/
def noteAttempts (p : Pool) (e : Event) (p' : Pool) (l : List Attempt) : List Attempt :=
  l.map (Attempt.hear (answers e (newly reportOf p p'))) ++ p.starts e p'

/-- A connect callback finds its object among the pending connects, and no connection of the node
if it gets to start its own up. -/
def ConnectClear (p : Pool) : Event → Prop
  | .uv (.connectDone t status env) =>
    t ∈ p.internal.connecting ∧
      (0 ≤ status → (p.internal.tcps t).closing = false → env.timerStart = true →
        env.readStart = true → p.internal.node2stream.lookup (p.internal.tcps t).node = none)
  | _ => True

end Pool

/-- The pool with its attempts. -/
def attemptSystem : Lib.Lts (Pool × List Attempt) Event :=
  poolSystem.record [] Pool.noteAttempts

/-! ## The new entries -/

section Newly

variable {p p' : Pool} {obs : List Obs}

theorem newly_eq {α : Type} {f : Obs → Option α} (hf : ∀ o, o.visible = false → f o = none)
    (htrace : p'.table.trace = p.table.trace ++ obs) : newly f p p' = obs.filterMap f := by
  have hp' := filterMap_visible f hf p'.internal.trace
  have hp := filterMap_visible f hf p.internal.trace
  unfold newly
  rw [← hp', ← hp]
  show ((p'.table.trace).filterMap f).drop ((p.table.trace).filterMap f).length = _
  rw [htrace, List.filterMap_append, List.drop_left]

theorem reportOf_visible (o : Obs) (h : o.visible = false) : reportOf o = none := by
  cases o with
  | callback c => cases c <;> simp_all [Obs.visible, reportOf]
  | _ => rfl

theorem connectOf_visible (o : Obs) (h : o.visible = false) : connectOf o = none := by
  cases o <;> simp_all [Obs.visible, connectOf]

theorem filterMap_reportOf_dropCalls (node : CnetworkNode) (buf : List UvBuf) :
    (dropCalls node buf).filterMap reportOf = [] := by
  simp [dropCalls, reportOf]

theorem filterMap_reportOf_statuses {α : Type} (f : α → CnetworkNode) (l : List α) :
    (l.map fun a => Obs.callback (.connectionStatus (f a) false)).filterMap reportOf =
      l.map fun a => (f a, false) := by
  rw [List.filterMap_map]
  exact congrFun List.filterMap_eq_map l

end Newly

/-! ## What a step does to an object -/

namespace Table

/-- `t` stays where it is in the table. -/
structure Kept (v v' : Table) (t : ℕ) : Prop where
  connecting : t ∈ v'.connecting ↔ t ∈ v.connecting
  node : (v'.tcps t).node = (v.tcps t).node
  registered : ∀ node, Obs.registered t node ∈ v'.trace ↔ Obs.registered t node ∈ v.trace

/-- Every object stays where it is; new objects may be added to the pending connects. -/
structure Calm (v v' : Table) : Prop where
  nextTcp : v.nextTcp ≤ v'.nextTcp
  kept : ∀ t < v.nextTcp, v.Kept v' t
  pending : ∀ t, (v'.tcps t).Connecting →
    (v.tcps t).Connecting ∨ v.nextTcp ≤ t ∧ t ∈ v'.connecting

variable {v v₁ v' : Table} {t : ℕ} {c : Ctcp} {obs : List Obs}

theorem Kept.refl (v : Table) (t : ℕ) : v.Kept v t :=
  ⟨Iff.rfl, rfl, fun _ => Iff.rfl⟩

theorem Kept.trans (h : v.Kept v₁ t) (h' : v₁.Kept v' t) : v.Kept v' t where
  connecting := h'.connecting.trans h.connecting
  node := h'.node.trans h.node
  registered := fun node => (h'.registered node).trans (h.registered node)

theorem Calm.refl (v : Table) : v.Calm v :=
  ⟨le_rfl, fun t _ => .refl v t, fun _ => .inl⟩

theorem Wf.lt_of_mem_connecting (h : v.Wf) (ht : t ∈ v.connecting) : t < v.nextTcp :=
  h.lt_nextTcp ((h.tcps t).connectReq (h.connecting t ht)).2.1

theorem Calm.trans (h : v.Calm v₁) (h' : v₁.Calm v') (hwf : v₁.Wf) : v.Calm v' where
  nextTcp := h.nextTcp.trans h'.nextTcp
  kept := fun t ht => (h.kept t ht).trans (h'.kept t (ht.trans_le h.nextTcp))
  pending := by
    intro t ht
    rcases h'.pending t ht with ht | ⟨hle, hin⟩
    · rcases h.pending t ht with ht | ⟨hle, hin⟩
      · exact .inl ht
      · exact .inr ⟨hle, (h'.kept t (hwf.lt_of_mem_connecting hin)).connecting.mpr hin⟩
    · exact .inr ⟨h.nextTcp.trans hle, hin⟩

/-- An object is replaced by one for the same node whose connect is no more pending than before,
and entries are appended that register nothing. -/
theorem Calm.setTcp_emit (v : Table) (t : ℕ) (hnode : c.node = (v.tcps t).node)
    (hconnect : c.Connecting → (v.tcps t).Connecting)
    (hobs : ∀ t node, Obs.registered t node ∉ obs) : v.Calm ((v.setTcp t c).emit obs) where
  nextTcp := le_rfl
  kept := by
    intro t' _
    refine ⟨Iff.rfl, ?_, fun node => ?_⟩
    · by_cases ht : t' = t
      · subst ht
        rw [emit_table_tcps, setTcp_tcps_self]
        exact hnode
      · rw [emit_table_tcps, setTcp_tcps_other v ht]
    · exact List.mem_append.trans (or_iff_left (hobs t' node))
  pending := by
    intro t' ht'
    by_cases ht : t' = t
    · subst ht
      rw [emit_table_tcps, setTcp_tcps_self] at ht'
      exact .inl (hconnect ht')
    · rw [emit_table_tcps, setTcp_tcps_other v ht] at ht'
      exact .inl ht'

theorem Calm.setTcp (v : Table) (t : ℕ) (hnode : c.node = (v.tcps t).node)
    (hconnect : c.Connecting → (v.tcps t).Connecting) : v.Calm (v.setTcp t c) := by
  have h : v.Calm ((v.setTcp t c).emit []) := .setTcp_emit v t hnode hconnect (by simp)
  rwa [emit_nil] at h

theorem Calm.emit (v : Table) (hobs : ∀ t node, Obs.registered t node ∉ obs) :
    v.Calm (v.emit obs) := by
  have h := Calm.setTcp_emit v v.nextTcp (c := v.tcps v.nextTcp) rfl id hobs
  rwa [setTcp_self] at h

/-- An object is added and entered, or not. -/
theorem Calm.add (v : Table) (c : Ctcp) (hnext : v'.nextTcp = v.nextTcp + 1)
    (htcps : v'.tcps = (v.add c).tcps)
    (hconnecting : ∀ t < v.nextTcp, t ∈ v'.connecting ↔ t ∈ v.connecting)
    (hnew : c.Connecting → v.nextTcp ∈ v'.connecting)
    (hreg : ∀ t < v.nextTcp, ∀ node,
      Obs.registered t node ∈ v'.trace ↔ Obs.registered t node ∈ v.trace) : v.Calm v' where
  nextTcp := by omega
  kept := by
    intro t ht
    refine ⟨hconnecting t ht, ?_, hreg t ht⟩
    rw [htcps]
    exact congrArg Ctcp.node (setTcp_tcps_other v ht.ne)
  pending := by
    intro t ht
    rw [htcps] at ht
    by_cases heq : t = v.nextTcp
    · subst heq
      rw [add_tcps_self] at ht
      exact .inr ⟨le_rfl, hnew ht⟩
    · left
      have hobj : (v.add c).tcps t = v.tcps t := setTcp_tcps_other v heq
      rwa [hobj] at ht

/-- The waiting queues and the map do not matter. -/
theorem Calm.congr (h : v.Calm v₁) (hnext : v'.nextTcp = v₁.nextTcp) (htcps : v'.tcps = v₁.tcps)
    (hconnecting : v'.connecting = v₁.connecting) (htrace : v'.trace = v₁.trace) : v.Calm v' where
  nextTcp := hnext ▸ h.nextTcp
  kept := by
    intro t ht
    obtain ⟨hin, hnode, hreg⟩ := h.kept t ht
    rw [← hconnecting] at hin
    rw [← htcps] at hnode
    rw [← htrace] at hreg
    exact ⟨hin, hnode, hreg⟩
  pending := by
    rw [htcps, hconnecting]
    exact h.pending

/-- A teardown. -/
theorem Calm.teardown (v : Table) (t : ℕ) (b : Bool) (hnode : c.node = (v.tcps t).node)
    (hconnect : c.Connecting → (v.tcps t).Connecting) : v.Calm (v.teardown t b c) := by
  have hobs : ∀ t' node, Obs.registered t' node ∉
      (if (v.node2stream.lookup (v.tcps t).node).isSome || b then
        [.callback (.connectionStatus (v.tcps t).node false)] else []) ++
          dropCalls (v.tcps t).node (v.waiting (v.tcps t).node) := by
    intro t' node
    split_ifs <;> simp [dropCalls]
  refine (Calm.setTcp_emit v t hnode hconnect hobs).congr rfl rfl rfl ?_
  exact List.append_assoc _ _ _

/-- What `startupTcpConnection_may_set_nullptr` does to the pending connects, to the nodes and to
the trace. -/
structure StartsUp (v : Table) (t : ℕ) (v' : Table) : Prop where
  nextTcp : v'.nextTcp = v.nextTcp
  connecting : v'.connecting = v.connecting
  node : ∀ t', (v'.tcps t').node = (v.tcps t').node
  pending : ∀ t', (v'.tcps t').Connecting → (v.tcps t').Connecting
  trace : (v.node2stream.lookup (v.tcps t).node ≠ none ∧ v'.trace = v.trace) ∨
    v.node2stream.lookup (v.tcps t).node = none ∧ ∃ obs, v'.trace = v.trace ++
      [.registered t (v.tcps t).node, .callback (.connectionStatus (v.tcps t).node true)] ++ obs ∧
        ∀ t' node, Obs.registered t' node ∉ obs

theorem StartsUp.of_update (c : Ctcp) (htcps : v'.tcps = Function.update v.tcps t c)
    (hnode : c.node = (v.tcps t).node) (hconnect : c.Connecting → (v.tcps t).Connecting)
    (hnext : v'.nextTcp = v.nextTcp) (hconnecting : v'.connecting = v.connecting)
    (htrace : (v.node2stream.lookup (v.tcps t).node ≠ none ∧ v'.trace = v.trace) ∨
      v.node2stream.lookup (v.tcps t).node = none ∧ ∃ obs, v'.trace = v.trace ++
        [.registered t (v.tcps t).node, .callback (.connectionStatus (v.tcps t).node true)] ++ obs ∧
          ∀ t' node, Obs.registered t' node ∉ obs) : v.StartsUp t v' where
  nextTcp := hnext
  connecting := hconnecting
  node := by
    intro t'
    rw [htcps]
    by_cases ht : t' = t
    · subst ht
      rw [Function.update_self]
      exact hnode
    · rw [Function.update_of_ne ht]
  pending := by
    intro t' h
    rw [htcps] at h
    by_cases ht : t' = t
    · subst ht
      rw [Function.update_self] at h
      exact hconnect h
    · rwa [Function.update_of_ne ht] at h
  trace := htrace

theorem Startup.startsUp {ok : Bool} (h : Startup ok v t v') : v.StartsUp t v' := by
  have hafter : ∀ c : Ctcp, c.afterClose.Connecting → c.Connecting := fun c h => by
    simpa [Ctcp.Connecting] using h
  cases h with
  | taken hlookup =>
    exact .of_update _ rfl (Ctcp.afterClose_node _) (hafter _) rfl rfl (.inl ⟨hlookup, rfl⟩)
  | up hlookup hwaiting =>
    refine .of_update (v.tcps t) (Function.update_eq_self t _).symm rfl id rfl rfl
      (.inr ⟨hlookup, _, rfl, ?_⟩)
    simp [dropCalls]
  | flush req hlookup =>
    exact .of_update _ rfl rfl id rfl rfl (.inr ⟨hlookup, _, rfl, by simp⟩)
  | down passed hlookup hok =>
    have htcps : ∀ (f : ℕ → Ctcp) (c c' : Ctcp),
        Function.update (Function.update f t c) t c' = Function.update f t c' := fun f c c' =>
      Function.update_idem _ _ _
    refine .of_update _ (htcps _ _ _) ?_ ?_ rfl rfl (.inr ⟨hlookup, ?_⟩)
    · rw [Ctcp.afterClose_node]
      split_ifs <;> rfl
    · intro h
      have h' := hafter _ h
      split_ifs at h' <;> exact h'
    · -- what follows the report is written, dropped or the end of the connection
      simp only [Table.teardown, Table.emit, Table.setTcp, Table.register, List.append_assoc]
      refine ⟨_, rfl, fun t' node => ?_⟩
      cases passed <;> simp [dropCalls]

/-- A connection that was just accepted. -/
theorem StartsUp.calm_of_new (hc : ¬ c.Connecting) (h : (v.add c).StartsUp v.nextTcp v') :
    v.Calm v' where
  nextTcp := by
    rw [h.nextTcp]
    exact Nat.le_succ _
  kept := by
    intro t ht
    refine ⟨by rw [h.connecting]; rfl, ?_, fun node => ?_⟩
    · rw [h.node]
      exact congrArg Ctcp.node (setTcp_tcps_other v ht.ne)
    · rcases h.trace with ⟨-, htrace⟩ | ⟨-, obs, htrace, hobs⟩ <;> rw [htrace]
      · exact Iff.rfl
      · simp [hobs, ht.ne, Table.add, Table.setTcp]
  pending := by
    intro t ht
    left
    have ht' := h.pending t ht
    by_cases heq : t = v.nextTcp
    · subst heq
      rw [add_tcps_self] at ht'
      exact absurd ht' hc
    · have hobj : (v.add c).tcps t = v.tcps t := setTcp_tcps_other v heq
      rwa [hobj] at ht'

end Table

/-- The label is of an action that ends no connect. -/
def Label.EndsNone : Label → Prop
  | .connectFail _ | .connectUp _ _ | .exit _ => False
  | _ => True

theorem Label.InLoop.endsNone {l : Label} (h : l.InLoop) : l.EndsNone := by
  cases l <;> simp_all [Label.InLoop, Label.EndsNone]

theorem Act.calm {v v' : Table} {l : Label} (hact : Act v l v') (hl : l.EndsNone)
    (hwf : v.Wf) : v.Calm v' := by
  have hafter : ∀ c : Ctcp, c.afterClose.Connecting → c.Connecting := fun c h => by
    simpa [Ctcp.Connecting] using h
  cases hact with
  | touch t c hc =>
    obtain ⟨hnode, -, -, hconnect, -⟩ := hc.same
    refine .setTcp v t hnode fun h => ?_
    unfold Ctcp.Connecting at h ⊢
    rwa [hconnect] at h
  | message t data hreading =>
    refine .emit v fun t' node h => ?_
    exact absurd (List.mem_of_mem_filter h) (by simp)
  | written t w hw => exact .setTcp_emit v t rfl id (by simp)
  | lost t w hw => exact .setTcp_emit v t rfl id (by simp [dropCalls])
  | teardown t hlistening hconnect =>
    exact .teardown v t false (Ctcp.afterClose_node _) (hafter _)
  | close t node c hlookup hc =>
    have he := hwf.stream node t hlookup
    rcases hc with rfl | ⟨-, env, req, rfl⟩
    · exact .teardown v t false (Ctcp.afterClose_node _) (hafter _)
    · rcases Ctcp.afterShutdown_cases env req he with heq | heq <;> rw [heq]
      · exact .teardown v t false (Ctcp.afterClose_node _) (hafter _)
      · exact .teardown v t false rfl id
  | connectFail t armed hreq harmed => exact absurd hl (by simp [Label.EndsNone])
  | connectUp t ok v' hreq hclosing hstart => exact absurd hl (by simp [Label.EndsNone])
  | acceptUp peer ok v' hstart =>
    exact hstart.startsUp.calm_of_new (by simp [Ctcp.Connecting, Ctcp.arm, Ctcp.startRead, Ctcp.fresh])
  | shutdownDone t hreq =>
    exact .setTcp v t (Ctcp.afterClose_node _) (hafter _)
  | dead c hc =>
    refine .add v c rfl rfl (fun _ _ => Iff.rfl) (fun h => ?_) fun _ _ _ => Iff.rfl
    unfold Ctcp.Connecting at h
    rw [hc.connectReq] at h
    exact absurd h (by simp)
  | park node b buf hwaiting hlookup => exact (Calm.refl v).congr rfl rfl rfl rfl
  | connect node b req htcp hvalid hwaiting hlookup =>
    refine .add v _ rfl rfl (fun t ht => ?_) (fun _ => Finset.mem_insert_self _ _) fun t _ n => ?_
    · exact Finset.mem_insert.trans (or_iff_right ht.ne)
    · exact List.mem_append.trans (or_iff_left (by simp))
  | refuse node b hwaiting hlookup => exact .emit v (by simp [dropCalls])
  | discard node b => exact .emit v (by simp [dropCalls])
  | write t node b req hlookup => exact .setTcp_emit v t rfl id (by simp)
  | writeFail t node b passed hlookup =>
    exact .emit v fun t' n => by cases passed <;> simp [dropCalls]
  | listen node hserver =>
    refine .add v _ rfl rfl (fun _ _ => Iff.rfl) (fun h => ?_) fun _ _ _ => Iff.rfl
    exact absurd h (by simp [Ctcp.Connecting])
  | unlisten node t hserver =>
    exact (Calm.setTcp v t (Ctcp.afterClose_node _) (hafter _)).congr rfl rfl rfl rfl
  | notice node hnode => exact .emit v (by simp)
  | exit => exact absurd hl (by simp [Label.EndsNone])

theorem Act.connecting_eq {v v' : Table} {l : Label} (hact : Act v l v') (hl : l.EndsNone)
    (hconnect : ∀ node b, l ≠ .connect node b) : v'.connecting = v.connecting := by
  cases hact with
  | acceptUp peer ok v' hstart => exact hstart.startsUp.connecting
  | connect node b => exact absurd rfl (hconnect node b)
  | connectFail | connectUp | exit => exact absurd hl (by simp [Label.EndsNone])
  | _ => rfl

/-- The connect of `t` ends, and `obs` is appended to the trace. -/
structure Table.Ends (v : Table) (t : ℕ) (obs : List Obs) (v' : Table) : Prop where
  nextTcp : v'.nextTcp = v.nextTcp
  connecting : v'.connecting = v.connecting.erase t
  node : ∀ t', (v'.tcps t').node = (v.tcps t').node
  pending : ∀ t', (v'.tcps t').Connecting → (v.tcps t').Connecting
  trace : v'.trace = v.trace ++ obs
  other : ∀ t' node, t' ≠ t → Obs.registered t' node ∉ obs

theorem Table.Ends.kept {v v' : Table} {t t' : ℕ} {obs : List Obs} (h : v.Ends t obs v')
    (ht : t' ≠ t) : v.Kept v' t' where
  connecting := by
    rw [h.connecting, Finset.mem_erase]
    exact and_iff_right ht
  node := h.node t'
  registered := by
    intro node
    rw [h.trace]
    exact List.mem_append.trans (or_iff_left (h.other t' node ht))

/-- A connect that fails. -/
theorem Act.ends_of_connectFail {v v' : Table} {t : ℕ} (hact : Act v (.connectFail t) v') :
    (v.tcps t).Connecting ∧ ∃ queue, v.Ends t
      (.callback (.connectionStatus (v.tcps t).node false) :: dropCalls (v.tcps t).node queue)
      v' := by
  cases hact with
  | connectFail t armed hreq harmed =>
    set c := if armed then (v.tcps t).connectDone.arm .idle else (v.tcps t).connectDone with hc
    have hnode : c.node = (v.tcps t).node := by cases armed <;> rfl
    have hobj : ({ v with connecting := v.connecting.erase t }.setTcp t c).tcps t = c :=
      setTcp_tcps_self t c
    have hother : ∀ t', t' ≠ t → (({ v with connecting := v.connecting.erase t }.setTcp t
        c).teardown t true c.afterClose).tcps t' = v.tcps t' := fun t' ht =>
      (Function.update_of_ne ht _ _).trans (Function.update_of_ne ht _ _)
    refine ⟨hreq, v.waiting (v.tcps t).node, rfl, rfl, fun t' => ?_, fun t' h => ?_, ?_,
      by simp [dropCalls]⟩
    · by_cases ht : t' = t
      · subst ht
        rw [teardown_tcps_self, Ctcp.afterClose_node, hnode]
      · rw [hother t' ht]
    · by_cases ht : t' = t
      · exact ht ▸ hreq
      · rwa [hother t' ht] at h
    · simp only [Table.teardown, hobj, hnode, Bool.or_true, if_true, List.append_assoc]
      rfl

/-- A connect that goes through. -/
theorem Act.ends_of_connectUp {v v' : Table} {t : ℕ} {ok : Bool}
    (hact : Act v (.connectUp t ok) v') :
    (v.tcps t).Connecting ∧ (v.tcps t).closing = false ∧
      ((v.node2stream.lookup (v.tcps t).node ≠ none ∧ v.Ends t [] v') ∨
        v.node2stream.lookup (v.tcps t).node = none ∧ ∃ obs, v.Ends t
          ([.registered t (v.tcps t).node, .callback (.connectionStatus (v.tcps t).node true)] ++
            obs) v') := by
  cases hact with
  | connectUp t ok v' hreq hclosing hstart =>
    have hup := hstart.startsUp
    set c := ((v.tcps t).connectDone.arm .idle).startRead with hc
    have hobj : ∀ t', t' ≠ t →
        ({ v with connecting := v.connecting.erase t }.setTcp t c).tcps t' = v.tcps t' :=
      fun t' ht => Function.update_of_ne ht _ _
    have hnode : ∀ t', (v'.tcps t').node = (v.tcps t').node := by
      intro t'
      rw [hup.node]
      by_cases ht : t' = t
      · subst ht
        rw [setTcp_tcps_self]
        rfl
      · rw [hobj t' ht]
    have hpending : ∀ t', (v'.tcps t').Connecting → (v.tcps t').Connecting := by
      intro t' h
      have h' := hup.pending t' h
      by_cases ht : t' = t
      · exact ht ▸ hreq
      · rwa [hobj t' ht] at h'
    have htrace := hup.trace
    rw [setTcp_tcps_self] at htrace
    refine ⟨hreq, hclosing, ?_⟩
    rcases htrace with ⟨hlookup, htrace⟩ | ⟨hlookup, obs, htrace, hobs⟩
    · refine .inl ⟨hlookup, hup.nextTcp, hup.connecting, hnode, hpending, ?_, by simp⟩
      rw [htrace, List.append_nil]
      rfl
    · refine .inr ⟨hlookup, obs, hup.nextTcp, hup.connecting, hnode, hpending, ?_, ?_⟩
      · rw [htrace, List.append_assoc]
        rfl
      · intro t' node ht
        simp [hobs, ht]

/-- A connect that is started. -/
theorem Act.of_connect {v v' : Table} {node : CnetworkNode} {b : UvBuf}
    (hact : Act v (.connect node b) v') :
    v'.nextTcp = v.nextTcp + 1 ∧ (v'.tcps v.nextTcp).node = node ∧
      v'.connecting = insert v.nextTcp v.connecting ∧
      v'.trace = v.trace ++ [.uvTcpConnect v.nextTcp node] := by
  cases hact with
  | connect _ _ req htcp hvalid hwaiting hlookup =>
    refine ⟨rfl, ?_, rfl, rfl⟩
    exact congrArg Ctcp.node (add_tcps_self (v := v) _)

theorem Act.trace_of_refuse {v v' : Table} {node : CnetworkNode} {b : UvBuf}
    (hact : Act v (.refuse node b) v') :
    v'.trace = v.trace ++ (.callback (.connectionStatus node false) :: dropCalls node [b]) := by
  cases hact with
  | refuse => rfl

section Acts

variable {v v' : Table} {ls : List Label}

theorem Acts.calm (hacts : Acts v ls v') (hls : ∀ l ∈ ls, l.EndsNone) (hwf : v.Wf) :
    v.Calm v' := by
  induction hacts with
  | nil => exact .refl _
  | cons hact _ ih =>
    have hwf₁ := hact.wf hwf
    exact (hact.calm (hls _ (by simp)) hwf).trans
      (ih (fun l hl => hls l (List.mem_cons_of_mem _ hl)) hwf₁) hwf₁

theorem Acts.connecting_eq (hacts : Acts v ls v') (hls : ∀ l ∈ ls, l.EndsNone)
    (hconnect : ∀ l ∈ ls, ∀ node b, l ≠ .connect node b) : v'.connecting = v.connecting := by
  induction hacts with
  | nil => rfl
  | cons hact _ ih =>
    rw [ih (fun l hl => hls l (List.mem_cons_of_mem _ hl))
      fun l hl => hconnect l (List.mem_cons_of_mem _ hl)]
    exact hact.connecting_eq (hls _ (by simp)) (hconnect _ (by simp))

/-- Between two tables with the same pending connects none was started. -/
theorem Table.Calm.connecting_of_eq (h : v.Calm v') (hwf : v.Wf)
    (hconnecting : v'.connecting = v.connecting) {t : ℕ} (ht : (v'.tcps t).Connecting) :
    (v.tcps t).Connecting := by
  rcases h.pending t ht with ht | ⟨-, hin⟩
  · exact ht
  · rw [hconnecting] at hin
    exact hwf.connecting t hin

end Acts

/-! ## The loops that start no connect -/

section Loops

variable (env : Env) (s : Internal)

theorem connecting_shutdownTcpConnection (t : ℕ) (bAlwaysNotify bShutdown : Bool) :
    (shutdownTcpConnectionSetNullptr env t bAlwaysNotify bShutdown s).connecting = s.connecting :=
  congrArg Table.connecting (table_shutdownTcpConnection s env t bAlwaysNotify bShutdown)

theorem connecting_closeSetNullptr (t : ℕ) :
    (Ctcp.closeSetNullptr t s).connecting = s.connecting :=
  congrArg Table.connecting (table_closeSetNullptr t s)

theorem connecting_uvTimerStart (t : ℕ) (timeout : Timeout) (ok : Bool) :
    (uvTimerStart t s timeout ok).connecting = s.connecting := by
  cases ok <;> rfl

theorem connecting_uvWrite (t : ℕ) (w : WriteWithInfo) (ok : Bool) :
    (uvWrite t s w ok).connecting = s.connecting := by
  cases ok <;> rfl

theorem Table.Failed.connecting {v v' : Table} (h : v.Failed v') :
    v'.connecting = v.connecting := by
  rcases h with rfl | ⟨c, -, rfl⟩ <;> rfl

theorem connecting_bindOne (node : CnetworkNode) (bBind : Bool) :
    (bindOne env node bBind s).connecting = s.connecting := by
  cases hnode : node.protocol with
  | protocolTcp =>
    unfold bindOne
    simp only [hnode]
    cases s.tcpServers.lookup node with
    | some tcp =>
      cases bBind
      · exact connecting_closeSetNullptr _ tcp
      · rfl
    | none =>
      cases bBind
      · rfl
      · simp only [if_true]
        rcases bindAndListenTcp_cases env s hnode with ⟨s₁, heq, htable⟩ | ⟨s₁, heq, hfailed⟩
        · rw [heq]
          exact congrArg Table.connecting htable
        · rw [heq]
          exact hfailed.connecting
  | protocolUdp => exact congrArg Table.connecting (table_bindUdp env hnode bBind s)
  | unknown n =>
    unfold bindOne
    simp only [hnode]
    rfl

theorem connecting_closeOne (node : CnetworkNode) (bForceClose : Bool) :
    (closeOne env node bForceClose s).connecting = s.connecting := by
  unfold closeOne
  cases getStreamByNode node s with
  | none => rfl
  | some tcp =>
    dsimp only
    split_ifs <;> simp only [connecting_shutdownTcpConnection, connecting_uvTimerStart]

theorem connecting_sendOnStream (req : PendingSend) (tcp : ℕ) :
    (sendOnStream env req tcp s).connecting = s.connecting := by
  unfold sendOnStream
  dsimp only
  split_ifs
  · rfl
  · rw [connecting_shutdownTcpConnection]
    exact connecting_uvTimerStart (mallocReq s).2 tcp .send _
  · rw [connecting_shutdownTcpConnection]
    exact (connecting_uvWrite _ _ _ _).trans (connecting_uvTimerStart (mallocReq s).2 tcp .send _)
  · exact (connecting_uvWrite _ _ _ _).trans (connecting_uvTimerStart (mallocReq s).2 tcp .send _)

/-- A message that needs no connect. -/
theorem connecting_sendOne {req : PendingSend}
    (hno : ¬ (req.node.protocol = .protocolTcp ∧ getStreamByNode req.node s = none ∧
      s.waitingSend.lookup req.node = none ∧ req.bAutoConnect)) :
    (sendOne env req s).connecting = s.connecting := by
  cases hnode : req.node.protocol with
  | protocolTcp =>
    unfold sendOne
    simp only [hnode]
    cases hstream : getStreamByNode req.node s with
    | some tcp => exact connecting_sendOnStream env s req tcp
    | none =>
      unfold sendWithoutStream
      dsimp only
      cases hwaiting : s.waitingSend.lookup req.node with
      | some buf =>
        simp only [Option.isNone_some, Bool.false_and, Bool.false_eq_true, if_false]
        unfold pushWaiting
        rw [hwaiting]
      | none =>
        have hauto : req.bAutoConnect = false := by
          by_contra h
          exact hno ⟨hnode, hstream, hwaiting, by simpa using h⟩
        simp only [Option.isNone_none, hauto, Bool.not_false, Bool.and_self, if_true]
        rfl
  | protocolUdp =>
    unfold sendOne
    simp only [hnode]
    exact congrArg Table.connecting (table_sendUdp env s)
  | unknown n =>
    unfold sendOne
    simp only [hnode]
    split_ifs <;> rfl

end Loops

/-! ## What a step does to an attempt -/

/-- What becomes of the object `t`, with the calls that answer its attempt. `clear` says that the
step meets `ConnectClear`. -/
inductive Table.Fate (clear : Prop) (v v' : Table) (t : ℕ) : List (CnetworkNode × Bool) → Prop
  | kept (h : v.Kept v' t) : Fate clear v v' t []
  | failed (hin : clear → t ∈ v.connecting) (hout : t ∉ v'.connecting)
      (hregistered : ∀ node, Obs.registered t node ∈ v'.trace ↔ Obs.registered t node ∈ v.trace) :
      Fate clear v v' t [((v.tcps t).node, false)]
  | up (hin : t ∈ v.connecting) (hout : t ∉ v'.connecting)
      (hregistered : Obs.registered t (v.tcps t).node ∈ v'.trace) :
      Fate clear v v' t [((v.tcps t).node, true)]
  /-- The node is taken, and nobody is told. -/
  | lost (hclear : ¬ clear) (hin : t ∈ v.connecting) (hout : t ∉ v'.connecting) :
      Fate clear v v' t []

/-- An attempt whose object is in the table. -/
structure Attempt.Tracked (v : Table) (a : Attempt) (t : ℕ) : Prop where
  lt : t < v.nextTcp
  node : (v.tcps t).node = a.node
  pending : t ∈ v.connecting → ∀ node, Obs.registered t node ∉ v.trace

/-- An attempt that was just started. -/
def Attempt.Begun (v : Table) (a : Attempt) : Prop :=
  match a.object with
  | none => a.outcomes = [(a.node, false)]
  | some t => a.outcomes = [] ∧ t ∈ v.connecting ∧ a.Tracked v t

/-- What a step does to the attempts. -/
structure Pool.Progress (p : Pool) (e : Event) (p' : Pool) : Prop where
  nextTcp : p.table.nextTcp ≤ p'.table.nextTcp
  node : ∀ t < p.table.nextTcp, (p'.table.tcps t).node = (p.table.tcps t).node
  fate : ∀ t < p.table.nextTcp, p.table.Fate (p.ConnectClear e) p'.table t
    (answersTo (Pool.answers e (newly reportOf p p')) (some t))
  starts : ∀ a ∈ p.starts e p', a.Begun p'.table
  pending : ∀ t, (p'.table.tcps t).Connecting →
    (p.table.tcps t).Connecting ∨ ∃ a ∈ p.starts e p', a.object = some t
  /-- A step that does not meet `ConnectClear` misses an attempt or reports it again. -/
  unclear : ¬ p.ConnectClear e → ∃ t, (p.table.tcps t).Connecting ∧ t ∉ p'.table.connecting ∧
    (t ∈ p.table.connecting ↔
      answersTo (Pool.answers e (newly reportOf p p')) (some t) = [])

namespace Pool

variable {p p' : Pool} {e : Event} {t : ℕ}

theorem answersTo_self (t : ℕ) (rs : List (CnetworkNode × Bool)) :
    answersTo (rs.map fun r => (t, r)) (some t) = rs := by
  unfold answersTo
  rw [List.filter_eq_self.mpr, List.map_map]
  · exact List.map_id rs
  · intro r hr
    obtain ⟨r, -, rfl⟩ := List.mem_map.mp hr
    exact decide_eq_true rfl

theorem answersTo_other {t t' : ℕ} (ht : t' ≠ t) (rs : List (CnetworkNode × Bool)) :
    answersTo (rs.map fun r => (t, r)) (some t') = [] := by
  unfold answersTo
  rw [List.filter_eq_nil_iff.mpr, List.map_nil]
  intro r hr
  obtain ⟨r, -, rfl⟩ := List.mem_map.mp hr
  simpa using ht.symm

/-- A step that starts, ends and reports nothing. -/
theorem Progress.of_calm (h : p.table.Calm p'.table)
    (hpending : ∀ t, (p'.table.tcps t).Connecting → (p.table.tcps t).Connecting)
    (hstarts : p.starts e p' = []) (hanswers : answers e (newly reportOf p p') = [])
    (hclear : p.ConnectClear e) : p.Progress e p' where
  nextTcp := h.nextTcp
  node := fun t ht => (h.kept t ht).node
  fate := by
    intro t ht
    rw [hanswers]
    exact .kept (h.kept t ht)
  starts := by
    rw [hstarts]
    simp
  pending := fun t ht => .inl (hpending t ht)
  unclear := fun hunclear => absurd hclear hunclear

/-- A step that leaves the table alone. -/
theorem Progress.of_table (h : p'.table = p.table) (hstarts : p.connectsTo e = none)
    (hanswers : answers e [] = []) (hclear : p.ConnectClear e) : p.Progress e p' := by
  have htrace : p'.table.trace = p.table.trace ++ [] := by
    rw [h, List.append_nil]
  have hnew : newly reportOf p p' = [] := newly_eq reportOf_visible htrace
  refine .of_calm ?_ ?_ ?_ ?_ hclear
  · rw [h]
    exact .refl _
  · rw [h]
    exact fun _ => id
  · unfold Pool.starts
    rw [hstarts]
    rfl
  · rw [hnew]
    exact hanswers

/-- A connect that is pending on an open object is in `m_connecting`. -/
theorem mem_connecting_of_open (hr : poolSystem.Reachable p) (hreq : (p.table.tcps t).Connecting)
    (hclosing : (p.table.tcps t).closing = false) : t ∈ p.table.connecting := by
  have hwf := wf_of_reachable hr
  obtain ⟨hlistening, htcp, -⟩ := (hwf.tcps t).connectReq hreq
  rcases (homed_of_reachable hr t).place htcp hclosing with hin | hserver | hreg
  · exact hin
  · exact absurd hserver (hwf.not_server hlistening _)
  · have hup := (homed_of_reachable hr t).up hreg hclosing
    unfold Ctcp.Connecting at hreq
    rw [hup.connectReq] at hreq
    exact absurd hreq (by simp)

/-! ### The connect callback -/

section ConnectDone

variable {status : ℤ} {env : Env}

theorem unclear_of_tearsDown
    (htorn : tearsDown p.internal (.connectDone t status env) = some t)
    (hunclear : ¬ p.ConnectClear (.uv (.connectDone t status env))) :
    t ∉ p.internal.connecting := by
  intro hin
  refine hunclear ⟨hin, fun hstatus hclosing htimer hread => ?_⟩
  simp [tearsDown, hclosing, htimer, hread, hstatus] at htorn

theorem clear_iff_of_starts (hin : t ∈ p.internal.connecting)
    (htorn : tearsDown p.internal (.connectDone t status env) = none) :
    p.ConnectClear (.uv (.connectDone t status env)) ↔
      p.internal.node2stream.lookup (p.internal.tcps t).node = none := by
  simp only [tearsDown, Bool.or_eq_true, decide_eq_true_eq, Bool.not_eq_true',
    ite_eq_right_iff, reduceCtorEq, imp_false, not_or, Bool.not_eq_true, not_lt,
    Bool.not_eq_false] at htorn
  obtain ⟨⟨⟨hstatus, hclosing⟩, htimer⟩, hread⟩ := htorn
  exact ⟨fun h => h.2 hstatus hclosing htimer hread, fun h => ⟨hin, fun _ _ _ _ => h⟩⟩

/-- The connect of `t` ends; `rs` is what is said about it. -/
theorem Progress.of_ends (rs : List (CnetworkNode × Bool)) {obs : List Obs}
    (h : p.table.Ends t obs p'.table) (hreq : (p.table.tcps t).Connecting)
    (hrs : (obs.filterMap reportOf).take 1 = rs)
    (hfate : p.table.Fate (p.ConnectClear (.uv (.connectDone t status env))) p'.table t rs)
    (hunclear : ¬ p.ConnectClear (.uv (.connectDone t status env)) →
      (t ∈ p.table.connecting ↔ rs = [])) :
    p.Progress (.uv (.connectDone t status env)) p' := by
  have hanswers : answers (.uv (.connectDone t status env)) (newly reportOf p p') =
      rs.map fun r => (t, r) := by
    rw [← hrs, ← newly_eq reportOf_visible h.trace]
    rfl
  have hout : t ∉ p'.table.connecting := by
    rw [h.connecting]
    exact Finset.notMem_erase t _
  refine ⟨h.nextTcp.ge, fun t' _ => h.node t', fun t' _ => ?_, by simp [Pool.starts, connectsTo],
    fun t' ht' => .inl (h.pending t' ht'), fun hno => ⟨t, hreq, hout, ?_⟩⟩
  · rw [hanswers]
    by_cases ht : t' = t
    · subst ht
      rw [answersTo_self]
      exact hfate
    · rw [answersTo_other ht]
      exact .kept (h.kept ht)
  · rw [hanswers, answersTo_self]
    exact hunclear hno

/-- The connect fails. -/
theorem Progress.of_connectFail
    (htorn : tearsDown p.internal (.connectDone t status env) = some t)
    (hact : Act p.table (.connectFail t) p'.table) :
    p.Progress (.uv (.connectDone t status env)) p' := by
  obtain ⟨hreq, queue, hends⟩ := hact.ends_of_connectFail
  refine .of_ends [((p.table.tcps t).node, false)] hends hreq ?_ ?_ fun hno => ?_
  · rw [List.filterMap_cons, filterMap_reportOf_dropCalls]
    rfl
  · refine .failed (fun hclear => hclear.1) ?_ fun node => ?_
    · rw [hends.connecting]
      exact Finset.notMem_erase t _
    · rw [hends.trace]
      exact List.mem_append.trans (or_iff_left (by simp [dropCalls]))
  · exact iff_of_false (unclear_of_tearsDown htorn hno) (by simp)

/-- The connection starts up, unless its node is taken. -/
theorem Progress.of_connectUp (hr : poolSystem.Reachable p) {ok : Bool}
    (htorn : tearsDown p.internal (.connectDone t status env) = none)
    (hact : Act p.table (.connectUp t ok) p'.table) :
    p.Progress (.uv (.connectDone t status env)) p' := by
  obtain ⟨hreq, hclosing, hends⟩ := hact.ends_of_connectUp
  have hin := mem_connecting_of_open hr hreq hclosing
  have hclear := clear_iff_of_starts hin htorn
  have hout : ∀ {obs : List Obs}, p.table.Ends t obs p'.table → t ∉ p'.table.connecting := by
    intro obs hends
    rw [hends.connecting]
    exact Finset.notMem_erase t _
  rcases hends with ⟨hlookup, hends⟩ | ⟨hlookup, obs, hends⟩
  · have hno : ¬ p.ConnectClear (.uv (.connectDone t status env)) := fun h =>
      hlookup (hclear.mp h)
    exact .of_ends [] hends hreq rfl (.lost hno hin (hout hends)) fun _ => iff_of_true hin rfl
  · refine .of_ends [((p.table.tcps t).node, true)] hends hreq rfl ?_ fun hno =>
      absurd (hclear.mpr hlookup) hno
    refine .up hin (hout hends) ?_
    rw [hends.trace]
    simp

end ConnectDone

/-! ### Exit -/

/-- Each object of a list without repetitions gets its own answer. -/
theorem answersTo_map {l : List ℕ} (hl : l.Nodup) (f : ℕ → CnetworkNode × Bool) (t : ℕ) :
    answersTo (l.map fun t => (t, f t)) (some t) = if t ∈ l then [f t] else [] := by
  induction l with
  | nil => rfl
  | cons t₀ l ih =>
    obtain ⟨hnot, hl⟩ := List.nodup_cons.mp hl
    have hih := ih hl
    unfold answersTo at hih ⊢
    rw [List.map_cons, List.filter_cons]
    by_cases ht : t = t₀
    · subst ht
      rw [if_neg hnot] at hih
      rw [if_pos (decide_eq_true rfl), List.map_cons, hih, if_pos List.mem_cons_self]
    · rw [if_neg (by simpa using Ne.symm ht), hih]
      simp [ht]

/-- The exit branch fails every pending connect. -/
theorem Progress.of_exit {order : ExitOrder} {b : Batch}
    (henum : order.Enumerates p.internal) (hs : p'.internal = exitAll order b p.internal) :
    p.Progress (.dispatch order) p' := by
  obtain ⟨-, -, hnodup, hconnecting, -⟩ := henum
  obtain ⟨tcps, hloops, hclosed⟩ := table_exitLoops order p.internal
  have htable : p'.table = _ := (congrArg Internal.table hs).trans (table_exitAll order b p.internal)
  rw [hloops] at htable
  have hobj : p'.table.tcps = tcps := congrArg Table.tcps htable
  have hempty : p'.table.connecting = ∅ := congrArg Table.connecting htable
  have htrace : p'.table.trace = p.table.trace ++ (order.node2stream.map
      (fun pair => .callback (.connectionStatus (p.internal.tcps pair.2).node false)) ++
        (order.connecting.map
          (fun t => .callback (.connectionStatus (p.internal.tcps t).node false)) ++
        (order.waitingSend.flatMap (fun pair => dropCalls pair.1 pair.2) ++
        b.sendCopy.flatMap fun req => dropCalls req.node [req.data]))) := by
    rw [congrArg Table.trace htable]
    simp only [List.append_assoc]
  have hdrops : (order.waitingSend.flatMap (fun pair => dropCalls pair.1 pair.2) ++
      b.sendCopy.flatMap fun req => dropCalls req.node [req.data]).filterMap reportOf = [] := by
    refine List.filterMap_eq_nil_iff.mpr fun o ho => ?_
    rw [List.mem_append, List.mem_flatMap, List.mem_flatMap] at ho
    simp only [dropCalls, List.mem_map] at ho
    rcases ho with ⟨_, -, _, -, rfl⟩ | ⟨_, -, _, -, rfl⟩ <;> rfl
  -- the reports of the connections come first
  have hanswers : answers (.dispatch order) (newly reportOf p p') =
      order.connecting.map fun t => (t, (p.internal.tcps t).node, false) := by
    rw [newly_eq reportOf_visible htrace, List.filterMap_append, List.filterMap_append, hdrops,
      List.append_nil, filterMap_reportOf_statuses, filterMap_reportOf_statuses]
    unfold answers
    dsimp only
    have hzip := List.zip_map' (l := order.connecting) (f := id)
      (g := fun t => ((p.internal.tcps t).node, false))
    rw [List.map_id] at hzip
    rw [List.drop_left' (List.length_map _)]
    exact hzip
  have hout : ∀ t, t ∉ p'.table.connecting := fun t => by
    rw [hempty]
    exact Finset.notMem_empty t
  have hin : ∀ t, t ∈ order.connecting ↔ t ∈ p.table.connecting := fun t => by
    rw [← List.mem_toFinset, hconnecting]
    rfl
  have hregistered : ∀ t node,
      Obs.registered t node ∈ p'.table.trace ↔ Obs.registered t node ∈ p.table.trace := by
    intro t node
    rw [htrace]
    exact List.mem_append.trans (or_iff_left (by simp [dropCalls]))
  have hnode : ∀ t, (p'.table.tcps t).node = (p.table.tcps t).node := by
    intro t
    rw [hobj]
    exact hclosed.node t
  refine ⟨(congrArg Table.nextTcp htable).ge, fun t _ => hnode t, fun t ht => ?_,
    by simp [Pool.starts, connectsTo], fun t h => .inl ?_, fun h => absurd trivial h⟩
  · rw [hanswers, answersTo_map hnodup]
    by_cases htin : t ∈ p.table.connecting
    · rw [if_pos ((hin t).mpr htin)]
      exact .failed (fun _ => htin) (hout t) fun node => hregistered t node
    · rw [if_neg fun h => htin ((hin t).mp h)]
      exact .kept ⟨iff_of_false (hout t) htin, hnode t, hregistered t⟩
  · rw [hobj, hclosed t] at h
    split_ifs at h
    · simpa [Ctcp.Connecting] using h
    · exact h

/-! ### The send loop -/

/-- A message that asks for a connect. -/
theorem Progress.of_connect (hr : poolSystem.Reachable p) {env : Env} {req : PendingSend}
    (hconnects : p.connectsTo (.sendNext env) = some req.node)
    (hcases : Act p.table (.connect req.node req.data) p'.table ∨
      ∃ v₁, p.table.Failed v₁ ∧ Act v₁ (.refuse req.node req.data) p'.table) :
    p.Progress (.sendNext env) p' := by
  have hwf := wf_of_reachable hr
  have hstarts : ∀ {obs : List Obs}, p'.table.trace = p.table.trace ++ obs →
      p.starts (.sendNext env) p' =
        [⟨req.node, (obs.filterMap connectOf).head?, obs.filterMap reportOf⟩] := by
    intro obs htrace
    unfold Pool.starts
    rw [hconnects, newly_eq connectOf_visible htrace, newly_eq reportOf_visible htrace]
    rfl
  rcases hcases with hact | ⟨v₁, hfailed, hact⟩
  · have hcalm := hact.calm trivial hwf
    obtain ⟨hnext, hobj, hconnecting, htrace⟩ : p'.table.nextTcp = p.table.nextTcp + 1 ∧
        (p'.table.tcps p.table.nextTcp).node = req.node ∧
        p'.table.connecting = insert p.table.nextTcp p.table.connecting ∧
        p'.table.trace = p.table.trace ++ [.uvTcpConnect p.table.nextTcp req.node] :=
      hact.of_connect
    have hnew := hstarts htrace
    refine ⟨hcalm.nextTcp, fun t ht => (hcalm.kept t ht).node, fun t ht => .kept (hcalm.kept t ht),
      ?_, fun t h => ?_, fun h => absurd trivial h⟩
    · rw [hnew]
      intro a ha
      rw [List.mem_singleton.mp ha]
      refine ⟨rfl, ?_, by omega, hobj, fun _ n hmem => ?_⟩
      · rw [hconnecting]
        exact Finset.mem_insert_self _ _
      · rw [htrace, List.mem_append] at hmem
        rcases hmem with hmem | hmem
        · have hfresh := hwf.fresh p.table.nextTcp le_rfl
          have hup := (homed_of_reachable hr p.table.nextTcp).up ⟨n, hmem⟩ (by rw [hfresh])
          rw [hfresh] at hup
          exact absurd hup.tcpInited (by simp)
        · simp at hmem
    · rcases hcalm.pending t h with h | ⟨-, hin⟩
      · exact .inl h
      · rw [hconnecting] at hin
        rcases Finset.mem_insert.mp hin with rfl | hin
        · exact .inr ⟨_, hnew ▸ List.mem_singleton_self _, rfl⟩
        · exact .inl (hwf.connecting t hin)
  · have hcalm : p.table.Calm p'.table := by
      rcases hfailed with rfl | ⟨c, hc, rfl⟩
      · exact hact.calm trivial hwf
      · have hdead : Act p.table .dead (p.table.add c) := .dead c hc
        have hwf₁ := hdead.wf hwf
        exact (hdead.calm trivial hwf).trans (hact.calm trivial hwf₁) hwf₁
    have hconnecting : p'.table.connecting = p.table.connecting :=
      (hact.connecting_eq trivial (by simp)).trans hfailed.connecting
    have htrace : p'.table.trace = p.table.trace ++
        (.callback (.connectionStatus req.node false) :: dropCalls req.node [req.data]) := by
      rw [hact.trace_of_refuse]
      rcases hfailed with rfl | ⟨c, -, rfl⟩ <;> rfl
    refine ⟨hcalm.nextTcp, fun t ht => (hcalm.kept t ht).node, fun t ht => .kept (hcalm.kept t ht),
      ?_, fun t h => .inl (hcalm.connecting_of_eq hwf hconnecting h), fun h => absurd trivial h⟩
    rw [hstarts htrace]
    intro a ha
    rw [List.mem_singleton.mp ha]
    rfl

/-- A part of `on_wakeup` that leaves the pending connects alone. -/
theorem Progress.of_loop {took : List (CnetworkNode × UvBuf)} (hwf : p.table.Wf)
    (hacts : WakeupActs took p.table p'.table)
    (hconnecting : p'.internal.connecting = p.internal.connecting)
    (hstarts : p.connectsTo e = none) (hanswers : ∀ rs, answers e rs = [])
    (hclear : p.ConnectClear e) : p.Progress e p' := by
  obtain ⟨ls, hacts, hls, -⟩ := hacts
  have hcalm := hacts.calm (fun l hl => (hls l hl).endsNone) hwf
  refine .of_calm hcalm (fun t h => hcalm.connecting_of_eq hwf hconnecting h) ?_ (hanswers _) hclear
  unfold Pool.starts
  rw [hstarts]
  rfl

/-- The send loop. -/
theorem Progress.of_send (hr : poolSystem.Reachable p) {env : Env} {req : PendingSend}
    {sends : List PendingSend} {closes : List (CnetworkNode × Bool)}
    (hbatch : p.batch = some ⟨[], req :: sends, closes, true⟩)
    (hs : p'.internal = sendOne env req p.internal) : p.Progress (.sendNext env) p' := by
  have hwf := wf_of_reachable hr
  by_cases hneed : req.node.protocol = .protocolTcp ∧ getStreamByNode req.node p.internal = none ∧
      p.internal.waitingSend.lookup req.node = none ∧ req.bAutoConnect
  · obtain ⟨hnode, hstream, hwaiting, hauto⟩ := hneed
    refine .of_connect hr ?_ (connect_cases env hnode hstream hwaiting ?_)
    · simp only [connectsTo, hbatch]
      rw [if_pos ⟨hnode, hstream, hwaiting, hauto⟩]
    · have hsend : sendOne env req p.internal = sendWithoutStream env req p.internal := by
        simp only [sendOne, hnode, hstream]
      rw [hs, hsend, sendWithoutStream, pushWaiting, hwaiting, hauto]
      rfl
  · have hacts : WakeupActs [(req.node, req.data)] p.table (sendOne env req p.internal).table :=
      sendOne_acts env hwf
    rw [← hs] at hacts
    refine .of_loop hwf hacts ?_ ?_ (fun _ => rfl) trivial
    · rw [hs]
      exact connecting_sendOne env p.internal hneed
    · simp only [connectsTo, hbatch]
      rw [if_neg hneed]

/-! ### libuv -/

/-- The callbacks other than `on_connect_done`. -/
theorem Progress.of_uv {e : UvEvent} {s : Internal} (hwf : p.table.Wf)
    (hs : uvStep p.internal e = some s) (he : ∀ t status env, e ≠ .connectDone t status env) :
    p.Progress (.uv e) { p with internal := s } := by
  have hallows : ∀ l, e.Allows l → l.EndsNone ∧ ∀ node b, l ≠ .connect node b := by
    intro l hl
    cases e with
    | connectDone t status env => exact absurd rfl (he t status env)
    | _ => cases l <;> simp_all [UvEvent.Allows, Label.EndsNone]
  obtain ⟨ls, hacts, hls⟩ : ∃ ls, Acts p.table ls s.table ∧ ∀ l ∈ ls, e.Allows l := by
    obtain ⟨ls, v₁, hacts, hls, ⟨rfl, -⟩ | ⟨l, hact, hl, -⟩⟩ := uvStep_acts hwf hs
    · exact ⟨ls, hacts, fun l hl => (hls l hl).2⟩
    · refine ⟨ls ++ [l], hacts.append (.single hact), fun l' hl' => ?_⟩
      rcases List.mem_append.mp hl' with hl' | hl'
      · exact (hls l' hl').2
      · rw [List.mem_singleton.mp hl']
        exact hl
  have hcalm := hacts.calm (fun l hl => (hallows l (hls l hl)).1) hwf
  have hconnecting := hacts.connecting_eq (fun l hl => (hallows l (hls l hl)).1)
    fun l hl => (hallows l (hls l hl)).2
  refine .of_calm hcalm (fun t h => hcalm.connecting_of_eq hwf hconnecting h) rfl ?_ ?_
  · cases e with
    | connectDone t status env => exact absurd rfl (he t status env)
    | _ => rfl
  · cases e with
    | connectDone t status env => exact absurd rfl (he t status env)
    | _ => trivial

/-- **What a step does to the attempts.** -/
theorem progress (hr : poolSystem.Reachable p) (h : p.step e = some p') : p.Progress e p' := by
  have hwf := wf_of_reachable hr
  cases e with
  | bind node bBind =>
    rw [← Option.some.inj h]
    exact .of_table rfl rfl rfl trivial
  | send node data bAutoConnect =>
    rw [← Option.some.inj h]
    exact .of_table rfl rfl rfl trivial
  | close node bForceClose =>
    rw [← Option.some.inj h]
    exact .of_table rfl rfl rfl trivial
  | wantExit =>
    rw [← Option.some.inj h]
    exact .of_table rfl rfl rfl trivial
  | wakeup =>
    simp only [Pool.step] at h
    split at h
    · exact absurd h (by simp)
    · simp only [Option.ite_none_left_eq_some, Option.some.injEq] at h
      rw [← h.2]
      exact .of_table rfl rfl rfl trivial
  | dispatch order =>
    simp only [Pool.step] at h
    split at h
    · rename_i binds sends closes hbatch
      split_ifs at h with hexit henum
      · rw [← Option.some.inj h]
        exact .of_exit henum rfl
      · rw [← Option.some.inj h]
        exact .of_table rfl rfl (by simp [answers]) trivial
    · exact absurd h (by simp)
  | bindNext env =>
    simp only [Pool.step] at h
    split at h
    · rename_i node bBind binds sends closes hbatch
      rw [← Option.some.inj h]
      exact .of_loop hwf (bindOne_acts env _ bBind) (connecting_bindOne env _ node bBind) rfl
        (fun _ => rfl) trivial
    · exact absurd h (by simp)
  | sendNext env =>
    simp only [Pool.step] at h
    split at h
    · rename_i req sends closes hbatch
      rw [← Option.some.inj h]
      exact .of_send hr hbatch rfl
    · exact absurd h (by simp)
  | closeNext env =>
    simp only [Pool.step] at h
    split at h
    · rename_i node bForceClose closes hbatch
      rw [← Option.some.inj h]
      exact .of_loop hwf (closeOne_acts env hwf node bForceClose)
        (connecting_closeOne env _ node bForceClose) rfl (fun _ => rfl) trivial
    · exact absurd h (by simp)
  | wakeupDone =>
    simp only [Pool.step] at h
    split at h
    · rw [← Option.some.inj h]
      exact .of_table rfl rfl rfl trivial
    · exact absurd h (by simp)
  | uv e =>
    simp only [Pool.step] at h
    split at h
    · exact absurd h (by simp)
    · split at h
      · rename_i s hs
        rw [← Option.some.inj h]
        by_cases he : ∃ t status env, e = .connectDone t status env
        · obtain ⟨t, status, env, rfl⟩ := he
          simp only [uvStep, Option.ite_none_right_eq_some, Option.some.injEq] at hs
          rw [← hs.2]
          rcases connectDone_cases env hwf hs.1 status with ⟨htorn, hact⟩ | ⟨htorn, hact⟩
          · exact .of_connectFail htorn hact
          · exact .of_connectUp hr htorn hact
        · exact .of_uv hwf hs fun t status env heq => he ⟨t, status, env, heq⟩
      · exact absurd h (by simp)

/-! ## Runs -/

/-- The attempts recorded are in the table, and no pending connect is missing. -/
structure Tracks (v : Table) (l : List Attempt) : Prop where
  tracked : ∀ a ∈ l, ∀ t, a.object = some t → a.Tracked v t
  complete : ∀ t, (v.tcps t).Connecting → ∃ a ∈ l, a.object = some t

theorem Progress.tracks (h : p.Progress e p') {l : List Attempt} (hl : Tracks p.table l) :
    Tracks p'.table (p.noteAttempts e p' l) where
  tracked := by
    intro a ha t hobj
    rcases List.mem_append.mp ha with ha | ha
    · obtain ⟨a, hold, rfl⟩ := List.mem_map.mp ha
      obtain ⟨hlt, hnode, hpending⟩ := hl.tracked a hold t hobj
      refine ⟨hlt.trans_le h.nextTcp, (h.node t hlt).trans hnode, fun hin node hmem => ?_⟩
      -- an object that is still pending stayed where it was
      have hfate := h.fate t hlt
      generalize answersTo (answers e (newly reportOf p p')) (some t) = rs at hfate
      cases hfate with
      | kept hkept =>
        exact hpending (hkept.connecting.mp hin) node ((hkept.registered node).mp hmem)
      | failed _ hout => exact hout hin
      | up _ hout => exact hout hin
      | lost _ _ hout => exact hout hin
    · have hbegun := h.starts a ha
      unfold Attempt.Begun at hbegun
      rw [hobj] at hbegun
      exact hbegun.2.2
  complete := by
    intro t ht
    rcases h.pending t ht with ht | ⟨a, ha, hobj⟩
    · obtain ⟨a, ha, hobj⟩ := hl.complete t ht
      exact ⟨_, List.mem_append_left _ (List.mem_map_of_mem ha), hobj⟩
    · exact ⟨a, List.mem_append_right _ ha, hobj⟩

theorem tracks_of_reachable {s : Pool × List Attempt} (h : attemptSystem.Reachable s) :
    Tracks s.1.table s.2 := by
  refine h.invariant (I := fun s => Tracks s.1.table s.2) ⟨?_, ?_⟩ fun s e s' hr hI hstep => ?_
  · exact fun a ha => absurd ha List.not_mem_nil
  · exact fun t ht => absurd ht (by simp [Ctcp.Connecting, attemptSystem, Lib.Lts.record, poolSystem])
  · obtain ⟨hstep, hnote⟩ := Lib.Lts.step_of_record hstep
    rw [hnote]
    exact (progress hr.of_record hstep).tracks hI

theorem registered_mem_trace (p : Pool) (t : ℕ) (node : CnetworkNode) :
    Obs.registered t node ∈ p.table.trace ↔ Obs.registered t node ∈ p.internal.trace := by
  simp [Internal.table, visible, Obs.visible]

section Settled

variable {a : Attempt}

theorem settled_iff (hobj : a.object = some t) :
    a.Settled p ↔ (t ∈ p.table.connecting → a.outcomes = []) ∧
      (t ∉ p.table.connecting →
        a.outcomes = [(a.node, decide (Obs.registered t a.node ∈ p.internal.trace))]) := by
  unfold Attempt.Settled
  rw [hobj, table_connecting]
  by_cases hin : t ∈ p.internal.connecting <;> simp [hin]

/-- An attempt is settled after a step that meets `ConnectClear`. -/
theorem settled_of_fate {clear : Prop} {rs : List (ℕ × CnetworkNode × Bool)} (h : a.Settled p)
    (hobj : a.object = some t) (htracked : a.Tracked p.table t)
    (hfate : p.table.Fate clear p'.table t (answersTo rs (some t))) (hclear : clear) :
    (a.hear rs).Settled p' := by
  obtain ⟨hlt, hnode, hpending⟩ := htracked
  have hold := (settled_iff hobj).mp h
  rw [settled_iff (a := a.hear rs) hobj]
  have houtcomes : (a.hear rs).outcomes = a.outcomes ++ answersTo rs (some t) := by
    rw [← hobj]
    rfl
  have hnode' : (a.hear rs).node = a.node := rfl
  rw [houtcomes, hnode']
  generalize answersTo rs (some t) = new at hfate
  cases hfate with
  | kept hkept =>
    rw [List.append_nil, hkept.connecting]
    refine ⟨hold.1, fun hout => ?_⟩
    rw [hold.2 hout, decide_eq_decide.mpr]
    rw [← registered_mem_trace, ← registered_mem_trace, hkept.registered]
  | failed hin hout hregistered =>
    refine ⟨fun h => absurd h hout, fun _ => ?_⟩
    have hno : Obs.registered t a.node ∉ p'.internal.trace := by
      rw [← registered_mem_trace, hregistered, registered_mem_trace, ← registered_mem_trace]
      exact hpending (hin hclear) _
    rw [hold.1 (hin hclear), hnode, decide_eq_false hno]
    rfl
  | up hin hout hregistered =>
    refine ⟨fun h => absurd h hout, fun _ => ?_⟩
    rw [hnode, registered_mem_trace] at hregistered
    rw [hold.1 hin, hnode, decide_eq_true hregistered]
    rfl
  | lost hno _ _ => exact absurd hclear hno

theorem settled_of_begun (h : a.Begun p.table) : a.Settled p := by
  unfold Attempt.Begun at h
  unfold Attempt.Settled
  cases hobj : a.object with
  | none =>
    rw [hobj] at h
    exact h
  | some t =>
    rw [hobj] at h
    obtain ⟨hnil, hin, -⟩ := h
    exact (if_pos hin).mpr hnil

/-- The number of outcomes of a settled attempt. -/
theorem length_of_settled (h : a.Settled p) (hobj : a.object = some t) :
    a.outcomes.length = if t ∈ p.table.connecting then 0 else 1 := by
  obtain ⟨hin, hout⟩ := (settled_iff hobj).mp h
  split_ifs with ht
  · rw [hin ht]
    rfl
  · rw [hout ht]
    rfl

end Settled

/-- **Attempts are settled by the steps that meet `ConnectClear`.** -/
theorem settled_step {s s' : Pool × List Attempt} (hr : attemptSystem.Reachable s)
    (hI : ∀ a ∈ s.2, a.Settled s.1) (hstep : attemptSystem.step s e = some s') :
    (∀ a ∈ s'.2, a.Settled s'.1) ↔ s.1.ConnectClear e := by
  have htracks := tracks_of_reachable hr
  obtain ⟨hstep, hnote⟩ := Lib.Lts.step_of_record hstep
  have h := progress hr.of_record hstep
  rw [hnote]
  constructor
  · intro hall
    by_contra hno
    obtain ⟨t, hreq, hout, hiff⟩ := h.unclear hno
    obtain ⟨a, ha, hobj⟩ := htracks.complete t hreq
    have hbefore := length_of_settled (hI a ha) hobj
    have hafter := length_of_settled (hall _ (List.mem_append_left _ (List.mem_map_of_mem ha))) hobj
    -- it must hear exactly one call, and exactly if it was pending
    have hlength : (a.hear (answers e (newly reportOf s.1 s'.1))).outcomes.length =
        a.outcomes.length +
          (answersTo (answers e (newly reportOf s.1 s'.1)) (some t)).length := by
      rw [← hobj]
      exact List.length_append
    rw [hlength, hbefore, if_neg hout] at hafter
    by_cases hin : t ∈ s.1.table.connecting
    · rw [if_pos hin, hiff.mp hin] at hafter
      exact absurd hafter (by simp)
    · rw [if_neg hin] at hafter
      refine hin (hiff.mpr (List.length_eq_zero_iff.mp ?_))
      omega
  · intro hclear a ha
    rcases List.mem_append.mp ha with ha | ha
    · obtain ⟨a, hold, rfl⟩ := List.mem_map.mp ha
      cases hobj : a.object with
      | none =>
        have hsettled := hI a hold
        unfold Attempt.Settled at hsettled ⊢
        have hobj' : (a.hear (answers e (newly reportOf s.1 s'.1))).object = none := hobj
        rw [hobj] at hsettled
        rw [hobj']
        have hnil : answersTo (answers e (newly reportOf s.1 s'.1)) none = [] := by
          simp [answersTo]
        show a.outcomes ++ answersTo _ a.object = _
        rw [hobj, hnil, List.append_nil]
        exact hsettled
      | some t =>
        have htracked := htracks.tracked a hold t hobj
        exact settled_of_fate (hI a hold) hobj htracked (h.fate t htracked.lt) hclear
    · exact settled_of_begun (h.starts a ha)

/-- **Connect attempts are reported exactly once.** In the runs whose connect callbacks meet
`ConnectClear`, and in no others, every attempt is settled in every state. -/
theorem attempts_settled_iff (es : List Event) :
    attemptSystem.EachState (fun s => ∀ a ∈ s.2, a.Settled s.1) es ↔
      attemptSystem.EachStep (fun s e _ => s.1.ConnectClear e) es :=
  Lib.Lts.eachState_iff_eachStep (I := fun s => ∀ a ∈ s.2, a.Settled s.1)
    (fun _ ha => absurd ha List.not_mem_nil) (fun _ _ _ hr hI hstep => settled_step hr hI hstep) es

/-- The pool exits while a connect is pending, and its callback runs after that. -/
def exitDuringConnect : List Event :=
  sendRun ++ [.wantExit, .wakeup, .dispatch ⟨[], [], [0], [(sampleNode, [⟨0, [1]⟩])]⟩,
    .uv (.connectDone 0 0 {})]

/-- A listener accepts a connection from the node a connect is pending to, and then the connect
goes through. -/
def acceptDuringConnect : List Event :=
  sendRun ++ [.bind ⟨.protocolTcp, .in4 90 1⟩ true, .wakeup, .dispatch ⟨[], [], [], []⟩,
    .bindNext {}, .wakeupDone, .uv (.newConnection 1 0 { peer := sampleNode.sockaddr }),
    .uv (.connectDone 0 0 {})]

/-- A run that ends with one attempt, whose outcomes are not those of a settled one. -/
theorem not_eachState_settled {es : List Event} {a : Attempt} {b : Bool}
    (hrun : (attemptSystem.run es).map (fun s => (s.2, decide (t ∈ s.1.internal.connecting))) =
      some ([a], b)) (hobj : a.object = some t) (hlength : a.outcomes.length ≠ if b then 0 else 1) :
    ¬ attemptSystem.EachState (fun s => ∀ a ∈ s.2, a.Settled s.1) es := by
  intro h
  obtain ⟨s, hs, heq⟩ := Option.map_eq_some_iff.mp hrun
  obtain ⟨hl, rfl⟩ := Prod.mk.inj heq
  have hsettled := h es [] s (List.append_nil es).symm hs a (by rw [hl]; exact List.mem_singleton_self a)
  have hcount := length_of_settled hsettled hobj
  rw [table_connecting] at hcount
  exact hlength (by simpa using hcount)

/-- An attempt that the exit branch has reported is reported again, and an attempt whose node was
taken meanwhile is never reported. -/
theorem attempts_not_settled :
    (¬ attemptSystem.EachState (fun s => ∀ a ∈ s.2, a.Settled s.1) exitDuringConnect ∧
      (attemptSystem.run exitDuringConnect).map Prod.snd =
        some [⟨sampleNode, some 0, [(sampleNode, false), (sampleNode, false)]⟩]) ∧
    ¬ attemptSystem.EachState (fun s => ∀ a ∈ s.2, a.Settled s.1) acceptDuringConnect ∧
      (attemptSystem.run acceptDuringConnect).map Prod.snd = some [⟨sampleNode, some 0, []⟩] := by
  refine ⟨⟨?_, by decide⟩, ?_, by decide⟩
  · exact not_eachState_settled (t := 0) (b := false)
      (a := ⟨sampleNode, some 0, [(sampleNode, false), (sampleNode, false)]⟩)
      (by decide) rfl (by decide)
  · exact not_eachState_settled (t := 0) (b := false) (a := ⟨sampleNode, some 0, []⟩)
      (by decide) rfl (by decide)

end Pool

end NetworkPool
