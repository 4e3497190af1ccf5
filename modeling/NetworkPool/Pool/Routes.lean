import NetworkPool.Pool.HandleLifecycle
import NetworkPool.Pool.Reports
import NetworkPool.Pool.Waiting

/-!
# Routes

Where messages go. A message on its way to a node is in the pending queue, in the batch of a
running `on_wakeup` or in the waiting queue of the node. What is handed to `uv_write` was on its
way to the node of the connection, and the connection is the one stored under the node, or one
that is entered there in the same step (`Routed`). What is in flight on a connection was passed to
`uv_write` on it (`Passed`).
-/

namespace NetworkPool

/-- Entries that write, or enter a connection, or report one. -/
def Obs.routes : Obs → Bool
  | .uvWrite _ _ _ | .registered _ _ | .callback (.connectionStatus _ true) => true
  | _ => false

theorem Obs.visible_of_routes {o : Obs} (h : o.routes = true) : o.visible = true := by
  cases o with
  | callback c =>
    cases c with
    | connectionStatus node b => rfl
    | _ => exact absurd h (by simp [Obs.routes])
  | uvWrite | registered => rfl
  | _ => exact absurd h (by simp [Obs.routes])

/-- The label is of an action that enters a connection. -/
def Label.Enters : Label → Prop
  | .connectUp _ _ | .acceptUp _ _ => True
  | _ => False

theorem UvEvent.Allows.not_enters {t : ℕ} {nread : ℤ} {data : List UInt8} {env : Env} {l : Label}
    (h : (UvEvent.tcpRead t nread data env).Allows l) : ¬ l.Enters := by
  cases l with
  | connectUp | acceptUp => exact absurd h id
  | _ => exact id

namespace Table

/-! ## Actions -/

/-- What happens to the messages and to the map between `v` and `v'`. `took` are the messages
taken from the batch, `obs` the entries appended to the trace. -/
structure Routes (took : List (CnetworkNode × UvBuf)) (v : Table) (obs : List Obs) (v' : Table) :
    Prop where
  trace : v'.trace = v.trace ++ obs
  written : ∀ t node buf, Obs.uvWrite t node buf ∈ obs →
    (v.node2stream.lookup node = some t ∨ Obs.registered t node ∈ obs) ∧
      ∀ b ∈ buf, (node, b) ∈ tcpOnly took ∨ b ∈ v.waiting node
  waiting : ∀ node, ∀ b ∈ v'.waiting node, (node, b) ∈ tcpOnly took ∨ b ∈ v.waiting node
  entry : ∀ node t, v'.node2stream.lookup node = some t →
    v.node2stream.lookup node = some t ∨ Obs.registered t node ∈ obs
  entered : ∀ t node, Obs.registered t node ∈ obs → node.IsTcp ∧ v.node2stream.lookup node = none
  up : ∀ node, Obs.callback (.connectionStatus node true) ∈ obs → node.IsTcp

section Routes

variable {took took' : List (CnetworkNode × UvBuf)} {v v₁ v' : Table} {obs obs' : List Obs} {t : ℕ}

/-- Nothing is written or entered. -/
theorem Routes.of_silent (htrace : v'.trace = v.trace ++ obs) (hobs : ∀ o ∈ obs, o.routes = false)
    (hwaiting : ∀ node, ∀ b ∈ v'.waiting node, (node, b) ∈ tcpOnly took ∨ b ∈ v.waiting node)
    (hentry : ∀ node t, v'.node2stream.lookup node = some t → v.node2stream.lookup node = some t) :
    Routes took v obs v' where
  trace := htrace
  written := fun t node buf h => absurd (hobs _ h) (by simp [Obs.routes])
  waiting := hwaiting
  entry := fun node t h => .inl (hentry node t h)
  entered := fun t node h => absurd (hobs _ h) (by simp [Obs.routes])
  up := fun node h => absurd (hobs _ h) (by simp [Obs.routes])

/-- The queues and the map are left alone. -/
theorem Routes.of_same (htrace : v'.trace = v.trace ++ obs) (hobs : ∀ o ∈ obs, o.routes = false)
    (hwaiting : v'.waitingSend = v.waitingSend) (hmap : v'.node2stream = v.node2stream) :
    Routes took v obs v' := by
  apply Routes.of_silent htrace hobs
  · intro node b hb
    right
    unfold Table.waiting at hb ⊢
    rwa [hwaiting] at hb
  · intro node t h
    rwa [hmap] at h

theorem Routes.refl (v : Table) : Routes took v [] v :=
  .of_same (List.append_nil _).symm (by simp) rfl rfl

/-- One part after another. The second enters nothing, or the first leaves the map alone. -/
theorem Routes.trans (h : Routes took v obs v₁) (h' : Routes took' v₁ obs' v')
    (hentered : (∀ t node, Obs.registered t node ∉ obs') ∨ v₁.node2stream = v.node2stream) :
    Routes (took ++ took') v (obs ++ obs') v' := by
  have htook : ∀ m : CnetworkNode × UvBuf, m ∈ tcpOnly (took ++ took') ↔
      m ∈ tcpOnly took ∨ m ∈ tcpOnly took' := by
    intro m
    unfold tcpOnly
    rw [List.filter_append, List.mem_append]
  have hqueue : ∀ node, ∀ b, (node, b) ∈ tcpOnly took' ∨ b ∈ v₁.waiting node →
      (node, b) ∈ tcpOnly (took ++ took') ∨ b ∈ v.waiting node := by
    intro node b hb
    rw [htook]
    rcases hb with hb | hb
    · exact .inl (.inr hb)
    · exact (h.waiting node b hb).imp_left .inl
  constructor
  · rw [h'.trace, h.trace, List.append_assoc]
  · intro t node buf hmem
    rcases List.mem_append.mp hmem with hmem | hmem
    · obtain ⟨hentry, hbuf⟩ := h.written t node buf hmem
      refine ⟨hentry.imp_right (List.mem_append_left _), fun b hb => ?_⟩
      rw [htook]
      exact (hbuf b hb).imp_left .inl
    · obtain ⟨hentry, hbuf⟩ := h'.written t node buf hmem
      refine ⟨?_, fun b hb => hqueue node b (hbuf b hb)⟩
      rcases hentry with hentry | hreg
      · exact (h.entry node t hentry).imp_right (List.mem_append_left _)
      · exact .inr (List.mem_append_right _ hreg)
  · exact fun node b hb => hqueue node b (h'.waiting node b hb)
  · intro node t hentry
    rcases h'.entry node t hentry with hentry | hreg
    · exact (h.entry node t hentry).imp_right (List.mem_append_left _)
    · exact .inr (List.mem_append_right _ hreg)
  · intro t node hmem
    rcases List.mem_append.mp hmem with hmem | hmem
    · exact h.entered t node hmem
    · rcases hentered with hnone | hmap
      · exact absurd hmem (hnone t node)
      · rw [← hmap]
        exact h'.entered t node hmem
  · intro node hmem
    rcases List.mem_append.mp hmem with hmem | hmem
    · exact h.up node hmem
    · exact h'.up node hmem

theorem waiting_of_lookup {node : CnetworkNode} {queues : NodeMap (List UvBuf)} {b : UvBuf}
    (h : ∀ buf, queues.lookup node = some buf → v.waitingSend.lookup node = some buf)
    (hb : b ∈ (queues.lookup node).getD []) : b ∈ v.waiting node := by
  unfold Table.waiting
  cases hlookup : queues.lookup node with
  | none =>
    rw [hlookup] at hb
    simp at hb
  | some buf =>
    rw [hlookup] at hb
    rw [h buf hlookup]
    exact hb

theorem routes_dropCalls (node : CnetworkNode) (buf : List UvBuf) :
    ∀ o ∈ dropCalls node buf, o.routes = false := by
  intro o ho
  obtain ⟨b, -, rfl⟩ := List.mem_map.mp ho
  rfl

/-- A teardown. -/
theorem Routes.teardown (took : List (CnetworkNode × UvBuf)) (v : Table) (t : ℕ) (b : Bool)
    (c : Ctcp) :
    ∃ obs, Routes took v obs (v.teardown t b c) ∧ ∀ o ∈ obs, o.routes = false := by
  have hsilent : ∀ o ∈ (if (v.node2stream.lookup (v.tcps t).node).isSome || b then
      [Obs.callback (.connectionStatus (v.tcps t).node false)] else []) ++
        dropCalls (v.tcps t).node (v.waiting (v.tcps t).node), o.routes = false := by
    intro o ho
    rcases List.mem_append.mp ho with ho | ho
    · split_ifs at ho
      · rw [List.mem_singleton.mp ho]
        rfl
      · exact absurd ho List.not_mem_nil
    · exact routes_dropCalls _ _ o ho
  refine ⟨_, .of_silent (List.append_assoc _ _ _) hsilent (fun n b hb => .inr ?_) ?_, hsilent⟩
  · exact waiting_of_lookup (fun buf h => (Lib.AssocMap.of_lookup_erase h).2) hb
  · exact fun n t h => (Lib.AssocMap.of_lookup_erase h).2

/-- A connection is entered for its node, which has none; what waits for the node is handed to
`uv_write`, dropped, or both. -/
theorem Routes.register (htcp : (v.tcps t).node.IsTcp)
    (hlookup : v.node2stream.lookup (v.tcps t).node = none)
    (hobs : ∀ o ∈ obs, o.routes = false ∨
      o = .uvWrite t (v.tcps t).node (v.waiting (v.tcps t).node)) {tcps : ℕ → Ctcp} :
    Routes took v ([.registered t (v.tcps t).node,
      .callback (.connectionStatus (v.tcps t).node true)] ++ obs)
      { (v.register t).emit obs with tcps := tcps } := by
  have hmem : ∀ {o : Obs}, o ∈ [.registered t (v.tcps t).node,
      .callback (.connectionStatus (v.tcps t).node true)] ++ obs → o.routes = true →
      o = .registered t (v.tcps t).node ∨
      o = .callback (.connectionStatus (v.tcps t).node true) ∨
        o = .uvWrite t (v.tcps t).node (v.waiting (v.tcps t).node) := by
    intro o ho hroutes
    rw [List.cons_append, List.cons_append, List.nil_append, List.mem_cons, List.mem_cons] at ho
    rcases ho with rfl | rfl | ho
    · exact .inl rfl
    · exact .inr (.inl rfl)
    · right
      right
      apply (hobs o ho).resolve_left
      rw [hroutes]
      simp
  constructor
  · exact List.append_assoc _ _ _
  · intro t' node buf ho
    rcases hmem ho rfl with heq | heq | heq
    · exact absurd heq (by simp)
    · exact absurd heq (by simp)
    · obtain ⟨rfl, rfl, rfl⟩ := Obs.uvWrite.inj heq
      exact ⟨.inr (by simp), fun b hb => .inr hb⟩
  · intro node b hb
    exact .inr (waiting_of_lookup (fun buf h => (Lib.AssocMap.of_lookup_erase h).2) hb)
  · intro node t' h
    rcases Lib.AssocMap.of_lookup_insert h with ⟨rfl, rfl⟩ | ⟨-, h⟩
    · exact .inr (by simp)
    · exact .inl h
  · intro t' node ho
    rcases hmem ho rfl with heq | heq | heq
    · obtain ⟨-, rfl⟩ := Obs.registered.inj heq
      exact ⟨htcp, hlookup⟩
    · exact absurd heq (by simp)
    · exact absurd heq (by simp)
  · intro node ho
    rcases hmem ho rfl with heq | heq | heq
    · exact absurd heq (by simp)
    · obtain rfl : node = (v.tcps t).node := by simpa using heq
      exact htcp
    · exact absurd heq (by simp)

/-- `startupTcpConnection_may_set_nullptr`. -/
theorem Startup.routes {ok : Bool} (h : Startup ok v t v') (htcp : (v.tcps t).node.IsTcp) :
    ∃ obs, Routes took v obs v' := by
  cases h with
  | taken hlookup => exact ⟨[], .of_same (List.append_nil _).symm (by simp) rfl rfl⟩
  | up hlookup hwaiting =>
    exact ⟨_, .register htcp hlookup fun o ho => .inl (routes_dropCalls _ _ o ho)⟩
  | flush req hlookup =>
    exact ⟨_, .register htcp hlookup fun o ho => .inr (List.mem_singleton.mp ho)⟩
  | down passed hlookup hok =>
    -- the connection is entered, and its entry is erased again
    set obs₁ := (if passed then [Obs.uvWrite t (v.tcps t).node (v.waiting (v.tcps t).node)] else [])
      with hobs₁
    have hup : ∃ obs, Routes took v obs { (v.register t).emit
        (obs₁ ++ dropCalls (v.tcps t).node (v.waiting (v.tcps t).node)) with
      tcps := Function.update v.tcps t (if passed then (v.tcps t).arm .send else v.tcps t) } := by
      refine ⟨_, .register htcp hlookup ?_⟩
      intro o ho
      rcases List.mem_append.mp ho with ho | ho
      · rw [hobs₁] at ho
        split_ifs at ho
        · exact .inr (List.mem_singleton.mp ho)
        · exact absurd ho List.not_mem_nil
      · exact .inl (routes_dropCalls _ _ o ho)
    obtain ⟨obs, hup⟩ := hup
    obtain ⟨obs₂, hdown, hsilent⟩ := Routes.teardown []
      { (v.register t).emit (obs₁ ++ dropCalls (v.tcps t).node (v.waiting (v.tcps t).node)) with
        tcps := Function.update v.tcps t (if passed then (v.tcps t).arm .send else v.tcps t) }
      t false (if passed then (v.tcps t).arm .send else v.tcps t).afterClose
    have htrans := hup.trans hdown (.inl fun t' node hmem =>
      absurd (hsilent _ hmem) (by simp [Obs.routes]))
    rw [List.append_nil] at htrans
    rw [emit_emit]
    exact ⟨_, htrans⟩

/-- A message appended to the queue of its node. -/
theorem mem_waiting_insert {node n : CnetworkNode} {b b' : UvBuf}
    (h : b' ∈ ((v.waitingSend.insert node (v.waiting node ++ [b])).lookup n).getD []) :
    (n = node ∧ b' = b) ∨ b' ∈ v.waiting n := by
  by_cases hn : n = node
  · rw [hn, AList.lookup_insert, Option.getD_some, List.mem_append, List.mem_singleton] at h
    rw [hn]
    exact h.symm.imp_left fun hb => ⟨rfl, hb⟩
  · rw [AList.lookup_insert_ne hn] at h
    exact .inr h

/-- Only messages for TCP nodes wait. -/
theorem Covered.isTcp (h : v.Covered) (hwf : v.Wf) {node : CnetworkNode} {buf : List UvBuf}
    (hlookup : v.waitingSend.lookup node = some buf) : node.IsTcp := by
  obtain ⟨-, -, t, ht⟩ := h node buf hlookup
  rw [← ht.node]
  exact ((hwf.tcps t).node (hwf.connecting t ht.pending)).1

end Routes

end Table

open Table

/-- An action routes what it takes, and enters no connection unless its label says so. -/
theorem Act.routes {v v' : Table} {l : Label} (hact : Act v l v') (hwf : v.Wf)
    (hcovered : v.Covered) :
    ∃ obs, Routes l.taken v obs v' ∧ (¬ l.Enters → ∀ t node, Obs.registered t node ∉ obs) := by
  have hsilent : ∀ {obs : List Obs}, (∀ o ∈ obs, o.routes = false) → Routes l.taken v obs v' →
      ∃ obs, Routes l.taken v obs v' ∧ (¬ l.Enters → ∀ t node, Obs.registered t node ∉ obs) :=
    fun hobs h => ⟨_, h, fun _ t node hmem => absurd (hobs _ hmem) (by simp [Obs.routes])⟩
  have hnil : v'.trace = v.trace → v'.trace = v.trace ++ [] := fun h => by rw [h, List.append_nil]
  have htook : ∀ {node : CnetworkNode} {b : UvBuf}, node.IsTcp → l.taken = [(node, b)] →
      (node, b) ∈ tcpOnly l.taken := by
    intro node b htcp hl
    unfold tcpOnly
    rw [hl, List.mem_filter]
    exact ⟨List.mem_singleton_self _, by simpa using htcp⟩
  cases hact with
  | touch t c hc => exact hsilent (by simp) (.of_same (hnil rfl) (by simp) rfl rfl)
  | message t data hreading =>
    have hobs : ∀ o ∈ visible [.callback (.message (v.tcps t).node data)], o.routes = false := by
      intro o ho
      rw [List.mem_singleton.mp (List.mem_of_mem_filter ho)]
      rfl
    exact hsilent hobs (.of_same rfl hobs rfl rfl)
  | written t w hw =>
    have hobs : ∀ o ∈ [Obs.written (v.tcps t).node w.buf], o.routes = false := by simp [Obs.routes]
    exact hsilent hobs (.of_same rfl hobs rfl rfl)
  | lost t w hw =>
    have hobs := routes_dropCalls (v.tcps t).node w.buf
    exact hsilent hobs (.of_same rfl hobs rfl rfl)
  | teardown t hlistening hconnect =>
    obtain ⟨obs, hroutes, hobs⟩ := Routes.teardown [] v t false (v.tcps t).afterClose
    exact hsilent hobs hroutes
  | close t node c hlookup hc =>
    obtain ⟨obs, hroutes, hobs⟩ := Routes.teardown [] v t false c
    exact hsilent hobs hroutes
  | connectFail t armed hreq harmed =>
    obtain ⟨obs, hroutes, hobs⟩ := Routes.teardown []
      ({ v with connecting := v.connecting.erase t }.setTcp t
        (if armed then (v.tcps t).connectDone.arm .idle else (v.tcps t).connectDone)) t true
      (if armed then (v.tcps t).connectDone.arm .idle else (v.tcps t).connectDone).afterClose
    exact hsilent hobs ⟨hroutes.trace, hroutes.written, hroutes.waiting, hroutes.entry,
      hroutes.entered, hroutes.up⟩
  | connectUp t ok v' hreq hclosing hstart =>
    obtain ⟨obs, hroutes⟩ := hstart.routes (by
      rw [setTcp_tcps_self]
      exact ((hwf.tcps t).node hreq).1)
    exact ⟨obs, ⟨hroutes.trace, hroutes.written, hroutes.waiting, hroutes.entry, hroutes.entered,
      hroutes.up⟩, fun h => absurd trivial h⟩
  | acceptUp peer ok v' hstart =>
    obtain ⟨obs, hroutes⟩ := hstart.routes (by
      rw [add_tcps_self]
      rfl)
    exact ⟨obs, ⟨hroutes.trace, hroutes.written, hroutes.waiting, hroutes.entry, hroutes.entered,
      hroutes.up⟩, fun h => absurd trivial h⟩
  | shutdownDone t hreq => exact hsilent (by simp) (.of_same (hnil rfl) (by simp) rfl rfl)
  | dead c hc => exact hsilent (by simp) (.of_same (hnil rfl) (by simp) rfl rfl)
  | park node b buf hwaiting hlookup =>
    have hqueue : v.waiting node = buf := by
      unfold Table.waiting
      rw [hwaiting]
      rfl
    refine hsilent (by simp) (.of_silent (hnil rfl) (by simp) (fun n b' hb => ?_) fun _ _ => id)
    rw [← hqueue] at hb
    rcases mem_waiting_insert hb with ⟨rfl, rfl⟩ | hb
    · exact .inl (htook (hcovered.isTcp hwf hwaiting) rfl)
    · exact .inr hb
  | connect node b req htcp hvalid hwaiting hlookup =>
    have hqueue : v.waiting node = [] := by
      unfold Table.waiting
      rw [hwaiting]
      rfl
    have hobs : ∀ o ∈ [Obs.uvTcpConnect v.nextTcp node], o.routes = false := by simp [Obs.routes]
    refine hsilent hobs (.of_silent rfl hobs (fun n b' hb => ?_) fun _ _ => id)
    have hb' : b' ∈ ((v.waitingSend.insert node (v.waiting node ++ [b])).lookup n).getD [] := by
      rw [hqueue]
      exact hb
    rcases mem_waiting_insert hb' with ⟨rfl, rfl⟩ | hb'
    · exact .inl (htook htcp rfl)
    · exact .inr hb'
  | refuse node b hwaiting hlookup =>
    have hobs : ∀ o ∈ .callback (.connectionStatus node false) :: dropCalls node [b],
        o.routes = false := by
      intro o ho
      rcases List.mem_cons.mp ho with rfl | ho
      · rfl
      · exact routes_dropCalls _ _ o ho
    exact hsilent hobs (.of_same rfl hobs rfl rfl)
  | discard node b =>
    have hobs := routes_dropCalls node [b]
    exact hsilent hobs (.of_same rfl hobs rfl rfl)
  | write t node b req hlookup =>
    have he := hwf.stream node t hlookup
    refine ⟨[.uvWrite t (v.tcps t).node [b]], ⟨rfl, fun t' n buf hmem => ?_, fun n b' hb => .inr hb,
      fun n t' h => .inl h, by simp, by simp⟩, fun _ => by simp⟩
    obtain ⟨rfl, rfl, rfl⟩ := Obs.uvWrite.inj (List.mem_singleton.mp hmem)
    rw [he.node]
    refine ⟨.inl hlookup, fun b' hb => .inl ?_⟩
    rw [List.mem_singleton.mp hb]
    exact htook he.isTcp rfl
  | writeFail t node b passed hlookup =>
    have he := hwf.stream node t hlookup
    have hobs : ∀ o ∈ (if passed then [Obs.uvWrite t (v.tcps t).node [b]] else []) ++
        dropCalls node [b], o.routes = false ∨ o = .uvWrite t node [b] := by
      intro o ho
      rcases List.mem_append.mp ho with ho | ho
      · split_ifs at ho
        · right
          rw [List.mem_singleton.mp ho, he.node]
        · exact absurd ho List.not_mem_nil
      · exact .inl (routes_dropCalls _ _ o ho)
    have hnone : ∀ t' n, Obs.registered t' n ∉
        (if passed then [Obs.uvWrite t (v.tcps t).node [b]] else []) ++ dropCalls node [b] := by
      intro t' n hmem
      rcases hobs _ hmem with hno | heq
      · exact absurd hno (by simp [Obs.routes])
      · exact absurd heq (by simp)
    refine ⟨_, ⟨rfl, fun t' n buf hmem => ?_, fun n b' hb => .inr hb, fun n t' h => .inl h,
      fun t' n hmem => absurd hmem (hnone t' n), fun n hmem => ?_⟩, fun _ => hnone⟩
    · obtain ⟨rfl, rfl, rfl⟩ := Obs.uvWrite.inj ((hobs _ hmem).resolve_left (by simp [Obs.routes]))
      refine ⟨.inl hlookup, fun b' hb => .inl ?_⟩
      rw [List.mem_singleton.mp hb]
      exact htook he.isTcp rfl
    · rcases hobs _ hmem with hno | heq
      · exact absurd hno (by simp [Obs.routes])
      · exact absurd heq (by simp)
  | listen node hserver => exact hsilent (by simp) (.of_same (hnil rfl) (by simp) rfl rfl)
  | unlisten node t hserver => exact hsilent (by simp) (.of_same (hnil rfl) (by simp) rfl rfl)
  | notice node hnode =>
    have hobs : ∀ o ∈ [Obs.callback (.connectionStatus node false)], o.routes = false := by
      simp [Obs.routes]
    exact hsilent hobs (.of_same rfl hobs rfl rfl)
  | exit batch streams connecting queues tcps hstreams hconnecting hqueues htcps =>
    have hobs : ∀ o ∈ streams.map
          (fun pair => Obs.callback (.connectionStatus (v.tcps pair.2).node false)) ++
        (connecting.map (fun t => .callback (.connectionStatus (v.tcps t).node false)) ++
        (queues.flatMap (fun pair => dropCalls pair.1 pair.2) ++
        batch.flatMap (fun pair => dropCalls pair.1 [pair.2]))), o.routes = false := by
      intro o ho
      simp only [dropCalls, List.mem_append, List.mem_map, List.mem_flatMap] at ho
      rcases ho with ⟨_, -, rfl⟩ | ⟨_, -, rfl⟩ | ⟨_, -, _, -, rfl⟩ | ⟨_, -, _, -, rfl⟩ <;> rfl
    refine hsilent hobs (.of_silent ?_ hobs (fun n b hb => ?_) fun n t h => ?_)
    · simp only [List.append_assoc]
    · exact absurd hb (by simp [Table.waiting])
    · exact absurd h (by simp)

/-- Actions that enter no connection. -/
theorem Acts.routes {v v' : Table} {ls : List Label} (hacts : Acts v ls v') (hwf : v.Wf)
    (hcovered : v.Covered) (hls : ∀ l ∈ ls, ¬ l.Enters) :
    ∃ obs, Routes (ls.flatMap Label.taken) v obs v' ∧ ∀ t node, Obs.registered t node ∉ obs := by
  induction hacts with
  | nil v => exact ⟨[], .refl v, by simp⟩
  | cons hact hacts ih =>
    obtain ⟨obs, hroutes, hnone⟩ := hact.routes hwf hcovered
    obtain ⟨obs', hroutes', hnone'⟩ := ih (hact.wf hwf) (hact.covered hwf hcovered)
      fun l hl => hls l (List.mem_cons_of_mem _ hl)
    refine ⟨_, hroutes.trans hroutes' (.inl hnone'), fun t node hmem => ?_⟩
    rcases List.mem_append.mp hmem with hmem | hmem
    · exact hnone (hls _ List.mem_cons_self) t node hmem
    · exact hnone' t node hmem

/-- What a callback of libuv does. It enters a connection only if its labels say so. -/
theorem UvActs.routes {s : Internal} {e : UvEvent} {v v' : Table} (h : UvActs s e v v')
    (hwf : v.Wf) (hcovered : v.Covered) :
    ∃ obs, Routes [] v obs v' ∧
      ((∀ l, e.Allows l → ¬ l.Enters) → ∀ t node, Obs.registered t node ∉ obs) := by
  obtain ⟨ls, v₁, hacts, hls, hlast⟩ := h
  have hquiet : ∀ l ∈ ls, ¬ l.Enters := by
    intro l hl
    have hq := (hls l hl).1
    cases l <;> simp_all [Label.Quiet, Label.Enters]
  obtain ⟨obs, hroutes, hnone⟩ := hacts.routes hwf hcovered hquiet
  have hnil : ls.flatMap Label.taken = [] :=
    List.flatMap_eq_nil_iff.mpr fun l hl => UvEvent.Allows.taken (hls l hl).2
  rw [hnil] at hroutes
  rcases hlast with ⟨rfl, -⟩ | ⟨l, hact, hallows, -⟩
  · exact ⟨obs, hroutes, fun _ => hnone⟩
  · obtain ⟨obs', hroutes', hnone'⟩ := hact.routes (hacts.wf hwf) (hacts.covered hwf hcovered)
    rw [UvEvent.Allows.taken hallows] at hroutes'
    have hsame := hacts.sameRegistries fun l hl => (hls l hl).1
    refine ⟨obs ++ obs', hroutes.trans hroutes' (.inr hsame.node2stream), fun hall t node hmem => ?_⟩
    rcases List.mem_append.mp hmem with hmem | hmem
    · exact hnone t node hmem
    · exact hnone' (hall l hallows) t node hmem

/-! ## Steps -/

namespace Pool

variable {p p' : Pool} {e : Event}

/-- `b` is on its way to `node`. -/
def OnWay (p : Pool) (node : CnetworkNode) (b : UvBuf) : Prop :=
  (node, b) ∈ p.pendingMessages ∨ (node, b) ∈ p.batchMessages ∨ b ∈ p.table.waiting node

/-- What happens to the messages and to the map in a step that appends `obs` to the trace. -/
structure Routed (p : Pool) (obs : List Obs) (p' : Pool) : Prop where
  written : ∀ t node buf, Obs.uvWrite t node buf ∈ obs →
    (p.internal.node2stream.lookup node = some t ∨ Obs.registered t node ∈ obs) ∧
      ∀ b ∈ buf, p.OnWay node b
  accepted : p.exchanged.accepted.length ≤ p'.exchanged.accepted.length
  onWay : ∀ node b, p'.OnWay node b → p.OnWay node b ∨
    (b.base = p.exchanged.accepted.length ∧ b.base < p'.exchanged.accepted.length)
  entry : ∀ node t, p'.internal.node2stream.lookup node = some t →
    p.internal.node2stream.lookup node = some t ∨ Obs.registered t node ∈ obs
  entered : ∀ t node, Obs.registered t node ∈ obs → p.internal.node2stream.lookup node = none
  up : ∀ node, Obs.callback (.connectionStatus node true) ∈ obs → node.IsTcp

/-- What a step appends to the trace. -/
def appended (p p' : Pool) : List Obs :=
  p'.internal.trace.drop p.internal.trace.length

theorem trace_appended (hr : poolSystem.Reachable p) (hstep : p.step e = some p') :
    p'.internal.trace = p.internal.trace ++ p.appended p' := by
  have hcalls := calls_of_step (ready_of_reachable hr) hstep
  obtain ⟨obs, hobs⟩ := hcalls.trace_prefix
  unfold appended
  rw [← hobs, List.drop_left]

/-- A step of the internal thread that takes a part of its batch. -/
theorem Routed.of_routes {took : List (CnetworkNode × UvBuf)} {obs : List Obs} {s : Internal}
    {b : Option Batch} (h : Routes took p.table (visible obs) s.table)
    (htook : ∀ m ∈ tcpOnly took, m ∈ p.batchMessages)
    (hbatch : ∀ m ∈ batchMessages { p with internal := s, batch := b }, m ∈ p.batchMessages) :
    Routed p obs { p with internal := s, batch := b } := by
  have hvisible : ∀ {o : Obs}, o.routes = true → (o ∈ obs ↔ o ∈ visible obs) := by
    intro o ho
    unfold visible
    rw [List.mem_filter]
    exact (and_iff_left (Obs.visible_of_routes ho)).symm
  have hqueue : ∀ node b, (node, b) ∈ tcpOnly took ∨ b ∈ p.table.waiting node → p.OnWay node b := by
    intro node b hb
    rcases hb with hb | hb
    · exact .inr (.inl (htook _ hb))
    · exact .inr (.inr hb)
  constructor
  · intro t node buf hmem
    obtain ⟨hentry, hbuf⟩ := h.written t node buf ((hvisible rfl).mp hmem)
    exact ⟨hentry.imp_right (hvisible rfl).mpr, fun b hb => hqueue node b (hbuf b hb)⟩
  · exact le_rfl
  · intro node b hb
    left
    rcases hb with hpending | hin | hwaiting
    · exact .inl hpending
    · exact .inr (.inl (hbatch _ hin))
    · exact hqueue node b (h.waiting node b hwaiting)
  · intro node t hlookup
    exact (h.entry node t hlookup).imp_right (hvisible rfl).mpr
  · intro t node hmem
    exact (h.entered t node ((hvisible rfl).mp hmem)).2
  · intro node hmem
    exact h.up node ((hvisible rfl).mp hmem)

/-- **Where messages and entries come from.** -/
theorem routed_step (hr : poolSystem.Reachable p) (hstep : p.step e = some p') :
    Routed p (p.appended p') p' := by
  have hwf := wf_of_reachable hr
  have hcovered := covered_of_reachable hr
  have htrace := trace_appended hr hstep
  generalize p.appended p' = obs at htrace
  have hvisible : p'.table.trace = p.table.trace ++ visible obs := by
    rw [table_trace, htrace, visible_append]
    rfl
  have hroutes : ∀ {took obs'}, Routes took p.table obs' p'.table →
      Routes took p.table (visible obs) p'.table := by
    intro took obs' h
    have heq : visible obs = obs' := List.append_cancel_left (hvisible.symm.trans h.trace)
    rwa [heq]
  cases step_cases hwf hstep with
  | outside e x new he haccepted hpending hbase hnew =>
    have hnil : visible obs = [] :=
      List.append_cancel_left (hvisible.symm.trans (List.append_nil _).symm)
    have hrefl : Routes [] p.table [] p.table := .refl p.table
    have hsame : Routed p obs { p with internal := p.internal, batch := p.batch } :=
      .of_routes (hroutes hrefl) (by simp [tcpOnly]) fun m hm => hm
    have hlength : x.accepted.length = p.exchanged.accepted.length + new.length := by
      rw [haccepted, List.length_append]
    refine ⟨hsame.written, ?_, fun node b hb => ?_, hsame.entry, hsame.entered, hsame.up⟩
    · show p.exchanged.accepted.length ≤ x.accepted.length
      omega
    rcases hb with hin | hrest
    · obtain ⟨req, hreq, hmessage⟩ := List.mem_map.mp hin
      have hreq' : req ∈ p.exchanged.pendingSend ++ new := by
        rw [← hpending]
        exact hreq
      rcases List.mem_append.mp hreq' with hold | hin'
      · exact .inl (.inl (List.mem_map.mpr ⟨req, hold, hmessage⟩))
      · right
        have hb : b.base = p.exchanged.accepted.length := by
          rw [← hbase req hin']
          exact (congrArg (fun m => m.2.base) hmessage).symm
        refine ⟨hb, ?_⟩
        show b.base < x.accepted.length
        have hpos := List.length_pos_of_mem hin'
        omega
    · exact .inl (.inr hrest)
  | wakeup hbatch =>
    have hrefl : Routes [] p.table [] p.table := .refl p.table
    have hsame : Routed p obs { p with internal := p.internal, batch := p.batch } :=
      .of_routes (hroutes hrefl) (by simp [tcpOnly]) fun m hm => hm
    refine ⟨hsame.written, le_rfl, fun node b hb => .inl ?_, hsame.entry, hsame.entered, hsame.up⟩
    rcases hb with hin | hin | hwaiting
    · exact absurd hin List.not_mem_nil
    · exact .inl hin
    · exact .inr (.inr hwaiting)
  | loop e s b took he hacts hbatch =>
    obtain ⟨ls, hacts, hls, htook⟩ := hacts
    have henters : ∀ l ∈ ls, ¬ l.Enters := by
      intro l hl
      have hin := hls l hl
      cases l <;> simp_all [Label.InLoop, Label.Enters]
    obtain ⟨obs', h, -⟩ := hacts.routes hwf hcovered henters
    apply Routed.of_routes (hroutes h)
    · intro m hm
      rw [htook] at hm
      rw [hbatch]
      exact List.mem_append_left _ (List.mem_of_mem_filter hm)
    · intro m hm
      rw [hbatch]
      exact List.mem_append_right _ hm
  | exit order s hexit hact =>
    obtain ⟨obs', h, -⟩ := hact.routes hwf hcovered
    apply Routed.of_routes (hroutes h)
    · exact fun m hm => List.mem_of_mem_filter hm
    · exact fun m hm => absurd hm List.not_mem_nil
  | uv e s hs hacts =>
    obtain ⟨obs', h, -⟩ := hacts.routes hwf hcovered
    exact .of_routes (hroutes h) (by simp [tcpOnly]) fun m hm => hm

/-- A connection that goes down is reported down in the same step. -/
theorem down_reported (hr : poolSystem.Reachable p) (hstep : p.step e = some p')
    {node : CnetworkNode} {t : ℕ} (hup : p.internal.node2stream.lookup node = some t)
    (hdown : p'.internal.node2stream.lookup node = none) :
    .callback (.connectionStatus node false) ∈ p.appended p' := by
  have hmirror := (notifications_mirror_node2stream hr node).1
  have hmirror' := (notifications_mirror_node2stream (hr.step hstep) node).1
  rw [trace_appended hr hstep] at hmirror'
  have hbefore : lastStatus node p.internal.trace = some true := by
    rw [← hmirror, ← AList.lookup_isSome, hup]
    rfl
  have hafter : lastStatus node (p.internal.trace ++ p.appended p') ≠ some true := by
    rw [Ne, ← hmirror', ← AList.lookup_isSome, hdown]
    simp
  unfold lastStatus at hbefore hafter
  rw [statuses_append, List.getLast?_append] at hafter
  cases hlast : (statuses node (p.appended p')).getLast? with
  | none =>
    rw [hlast, Option.none_or, hbefore] at hafter
    exact absurd rfl hafter
  | some b =>
    rw [hlast, Option.some_or] at hafter
    have hfalse : b = false := by
      cases b with
      | false => rfl
      | true => exact absurd rfl hafter
    rw [hfalse] at hlast
    obtain ⟨o, ho, hstatus⟩ := List.mem_filterMap.mp (List.mem_of_getLast? hlast)
    cases o with
    | callback c =>
      cases c with
      | connectionStatus n b' =>
        simp only [statusOf, Option.ite_none_right_eq_some, Option.some.injEq] at hstatus
        rw [← hstatus.1, ← hstatus.2]
        exact ho
      | _ => exact absurd hstatus (by simp [statusOf])
    | _ => exact absurd hstatus (by simp [statusOf])

/-- A connection that stays up, goes down or comes up. -/
theorem entry_cases (hr : poolSystem.Reachable p) (hstep : p.step e = some p')
    {node : CnetworkNode} {t : ℕ} (hup : p.internal.node2stream.lookup node = some t) :
    p'.internal.node2stream.lookup node = some t ∨
      (p'.internal.node2stream.lookup node = none ∧
        .callback (.connectionStatus node false) ∈ p.appended p') := by
  cases hlookup : p'.internal.node2stream.lookup node with
  | none => exact .inr ⟨rfl, down_reported hr hstep hup hlookup⟩
  | some t' =>
    have hrouted := routed_step hr hstep
    rcases hrouted.entry node t' hlookup with hsame | hreg
    · exact .inl (hsame.symm.trans hup)
    · have hnone := hrouted.entered t' node hreg
      rw [hup] at hnone
      exact absurd hnone (by simp)

/-- A read without data reports no message. -/
theorem messages_onTcpRead (env : Env) (t : ℕ) {nread : ℤ} (hnread : ¬ 0 < nread)
    (data : List UInt8) (s : Internal) :
    messages (onTcpRead env t nread data (tcpAllocBuffer t s)).trace = messages s.trace := by
  have hcalls : ((tcpAllocBuffer t s).call
      (.deallocateMemoryForMessage ((tcpAllocBuffer t s).tcps t).node)).table = s.table := by
    rw [table_call]
    exact (emit_nil _).trans (table_emit_invisible s rfl)
  have htable : (onTcpRead env t nread data (tcpAllocBuffer t s)).table = s.table ∨
      (onTcpRead env t nread data (tcpAllocBuffer t s)).table =
        s.table.teardown t false (s.table.tcps t).afterClose := by
    unfold onTcpRead
    dsimp only
    rw [if_neg hnread]
    split
    · right
      rw [table_teardown, hcalls]
    · exact .inl hcalls
  have hmessages : messages (onTcpRead env t nread data (tcpAllocBuffer t s)).table.trace =
      messages s.table.trace := by
    rcases htable with h | h
    · rw [h]
    · rw [h, messages_teardown]
  rwa [table_trace, table_trace, messages_visible, messages_visible] at hmessages

/-- The connection whose data the event is. -/
def receives : Event → Option ℕ
  | .uv (.tcpRead t nread _ _) => if 0 < nread then some t else none
  | _ => none

theorem eq_of_receives {t : ℕ} (h : receives e = some t) :
    ∃ nread data env, e = .uv (.tcpRead t nread data env) := by
  cases e with
  | uv e =>
    cases e with
    | tcpRead t' nread data env =>
      simp only [receives] at h
      split at h
      · exact ⟨nread, data, env, by rw [Option.some.inj h]⟩
      · cases h
    | _ => cases h
  | _ => cases h

/-- A read enters no connection. -/
theorem not_registered_of_receives (hr : poolSystem.Reachable p) (hstep : p.step e = some p')
    {t : ℕ} (h : receives e = some t) (t' : ℕ) (node : CnetworkNode) :
    .registered t' node ∉ p.appended p' := by
  obtain ⟨nread, data, env, rfl⟩ := eq_of_receives h
  have htrace := trace_appended hr hstep
  cases step_cases (wf_of_reachable hr) hstep with
  | uv _ s hs hacts =>
    obtain ⟨obs, hroutes, hnone⟩ := hacts.routes (wf_of_reachable hr) (covered_of_reachable hr)
    have hvisible : visible (p.appended { p with internal := s }) = obs := by
      have htable : s.table.trace =
          p.table.trace ++ visible (p.appended { p with internal := s }) := by
        rw [table_trace, htrace, visible_append]
        rfl
      exact List.append_cancel_left (htable.symm.trans hroutes.trace)
    intro hmem
    refine hnone (fun l hl => hl.not_enters) t' node ?_
    rw [← hvisible]
    exact List.mem_filter.mpr ⟨hmem, rfl⟩
  | outside _ x new he => exact absurd rfl (he _)
  | loop _ s b took he => exact absurd rfl (he _)

/-- A message of a TCP node is the data of a connection to it. -/
theorem receives_of_message (hr : poolSystem.Reachable p) (hstep : p.step e = some p')
    {node : CnetworkNode} {data : List UInt8} (htcp : node.IsTcp)
    (h : .callback (.message node data) ∈ p.appended p') :
    ∃ t, receives e = some t ∧ (p.internal.tcps t).node = node := by
  obtain ⟨new, hnew, hread⟩ := (step_cases (wf_of_reachable hr) hstep).reports
  rw [trace_appended hr hstep, messages_append] at hnew
  have hmem : (node, data) ∈ new := by
    rw [← List.append_cancel_left hnew]
    exact List.mem_filterMap.mpr ⟨_, h, by simp [messageOf, htcp]⟩
  obtain ⟨t, nread, data', env, rfl, -, hnode⟩ := hread _ hmem
  refine ⟨t, ?_, hnode⟩
  by_contra hnot
  have hnread : ¬ 0 < nread := fun hpos => hnot (if_pos hpos)
  have hquiet : messages p'.internal.trace = messages p.internal.trace := by
    simp only [step] at hstep
    split at hstep
    · exact absurd hstep (by simp)
    split at hstep
    · rename_i s hs
      obtain ⟨-, hs⟩ := Option.ite_none_right_eq_some.mp hs
      rw [← Option.some.inj hstep, ← Option.some.inj hs]
      exact messages_onTcpRead env t hnread data' p.internal
    · exact absurd hstep (by simp)
  rw [trace_appended hr hstep, messages_append] at hquiet
  have hnil := List.append_right_eq_self.mp hquiet
  rw [List.append_cancel_left hnew] at hnil
  rw [hnil] at hmem
  exact absurd hmem List.not_mem_nil

end Pool

/-! ## What is in flight -/

namespace Table

/-- What is in flight on a connection was passed to `uv_write` on it. -/
def Passed (v : Table) : Prop :=
  ∀ t, ∀ w ∈ (v.tcps t).tcp.writes, ∃ node, .uvWrite t node w.buf ∈ v.trace

section Passed

variable {v v' : Table} {t : ℕ} {c : Ctcp}

/-- Only the object `t` gets something in flight, and that is passed. -/
theorem Passed.update (h : v.Passed) (htrace : v.trace ⊆ v'.trace)
    (htcps : ∀ t', t' ≠ t → (v'.tcps t').tcp.writes = (v.tcps t').tcp.writes)
    (hself : ∀ w ∈ (v'.tcps t).tcp.writes, w ∈ (v.tcps t).tcp.writes ∨
      ∃ node, .uvWrite t node w.buf ∈ v'.trace) : v'.Passed := by
  intro t' w hw
  have hold : w ∈ (v.tcps t').tcp.writes → ∃ node, .uvWrite t' node w.buf ∈ v'.trace := by
    intro hw
    obtain ⟨node, hpassed⟩ := h t' w hw
    exact ⟨node, htrace hpassed⟩
  by_cases ht : t' = t
  · subst ht
    rcases hself w hw with hw | hpassed
    · exact hold hw
    · exact hpassed
  · rw [htcps t' ht] at hw
    exact hold hw

theorem Passed.emit (h : v.Passed) (obs : List Obs) : (v.emit obs).Passed := by
  intro t w hw
  obtain ⟨node, hpassed⟩ := h t w hw
  exact ⟨node, List.mem_append_left _ hpassed⟩

/-- The object gets nothing in flight. -/
theorem Passed.setTcp (h : v.Passed) (hc : ∀ w ∈ c.tcp.writes, w ∈ (v.tcps t).tcp.writes) :
    (v.setTcp t c).Passed := by
  refine h.update (t := t) (fun _ => id) (fun t' ht => ?_) fun w hw => .inl (hc w ?_)
  · rw [setTcp_tcps_other v ht]
  · rw [setTcp_tcps_self] at hw
    exact hw

theorem Passed.afterClose (h : v.Passed) (t : ℕ) : (v.setTcp t (v.tcps t).afterClose).Passed :=
  h.setTcp fun w hw => by rwa [Ctcp.afterClose_writes] at hw

theorem Passed.teardown (h : v.Passed) (b : Bool) (hc : c.tcp.writes = (v.tcps t).tcp.writes) :
    (v.teardown t b c).Passed := by
  have hset : (v.setTcp t c).Passed := h.setTcp fun w hw => by rwa [hc] at hw
  exact (hset.emit _).emit _

theorem Passed.add (h : v.Passed) (hc : c.tcp.writes = []) : (v.add c).Passed := by
  have hset : (v.setTcp v.nextTcp c).Passed := h.setTcp fun w hw => by
    rw [hc] at hw
    exact absurd hw List.not_mem_nil
  exact hset

/-- A request is queued and passed. -/
theorem Passed.queueWrite (h : v.Passed) (w : WriteWithInfo) (node : CnetworkNode)
    (hc : c.tcp.writes = (v.tcps t).tcp.writes) :
    ((v.setTcp t (c.queueWrite w)).emit [.uvWrite t node w.buf]).Passed := by
  refine h.update (t := t) (List.subset_append_left _ _) (fun t' ht => ?_) fun w' hw => ?_
  · rw [emit_table_tcps, setTcp_tcps_other v ht]
  · rw [emit_table_tcps, setTcp_tcps_self] at hw
    rcases List.mem_append.mp hw with hw | hw
    · exact .inl (hc ▸ hw)
    · rw [List.mem_singleton.mp hw]
      exact .inr ⟨node, List.mem_append_right _ (List.mem_singleton_self _)⟩

/-- `startupTcpConnection_may_set_nullptr`. -/
theorem Passed.startup {ok : Bool} (h : v.Passed) (hstart : Startup ok v t v') : v'.Passed := by
  have hregister : (v.register t).Passed := h.emit _
  cases hstart with
  | taken hlookup => exact h.afterClose t
  | up hlookup => exact hregister.emit _
  | flush req hlookup => exact hregister.queueWrite ⟨req, _⟩ _ rfl
  | down passed hlookup =>
    set c := if passed then (v.tcps t).arm .send else v.tcps t with hc
    have hwrites : c.tcp.writes = (v.tcps t).tcp.writes := by
      rw [hc]
      cases passed <;> rfl
    have hset : ((v.register t).setTcp t c).Passed := hregister.setTcp fun w hw => hwrites ▸ hw
    refine ((hset.emit _).emit _).teardown false ?_
    rw [Ctcp.afterClose_writes, emit_table_tcps, emit_table_tcps, setTcp_tcps_self]

end Passed

end Table

theorem Act.passed {v v' : Table} {l : Label} (hact : Act v l v') (hwf : v.Wf) (h : v.Passed) : v'.Passed := by
  have htake : ∀ t w, (v.setTcp t ((v.tcps t).takeWrite w)).Passed :=
    fun t w => h.setTcp fun _ hw => List.mem_of_mem_erase hw
  cases hact with
  | touch t c hc =>
    obtain ⟨-, -, -, -, hwrites, -⟩ := hc.same
    exact h.setTcp fun w hw => hwrites ▸ hw
  | written t w => exact (htake t w).emit _
  | lost t w => exact (htake t w).emit _
  | teardown t => exact h.teardown false (Ctcp.afterClose_writes _)
  | close t node c hlookup hc =>
    refine h.teardown false ?_
    rcases hc with rfl | ⟨-, env, req, rfl⟩
    · exact Ctcp.afterClose_writes _
    · rcases Ctcp.afterShutdown_cases env req (hwf.stream node t hlookup) with heq | heq <;> rw [heq]
      exact Ctcp.afterClose_writes _
  | connectFail t armed =>
    set c := if armed then (v.tcps t).connectDone.arm .idle else (v.tcps t).connectDone with hc
    have hwrites : c.tcp.writes = (v.tcps t).tcp.writes := by
      rw [hc]
      cases armed <;> rfl
    have hset : (({ v with connecting := v.connecting.erase t } : Table).setTcp t c).Passed :=
      h.setTcp fun w hw => hwrites ▸ hw
    refine hset.teardown true ?_
    rw [Ctcp.afterClose_writes, setTcp_tcps_self]
  | connectUp t ok v' hreq hclosing hstart =>
    have hset : ({ v with connecting := v.connecting.erase t }.setTcp t
        (((v.tcps t).connectDone.arm .idle).startRead)).Passed := h.setTcp fun _ => id
    exact hset.startup hstart
  | acceptUp peer ok v' hstart =>
    have hadd : (v.add ((Ctcp.fresh true ⟨.protocolTcp, peer⟩).arm .idle).startRead).Passed :=
      h.add rfl
    exact hadd.startup hstart
  | shutdownDone t => exact h.setTcp fun w hw => by rwa [Ctcp.afterClose_writes] at hw
  | dead c hc => exact h.add hc.writes
  | park => exact h
  | connect node b req =>
    have hadd : (v.add { (Ctcp.fresh true node).arm .connect with
        tcp := { connectReq := some req } }).Passed := h.add rfl
    exact hadd.emit _
  | write t node b req => exact h.queueWrite ⟨req, [b]⟩ _ rfl
  | message | refuse | discard | writeFail | notice => exact h.emit _
  | listen node =>
    have hadd : (v.add { Ctcp.fresh false node with tcp := { listening := true } }).Passed :=
      h.add rfl
    exact hadd
  | unlisten node t => exact h.afterClose t
  | exit batch streams connecting queues tcps hstreams hconnecting hqueues htcps =>
    intro t w hw
    have hold : w ∈ (v.tcps t).tcp.writes := by
      change w ∈ (tcps t).tcp.writes at hw
      rcases htcps t with ⟨-, heq⟩ | ⟨-, heq⟩
      · rwa [heq, Ctcp.afterClose_writes] at hw
      · rwa [heq] at hw
    obtain ⟨node, hpassed⟩ := h t w hold
    exact ⟨node, by simp [hpassed]⟩

theorem Acts.passed {v v' : Table} {ls : List Label} (hacts : Acts v ls v') (hwf : v.Wf) (h : v.Passed) :
    v'.Passed := by
  induction hacts with
  | nil => exact h
  | cons hact _ ih => exact ih (hact.wf hwf) (hact.passed hwf h)

/-- What is in flight on a connection was passed to `uv_write` on it. -/
theorem Pool.passed_of_reachable {p : Pool} (h : poolSystem.Reachable p) : p.table.Passed := by
  refine h.invariant (I := fun p => p.table.Passed) (fun _ _ hw => absurd hw List.not_mem_nil)
    fun p e p' hr hI hstep => ?_
  obtain ⟨ls, took, new, hacts, -⟩ := (step_cases (wf_of_reachable hr) hstep).flow
  exact hacts.passed (wf_of_reachable hr) hI

end NetworkPool
