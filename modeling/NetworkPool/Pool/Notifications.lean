import NetworkPool.Pool.Steps

/-!
# Connection notifications

The notifications issued for a node follow its entry in `m_node2stream`: the entry exists exactly
when the last notification was an up notification, and there are never two ups in a row.
-/

namespace NetworkPool

open Table

/-! ## Sequences of notifications -/

/-- `l` is a sequence of notifications without two ups in a row that ends with the connection
up, or not up, as `isUp` says. -/
structure StatusOk (isUp : Bool) (l : List Bool) : Prop where
  last : l.getLast? = some true ↔ isUp = true
  chain : l.IsChain fun a b => ¬ (a = true ∧ b = true)

namespace StatusOk

variable {isUp : Bool} {l m : List Bool}

theorem nil : StatusOk false [] := ⟨by simp, .nil⟩

/-- An up notification when the connection is not up. -/
theorem up (h : StatusOk false l) : StatusOk true (l ++ [true]) := by
  refine ⟨by simp, List.isChain_append.mpr ⟨h.chain, .singleton _, ?_⟩⟩
  rintro a ha b - ⟨rfl, -⟩
  exact absurd (h.last.mp ha) (by simp)

/-- Down notifications; at least one if the connection is up. -/
theorem downs (h : StatusOk isUp l) (hm : ∀ b ∈ m, b = false) (hne : isUp = true → m ≠ []) :
    StatusOk false (l ++ m) := by
  have hchain : m.IsChain fun a b => ¬ (a = true ∧ b = true) := by
    refine List.Pairwise.isChain (List.pairwise_of_forall_mem_list fun a _ b hb => ?_)
    simp [hm b hb]
  refine ⟨?_, List.isChain_append.mpr ⟨h.chain, hchain, ?_⟩⟩
  · cases hlast : m.getLast? with
    | some b => simp [List.getLast?_append, hlast, hm b (List.mem_of_getLast? hlast)]
    | none =>
      have hnil := List.getLast?_eq_none_iff.mp hlast
      have hup : isUp ≠ true := fun hu => hne hu hnil
      simpa [hnil, hup] using h.last
  · intro a _ b hb
    simp [hm b (List.mem_of_mem_head? hb)]

theorem down (h : StatusOk isUp l) : StatusOk false (l ++ [false]) :=
  h.downs (by simp) (by simp)

/-- Between two ups there is a down. -/
theorem down_between (h : StatusOk isUp l) {pre mid post : List Bool}
    (hl : l = pre ++ true :: (mid ++ true :: post)) : false ∈ mid := by
  have hchain := h.chain
  rw [hl] at hchain
  have htail := (List.isChain_append.mp hchain).2.1
  cases mid with
  | nil => exact absurd (List.isChain_cons_cons.mp htail).1 (by simp)
  | cons b mid =>
    have hb := (List.isChain_cons_cons.mp htail).1
    have hb' : b = false := by simpa using hb
    simp [hb']

end StatusOk

/-! ## The map -/

@[simp] theorem statuses_nil (node : CnetworkNode) : statuses node [] = [] := rfl

theorem statuses_cons (node : CnetworkNode) (o : Obs) (tr : List Obs) :
    statuses node (o :: tr) = (statusOf node o).toList ++ statuses node tr := by
  unfold statuses
  cases h : statusOf node o <;> simp [h]

namespace Table

/-- The notifications mirror the map. -/
def Mirrored (v : Table) : Prop :=
  ∀ node, StatusOk (v.node2stream.lookup node).isSome (statuses node v.trace)

variable {v v' : Table}

theorem Mirrored.congr (h : v.Mirrored) (hmap : v'.node2stream = v.node2stream)
    (htrace : ∀ node, statuses node v'.trace = statuses node v.trace) : v'.Mirrored := by
  intro node
  rw [hmap, htrace]
  exact h node

/-- Entries other than connection notifications. -/
theorem Mirrored.emit (h : v.Mirrored) {obs : List Obs} (hobs : ∀ node, statuses node obs = []) :
    (v.emit obs).Mirrored :=
  h.congr rfl fun node => by simp [Table.emit, hobs]

theorem Mirrored.setTcp (h : v.Mirrored) (t : ℕ) (c : Ctcp) : (v.setTcp t c).Mirrored :=
  h.congr rfl fun _ => rfl

/-- A down notification for a node that has no entry. -/
theorem Mirrored.refuse (h : v.Mirrored) {node : CnetworkNode}
    (hlookup : v.node2stream.lookup node = none) :
    (v.emit [.callback (.connectionStatus node false)]).Mirrored := by
  intro n
  have hn := h n
  show StatusOk (v.node2stream.lookup n).isSome (statuses n (v.trace ++ _))
  rw [statuses_append]
  by_cases hnode : node = n
  · subst hnode
    rw [hlookup] at hn ⊢
    simpa [statuses_cons, statusOf] using hn.down
  · simpa [statuses_cons, statusOf, hnode] using hn

theorem Mirrored.teardown (h : v.Mirrored) (t : ℕ) (b : Bool) (c : Ctcp) :
    (v.teardown t b c).Mirrored := by
  intro node
  have hn := h node
  show StatusOk ((v.node2stream.erase (v.tcps t).node).lookup node).isSome
    (statuses node (v.trace ++ _ ++ _))
  by_cases hnode : node = (v.tcps t).node
  · rw [hnode] at hn ⊢
    rw [AList.lookup_erase, statuses_append, statuses_append, statuses_dropCalls, List.append_nil]
    refine hn.downs ?_ ?_
    · intro x hx
      split_ifs at hx <;> simp [statuses_cons, statusOf] at hx
      exact hx
    · intro hup
      simp [hup, statuses_cons, statusOf]
  · rw [AList.lookup_erase_ne hnode, statuses_append, statuses_append, statuses_dropCalls]
    have hnone : statusOf node (.callback (.connectionStatus (v.tcps t).node false)) = none := by
      simp [statusOf, Ne.symm hnode]
    split_ifs <;> simpa [statuses_cons, hnone] using hn

theorem Mirrored.register (h : v.Mirrored) {t : ℕ}
    (hlookup : v.node2stream.lookup (v.tcps t).node = none) : (v.register t).Mirrored := by
  intro node
  have hn := h node
  show StatusOk ((v.node2stream.insert (v.tcps t).node t).lookup node).isSome
    (statuses node (v.trace ++ [.registered t (v.tcps t).node,
      .callback (.connectionStatus (v.tcps t).node true)]))
  by_cases hnode : node = (v.tcps t).node
  · rw [hnode, hlookup] at hn
    rw [hnode, AList.lookup_insert, statuses_append]
    simpa [statuses_cons, statusOf] using hn.up
  · rw [AList.lookup_insert_ne hnode, statuses_append]
    simpa [statuses_cons, statusOf, Ne.symm hnode] using hn

theorem Mirrored.startup (h : v.Mirrored) {ok : Bool} {t : ℕ} (hstart : Startup ok v t v') :
    v'.Mirrored := by
  cases hstart with
  | taken hlookup => exact h.congr rfl fun _ => rfl
  | up hlookup _ => exact (h.register hlookup).emit fun _ => statuses_dropCalls ..
  | flush req hlookup =>
    exact ((h.register hlookup).setTcp t _).emit fun _ => by simp [statuses_cons, statusOf]
  | down passed hlookup _ =>
    have hwrite : ∀ node, statuses node (if passed then
        [.uvWrite t (v.tcps t).node (v.waiting (v.tcps t).node)] else []) = [] := by
      intro node
      split_ifs <;> simp [statuses_cons, statusOf]
    exact ((((h.register hlookup).setTcp t _).emit hwrite).emit fun _ => statuses_dropCalls ..).teardown t false _

end Table

theorem statuses_dropEach {α : Type} (node : CnetworkNode) (l : List α) (n : α → CnetworkNode)
    (buf : α → List UvBuf) : statuses node (l.flatMap fun a => dropCalls (n a) (buf a)) = [] := by
  induction l with
  | nil => rfl
  | cons a l ih => rw [List.flatMap_cons, statuses_append, ih, statuses_dropCalls]; rfl

/-- A loop of down notifications. -/
theorem of_mem_statuses_map {α : Type} {node : CnetworkNode} {l : List α} {n : α → CnetworkNode}
    {b : Bool} (hb : b ∈ statuses node (l.map fun a => .callback (.connectionStatus (n a) false))) :
    b = false := by
  obtain ⟨o, ho, hb⟩ := List.mem_filterMap.mp hb
  obtain ⟨a, -, rfl⟩ := List.mem_map.mp ho
  simp only [statusOf, Option.ite_none_right_eq_some, Option.some.injEq] at hb
  exact hb.2.symm

/-- The notifications of the exit branch for one node. -/
theorem exit_downs {v : Table} (hwf : v.Wf) {streams : List (CnetworkNode × ℕ)}
    (hstreams : streams.Perm v.node2stream.toPairs) (node : CnetworkNode)
    (hup : (v.node2stream.lookup node).isSome = true) :
    false ∈ statuses node
      (streams.map fun pair => .callback (.connectionStatus (v.tcps pair.2).node false)) := by
  obtain ⟨t, ht⟩ := Option.isSome_iff_exists.mp hup
  have hmem : (node, t) ∈ streams := hstreams.mem_iff.mpr (mem_toPairs.mpr ht)
  refine List.mem_filterMap.mpr ⟨_, List.mem_map.mpr ⟨(node, t), hmem, rfl⟩, ?_⟩
  simp [statusOf, (hwf.stream node t ht).node]

/-- Every action keeps the notifications a mirror of the map. -/
theorem Act.mirrored {v v' : Table} {l : Label} (hact : Act v l v') (hwf : v.Wf)
    (h : v.Mirrored) : v'.Mirrored := by
  cases hact with
  | touch t c hc => exact h.setTcp t c
  | message t data hreading =>
    refine h.emit fun node => ?_
    rw [statuses_visible]
    simp [statuses_cons, statusOf]
  | written t w hw => exact (h.setTcp t _).emit fun _ => by simp [statuses_cons, statusOf]
  | lost t w hw => exact (h.setTcp t _).emit fun _ => statuses_dropCalls ..
  | teardown t hlistening hconnect => exact h.teardown t false _
  | close t node c hlookup hc => exact h.teardown t false c
  | connectFail t armed hreq harmed =>
    have hset : Mirrored { v with connecting := v.connecting.erase t } := h.congr rfl fun _ => rfl
    exact (hset.setTcp t _).teardown t true _
  | connectUp t ok v' hreq hclosing hstart =>
    have hset : Mirrored { v with connecting := v.connecting.erase t } := h.congr rfl fun _ => rfl
    exact (hset.setTcp t _).startup hstart
  | acceptUp peer ok v' hstart =>
    have hadd : ∀ c, Mirrored (v.add c) := fun c => h.congr rfl fun _ => rfl
    exact (hadd _).startup hstart
  | shutdownDone t hreq => exact h.setTcp t _
  | dead c hc => exact h.congr rfl fun _ => rfl
  | park node b buf hwaiting hlookup => exact h.congr rfl fun _ => rfl
  | connect node b req htcp hvalid hwaiting hlookup =>
    refine h.congr rfl fun n => ?_
    show statuses n (v.trace ++ [_]) = statuses n v.trace
    simp [statuses_cons, statusOf]
  | refuse node b hwaiting hlookup =>
    have hdrop := (h.refuse hlookup).emit fun n => statuses_dropCalls n node [b]
    rwa [emit_emit] at hdrop
  | discard node b => exact h.emit fun _ => statuses_dropCalls ..
  | write t node b req hlookup =>
    exact (h.setTcp t _).emit fun _ => by simp [statuses_cons, statusOf]
  | writeFail t node b passed hlookup =>
    refine h.emit fun n => ?_
    split_ifs <;> simp [statuses_cons, statusOf]
  | listen node hserver => exact h.congr rfl fun _ => rfl
  | unlisten node t hserver => exact h.congr rfl fun _ => rfl
  | notice node hnode =>
    -- only TCP nodes have entries
    refine h.refuse (Option.eq_none_iff_forall_ne_some.mpr fun t ht => hnode ?_)
    exact (hwf.stream node t ht).isTcp
  | exit batch streams connecting queues tcps hstreams hconnecting hqueues htcps =>
    intro node
    show StatusOk false (statuses node (v.trace ++ _ ++ _ ++ _ ++ _))
    rw [statuses_append, statuses_append, statuses_append, statuses_append,
      statuses_dropEach, statuses_dropEach, List.append_nil, List.append_nil, List.append_assoc]
    refine (h node).downs (fun b hb => ?_) fun hup => ?_
    · rcases List.mem_append.mp hb with hb | hb
      · exact of_mem_statuses_map hb
      · exact of_mem_statuses_map hb
    · exact List.ne_nil_of_mem (List.mem_append_left _ (exit_downs hwf hstreams node hup))

/-- The notifications mirror the map in every reachable state. -/
theorem Pool.mirrored_of_reachable {p : Pool} (h : poolSystem.Reachable p) : p.table.Mirrored :=
  Pool.table_invariant (I := Table.Mirrored) (fun _ => .nil)
    (fun _ _ _ hwf hI hact => hact.mirrored hwf hI) h

/-! ## Notifications mirror the map -/

/-- In every reachable state a node has an entry in `m_node2stream` exactly when the most recent
connection notification for it was an up notification, and between two ups for a node there is a
down. -/
theorem notifications_mirror_node2stream {p : Pool} (h : poolSystem.Reachable p)
    (node : CnetworkNode) :
    (node ∈ p.internal.node2stream ↔ lastStatus node p.internal.trace = some true) ∧
      ∀ pre mid post, statuses node p.internal.trace = pre ++ true :: (mid ++ true :: post) →
        false ∈ mid := by
  have hok := Pool.mirrored_of_reachable h node
  rw [table_trace, statuses_visible] at hok
  refine ⟨?_, fun pre mid post heq => hok.down_between heq⟩
  rw [← AList.lookup_isSome, lastStatus]
  exact hok.last.symm

/-- A connection that is opened, closed and opened again. -/
theorem notifications_mirror_reopened :
    ∃ p, poolSystem.run (openRun 0 ++ closeRun true ++ openRun 1) = some p ∧
      statuses sampleNode p.internal.trace = [true, false, true] ∧
      (sampleNode ∈ p.internal.node2stream ↔ lastStatus sampleNode p.internal.trace = some true) :=
  ⟨(poolSystem.run _).get (by decide), (Option.some_get _).symm, by decide,
    (notifications_mirror_node2stream (Lib.Lts.reachable_of_run (Option.some_get _).symm)
      sampleNode).1⟩

end NetworkPool
