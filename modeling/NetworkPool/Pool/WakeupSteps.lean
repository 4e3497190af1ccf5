import NetworkPool.Pool.TableFunctions

/-!
# `on_wakeup` as actions

The loop bodies and the exit branch of `on_wakeup` as sequences of actions (`WakeupActs`), with
the messages they take from the batch.
-/

namespace NetworkPool

open Table

/-- A part of `on_wakeup` that takes the messages `took` from the batch. -/
def WakeupActs (took : List (CnetworkNode × UvBuf)) (v v' : Table) : Prop :=
  ∃ ls, Acts v ls v' ∧ (∀ l ∈ ls, l.InLoop) ∧
    tcpOnly (ls.flatMap Label.taken) = tcpOnly took

section Steps

variable {took : List (CnetworkNode × UvBuf)} {v v₁ v' : Table}

theorem WakeupActs.nil : WakeupActs [] v v :=
  ⟨[], .nil v, by simp, rfl⟩

theorem WakeupActs.single {l : Label} (hact : Act v l v') (hl : l.InLoop) :
    WakeupActs l.taken v v' :=
  ⟨[l], .single hact, by simpa using hl, by simp⟩

/-- An action in front that takes nothing. -/
theorem WakeupActs.cons {l : Label} (hact : Act v l v₁) (hl : l.InLoop) (htaken : l.taken = [])
    (h : WakeupActs took v₁ v') : WakeupActs took v v' := by
  obtain ⟨ls, hacts, hls, htook⟩ := h
  refine ⟨l :: ls, .cons hact hacts, ?_, ?_⟩
  · intro l' hl'
    rcases List.mem_cons.mp hl' with rfl | hl'
    · exact hl
    · exact hls l' hl'
  · rw [List.flatMap_cons, htaken, List.nil_append, htook]

/-- An action at the end that takes nothing. -/
theorem WakeupActs.concat {l : Label} (h : WakeupActs took v v₁) (hact : Act v₁ l v')
    (hl : l.InLoop) (htaken : l.taken = []) : WakeupActs took v v' := by
  obtain ⟨ls, hacts, hls, htook⟩ := h
  refine ⟨ls ++ [l], hacts.append (.single hact), ?_, ?_⟩
  · intro l' hl'
    rcases List.mem_append.mp hl' with hl' | hl'
    · exact hls l' hl'
    · rw [List.mem_singleton.mp hl']
      exact hl
  · rw [List.flatMap_append, List.flatMap_singleton, htaken, List.append_nil, htook]

/-- A failed set-up in front. -/
theorem WakeupActs.of_failed (hfailed : v.Failed v₁) (h : WakeupActs took v₁ v') :
    WakeupActs took v v' := by
  rcases hfailed with rfl | ⟨c, hc, rfl⟩
  · exact h
  · exact .cons (.dead c hc) trivial rfl h

end Steps

/-! ## Bind -/

section Bind

variable {s : Internal} (env : Env) {node : CnetworkNode}

theorem table_bindStatus (s : Internal) (b : Bool) :
    (s.call (.bindStatus node b)).table = s.table :=
  table_emit_invisible s rfl

/-- The bind loop on a TCP node. -/
theorem bindTcp_acts (hnode : node.IsTcp) (bBind : Bool) :
    WakeupActs [] s.table (bindOne env node bBind s).table := by
  unfold bindOne
  simp only [show node.protocol = .protocolTcp from hnode]
  cases hserver : s.tcpServers.lookup node with
  | some tcp =>
    cases bBind with
    | true =>
      simp only [if_true]
      rw [table_bindStatus]
      exact .nil
    | false =>
      simp only [Bool.false_eq_true, if_false]
      rw [table_closeSetNullptr, table_bindStatus]
      exact .single (.unlisten node tcp hserver) trivial
  | none =>
    cases bBind with
    | false =>
      simp only [Bool.false_eq_true, if_false]
      rw [table_bindStatus]
      exact .nil
    | true =>
      simp only [if_true]
      rcases bindAndListenTcp_cases env s hnode with ⟨s₁, heq, htable⟩ | ⟨s₁, heq, hfailed⟩
      · rw [heq]
        dsimp only
        rw [table_bindStatus]
        have hinsert : ({ s₁ with tcpServers := s₁.tcpServers.insert node s.nextTcp } : Internal).table
            = _ := congrArg (fun v : Table =>
              { v with tcpServers := v.tcpServers.insert node s.nextTcp }) htable
        rw [hinsert]
        exact .single (.listen node hserver) trivial
      · rw [heq]
        dsimp only
        rw [table_bindStatus]
        exact .of_failed hfailed .nil

theorem table_setUdp (s : Internal) (u : ℕ) (c : Cudp) : (s.setUdp u c).table = s.table := rfl

theorem table_closeUdp (u : ℕ) (s : Internal) : (Cudp.closeSetNullptr u s).table = s.table := by
  unfold Cudp.closeSetNullptr
  dsimp only
  split_ifs
  · rw [table_emit_invisible _ rfl, table_setUdp]
  · rfl
  · exact table_emit_invisible s rfl

theorem table_allocUdp (s : Internal) : (Cudp.alloc env s).2.table = s.table := by
  unfold Cudp.alloc
  split_ifs
  · rfl
  · exact table_emit_invisible _ rfl
  · rfl

/-- `bindAndListenUdp` does not touch the table. -/
theorem table_bindAndListenUdp (s : Internal) : (bindAndListenUdp env node s).2.table = s.table := by
  have halloc := table_allocUdp env s
  unfold bindAndListenUdp
  by_cases hnode : node.protocol ≠ .protocolUdp
  · rw [if_pos hnode]
  · rw [if_neg hnode]
    rcases heq : Cudp.alloc env s with ⟨_ | u, s₁⟩ <;> rw [heq] at halloc <;> dsimp only at halloc ⊢
    · exact halloc
    · split_ifs <;> simp only [table_closeUdp, table_setUdp, halloc]

/-- The bind loop on a UDP node. -/
theorem table_bindUdp (hnode : node.protocol = .protocolUdp) (bBind : Bool) (s : Internal) :
    (bindOne env node bBind s).table = s.table := by
  have hbind : (bindAndListenUdp env node s).2.table = s.table := table_bindAndListenUdp env s
  unfold bindOne
  simp only [hnode]
  cases findUdpServer node s with
  | some udp =>
    dsimp only
    split_ifs
    · exact table_bindStatus s true
    · rw [table_closeUdp, table_bindStatus]
      rfl
  | none =>
    dsimp only
    split_ifs
    · rcases heq : bindAndListenUdp env node s with ⟨_ | udp, s₁⟩ <;> rw [heq] at hbind <;>
        dsimp only at hbind ⊢
      · rw [table_bindStatus, hbind]
      · rw [table_bindStatus]
        exact hbind
    · exact table_bindStatus s false

/-- One iteration of the bind loop. -/
theorem bindOne_acts (s : Internal) (bBind : Bool) :
    WakeupActs [] s.table (bindOne env node bBind s).table := by
  cases hnode : node.protocol with
  | protocolTcp => exact bindTcp_acts env hnode bBind
  | protocolUdp =>
    rw [table_bindUdp env hnode]
    exact .nil
  | unknown n =>
    unfold bindOne
    simp only [hnode]
    rw [table_bindStatus]
    exact .nil

end Bind

/-! ## Send -/

section Send

variable {s : Internal} (env : Env) {req : PendingSend}

/-- A failed set-up does not depend on the waiting queues. -/
theorem Table.Failed.queues {v v' : Table} {queues : NodeMap (List UvBuf)}
    (h : Table.Failed { v with waitingSend := queues } v') :
    ∃ v₁, v.Failed v₁ ∧ v' = { v₁ with waitingSend := queues } ∧ v₁.waitingSend = v.waitingSend ∧
      v₁.node2stream = v.node2stream := by
  rcases h with rfl | ⟨c, hc, rfl⟩
  · exact ⟨v, .inl rfl, rfl, rfl, rfl⟩
  · exact ⟨v.add c, .inr ⟨c, hc, rfl⟩, rfl, rfl, rfl⟩

theorem table_drop (s : Internal) (node : CnetworkNode) (b : UvBuf) :
    (s.emit (dropAll node [b])).table = s.table.emit (dropCalls node [b]) := by
  rw [table_emit, visible_dropAll]

/-- A connect is needed for the message: it is started, or refused at once. -/
theorem connect_cases (hnode : req.node.IsTcp)
    (hlookup : s.node2stream.lookup req.node = none)
    (hwaiting : s.waitingSend.lookup req.node = none) {s' : Internal}
    (hs' : s' = match connectTcp env req.node
          { s with waitingSend := s.waitingSend.insert req.node [req.data] } with
        | (none, s) => dropWaiting req.node (s.call (.connectionStatus req.node false))
        | (some tcp, s) => { s with connecting := insert tcp s.connecting }) :
    Act s.table (.connect req.node req.data) s'.table ∨
      ∃ v₁, s.table.Failed v₁ ∧ Act v₁ (.refuse req.node req.data) s'.table := by
  subst hs'
  rcases connectTcp_cases env
      { s with waitingSend := s.waitingSend.insert req.node [req.data] } hnode with
    ⟨s₁, r, heq, hvalid, htable⟩ | ⟨s₁, heq, hfailed⟩
  · rw [heq]
    have hinsert : ({ s₁ with connecting := insert s.nextTcp s₁.connecting } : Internal).table = _ :=
      congrArg (fun v : Table => { v with connecting := insert s.nextTcp v.connecting }) htable
    dsimp only
    rw [hinsert]
    exact .inl (.connect req.node req.data r hnode hvalid hwaiting hlookup)
  · rw [heq]
    have hfailed : Table.Failed
        { s.table with waitingSend := s.waitingSend.insert req.node [req.data] } s₁.table := hfailed
    obtain ⟨v₁, hfailed₁, hv₁, hqueue, hmap⟩ := hfailed.queues
    dsimp only
    rw [table_dropWaiting, table_call, hv₁]
    have hdrop : ({ v₁ with waitingSend := s.waitingSend.insert req.node [req.data] }.emit
          (visible [.callback (.connectionStatus req.node false)])).dropWaiting req.node =
        v₁.emit (.callback (.connectionStatus req.node false) :: dropCalls req.node [req.data]) := by
      unfold Table.dropWaiting Table.waiting
      simp only [Table.emit, AList.lookup_insert, Lib.AssocMap.erase_insert hwaiting, Option.getD_some]
      rw [← table_waitingSend, ← hqueue, List.append_assoc]
      rfl
    rw [hdrop]
    refine .inr ⟨v₁, hfailed₁, .refuse req.node req.data ?_ ?_⟩
    · rw [hqueue]
      exact hwaiting
    · rw [hmap]
      exact hlookup

theorem connect_acts (hnode : req.node.IsTcp)
    (hlookup : s.node2stream.lookup req.node = none)
    (hwaiting : s.waitingSend.lookup req.node = none) :
    WakeupActs [(req.node, req.data)] s.table
      (match connectTcp env req.node
          { s with waitingSend := s.waitingSend.insert req.node [req.data] } with
        | (none, s) => dropWaiting req.node (s.call (.connectionStatus req.node false))
        | (some tcp, s) => { s with connecting := insert tcp s.connecting }).table := by
  rcases connect_cases env hnode hlookup hwaiting rfl with hact | ⟨v₁, hfailed, hact⟩
  · exact .single hact trivial
  · exact .of_failed hfailed (.single hact trivial)

/-- The TCP branch of the send loop when there is no stream for the node. -/
theorem sendWithoutStream_acts (hnode : req.node.IsTcp)
    (hlookup : s.node2stream.lookup req.node = none) :
    WakeupActs [(req.node, req.data)] s.table (sendWithoutStream env req s).table := by
  unfold sendWithoutStream
  dsimp only
  cases hwaiting : s.waitingSend.lookup req.node with
  | some buf =>
    have hpush : pushWaiting req.node req.data s =
        { s with waitingSend := s.waitingSend.insert req.node (buf ++ [req.data]) } := by
      unfold pushWaiting
      rw [hwaiting]
    simp only [Option.isNone_some, Bool.false_and, Bool.false_eq_true, if_false, hpush]
    exact .single (.park req.node req.data buf hwaiting hlookup) trivial
  | none =>
    have hpush : pushWaiting req.node req.data s =
        { s with waitingSend := s.waitingSend.insert req.node [req.data] } := by
      unfold pushWaiting
      rw [hwaiting]
    cases req.bAutoConnect with
    | false =>
      simp only [Option.isNone_none, Bool.not_false, Bool.and_self, if_true]
      rw [table_drop]
      exact .single (.discard req.node req.data) trivial
    | true =>
      simp only [Option.isNone_none, Bool.not_true, Bool.and_false, Bool.false_eq_true, if_false,
        if_true, hpush]
      exact connect_acts env hnode hlookup hwaiting

/-- The TCP branch of the send loop when there is a stream for the node. -/
theorem sendOnStream_acts (hwf : s.table.Wf) {tcp : ℕ}
    (hlookup : s.node2stream.lookup req.node = some tcp) :
    WakeupActs [(req.node, req.data)] s.table (sendOnStream env req tcp s).table := by
  have he := hwf.stream req.node tcp hlookup
  unfold sendOnStream
  cases env.mallocWrite with
  | false =>
    simp only [Bool.not_false, if_true]
    rw [table_drop]
    exact .single (.discard req.node req.data) trivial
  | true =>
    simp only [Bool.not_true, Bool.false_eq_true, if_false]
    cases env.timerStart with
    | false =>
      simp only [Bool.not_false, if_true]
      rw [table_dropWrite_teardown, table_uvTimerStart_fail, table_mallocReq]
      have hfail : Act s.table (.writeFail req.node req.data) _ :=
        .writeFail tcp req.node req.data false hlookup
      exact (WakeupActs.single hfail trivial).concat
        (.close tcp req.node _ hlookup (.inl rfl)) trivial rfl
    | true =>
      have harmed : (uvTimerStart tcp (mallocReq s).2 .send true).table =
          s.table.setTcp tcp ((s.tcps tcp).arm .send) := table_uvTimerStart tcp (mallocReq s).2 .send
      have hobj : (uvTimerStart tcp (mallocReq s).2 .send true).tcps tcp = (s.tcps tcp).arm .send := by
        rw [← table_tcps, harmed, setTcp_tcps_self]
      simp only [Bool.not_true, Bool.false_eq_true, if_false]
      cases env.write with
      | true =>
        simp only [Bool.not_true, Bool.false_eq_true, if_false]
        rw [table_uvWrite, harmed, setTcp_setTcp, hobj, arm_node]
        exact .single (.write tcp req.node req.data _ hlookup) trivial
      | false =>
        simp only [Bool.not_false, if_true]
        rw [table_dropWrite_teardown, table_uvWrite_fail, harmed, hobj, emit_emit]
        have htouch : Act s.table (.touch tcp) _ :=
          .touch tcp _ (.arm .send he.closing he.shutdown he.timerInited he.listening)
        refine .cons htouch trivial rfl ?_
        have hfail : Act (s.table.setTcp tcp ((s.tcps tcp).arm .send))
            (.writeFail req.node req.data) _ := .writeFail tcp req.node req.data true hlookup
        rw [setTcp_tcps_self, if_pos rfl] at hfail
        exact (WakeupActs.single hfail trivial).concat (l := .close tcp)
          (.close tcp req.node _ hlookup (.inl rfl)) trivial rfl

/-- The UDP branch of the send loop does not touch the table. -/
theorem table_sendUdp (s : Internal) : (sendUdp env req s).table = s.table := by
  unfold sendUdp
  dsimp only
  split_ifs
  · rw [table_call, table_emit_invisible _ rfl]
    exact emit_nil _
  · exact table_setUdp _ _ _
  · exact table_emit_invisible s rfl
  · exact table_emit_invisible s rfl

/-- One iteration of the send loop. -/
theorem sendOne_acts (hwf : s.table.Wf) :
    WakeupActs [(req.node, req.data)] s.table (sendOne env req s).table := by
  unfold sendOne
  cases hnode : req.node.protocol with
  | protocolTcp =>
    dsimp only
    unfold getStreamByNode
    cases hlookup : s.node2stream.lookup req.node with
    | none => exact sendWithoutStream_acts env hnode hlookup
    | some tcp => exact sendOnStream_acts env hwf hlookup
  | protocolUdp =>
    dsimp only
    rw [table_sendUdp]
    exact ⟨[], .nil _, by simp, by simp [tcpOnly, CnetworkNode.IsTcp, hnode]⟩
  | unknown n =>
    have hother : ¬ req.node.IsTcp := by simp [CnetworkNode.IsTcp, hnode]
    dsimp only
    rw [table_drop]
    have hdiscard : ∀ v : Table, WakeupActs [(req.node, req.data)] v
        (v.emit (dropCalls req.node [req.data])) := fun v =>
      .single (.discard req.node req.data) trivial
    split_ifs
    · rw [table_call]
      exact .cons (.notice req.node hother) trivial rfl (hdiscard _)
    · exact hdiscard _

end Send

/-! ## Close -/

/-- One iteration of the close loop. -/
theorem closeOne_acts {s : Internal} (env : Env) (hwf : s.table.Wf) (node : CnetworkNode)
    (bForceClose : Bool) : WakeupActs [] s.table (closeOne env node bForceClose s).table := by
  unfold closeOne getStreamByNode
  cases hlookup : s.node2stream.lookup node with
  | none => exact .nil
  | some tcp =>
    have he := hwf.stream node tcp hlookup
    have hclose : WakeupActs [] s.table (s.table.teardown tcp false (s.tcps tcp).afterClose) :=
      .single (.close tcp node _ hlookup (.inl rfl)) trivial
    cases bForceClose with
    | true =>
      simp only [Bool.not_true, Bool.false_and, Bool.false_eq_true, if_false]
      rw [table_teardown]
      exact hclose
    | false =>
      cases env.timerStart with
      | false =>
        simp only [Bool.not_false, Bool.and_self, if_true]
        rw [table_teardown, table_uvTimerStart_fail]
        exact hclose
      | true =>
        simp only [Bool.not_false, Bool.not_true, Bool.and_false, Bool.false_eq_true, if_false,
          if_true]
        rw [table_shutdownTcpConnection, if_pos rfl, table_uvTimerStart]
        refine .cons (.touch tcp _ (.arm .send he.closing he.shutdown he.timerInited he.listening))
          trivial rfl ?_
        refine .single (.close tcp node _ hlookup (.inr ⟨?_, env, s.nextReq, ?_⟩))
          trivial
        · rw [setTcp_tcps_self]
          rfl
        · rw [setTcp_tcps_self]
          rw [uvTimerStart_nextReq, ← table_tcps (uvTimerStart _ _ _ _), table_uvTimerStart,
            setTcp_tcps_self]
          rfl

/-! ## Exit -/

section Exit

variable {α : Type} (object : α → ℕ) (notice : α → CnetworkNode → Callback)

/-- One of the loops of the exit branch: each object is reported and closed. -/
def closeEach (l : List α) (s : Internal) : Internal :=
  l.foldl (fun s a => Ctcp.closeSetNullptr (object a) (s.call (notice a (s.tcps (object a)).node))) s

theorem afterClose_afterClose (c : Ctcp) : c.afterClose.afterClose = c.afterClose := by
  by_cases hc : c.afterClose.closing = true
  · exact Ctcp.afterClose_of_closing hc
  · have hopen := Ctcp.open_of_afterClose (Bool.eq_false_iff.mpr hc)
    have htcp : c.tcpInited = false ∧ c.timerInited = false := by
      by_contra hinited
      refine hc ?_
      have hsome : (c.tcpInited || c.timerInited) = true := by
        cases htcp : c.tcpInited <;> simp_all
      unfold Ctcp.afterClose
      rw [if_pos (by rw [hsome, hopen]; rfl)]
    have hsame : c.afterClose = c := by
      unfold Ctcp.afterClose
      rw [if_neg (by simp [htcp])]
    rw [hsame, hsame]

/-- `g` are the objects `f` after those of `l` were closed. -/
def ClosedOn (l : List ℕ) (f g : ℕ → Ctcp) : Prop :=
  ∀ t, g t = if t ∈ l then (f t).afterClose else f t

section ClosedOn

variable {l l' : List ℕ} {f g h : ℕ → Ctcp}

theorem ClosedOn.trans (hfg : ClosedOn l f g) (hgh : ClosedOn l' g h) : ClosedOn (l ++ l') f h := by
  intro t
  rw [hgh t, hfg t]
  by_cases ht : t ∈ l <;> by_cases ht' : t ∈ l' <;> simp [ht, ht', afterClose_afterClose]

theorem ClosedOn.node (hfg : ClosedOn l f g) (t : ℕ) : (g t).node = (f t).node := by
  rw [hfg t]
  split_ifs
  · exact Ctcp.afterClose_node _
  · rfl

end ClosedOn

/-- The loop closes the objects of the list and reports them under their own nodes. -/
theorem table_closeEach (l : List α) (s : Internal) :
    ∃ tcps : ℕ → Ctcp,
      (closeEach object notice l s).table = { s.table with
        tcps := tcps
        trace := s.table.trace ++
          visible (l.map fun a => .callback (notice a (s.tcps (object a)).node)) } ∧
      ClosedOn (l.map object) s.tcps tcps := by
  induction l generalizing s with
  | nil =>
    refine ⟨s.tcps, ?_, fun t => by simp⟩
    rw [List.map_nil, visible_nil, List.append_nil]
    rfl
  | cons a l ih =>
    obtain ⟨tcps, htable, hclosed⟩ :=
      ih (Ctcp.closeSetNullptr (object a) (s.call (notice a (s.tcps (object a)).node)))
    set s₁ := Ctcp.closeSetNullptr (object a) (s.call (notice a (s.tcps (object a)).node)) with hs₁
    have hstep : s₁.table = (s.table.emit (visible [.callback (notice a (s.tcps (object a)).node)])).setTcp
        (object a) (s.tcps (object a)).afterClose := by
      rw [hs₁, table_closeSetNullptr, table_call, call_tcps]
    have hobj : ClosedOn [object a] s.tcps s₁.tcps := by
      intro t
      rw [← table_tcps, hstep]
      by_cases ht : t = object a
      · subst ht
        simp
      · simp [Table.setTcp, ht]
    refine ⟨tcps, ?_, hobj.trans hclosed⟩
    show (closeEach object notice l s₁).table = _
    have hmap : visible ((a :: l).map fun b => .callback (notice b (s.tcps (object b)).node)) =
        visible [.callback (notice a (s.tcps (object a)).node)] ++
          visible (l.map fun b => .callback (notice b (s.tcps (object b)).node)) := by
      rw [← visible_append]
      rfl
    rw [htable, hstep, hmap]
    simp [hobj.node, Table.setTcp, Table.emit]

theorem table_closeAsync (s : Internal) : (Casync.closeSetNullptr s).table = s.table := by
  unfold Casync.closeSetNullptr
  split_ifs
  · exact table_emit_invisible _ rfl
  · rfl
  · exact table_emit_invisible _ rfl

/-- The loop over the UDP servers does not touch the table. -/
theorem table_closeUdps (l : List ℕ) (s : Internal) :
    (l.foldl (fun s u => Cudp.closeSetNullptr u (s.call (.bindStatus (s.udps u).node false))) s).table =
      s.table := by
  induction l generalizing s with
  | nil => rfl
  | cons u l ih =>
    rw [List.foldl_cons, ih, table_closeUdp, table_bindStatus]

theorem visible_dropQueues (queues : List (CnetworkNode × List UvBuf)) :
    visible (queues.flatMap fun pair => dropAll pair.1 pair.2) =
      queues.flatMap fun pair => dropCalls pair.1 pair.2 := by
  induction queues with
  | nil => rfl
  | cons pair queues ih => simp [ih]

theorem visible_dropBatch (batch : List PendingSend) :
    visible (batch.flatMap fun req => dropAll req.node [req.data]) =
      batch.flatMap fun req => dropCalls req.node [req.data] := by
  induction batch with
  | nil => rfl
  | cons req batch ih => simp [ih]

theorem mem_toPairs {β : Type} {m : NodeMap β} {node : CnetworkNode} {x : β} :
    (node, x) ∈ m.toPairs ↔ m.lookup node = some x := by
  unfold NodeMap.toPairs
  rw [List.mem_map, ← Option.mem_def, AList.mem_lookup_iff]
  constructor
  · rintro ⟨⟨n, y⟩, he, heq⟩
    obtain ⟨rfl, rfl⟩ := Prod.mk.injEq .. ▸ heq
    exact he
  · intro he
    exact ⟨⟨node, x⟩, he, rfl⟩

/-- The exit branch up to the last of its close loops. -/
def exitLoops (order : ExitOrder) (s : Internal) : Internal :=
  let s := closeEach Prod.snd (fun pair _ => .bindStatus pair.1 false) order.tcpServers
    { Casync.closeSetNullptr s with tcpServers := ∅ }
  let s := s.udpServers.foldl (fun s u => Cudp.closeSetNullptr u
    (s.call (.bindStatus (s.udps u).node false))) { s with udpServers := [] }
  let s := closeEach Prod.snd (fun _ node => .connectionStatus node false) order.node2stream
    { s with node2stream := ∅ }
  closeEach id (fun _ node => .connectionStatus node false) order.connecting
    { s with connecting := ∅ }

/-- The exit branch after its close loops. -/
theorem table_exitAll (order : ExitOrder) (b : Batch) (s : Internal) :
    (exitAll order b s).table = { (exitLoops order s).table with
      waitingSend := ∅
      trace := (exitLoops order s).table.trace ++
        order.waitingSend.flatMap (fun pair => dropCalls pair.1 pair.2) ++
        b.sendCopy.flatMap fun req => dropCalls req.node [req.data] } := by
  have hexit : exitAll order b s =
      let s := exitLoops order s
      let s := s.emit (order.waitingSend.flatMap fun pair => dropAll pair.1 pair.2)
      let s := { s with waitingSend := ∅ }
      let s := s.emit (b.bindCopy.map fun pair => .callback (.bindStatus pair.1 false))
      s.emit (b.sendCopy.flatMap fun req => dropAll req.node [req.data]) := rfl
  rw [hexit, table_emit, visible_dropBatch, table_emit_invisible _ (by simp [visible, Obs.visible])]
  simp [Internal.table, Internal.emit, Table.emit, visible_dropQueues]

/-- The close loops of the exit branch. -/
theorem table_exitLoops (order : ExitOrder) (s : Internal) :
    ∃ tcps : ℕ → Ctcp,
      (exitLoops order s).table = { s.table with
        tcpServers := ∅
        node2stream := ∅
        connecting := ∅
        tcps := tcps
        trace := s.table.trace ++
          order.node2stream.map
            (fun pair => .callback (.connectionStatus (s.tcps pair.2).node false)) ++
          order.connecting.map fun t => .callback (.connectionStatus (s.tcps t).node false) } ∧
      ClosedOn (order.tcpServers.map Prod.snd ++ order.node2stream.map Prod.snd ++ order.connecting)
        s.tcps tcps := by
  have hbase : ({ Casync.closeSetNullptr s with tcpServers := ∅ } : Internal).table =
      { s.table with tcpServers := ∅ } :=
    congrArg (fun v : Table => { v with tcpServers := ∅ }) (table_closeAsync s)
  unfold exitLoops
  dsimp only
  -- the listeners, whose notifications are not visible
  obtain ⟨f₁, htable₁, hclosed₁⟩ := table_closeEach Prod.snd
    (fun (pair : CnetworkNode × ℕ) _ => .bindStatus pair.1 false) order.tcpServers
    { Casync.closeSetNullptr s with tcpServers := ∅ }
  generalize closeEach Prod.snd (fun (pair : CnetworkNode × ℕ) _ => .bindStatus pair.1 false)
    order.tcpServers { Casync.closeSetNullptr s with tcpServers := ∅ } = s₁ at htable₁ ⊢
  -- the UDP servers
  have htable₂ := table_closeUdps s₁.udpServers { s₁ with udpServers := [] }
  generalize s₁.udpServers.foldl (fun s u => Cudp.closeSetNullptr u
    (s.call (.bindStatus (s.udps u).node false))) { s₁ with udpServers := [] } = s₂ at htable₂ ⊢
  -- the connections
  obtain ⟨f₃, htable₃, hclosed₃⟩ := table_closeEach Prod.snd
    (fun (_ : CnetworkNode × ℕ) node => .connectionStatus node false) order.node2stream
    { s₂ with node2stream := ∅ }
  generalize closeEach Prod.snd (fun (_ : CnetworkNode × ℕ) node => .connectionStatus node false)
    order.node2stream { s₂ with node2stream := ∅ } = s₃ at htable₃ ⊢
  -- the pending connects
  obtain ⟨f₄, htable₄, hclosed₄⟩ := table_closeEach id
    (fun _ node => .connectionStatus node false) order.connecting { s₃ with connecting := ∅ }
  generalize closeEach id (fun _ node => .connectionStatus node false) order.connecting
    { s₃ with connecting := ∅ } = s₄ at htable₄ ⊢
  -- the objects and the table after each loop
  have hasync : (Casync.closeSetNullptr s).tcps = s.tcps := congrArg Table.tcps (table_closeAsync s)
  have hobj₂ : s₂.tcps = f₁ := congrArg Table.tcps (htable₂.trans htable₁)
  have hobj₃ : s₃.tcps = f₃ := congrArg Table.tcps htable₃
  have hto₁ : ClosedOn (order.tcpServers.map Prod.snd) s.tcps f₁ := hasync ▸ hclosed₁
  have hfrom₁ : ClosedOn (order.node2stream.map Prod.snd) f₁ f₃ := hobj₂ ▸ hclosed₃
  have hto₃ := hto₁.trans hfrom₁
  have hto₄ : ClosedOn order.connecting f₃ f₄ := by
    rw [List.map_id] at hclosed₄
    exact hobj₃ ▸ hclosed₄
  have hs₂ : s₂.table = { s.table with tcpServers := ∅, tcps := f₁ } := by
    refine htable₂.trans (htable₁.trans ?_)
    rw [hbase, visible_map_nil (fun _ => rfl), List.append_nil]
  have hs₃ : s₃.table = { s.table with
      tcpServers := ∅
      node2stream := ∅
      tcps := f₃
      trace := s.table.trace ++ order.node2stream.map
        fun pair => .callback (.connectionStatus (s.tcps pair.2).node false) } := by
    have hmap : ({ s₂ with node2stream := ∅ } : Internal).table = { s₂.table with node2stream := ∅ } :=
      rfl
    rw [htable₃, hmap, hs₂, visible_map_self fun _ => rfl]
    simp only [hobj₂, hto₁.node]
  have hs₄ : ({ s₃ with connecting := ∅ } : Internal).table = { s₃.table with connecting := ∅ } := rfl
  refine ⟨f₄, ?_, hto₃.trans hto₄⟩
  rw [htable₄, hs₄, hs₃, visible_map_self fun _ => rfl]
  simp only [hobj₃, hto₃.node, id_eq]

/-- The exit branch. -/
theorem exitAll_act {s : Internal} {order : ExitOrder} (henum : order.Enumerates s) (b : Batch) :
    Act s.table (.exit (b.sendCopy.map fun req => (req.node, req.data)))
      (exitAll order b s).table := by
  obtain ⟨hservers, hstreams, -, hconnecting, hqueues⟩ := henum
  obtain ⟨tcps, htable, hclosed⟩ := table_exitLoops order s
  have hexit : (exitAll order b s).table = _ := table_exitAll order b s
  rw [htable] at hexit
  have hmem : ∀ t, t ∈ order.tcpServers.map Prod.snd ++ order.node2stream.map Prod.snd ++
      order.connecting ↔ s.table.InRegistry t := by
    intro t
    have hvalue : ∀ {l : List (CnetworkNode × ℕ)} {map : NodeMap ℕ}, l.Perm map.toPairs →
        (t ∈ l.map Prod.snd ↔ ∃ node, map.lookup node = some t) := by
      intro l map hl
      simp only [List.mem_map, Prod.exists, exists_eq_right, hl.mem_iff, mem_toPairs]
    unfold Table.InRegistry
    rw [List.mem_append, List.mem_append, hvalue hservers, hvalue hstreams, table_connecting,
      ← hconnecting, List.mem_toFinset]
    tauto
  have hact := Act.exit (v := s.table) (b.sendCopy.map fun req => (req.node, req.data))
    order.node2stream order.connecting order.waitingSend tcps hstreams hconnecting hqueues
    fun t => ?_
  · rw [hexit]
    simpa [List.flatMap_map] using hact
  · rw [← hmem t, hclosed t]
    by_cases ht : t ∈ order.tcpServers.map Prod.snd ++ order.node2stream.map Prod.snd ++
        order.connecting
    · rw [if_pos ht]
      exact .inl ⟨ht, rfl⟩
    · rw [if_neg ht]
      exact .inr ⟨ht, rfl⟩

end Exit

end NetworkPool
