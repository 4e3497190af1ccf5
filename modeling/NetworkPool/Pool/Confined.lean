import NetworkPool.Pool.Servers

/-!
# What the steps of `on_wakeup` are confined to

What is local to some nodes is confined to them, and so is the handling of a bind: it changes the
server of its node only, and reports on no other (`Confined`). The exit branch reaches every node,
with notices only.
-/

namespace NetworkPool

/-! ## Confined changes -/

namespace Internal

/-- Notices about nodes in `M` are appended, and only entries for them change. -/
structure Confined (M : CnetworkNode → Prop) (s s' : Internal) : Prop where
  trace : ∃ new, s'.trace = s.trace ++ new ∧ ∀ o ∈ new, Tells M o
  tcpServers : ∀ node, ¬ M node → s'.tcpServers.lookup node = s.tcpServers.lookup node
  node2stream : ∀ node, ¬ M node → s'.node2stream.lookup node = s.node2stream.lookup node
  waitingSend : ∀ node, ¬ M node → s'.waitingSend.lookup node = s.waitingSend.lookup node

variable {M : CnetworkNode → Prop} {s s₁ s' : Internal} {node : CnetworkNode}

theorem Confined.same (h : (s'.tcpServers, s'.node2stream, s'.waitingSend, s'.trace) =
    (s.tcpServers, s.node2stream, s.waitingSend, s.trace)) : s.Confined M s' := by
  obtain ⟨hservers, hrest⟩ := Prod.mk.inj h
  obtain ⟨hstreams, hrest⟩ := Prod.mk.inj hrest
  obtain ⟨hwaiting, htrace⟩ := Prod.mk.inj hrest
  refine ⟨⟨[], by rw [htrace, List.append_nil], by simp⟩, ?_, ?_, ?_⟩
  · intro node _
    rw [hservers]
  · intro node _
    rw [hstreams]
  · intro node _
    rw [hwaiting]

theorem Confined.refl (s : Internal) : s.Confined M s := .same rfl

theorem Confined.trans (h : s.Confined M s₁) (h' : s₁.Confined M s') : s.Confined M s' where
  trace := by
    obtain ⟨new, htrace, hnew⟩ := h.trace
    obtain ⟨new', htrace', hnew'⟩ := h'.trace
    refine ⟨new ++ new', by rw [htrace', htrace, List.append_assoc], fun o ho => ?_⟩
    rcases List.mem_append.mp ho with ho | ho
    · exact hnew o ho
    · exact hnew' o ho
  tcpServers node hnode := (h'.tcpServers node hnode).trans (h.tcpServers node hnode)
  node2stream node hnode := (h'.node2stream node hnode).trans (h.node2stream node hnode)
  waitingSend node hnode := (h'.waitingSend node hnode).trans (h.waitingSend node hnode)

/-- The state before may differ where nothing is confined. -/
theorem Confined.after (h : s₁.Confined M s') (heq : (s₁.tcpServers, s₁.node2stream,
    s₁.waitingSend, s₁.trace) = (s.tcpServers, s.node2stream, s.waitingSend, s.trace)) :
    s.Confined M s' :=
  (Confined.same heq).trans h

theorem Confined.ite {b : Prop} [Decidable b] (h : s.Confined M s₁) (h' : s.Confined M s') :
    s.Confined M (if b then s₁ else s') := by
  by_cases hb : b
  · rw [if_pos hb]
    exact h
  · rw [if_neg hb]
    exact h'

/-- What is local is confined. -/
theorem Local.confined (h : s.Local M s') : s.Confined M s' where
  trace := by
    obtain ⟨new, htrace, hnew⟩ := h.trace
    exact ⟨new, htrace, fun o ho => (hnew o ho).1⟩
  tcpServers node _ := by rw [h.tcpServers]
  node2stream := h.node2stream
  waitingSend := h.waitingSend

/-- Everything may change. -/
theorem Confined.all (h : s'.trace = s.trace) : s.Confined (fun _ => True) s' where
  trace := ⟨[], by rw [h, List.append_nil], by simp⟩
  tcpServers _ hnode := absurd trivial hnode
  node2stream _ hnode := absurd trivial hnode
  waitingSend _ hnode := absurd trivial hnode

theorem Confined.insertServer (h : M node) (s : Internal) (t : ℕ) :
    s.Confined M { s with tcpServers := s.tcpServers.insert node t } where
  trace := ⟨[], (List.append_nil _).symm, by simp⟩
  tcpServers _ hn := lookup_insert_of_not h hn t
  node2stream _ _ := rfl
  waitingSend _ _ := rfl

theorem Confined.eraseServer (h : M node) (s : Internal) :
    s.Confined M { s with tcpServers := s.tcpServers.erase node } where
  trace := ⟨[], (List.append_nil _).symm, by simp⟩
  tcpServers _ hn := lookup_erase_of_not h hn
  node2stream _ _ := rfl
  waitingSend _ _ := rfl

theorem Confined.emit (s : Internal) {obs : List Obs} (h : ∀ o ∈ obs, Tells M o) :
    s.Confined M (s.emit obs) :=
  ⟨⟨obs, rfl, h⟩, fun _ _ => rfl, fun _ _ => rfl, fun _ _ => rfl⟩

/-- An entry about no node. -/
theorem Confined.mute (s : Internal) {o : Obs} (hnotice : o.notice = true)
    (hsubject : o.subject = none) : s.Confined M (s.emit [o]) :=
  (Local.mute s hnotice hsubject).confined

/-- An entry about a node in `M`. -/
theorem Confined.about (s : Internal) {o : Obs} (hnotice : o.notice = true)
    (hsubject : o.subject = some node) (h : M node) : s.Confined M (s.emit [o]) := by
  apply Confined.emit
  intro o' ho'
  rw [List.mem_singleton.mp ho']
  exact tells_of_about hnotice hsubject h

/-- A loop whose body is confined. -/
theorem Confined.foldl {α : Type} {f : Internal → α → Internal}
    (hf : ∀ (s : Internal) (a : α), s.Confined M (f s a)) (l : List α) (s : Internal) :
    s.Confined M (l.foldl f s) := by
  induction l generalizing s with
  | nil => exact .refl s
  | cons a l ih => exact (hf s a).trans (ih (f s a))

end Internal

open Internal (Confined)

section Functions

variable {M : CnetworkNode → Prop} (env : Env) (s : Internal)

/-! ### The bind loop -/

theorem confined_closeUdp (u : ℕ) : s.Confined M (Cudp.closeSetNullptr u s) := by
  unfold Cudp.closeSetNullptr
  refine .ite (.ite ?_ (.refl s)) (.mute s rfl rfl)
  exact Confined.after (Confined.mute (s.setUdp u _) rfl rfl) rfl

theorem confined_bindAndListenUdp (node : CnetworkNode) :
    s.Confined M (bindAndListenUdp env node s).2 := by
  have halloc : s.Confined M (Cudp.alloc env s).2 := by
    have hnew : s.Confined M ({ s with nextUdp := s.nextUdp + 1 }.setUdp s.nextUdp {}) := .same rfl
    unfold Cudp.alloc
    dsimp only
    split_ifs
    · exact .refl s
    · exact hnew.trans (.mute _ rfl rfl)
    · exact hnew.trans (.same rfl)
  unfold bindAndListenUdp
  by_cases hprotocol : node.protocol ≠ .protocolUdp
  · rw [if_pos hprotocol]
    exact .refl s
  · rw [if_neg hprotocol]
    rcases heq : Cudp.alloc env s with ⟨_ | u, s₁⟩ <;> rw [heq] at halloc
    · exact halloc
    · have hnode : s.Confined M (s₁.setUdp u { s₁.udps u with node := node }) :=
        halloc.trans (.same rfl)
      dsimp only
      split_ifs
      · exact hnode.trans (confined_closeUdp _ u)
      · exact hnode.trans (confined_closeUdp _ u)
      · exact hnode.trans (.same rfl)

theorem confined_bindOne {node : CnetworkNode} (h : M node) (bBind : Bool) :
    s.Confined M (bindOne env node bBind s) := by
  have hreport : ∀ (s₁ : Internal) b, s₁.Confined M (s₁.call (.bindStatus node b)) :=
    fun s₁ b => .about s₁ rfl rfl h
  unfold bindOne
  split
  · split
    · refine .ite (hreport s true) ?_
      exact ((Confined.eraseServer h s).trans (hreport _ false)).trans (local_close _ _).confined
    · refine .ite ?_ (hreport s false)
      have hbind := (local_bindAndListenTcp (M := M) env s node).confined
      rcases heq : bindAndListenTcp env node s with ⟨_ | t, s₁⟩ <;> rw [heq] at hbind
      · exact hbind.trans (hreport s₁ false)
      · exact hbind.trans ((Confined.insertServer h s₁ t).trans (hreport _ true))
  · split
    · rename_i udp _
      have herase : s.Confined M { s with udpServers := s.udpServers.erase udp } := .same rfl
      exact .ite (hreport s true) ((herase.trans (hreport _ false)).trans (confined_closeUdp _ _))
    · refine .ite ?_ (hreport s false)
      have hbind := confined_bindAndListenUdp (M := M) env s node
      rcases heq : bindAndListenUdp env node s with ⟨_ | u, s₁⟩ <;> rw [heq] at hbind
      · exact hbind.trans (hreport s₁ false)
      · exact hbind.trans (Confined.after (hreport _ true) rfl)
  · exact hreport s false

/-! ### The exit branch -/

/-- A loop that reports and closes. -/
theorem confined_closeEach {α : Type} (object : α → ℕ) {notice : α → CnetworkNode → Callback}
    (h : ∀ a node, (Obs.callback (notice a node)).notice = true) (l : List α) :
    s.Confined (fun _ => True) (closeEach object notice l s) :=
  .foldl (fun s a => (Confined.about s (h a _) rfl trivial).trans (local_close _ (object a)).confined) l s

theorem confined_exitLoops (order : ExitOrder) :
    s.Confined (fun _ => True) (exitLoops order s) := by
  have hwakeup : s.Confined (fun _ => True) (Casync.closeSetNullptr s) := by
    unfold Casync.closeSetNullptr
    refine .ite (.ite ?_ (.same rfl)) ?_
    · exact Confined.after (Confined.mute { s with
        async := { s.async with closing := true }, wakeup := false } rfl rfl) rfl
    · exact Confined.after (Confined.mute { s with wakeup := false } rfl rfl) rfl
  -- a container is cleared before the loop over what it held
  have hcleared : ∀ s₁ s₂ : Internal, s₂.trace = s₁.trace → s₁.Confined (fun _ => True) s₂ :=
    fun _ _ => .all
  have hservers : ∀ s₁ : Internal, s₁.Confined (fun _ => True) (closeEach Prod.snd
      (fun pair _ => .bindStatus pair.1 false) order.tcpServers { s₁ with tcpServers := ∅ }) :=
    fun s₁ => .trans (hcleared s₁ { s₁ with tcpServers := ∅ } rfl)
      (confined_closeEach _ Prod.snd (fun _ _ => rfl) _)
  have hudps : ∀ s₁ : Internal, s₁.Confined (fun _ => True) (s₁.udpServers.foldl (fun s u =>
      Cudp.closeSetNullptr u (s.call (.bindStatus (s.udps u).node false)))
        { s₁ with udpServers := [] }) :=
    fun s₁ => .trans (hcleared s₁ { s₁ with udpServers := [] } rfl) (.foldl (fun s u =>
      (Confined.about s rfl rfl trivial).trans (confined_closeUdp _ u)) _ _)
  have hstreams : ∀ s₁ : Internal, s₁.Confined (fun _ => True) (closeEach Prod.snd
      (fun _ node => .connectionStatus node false) order.node2stream
        { s₁ with node2stream := ∅ }) :=
    fun s₁ => .trans (hcleared s₁ { s₁ with node2stream := ∅ } rfl)
      (confined_closeEach _ Prod.snd (fun _ _ => rfl) _)
  have hconnecting : ∀ s₁ : Internal, s₁.Confined (fun _ => True) (closeEach id
      (fun _ node => .connectionStatus node false) order.connecting { s₁ with connecting := ∅ }) :=
    fun s₁ => .trans (hcleared s₁ { s₁ with connecting := ∅ } rfl)
      (confined_closeEach _ id (fun _ _ => rfl) _)
  exact hwakeup.trans ((hservers _).trans ((hudps _).trans ((hstreams _).trans (hconnecting _))))

/-- The exit branch makes no calls but notices. -/
theorem confined_exitAll (order : ExitOrder) (b : Batch) :
    s.Confined (fun _ => True) (exitAll order b s) := by
  have hdrops : ∀ {α : Type} (s₁ : Internal) (node : α → CnetworkNode) (buf : α → List UvBuf)
      (l : List α), s₁.Confined (fun _ => True)
        (s₁.emit (l.flatMap fun a => dropAll (node a) (buf a))) := by
    intro α s₁ node buf l
    apply Confined.emit
    intro o ho
    obtain ⟨a, -, ho⟩ := List.mem_flatMap.mp ho
    exact Internal.tells_dropAll trivial _ o ho
  have hbinds : ∀ s₁ : Internal, s₁.Confined (fun _ => True)
      (s₁.emit (b.bindCopy.map fun pair => .callback (.bindStatus pair.1 false))) := by
    intro s₁
    apply Confined.emit
    intro o ho
    obtain ⟨pair, -, rfl⟩ := List.mem_map.mp ho
    exact ⟨rfl, fun _ _ => trivial⟩
  have hmap : ∀ s₁ : Internal, s₁.Confined (fun _ => True) { s₁ with waitingSend := ∅ } :=
    fun s₁ => .all rfl
  show s.Confined _ (exitDrops order b (exitLoops order s))
  refine (confined_exitLoops s order).trans ?_
  unfold exitDrops
  exact .trans (.trans (.trans (hdrops _ _ _ _) (hmap _)) (hbinds _)) (hdrops _ _ _ _)

end Functions

end NetworkPool
