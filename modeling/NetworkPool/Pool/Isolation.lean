import NetworkPool.Pool.Protocol

/-!
# Nodes do not disturb each other

The requests of all nodes are handled in one `on_wakeup` and the callbacks of all sockets run in one
loop. A step that is not about a node still leaves alone what the pool holds of it: its server, its
connection, its waiting messages, its requests and the calls made for it (`node_undisturbed`). A
datagram is also about the node whose socket sends or receives it, and about its sender. Only the
exit branch reaches every node.
-/

namespace NetworkPool

/-! ## The entries about a node -/

/-- The entries about `node`. -/
def about (node : CnetworkNode) (tr : List Obs) : List Obs :=
  tr.filter fun o => o.subject = some node

section About

variable {node : CnetworkNode} {tr : List Obs} {o : Obs}

theorem about_append (node : CnetworkNode) (a b : List Obs) :
    about node (a ++ b) = about node a ++ about node b :=
  List.filter_append ..

theorem about_eq_nil (h : ∀ o ∈ tr, o.subject ≠ some node) : about node tr = [] := by
  apply List.filter_eq_nil_iff.mpr
  intro o ho
  simpa using h o ho

/-- The last report of a bind is among the entries about the node. -/
theorem last_bindReports_about (node : CnetworkNode) (tr : List Obs) :
    Lib.last node (bindReports (about node tr)) = Lib.last node (bindReports tr) := by
  induction tr using List.reverseRecOn with
  | nil => rfl
  | append_singleton tr o ih =>
    have hlast : Lib.last node (bindReports (about node [o])) =
        Lib.last node (bindReports [o]) := by
      by_cases ho : o.subject = some node
      · have habout : about node [o] = [o] := by simp [about, ho]
        rw [habout]
      · have habout : about node [o] = [] := by simp [about, ho]
        rw [habout]
        cases o with
        | callback c =>
          cases c with
          | bindStatus n b =>
            have hn : n ≠ node := fun hn => ho (congrArg some hn)
            simp [bindReports, bindOf, Lib.last, hn]
          | _ => rfl
        | _ => rfl
    rw [about_append, bindReports_append, bindReports_append, Lib.last_append, Lib.last_append,
      ih, hlast]

end About

/-! ## What the pool holds of a node -/

/-- What the pool holds of a node, and what it has called for it. -/
structure NodeView where
  server : Option ℕ
  stream : Option ℕ
  waiting : Option (List UvBuf)
  /-- The requests that `on_wakeup` has yet to handle, in order. -/
  binds : List (CnetworkNode × Bool)
  sends : List PendingSend
  closes : List (CnetworkNode × Bool)
  entries : List Obs

namespace Pool

/-- The sends `on_wakeup` has yet to handle. -/
def unsent (p : Pool) : List PendingSend :=
  p.batch.elim [] Batch.sendCopy ++ p.exchanged.pendingSend

/-- The closes `on_wakeup` has yet to handle. -/
def unclosed (p : Pool) : List (CnetworkNode × Bool) :=
  p.batch.elim [] Batch.closeCopy ++ p.exchanged.pendingClose

/-- What the pool holds of `node`. -/
def view (p : Pool) (node : CnetworkNode) : NodeView where
  server := p.internal.tcpServers.lookup node
  stream := p.internal.node2stream.lookup node
  waiting := p.internal.waitingSend.lookup node
  binds := p.unanswered.filter fun req => req.1 = node
  sends := p.unsent.filter fun req => req.node = node
  closes := p.unclosed.filter fun req => req.1 = node
  entries := about node p.internal.trace

/-- The step is not about `node`, and not the exit branch. A datagram that its socket is to send or
receives, or that comes from it, counts as about it. -/
def spares (p : Pool) (node : CnetworkNode) : Event → Bool
  | .dispatch _ => !p.exchanged.bWantExit
  | e => decide (node ∉ p.nodes e)

variable {p p' : Pool} {e : Event} {node : CnetworkNode}

theorem not_mem_of_spares (h : p.spares node e = true) : node ∉ p.nodes e := by
  cases e with
  | dispatch order => exact List.not_mem_nil
  | _ => exact of_decide_eq_true h

theorem not_exits_of_spares (h : p.spares node e = true) : ¬ p.Exits e := by
  rintro ⟨⟨order, rfl⟩, hexit⟩
  rw [spares, hexit] at h
  exact absurd h (by simp)

/-! ## Steps -/

/-- A step that spares a node neither adds nor handles a request of it. -/
theorem requests_of_step (hstep : p.step e = some p') (h : p.spares node e = true) :
    (p'.view node).binds = (p.view node).binds ∧ (p'.view node).sends = (p.view node).sends ∧
      (p'.view node).closes = (p.view node).closes := by
  have hnot := not_mem_of_spares h
  have hexits := not_exits_of_spares h
  cases e with
  | bind n bBind =>
    rw [← Option.some.inj hstep]
    have hn : n ≠ node := fun hn => hnot (by simp [nodes, hn])
    simp [view, unanswered, unsent, unclosed, bindCopy, Exchanged.bind, hn]
  | send n data bAutoConnect =>
    rw [← Option.some.inj hstep]
    have hn : n ≠ node := fun hn => hnot (by simp [nodes, hn])
    -- an empty or too long message is not queued at all
    simp only [view, unanswered, unsent, unclosed, bindCopy, Exchanged.send]
    split_ifs <;> simp [hn]
  | close n bForceClose =>
    rw [← Option.some.inj hstep]
    have hn : n ≠ node := fun hn => hnot (by simp [nodes, hn])
    simp only [view, unanswered, unsent, unclosed, bindCopy, Exchanged.close]
    split_ifs <;> simp [hn]
  | wantExit =>
    rw [← Option.some.inj hstep]
    exact ⟨rfl, rfl, rfl⟩
  | wakeup =>
    simp only [step] at hstep
    split at hstep
    · exact absurd hstep (by simp)
    · rename_i hbatch
      split_ifs at hstep
      rw [← Option.some.inj hstep]
      simp [view, unanswered, unsent, unclosed, bindCopy, hbatch]
  | dispatch order =>
    simp only [step] at hstep
    split at hstep
    · rename_i hbatch
      split_ifs at hstep with hexit
      · exact absurd ⟨⟨order, rfl⟩, hexit⟩ hexits
      · rw [← Option.some.inj hstep]
        simp [view, unanswered, unsent, unclosed, bindCopy, hbatch]
    · exact absurd hstep (by simp)
  | bindNext env =>
    simp only [step] at hstep
    split at hstep
    · rename_i n bBind binds sends closes hbatch
      rw [← Option.some.inj hstep]
      have hn : n ≠ node := fun hn => hnot (by simp [nodes, hbatch, hn])
      simp [view, unanswered, unsent, unclosed, bindCopy, hbatch, hn]
    · exact absurd hstep (by simp)
  | sendNext env =>
    simp only [step] at hstep
    split at hstep
    · rename_i req sends closes hbatch
      rw [← Option.some.inj hstep]
      have hn : req.node ≠ node := by
        intro hn
        apply hnot
        simp only [nodes, hbatch]
        split_ifs <;> simp [hn]
      simp [view, unanswered, unsent, unclosed, bindCopy, hbatch, hn]
    · exact absurd hstep (by simp)
  | closeNext env =>
    simp only [step] at hstep
    split at hstep
    · rename_i n bForceClose closes hbatch
      rw [← Option.some.inj hstep]
      have hn : n ≠ node := fun hn => hnot (by simp [nodes, hbatch, hn])
      simp [view, unanswered, unsent, unclosed, bindCopy, hbatch, hn]
    · exact absurd hstep (by simp)
  | wakeupDone =>
    simp only [step] at hstep
    split at hstep
    · rename_i hbatch
      rw [← Option.some.inj hstep]
      simp [view, unanswered, unsent, unclosed, bindCopy, hbatch]
    · exact absurd hstep (by simp)
  | uv e =>
    simp only [step] at hstep
    split at hstep
    · exact absurd hstep (by simp)
    split at hstep
    · rw [← Option.some.inj hstep]
      exact ⟨rfl, rfl, rfl⟩
    · exact absurd hstep (by simp)

/-- **Step.** What the pool holds of a node that is spared stays as it is. -/
theorem view_of_step (hr : poolSystem.Reachable p) (hstep : p.step e = some p')
    (h : p.spares node e = true) : p'.view node = p.view node := by
  have hnodes : ∀ n ∈ p.nodes e, n ≠ node := by
    rintro n hn rfl
    exact not_mem_of_spares h hn
  have hnode : ¬ node ≠ node := fun hne => hne rfl
  obtain ⟨front, -, hfront, s₁, hcalls, hconfined⟩ :=
    step_asks hr hstep hnodes fun hexits => absurd hexits (not_exits_of_spares h)
  obtain ⟨hservers, hrest⟩ := Prod.mk.inj hcalls
  obtain ⟨hstreams, hrest⟩ := Prod.mk.inj hrest
  obtain ⟨hwaiting, htrace⟩ := Prod.mk.inj hrest
  obtain ⟨new, htrace', hnew⟩ := hconfined.trace
  have hserver := hconfined.tcpServers node hnode
  have hstream := hconfined.node2stream node hnode
  have hwait := hconfined.waitingSend node hnode
  rw [hservers] at hserver
  rw [hstreams] at hstream
  rw [hwaiting] at hwait
  have hentries : about node p'.internal.trace = about node p.internal.trace := by
    have habout : about node (front.map Obs.callback) = [] := by
      apply about_eq_nil
      intro o ho
      obtain ⟨c, hc, rfl⟩ := List.mem_map.mp ho
      exact fun hsubject => hfront c hc (Option.some.inj hsubject)
    have habout' : about node new = [] :=
      about_eq_nil fun o ho hsubject => (hnew o ho).2 node hsubject rfl
    rw [htrace', htrace, about_append, about_append, habout, habout', List.append_nil,
      List.append_nil]
  obtain ⟨hbinds, hsends, hcloses⟩ := requests_of_step hstep h
  show NodeView.mk _ _ _ (p'.view node).binds (p'.view node).sends (p'.view node).closes _ = _
  rw [hserver, hstream, hwait, hbinds, hsends, hcloses, hentries]
  rfl

/-- A node is bound if the entries about it say so. -/
theorem isBound_iff_entries (hr : poolSystem.Reachable p) (node : CnetworkNode) :
    p.internal.IsBound node ↔
      Lib.last node (bindReports (p.view node).entries) = some true := by
  show _ ↔ Lib.last node (bindReports (about node p.internal.trace)) = some true
  rw [last_bindReports_about]
  exact (bound_of_reachable hr).mirrored node

end Pool

/-- **Nodes are isolated.** From any reachable state, whatever the callers, `on_wakeup` and libuv do
for other nodes and without a datagram from the node or through its socket, it keeps its server, its
connection, its waiting messages and its requests, nothing is called for it, and it stays bound or
unbound. -/
theorem node_undisturbed {p p' : Pool} {es : List Event} {node : CnetworkNode}
    (hr : poolSystem.Reachable p) (hexec : poolSystem.exec p es = some p')
    (hes : poolSystem.allSteps (fun p e _ => p.spares node e) p es = true) :
    p'.view node = p.view node ∧ (p'.internal.IsBound node ↔ p.internal.IsBound node) := by
  obtain ⟨hr', hview⟩ := Lib.Lts.exec_invariant_of_allSteps hexec hes hr
    (I := fun q => q.view node = p.view node) rfl fun q e q' hq hI hspares hstep =>
      (Pool.view_of_step hq hstep hspares).trans hI
  refine ⟨hview, ?_⟩
  rw [Pool.isBound_iff_entries hr', Pool.isBound_iff_entries hr, hview]

/-- The connection to one node stays while the connect to another fails. -/
theorem node_undisturbed_connect :
    ∃ p p', poolSystem.run (openRun 0) = some p ∧
      poolSystem.exec p [.send ⟨.protocolTcp, .in4 80 2⟩ [1] true, .wakeup,
        .dispatch ⟨[], [], [], []⟩, .sendNext {}, .wakeupDone, .uv (.connectDone 1 (-1) {})] =
          some p' ∧
      p'.view sampleNode = p.view sampleNode ∧
        (p'.internal.IsBound sampleNode ↔ p.internal.IsBound sampleNode) := by
  have hrun : (poolSystem.run (openRun 0)).isSome = true := by decide
  obtain ⟨p, hp⟩ := Option.isSome_iff_exists.mp hrun
  have hother : ((poolSystem.run (openRun 0)).bind fun p => poolSystem.exec p
      [.send ⟨.protocolTcp, .in4 80 2⟩ [1] true, .wakeup, .dispatch ⟨[], [], [], []⟩,
        .sendNext {}, .wakeupDone, .uv (.connectDone 1 (-1) {})]).isSome = true := by
    decide
  have hspares : ((poolSystem.run (openRun 0)).map fun p =>
      poolSystem.allSteps (fun p e _ => p.spares sampleNode e) p
        [.send ⟨.protocolTcp, .in4 80 2⟩ [1] true, .wakeup, .dispatch ⟨[], [], [], []⟩,
          .sendNext {}, .wakeupDone, .uv (.connectDone 1 (-1) {})]) = some true := by
    decide
  rw [hp] at hother hspares
  obtain ⟨p', hp'⟩ := Option.isSome_iff_exists.mp hother
  exact ⟨p, p', hp, hp', node_undisturbed (Lib.Lts.reachable_of_run hp) hp'
    (Option.some.inj hspares)⟩

end NetworkPool
