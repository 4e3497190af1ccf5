import NetworkPool.Pool.Exit

/-!
# Binds

What the bind loop and the exit branch do to the servers: the loop answers a request with one
`bindStatus` (`Bound.bindOne`), the exit branch reports every server and every request of the batch
down (`Bound.exitAll`), and the last notification for a node tells whether it has a server.
-/

namespace NetworkPool

open Internal (SameServers)

namespace Internal

/-- The pool has a server for `node`. -/
def IsBound (s : Internal) (node : CnetworkNode) : Prop :=
  (∃ t, s.tcpServers.lookup node = some t) ∨ ∃ u ∈ s.udpServers, (s.udps u).node = node

/-- The socket of the handle listens at `node`. -/
def ListensAt (s : Internal) (node : CnetworkNode) : UvHandle → Prop
  | .tcp t => (s.tcps t).tcp.listening = true ∧ (s.tcps t).node = node
  | .udp u => (s.udps u).receiving = true ∧ (s.udps u).node = node
  | .timer _ | .async => False

/-- No node has two listening sockets. -/
def OneSocket (s : Internal) : Prop :=
  ∀ node h h', s.ListensAt node h → s.ListensAt node h' → h = h'

/-- What the bind loop keeps: the two containers hold servers of their protocol, the vector at most
one for a node, and the notifications mirror them. -/
structure Bound (s : Internal) : Prop where
  tcp : ∀ node t, s.tcpServers.lookup node = some t → node.protocol = .protocolTcp
  udp : ∀ u ∈ s.udpServers, (s.udps u).node.protocol = .protocolUdp
  alone : ∀ u ∈ s.udpServers, ∀ u' ∈ s.udpServers, (s.udps u).node = (s.udps u').node → u = u'
  nodup : s.udpServers.Nodup
  fresh : ∀ u ∈ s.udpServers, u < s.nextUdp
  receiving : ∀ u, (s.udps u).receiving = true ↔ u ∈ s.udpServers
  opened : ∀ u ∈ s.udpServers, (s.udps u).inited = true ∧ (s.udps u).closing = false
  mirrored : Lib.Mirrors s.IsBound (bindReports s.trace)

variable {s s' : Internal} {node : CnetworkNode} {u : ℕ} {c : Cudp}

theorem Bound.init : Bound {} := by
  have hlookup : ∀ node t, (∅ : NodeMap ℕ).lookup node ≠ some t := by
    intro node t
    rw [AList.lookup_empty]
    simp
  refine ⟨fun node t h => absurd h (hlookup node t), by simp, by simp, List.nodup_nil, by simp,
    by simp, by simp, Lib.Mirrors.nil ?_⟩
  rintro node (⟨t, h⟩ | ⟨u, h, -⟩)
  · exact hlookup node t h
  · exact absurd h (by simp)

theorem SameServers.isBound (h : s.SameServers s') : s'.IsBound node ↔ s.IsBound node := by
  unfold IsBound
  rw [h.tcpServers, h.udpServers]
  simp only [fun u => (h.socket u).1]

theorem Bound.same (h : s.Bound) (hs : s.SameServers s') : s'.Bound where
  tcp := by
    rw [hs.tcpServers]
    exact h.tcp
  udp u hu := by
    rw [hs.udpServers] at hu
    rw [(hs.socket u).1]
    exact h.udp u hu
  alone u hu u' hu' hnode := by
    rw [hs.udpServers] at hu hu'
    rw [(hs.socket u).1, (hs.socket u').1] at hnode
    exact h.alone u hu u' hu' hnode
  nodup := by
    rw [hs.udpServers]
    exact h.nodup
  fresh u hu := by
    rw [hs.udpServers] at hu
    rw [hs.nextUdp]
    exact h.fresh u hu
  receiving u := by
    rw [(hs.socket u).2.1, hs.udpServers]
    exact h.receiving u
  opened u hu := by
    rw [hs.udpServers] at hu
    rw [(hs.socket u).2.2.1, (hs.socket u).2.2.2]
    exact h.opened u hu
  mirrored node := by
    rw [hs.reports]
    exact hs.isBound.trans (h.mirrored node)

/-! ## Reports -/

theorem bindReports_bindStatus (s : Internal) (node : CnetworkNode) (ok : Bool) :
    bindReports (s.call (.bindStatus node ok)).trace = bindReports s.trace ++ [(node, ok)] :=
  bindReports_append s.trace _

/-- A request that changes nothing is answered. -/
theorem Bound.report (h : s.Bound) {ok : Bool} (hok : s.IsBound node ↔ ok = true) :
    (s.call (.bindStatus node ok)).Bound := by
  refine ⟨h.tcp, h.udp, h.alone, h.nodup, h.fresh, h.receiving, h.opened, ?_⟩
  rw [bindReports_bindStatus]
  exact h.mirrored.concat hok fun _ _ => Iff.rfl

/-- Nothing is bound to a TCP node but by the map. -/
theorem Bound.isBound_tcp (h : s.Bound) (hnode : node.protocol = .protocolTcp) :
    s.IsBound node ↔ ∃ t, s.tcpServers.lookup node = some t := by
  refine or_iff_left ?_
  rintro ⟨u, hu, rfl⟩
  exact absurd (hnode.symm.trans (h.udp u hu)) (by simp)

/-- Nothing is bound to another node but by the vector. -/
theorem Bound.isBound_other (h : s.Bound) (hnode : node.protocol ≠ .protocolTcp) :
    s.IsBound node ↔ ∃ u ∈ s.udpServers, (s.udps u).node = node :=
  or_iff_right fun ⟨t, ht⟩ => hnode (h.tcp node t ht)

/-! ## TCP servers -/

theorem Bound.bindTcp (h : s.Bound) (hnode : node.protocol = .protocolTcp) (t : ℕ) :
    ({ s with tcpServers := s.tcpServers.insert node t }.call (.bindStatus node true)).Bound := by
  refine ⟨?_, h.udp, h.alone, h.nodup, h.fresh, h.receiving, h.opened, ?_⟩
  · intro n t' hn
    rcases Lib.AssocMap.of_lookup_insert hn with ⟨rfl, -⟩ | ⟨-, hn⟩
    · exact hnode
    · exact h.tcp n t' hn
  · rw [bindReports_bindStatus]
    apply h.mirrored.concat
    · exact iff_of_true (.inl ⟨t, AList.lookup_insert _⟩) rfl
    · intro n hn
      show (∃ t', (s.tcpServers.insert node t).lookup n = some t') ∨ _ ↔ _
      rw [AList.lookup_insert_ne hn]
      rfl

theorem Bound.unbindTcp (h : s.Bound) (hnode : node.protocol = .protocolTcp) :
    ({ s with tcpServers := s.tcpServers.erase node }.call (.bindStatus node false)).Bound := by
  refine ⟨?_, h.udp, h.alone, h.nodup, h.fresh, h.receiving, h.opened, ?_⟩
  · exact fun n t hn => h.tcp n t (Lib.AssocMap.of_lookup_erase hn).2
  · rw [bindReports_bindStatus]
    apply h.mirrored.concat
    · refine iff_of_false ?_ (by simp)
      rintro (⟨t, ht⟩ | ⟨u, hu, heq⟩)
      · exact (Lib.AssocMap.of_lookup_erase ht).1 rfl
      · have hudp := h.udp u hu
        change (s.udps u).node = node at heq
        rw [heq, hnode] at hudp
        exact absurd hudp (by simp)
    · intro n hn
      show (∃ t', (s.tcpServers.erase node).lookup n = some t') ∨ _ ↔ _
      rw [AList.lookup_erase_ne hn]
      rfl

/-! ## UDP servers -/

theorem setUdp_self (s : Internal) (u : ℕ) (c : Cudp) : (s.setUdp u c).udps u = c :=
  Function.update_self ..

theorem setUdp_of_ne (s : Internal) (c : Cudp) {u u' : ℕ} (hu : u' ≠ u) :
    (s.setUdp u c).udps u' = s.udps u' :=
  Function.update_of_ne hu ..

theorem setUdp_setUdp (s : Internal) (u : ℕ) (c c' : Cudp) :
    (s.setUdp u c).setUdp u c' = s.setUdp u c' := by
  unfold setUdp
  simp only [Function.update_idem]

/-- The next socket, with what it becomes. -/
def newUdp (s : Internal) (c : Cudp) : Internal :=
  { s with nextUdp := s.nextUdp + 1 }.setUdp s.nextUdp c

theorem newUdp_udps (h : s.Bound) (hu : u ∈ s.udpServers) : (s.newUdp c).udps u = s.udps u :=
  setUdp_of_ne _ c (h.fresh u hu).ne

theorem Bound.newUdp (h : s.Bound) (hc : c.receiving = false) : (s.newUdp c).Bound where
  tcp := h.tcp
  udp u hu := by
    rw [newUdp_udps h hu]
    exact h.udp u hu
  alone u hu u' hu' hnode := by
    rw [newUdp_udps h hu, newUdp_udps h hu'] at hnode
    exact h.alone u hu u' hu' hnode
  nodup := h.nodup
  fresh u hu := Nat.lt_succ_of_lt (h.fresh u hu)
  receiving u := by
    by_cases hu : u = s.nextUdp
    · have hout : s.nextUdp ∉ s.udpServers := fun hin => lt_irrefl _ (h.fresh _ hin)
      rw [hu]
      refine iff_of_false ?_ hout
      show ¬ (Function.update s.udps s.nextUdp c s.nextUdp).receiving = true
      rw [Function.update_self, hc]
      simp
    · have hother : (s.newUdp c).udps u = s.udps u := setUdp_of_ne _ c hu
      rw [hother]
      exact h.receiving u
  opened u hu := by
    rw [newUdp_udps h hu]
    exact h.opened u hu
  mirrored n := by
    refine Iff.trans ?_ (h.mirrored n)
    refine or_congr_right (exists_congr fun u => and_congr_right fun hu => ?_)
    rw [newUdp_udps h hu]

/-- The new socket becomes the server of its node. -/
theorem Bound.bindUdp (h : s.Bound) (hnode : c.node.protocol = .protocolUdp)
    (hfree : ∀ u ∈ s.udpServers, (s.udps u).node ≠ c.node) (hreceiving : c.receiving = true)
    (hopen : c.inited = true ∧ c.closing = false) :
    ({ s.newUdp c with udpServers := s.udpServers ++ [s.nextUdp] }.call
      (.bindStatus c.node true)).Bound := by
  have hself : (s.newUdp c).udps s.nextUdp = c := setUdp_self _ _ c
  have hmem : ∀ u, u ∈ s.udpServers ++ [s.nextUdp] → u ∈ s.udpServers ∧
      (s.newUdp c).udps u = s.udps u ∨ u = s.nextUdp ∧ (s.newUdp c).udps u = c := by
    intro u hu
    rcases List.mem_append.mp hu with hu | hu
    · exact .inl ⟨hu, newUdp_udps h hu⟩
    · rw [List.mem_singleton.mp hu]
      exact .inr ⟨rfl, hself⟩
  refine ⟨h.tcp, ?_, ?_, ?_, ?_, ?_, ?_, ?_⟩
  · intro u hu
    show ((s.newUdp c).udps u).node.protocol = _
    rcases hmem u hu with ⟨hu, heq⟩ | ⟨-, heq⟩ <;> rw [heq]
    · exact h.udp u hu
    · exact hnode
  · intro u hu u' hu' heq
    change ((s.newUdp c).udps u).node = ((s.newUdp c).udps u').node at heq
    rcases hmem u hu with ⟨hu, hc⟩ | ⟨hu, hc⟩ <;> rcases hmem u' hu' with ⟨hu', hc'⟩ | ⟨hu', hc'⟩ <;>
      rw [hc, hc'] at heq
    · exact h.alone u hu u' hu' heq
    · exact absurd heq (hfree u hu)
    · exact absurd heq.symm (hfree u' hu')
    · exact hu.trans hu'.symm
  · show (s.udpServers ++ [s.nextUdp]).Nodup
    have hout : s.nextUdp ∉ s.udpServers := fun hin => lt_irrefl _ (h.fresh _ hin)
    rw [List.nodup_append]
    refine ⟨h.nodup, List.nodup_singleton _, ?_⟩
    intro u hu u' hu'
    rw [List.mem_singleton.mp hu']
    rintro rfl
    exact hout hu
  · intro u hu
    show u < s.nextUdp + 1
    rcases hmem u hu with ⟨hu, -⟩ | ⟨rfl, -⟩
    · exact Nat.lt_succ_of_lt (h.fresh u hu)
    · exact Nat.lt_succ_self _
  · intro u
    show ((s.newUdp c).udps u).receiving = true ↔ u ∈ s.udpServers ++ [s.nextUdp]
    by_cases hu : u = s.nextUdp
    · rw [hu, hself]
      simp [hreceiving]
    · have hother : (s.newUdp c).udps u = s.udps u := setUdp_of_ne _ c hu
      rw [hother, List.mem_append, List.mem_singleton, or_iff_left hu]
      exact h.receiving u
  · intro u hu
    show ((s.newUdp c).udps u).inited = true ∧ ((s.newUdp c).udps u).closing = false
    rcases hmem u hu with ⟨hu, heq⟩ | ⟨-, heq⟩ <;> rw [heq]
    · exact h.opened u hu
    · exact hopen
  · rw [bindReports_bindStatus]
    apply h.mirrored.concat
    · refine iff_of_true (.inr ⟨s.nextUdp, ?_, ?_⟩) rfl
      · exact List.mem_append_right _ (List.mem_singleton_self _)
      · exact congrArg Cudp.node hself
    · intro n hn
      refine or_congr_right ⟨?_, ?_⟩
      · rintro ⟨u, hu, heq⟩
        change ((s.newUdp c).udps u).node = n at heq
        rcases hmem u hu with ⟨hu, hc⟩ | ⟨-, hc⟩ <;> rw [hc] at heq
        · exact ⟨u, hu, heq⟩
        · exact absurd heq.symm hn
      · rintro ⟨u, hu, heq⟩
        refine ⟨u, List.mem_append_left _ hu, ?_⟩
        show ((s.newUdp c).udps u).node = n
        rw [newUdp_udps h hu]
        exact heq

/-- `Cudp::close_set_nullptr` on an open socket. -/
theorem closeUdp_eq (hopen : (s.udps u).inited = true ∧ (s.udps u).closing = false) :
    Cudp.closeSetNullptr u s =
      (s.setUdp u { s.udps u with receiving := false, closing := true }).emit
        [.uvClose (.udp u)] := by
  unfold Cudp.closeSetNullptr
  simp only [hopen.1, hopen.2, if_true, Bool.not_false]

/-- The server of a node is closed. -/
theorem Bound.unbindUdp (h : s.Bound) (hu : u ∈ s.udpServers) :
    (Cudp.closeSetNullptr u ({ s with udpServers := s.udpServers.erase u }.call
      (.bindStatus (s.udps u).node false))).Bound := by
  obtain ⟨c, hc⟩ : ∃ c : Cudp, c = { s.udps u with receiving := false, closing := true } := ⟨_, rfl⟩
  have hclose : Cudp.closeSetNullptr u ({ s with udpServers := s.udpServers.erase u }.call
      (.bindStatus (s.udps u).node false)) =
      (({ s with udpServers := s.udpServers.erase u }.call
        (.bindStatus (s.udps u).node false)).setUdp u c).emit [.uvClose (.udp u)] := by
    rw [hc]
    exact closeUdp_eq (h.opened u hu)
  rw [hclose]
  have hmem : ∀ u', u' ∈ s.udpServers.erase u ↔ u' ≠ u ∧ u' ∈ s.udpServers := fun u' =>
    h.nodup.mem_erase_iff
  have hother : ∀ u', u' ≠ u → Function.update s.udps u c u' = s.udps u' := fun u' hne =>
    Function.update_of_ne hne ..
  refine ⟨h.tcp, ?_, ?_, h.nodup.erase u, ?_, ?_, ?_, ?_⟩
  · intro u' hu'
    obtain ⟨hne, hu'⟩ := (hmem u').mp hu'
    show (Function.update s.udps u c u').node.protocol = _
    rw [hother u' hne]
    exact h.udp u' hu'
  · intro u₁ hu₁ u₂ hu₂ heq
    obtain ⟨hne₁, hu₁⟩ := (hmem u₁).mp hu₁
    obtain ⟨hne₂, hu₂⟩ := (hmem u₂).mp hu₂
    change (Function.update s.udps u c u₁).node = (Function.update s.udps u c u₂).node at heq
    rw [hother u₁ hne₁, hother u₂ hne₂] at heq
    exact h.alone u₁ hu₁ u₂ hu₂ heq
  · exact fun u' hu' => h.fresh u' ((hmem u').mp hu').2
  · intro u'
    show (Function.update s.udps u c u').receiving = true ↔ u' ∈ s.udpServers.erase u
    rw [hmem]
    by_cases hne : u' = u
    · rw [hne, Function.update_self]
      simp [hc]
    · rw [hother u' hne]
      simpa [hne] using h.receiving u'
  · intro u' hu'
    obtain ⟨hne, hu'⟩ := (hmem u').mp hu'
    show (Function.update s.udps u c u').inited = true ∧ (Function.update s.udps u c u').closing = _
    rw [hother u' hne]
    exact h.opened u' hu'
  · have hreports : bindReports (((({ s with udpServers := s.udpServers.erase u } : Internal).call
        (.bindStatus (s.udps u).node false)).setUdp u c).emit [.uvClose (.udp u)]).trace =
        bindReports s.trace ++ [((s.udps u).node, false)] := by
      show bindReports ((s.trace ++ [_]) ++ [_]) = _
      rw [bindReports_append, bindReports_append]
      exact List.append_nil _
    rw [hreports]
    apply h.mirrored.concat
    · refine iff_of_false ?_ (by simp)
      rintro (⟨t, ht⟩ | ⟨u', hu', heq⟩)
      · exact absurd ((h.tcp _ t ht).symm.trans (h.udp u hu)) (by simp)
      · obtain ⟨hne, hu'⟩ := (hmem u').mp hu'
        change (Function.update s.udps u c u').node = _ at heq
        rw [hother u' hne] at heq
        exact hne (h.alone u' hu' u hu heq)
    · intro n hn
      refine or_congr_right ⟨?_, ?_⟩
      · rintro ⟨u', hu', heq⟩
        obtain ⟨hne, hu'⟩ := (hmem u').mp hu'
        change (Function.update s.udps u c u').node = _ at heq
        rw [hother u' hne] at heq
        exact ⟨u', hu', heq⟩
      · rintro ⟨u', hu', heq⟩
        have hne : u' ≠ u := by
          rintro rfl
          exact hn heq.symm
        refine ⟨u', (hmem u').mpr ⟨hne, hu'⟩, ?_⟩
        show (Function.update s.udps u c u').node = n
        rw [hother u' hne]
        exact heq

/-- What becomes of the new socket of `bindAndListenUdp`. -/
theorem bindAndListenUdp_cases (env : Env) (s : Internal) (node : CnetworkNode) :
    bindAndListenUdp env node s = (none, s) ∨
    (∃ c obs, bindAndListenUdp env node s = (none, (s.newUdp c).emit obs) ∧
      c.receiving = false ∧ bindReports obs = []) ∨
    bindAndListenUdp env node s =
      (some s.nextUdp, s.newUdp { inited := true, receiving := true, node := node }) := by
  unfold bindAndListenUdp Cudp.alloc
  by_cases hnode : node.protocol ≠ .protocolUdp
  · rw [if_pos hnode]
    exact .inl rfl
  · rw [if_neg hnode]
    cases env.newUdp with
    | false => exact .inl rfl
    | true =>
      simp only [Bool.not_true, Bool.false_eq_true, if_false]
      cases env.udpInit with
      | false => exact .inr (.inl ⟨{}, [.delete (.udp s.nextUdp)], rfl, rfl, rfl⟩)
      | true =>
        simp only [Bool.not_true, Bool.false_eq_true, if_false, setUdp_setUdp, setUdp_self]
        have hclose : Cudp.closeSetNullptr s.nextUdp
            (s.newUdp { inited := true, node := node }) =
            (s.newUdp { inited := true, closing := true, node := node }).emit
              [.uvClose (.udp s.nextUdp)] := by
          have hself : (s.newUdp { inited := true, node := node }).udps s.nextUdp =
              { inited := true, node := node } := setUdp_self ..
          rw [closeUdp_eq (by rw [hself]; exact ⟨rfl, rfl⟩), hself]
          exact congrArg (Internal.emit · _) (setUdp_setUdp ..)
        by_cases hbind : (!(env.udpBind && node.sockaddr.valid)) = true
        · rw [if_pos hbind]
          exact .inr (.inl ⟨_, _, congrArg (Prod.mk none) hclose, rfl, rfl⟩)
        · rw [if_neg hbind]
          by_cases hrecv : (!env.udpRecvStart) = true
          · rw [if_pos hrecv]
            exact .inr (.inl ⟨_, _, congrArg (Prod.mk none) hclose, rfl, rfl⟩)
          · rw [if_neg hrecv]
            exact .inr (.inr rfl)

/-! ## The bind loop -/

/-- The state after a request for `node`: one notification was added. -/
structure Answers (node : CnetworkNode) (s s' : Internal) : Prop where
  bound : s'.Bound
  reports : ∃ ok, bindReports s'.trace = bindReports s.trace ++ [(node, ok)]
  closing : s'.async.closing = s.async.closing

theorem Answers.report {ok : Bool} (h : s.Bound) (hok : s.IsBound node ↔ ok = true) :
    Answers node s (s.call (.bindStatus node ok)) :=
  ⟨h.report hok, ⟨ok, bindReports_bindStatus s node ok⟩, rfl⟩

theorem Answers.of_same {s₁ : Internal} (h : Answers node s₁ s') (hs : s.SameServers s₁) :
    Answers node s s' := by
  obtain ⟨ok, hreports⟩ := h.reports
  exact ⟨h.bound, ⟨ok, by rw [hreports, hs.reports]⟩, h.closing.trans hs.closing⟩

theorem Answers.then_same {s₁ : Internal} (h : Answers node s s₁) (hs : s₁.SameServers s') :
    Answers node s s' := by
  obtain ⟨ok, hreports⟩ := h.reports
  exact ⟨h.bound.same hs, ⟨ok, by rw [hs.reports, hreports]⟩, hs.closing.trans h.closing⟩

/-- **The bind loop** answers each request once, and keeps the notifications a mirror of the
servers. -/
theorem Bound.bindOne (h : s.Bound) (env : Env) (node : CnetworkNode) (bBind : Bool) :
    Answers node s (bindOne env node bBind s) := by
  unfold NetworkPool.bindOne
  split
  · -- TCP
    rename_i hnode
    have htcp := h.isBound_tcp hnode
    split
    · rename_i tcp hserver
      cases bBind with
      | true => exact .report h (iff_of_true (htcp.mpr ⟨tcp, hserver⟩) rfl)
      | false =>
        have hunbind : Answers node s ({ s with tcpServers := s.tcpServers.erase node }.call
            (.bindStatus node false)) :=
          ⟨h.unbindTcp hnode, ⟨false, bindReports_bindStatus _ node false⟩, rfl⟩
        exact hunbind.then_same (sameServers_close _ tcp)
    · rename_i hserver
      have hfree : s.IsBound node ↔ false = true := by
        refine iff_of_false ?_ (by simp)
        rw [htcp]
        rintro ⟨t, ht⟩
        exact absurd (hserver.symm.trans ht) (by simp)
      cases bBind with
      | false => exact .report h hfree
      | true =>
        have hbind := sameServers_bindAndListenTcp env s node
        rcases heq : bindAndListenTcp env node s with ⟨_ | server, s₁⟩ <;> rw [heq] at hbind
        · exact (Answers.report (h.same hbind) (hbind.isBound.trans hfree)).of_same hbind
        · have hinsert : Answers node s₁
              ({ s₁ with tcpServers := s₁.tcpServers.insert node server }.call
                (.bindStatus node true)) :=
            ⟨(h.same hbind).bindTcp hnode server, ⟨true, bindReports_bindStatus _ node true⟩, rfl⟩
          exact hinsert.of_same hbind
  · -- UDP
    rename_i hnode
    have hudp : s.IsBound node ↔ ∃ u ∈ s.udpServers, (s.udps u).node = node :=
      h.isBound_other (by rw [hnode]; simp)
    split
    · rename_i udp hfind
      have hu : udp ∈ s.udpServers := List.mem_of_find?_eq_some hfind
      have hself : (s.udps udp).node = node := by simpa using List.find?_some hfind
      cases bBind with
      | true => exact .report h (iff_of_true (hudp.mpr ⟨udp, hu, hself⟩) rfl)
      | false =>
        have hunbind := h.unbindUdp hu
        have hclose := closeUdp_eq (s := { s with udpServers := s.udpServers.erase udp }.call
          (.bindStatus node false)) (u := udp) (h.opened udp hu)
        rw [hself, hclose] at hunbind
        simp only [Bool.false_eq_true, if_false]
        rw [hclose]
        refine ⟨hunbind, ⟨false, ?_⟩, rfl⟩
        show bindReports ((s.trace ++ [_]) ++ [_]) = _
        rw [bindReports_append, bindReports_append]
        exact List.append_nil _
    · rename_i hfind
      have hother : ∀ u ∈ s.udpServers, (s.udps u).node ≠ node := by
        intro u hu
        simpa using List.find?_eq_none.mp hfind u hu
      have hfree : ¬ s.IsBound node := by
        rw [hudp]
        rintro ⟨u, hu, hself⟩
        exact hother u hu hself
      cases bBind with
      | false => exact .report h (iff_of_false hfree (by simp))
      | true =>
        simp only [if_true]
        rcases bindAndListenUdp_cases env s node with heq | ⟨c, obs, heq, hc, hobs⟩ | heq <;>
          rw [heq]
        · exact .report h (iff_of_false hfree (by simp))
        · have hnew := h.newUdp hc
          have hsame : (s.newUdp c).SameServers ((s.newUdp c).emit obs) := .emit _ hobs
          have hfree' : ¬ ((s.newUdp c).emit obs).IsBound node := by
            rw [hsame.isBound]
            rintro (⟨t, ht⟩ | ⟨u, hu, hself⟩)
            · exact hfree (.inl ⟨t, ht⟩)
            · rw [newUdp_udps h hu] at hself
              exact hother u hu hself
          have hreport : Answers node ((s.newUdp c).emit obs) (((s.newUdp c).emit obs).call
              (.bindStatus node false)) :=
            .report (hnew.same hsame) (iff_of_false hfree' (by simp))
          obtain ⟨ok, hreports⟩ := hreport.reports
          exact ⟨hreport.bound, ⟨ok, by rw [hreports, hsame.reports]; rfl⟩, hreport.closing⟩
        · refine ⟨?_, ⟨true, bindReports_bindStatus _ node true⟩, rfl⟩
          exact h.bindUdp (c := { inited := true, receiving := true, node := node }) hnode hother
            rfl ⟨rfl, rfl⟩
  · -- any other protocol
    rename_i n hnode
    refine .report h (iff_of_false ?_ (by simp))
    rw [h.isBound_other (by rw [hnode]; simp)]
    rintro ⟨u, hu, rfl⟩
    exact absurd (hnode.symm.trans (h.udp u hu)) (by simp)

/-! ## The exit branch -/

/-- The state after bind notifications of `ks` that are all false. What still receives is as it
was. -/
structure Reported (ks : List CnetworkNode) (s s' : Internal) : Prop where
  reports : bindReports s'.trace = bindReports s.trace ++ ks.map fun node => (node, false)
  tcpServers : s'.tcpServers = s.tcpServers
  udpServers : s'.udpServers = s.udpServers
  node : ∀ u, (s'.udps u).node = (s.udps u).node
  opened : ∀ u, (s'.udps u).receiving = true → (s'.udps u).bare = (s.udps u).bare
  closing : s'.async.closing = s.async.closing

variable {s₁ : Internal} {ks ks' : List CnetworkNode}

theorem Reported.of_same (h : s.SameServers s') : Reported [] s s' :=
  ⟨h.reports.trans (List.append_nil _).symm, h.tcpServers, h.udpServers, fun u => (h.socket u).1,
    fun u _ => h.sockets u, h.closing⟩

theorem Reported.trans (h : Reported ks s s₁) (h' : Reported ks' s₁ s') :
    Reported (ks ++ ks') s s' where
  reports := by rw [h'.reports, h.reports, List.map_append, List.append_assoc]
  tcpServers := h'.tcpServers.trans h.tcpServers
  udpServers := h'.udpServers.trans h.udpServers
  node u := (h'.node u).trans (h.node u)
  opened u hu := by
    have hbare := h'.opened u hu
    have hreceiving : (s₁.udps u).receiving = true := (congrArg Cudp.receiving hbare :).symm.trans hu
    exact hbare.trans (h.opened u hreceiving)
  closing := h'.closing.trans h.closing

theorem Reported.call (s : Internal) (node : CnetworkNode) :
    Reported [node] s (s.call (.bindStatus node false)) :=
  ⟨bindReports_bindStatus s node false, rfl, rfl, fun _ => rfl, fun _ _ => rfl, rfl⟩

/-- A loop over TCP objects. -/
theorem Reported.closeEach {α : Type} (object : α → ℕ) (notice : α → CnetworkNode → Callback)
    (f : α → List CnetworkNode) (l : List α) (s : Internal)
    (hf : ∀ a (s : Internal) node, Reported (f a) s (s.call (notice a node))) :
    Reported (l.flatMap f) s (closeEach object notice l s) := by
  induction l generalizing s with
  | nil => exact .of_same (.refl s)
  | cons a l ih =>
    have hclose := Reported.of_same
      (sameServers_close (s.call (notice a (s.tcps (object a)).node)) (object a))
    have hfirst := (hf a s (s.tcps (object a)).node).trans hclose
    rw [List.append_nil] at hfirst
    exact hfirst.trans (ih _)

/-- `Cudp::close_set_nullptr` on a socket that receives only when it is open. -/
theorem Reported.closeUdp (u : ℕ) (hopen : (s.udps u).receiving = true →
    (s.udps u).inited = true ∧ (s.udps u).closing = false) :
    Reported [] s (Cudp.closeSetNullptr u s) ∧
      ((Cudp.closeSetNullptr u s).udps u).receiving = false := by
  by_cases hopened : (s.udps u).inited = true ∧ (s.udps u).closing = false
  · rw [closeUdp_eq hopened]
    set c : Cudp := { s.udps u with receiving := false, closing := true } with hc
    have hother : ∀ u', u' ≠ u → Function.update s.udps u c u' = s.udps u' := fun u' hne =>
      Function.update_of_ne hne ..
    have hself : Function.update s.udps u c u = c := Function.update_self ..
    refine ⟨⟨?_, rfl, rfl, fun u' => ?_, fun u' hu' => ?_, rfl⟩, ?_⟩
    · show bindReports (s.trace ++ [.uvClose (.udp u)]) = _
      rw [bindReports_append]
      rfl
    · show (Function.update s.udps u c u').node = _
      by_cases hu : u' = u
      · rw [hu, hself]
      · rw [hother u' hu]
    · change (Function.update s.udps u c u').receiving = true at hu'
      show (Function.update s.udps u c u').bare = _
      by_cases hu : u' = u
      · rw [hu, hself] at hu'
        exact absurd hu' (by simp [hc])
      · rw [hother u' hu]
    · show (Function.update s.udps u c u).receiving = false
      rw [hself]
  · have hreceiving : (s.udps u).receiving = false := by
      rw [← Bool.not_eq_true]
      exact fun hr => hopened (hopen hr)
    unfold Cudp.closeSetNullptr
    dsimp only
    split_ifs with hinited hclosing
    · exact absurd ⟨hinited, by simpa using hclosing⟩ hopened
    · exact ⟨.of_same (.refl s), hreceiving⟩
    · exact ⟨.of_same (.emit s rfl), hreceiving⟩

/-- The loop over the UDP servers. -/
theorem Reported.closeUdps (l : List ℕ) (s : Internal) (hopen : ∀ u, (s.udps u).receiving = true →
    (s.udps u).inited = true ∧ (s.udps u).closing = false) :
    Reported (l.map fun u => (s.udps u).node) s
      (l.foldl (fun s u => Cudp.closeSetNullptr u (s.call (.bindStatus (s.udps u).node false))) s) ∧
    ∀ u ∈ l, ((l.foldl (fun s u => Cudp.closeSetNullptr u
      (s.call (.bindStatus (s.udps u).node false))) s).udps u).receiving = false := by
  induction l generalizing s with
  | nil => exact ⟨.of_same (.refl s), by simp⟩
  | cons u l ih =>
    have hcall := Reported.call s (s.udps u).node
    obtain ⟨hclose, hself⟩ := Reported.closeUdp (s := s.call (.bindStatus (s.udps u).node false)) u
      (hopen u)
    have hfirst := hcall.trans hclose
    rw [List.foldl_cons]
    set s₁ := Cudp.closeSetNullptr u (s.call (.bindStatus (s.udps u).node false)) with hs₁
    obtain ⟨hrest, hstopped⟩ := ih s₁ fun u' hu' => by
      have hbare := hfirst.opened u' hu'
      have hreceiving := (congrArg Cudp.receiving hbare :).symm.trans hu'
      obtain ⟨hinited, hclosing⟩ := hopen u' hreceiving
      exact ⟨(congrArg Cudp.inited hbare :).trans hinited,
        (congrArg Cudp.closing hbare :).trans hclosing⟩
    refine ⟨?_, fun u' hu' => ?_⟩
    · have hnodes : (l.map fun u' => (s₁.udps u').node) = l.map fun u' => (s.udps u').node :=
        List.map_congr_left fun u' _ => hfirst.node u'
      rw [hnodes] at hrest
      exact hfirst.trans hrest
    · by_cases hin : u' ∈ l
      · exact hstopped u' hin
      · -- a socket closed before stays closed
        obtain rfl : u' = u := (List.mem_cons.mp hu').resolve_right hin
        by_contra hreceiving
        rw [Bool.not_eq_false] at hreceiving
        have hbare := hrest.opened u' hreceiving
        have hstill := (congrArg Cudp.receiving hbare :).symm.trans hreceiving
        exact absurd (hself.symm.trans hstill) (by simp)

theorem Reported.exitDrops (order : ExitOrder) (b : Batch) (s : Internal) :
    Reported (b.bindCopy.map Prod.fst) s (exitDrops order b s) := by
  have hdrops : ∀ {α : Type} (l : List α) (node : α → CnetworkNode) (buf : α → List UvBuf),
      bindReports (l.flatMap fun a => dropAll (node a) (buf a)) = [] := by
    intro α l node buf
    apply bindReports_eq_nil
    intro o ho
    obtain ⟨a, -, ho⟩ := List.mem_flatMap.mp ho
    exact List.filterMap_eq_nil_iff.mp (bindReports_dropAll (node a) (buf a)) o ho
  have hbinds : bindReports (b.bindCopy.map fun pair => .callback (.bindStatus pair.1 false)) =
      (b.bindCopy.map Prod.fst).map fun node => (node, false) := by
    simp [bindReports, List.filterMap_map, Function.comp_def, bindOf]
  unfold NetworkPool.exitDrops
  refine ⟨?_, rfl, rfl, fun _ => rfl, fun _ _ => rfl, rfl⟩
  show bindReports (((s.trace ++ _) ++ _) ++ _) = _
  rw [bindReports_append, bindReports_append, bindReports_append, hdrops, hdrops, hbinds,
    List.append_nil, List.append_nil]

/-- **The exit branch** reports every server and every request of the batch down, once. -/
theorem Bound.exitAll (h : s.Bound) {order : ExitOrder} (henum : order.Enumerates s) (b : Batch)
    (hinited : s.async.inited = true) :
    (exitAll order b s).Bound ∧ (exitAll order b s).async.closing = true ∧
      ∃ downs : List CnetworkNode, downs.Nodup ∧ (∀ node, node ∈ downs ↔ s.IsBound node) ∧
        bindReports (exitAll order b s).trace = bindReports s.trace ++
          (downs ++ b.bindCopy.map Prod.fst).map fun node => (node, false) := by
  have hservers := henum.1
  have hkey : ∀ node, node ∈ order.tcpServers.map Prod.fst ↔
      ∃ t, s.tcpServers.lookup node = some t := by
    intro node
    simp only [List.mem_map, Prod.exists, exists_and_right, exists_eq_right, hservers.mem_iff,
      mem_toPairs]
  have hclosing := (exitAll_rest order b hinited).2
  -- `m_wakeup`
  have hasync : bindReports (Casync.closeSetNullptr s).trace = bindReports s.trace ∧
      (Casync.closeSetNullptr s).udps = s.udps ∧
      (Casync.closeSetNullptr s).udpServers = s.udpServers := by
    unfold Casync.closeSetNullptr
    rw [if_pos hinited]
    split_ifs
    · refine ⟨?_, rfl, rfl⟩
      show bindReports (s.trace ++ [.uvClose .async]) = _
      rw [bindReports_append]
      exact List.append_nil _
    · exact ⟨rfl, rfl, rfl⟩
  -- the TCP servers
  set s₀ : Internal := { Casync.closeSetNullptr s with tcpServers := ∅ } with hs₀
  have htcp := Reported.closeEach Prod.snd
    (fun (pair : CnetworkNode × ℕ) _ => .bindStatus pair.1 false) (fun pair => [pair.1])
    order.tcpServers s₀ fun pair s _ => .call s pair.1
  rw [← List.map_eq_flatMap] at htcp
  set s₁ := NetworkPool.closeEach Prod.snd
    (fun (pair : CnetworkNode × ℕ) _ => .bindStatus pair.1 false) order.tcpServers s₀ with hs₁
  have hservers₁ : s₁.udpServers = s.udpServers := htcp.udpServers.trans hasync.2.2
  have hnode₁ : ∀ u, (s₁.udps u).node = (s.udps u).node := fun u =>
    (htcp.node u).trans (congrArg (fun f => (f u).node) hasync.2.1)
  have hbare₁ : ∀ u, (s₁.udps u).receiving = true → (s₁.udps u).bare = (s.udps u).bare := fun u hu =>
    (htcp.opened u hu).trans (congrArg (fun f => (f u).bare) hasync.2.1)
  -- the UDP servers
  have hopen : ∀ u, (s₁.udps u).receiving = true →
      (s₁.udps u).inited = true ∧ (s₁.udps u).closing = false := by
    intro u hu
    have hbare := hbare₁ u hu
    have hreceiving := (congrArg Cudp.receiving hbare :).symm.trans hu
    obtain ⟨hi, hc⟩ := h.opened u ((h.receiving u).mp hreceiving)
    exact ⟨(congrArg Cudp.inited hbare :).trans hi, (congrArg Cudp.closing hbare :).trans hc⟩
  obtain ⟨hudp, hstopped⟩ := Reported.closeUdps s₁.udpServers { s₁ with udpServers := [] } hopen
  set s₂ := s₁.udpServers.foldl (fun s u => Cudp.closeSetNullptr u
    (s.call (.bindStatus (s.udps u).node false))) { s₁ with udpServers := [] } with hs₂
  -- connections, pending connects and messages
  have hquiet : ∀ {α : Type} (object : α → ℕ) (l : List α) (s : Internal), Reported [] s
      (NetworkPool.closeEach object (fun _ node => .connectionStatus node false) l s) := by
    intro α object l s
    have hclose := Reported.closeEach object (fun _ node => .connectionStatus node false)
      (fun _ : α => []) l s fun _ s _ => .of_same (.call s rfl)
    have hnil : l.flatMap (fun _ => ([] : List CnetworkNode)) = [] :=
      List.flatMap_eq_nil_iff.mpr fun _ _ => rfl
    rwa [hnil] at hclose
  have hmaps : ∀ s : Internal, Reported [] s { s with node2stream := ∅ } ∧
      Reported [] s { s with connecting := ∅ } := fun s =>
    ⟨.of_same ⟨rfl, rfl, rfl, fun _ => rfl, rfl, rfl⟩,
      .of_same ⟨rfl, rfl, rfl, fun _ => rfl, rfl, rfl⟩⟩
  have hrest : Reported (b.bindCopy.map Prod.fst) s₂ (NetworkPool.exitAll order b s) := by
    show Reported _ s₂ (NetworkPool.exitDrops order b (exitLoops order s))
    exact ((hmaps s₂).1.trans ((hquiet _ _ _).trans ((hmaps _).2.trans (hquiet _ _ _)))).trans
      (.exitDrops order b _)
  have htail := hudp.trans hrest
  set s' := NetworkPool.exitAll order b s with hs'
  -- nothing is left that receives
  have hsilent : ∀ u, ¬ (s'.udps u).receiving = true := by
    intro u hu
    have hbare₂ := hrest.opened u hu
    have hu₂ : (s₂.udps u).receiving = true := (congrArg Cudp.receiving hbare₂ :).symm.trans hu
    have hu₁ : (s₁.udps u).receiving = true :=
      (congrArg Cudp.receiving (hudp.opened u hu₂) :).symm.trans hu₂
    have hu₀ : (s.udps u).receiving = true :=
      (congrArg Cudp.receiving (hbare₁ u hu₁) :).symm.trans hu₁
    have hin : u ∈ s₁.udpServers := by
      rw [hservers₁]
      exact (h.receiving u).mp hu₀
    exact absurd ((hstopped u hin).symm.trans hu₂) (by simp)
  have htcpServers : s'.tcpServers = ∅ := htail.tcpServers.trans htcp.tcpServers
  have hudpServers : s'.udpServers = [] := htail.udpServers
  have hdowns : ∀ node, node ∈ order.tcpServers.map Prod.fst ++
      s.udpServers.map (fun u => (s.udps u).node) ↔ s.IsBound node := by
    intro node
    rw [List.mem_append, hkey, List.mem_map]
    rfl
  have hreports : bindReports s'.trace = bindReports s.trace ++
      ((order.tcpServers.map Prod.fst ++ s.udpServers.map fun u => (s.udps u).node) ++
        b.bindCopy.map Prod.fst).map fun node => (node, false) := by
    have hnodes : (s₁.udpServers.map fun u => (s₁.udps u).node) =
        s.udpServers.map fun u => (s.udps u).node := by
      rw [hservers₁]
      exact List.map_congr_left fun u _ => hnode₁ u
    have hlist := htail.reports
    change bindReports s'.trace = bindReports s₁.trace ++ _ at hlist
    rw [hlist, htcp.reports]
    change bindReports (Casync.closeSetNullptr s).trace ++ _ ++
      List.map _ ((s₁.udpServers.map fun u => (s₁.udps u).node) ++ _) = _
    rw [hasync.1, hnodes]
    simp only [List.map_append, List.append_assoc]
  refine ⟨⟨?_, ?_, ?_, ?_, ?_, ?_, ?_, ?_⟩, hclosing, _, ?_, hdowns, hreports⟩
  · intro node t ht
    rw [htcpServers, AList.lookup_empty] at ht
    exact absurd ht (by simp)
  · rw [hudpServers]
    simp
  · rw [hudpServers]
    simp
  · rw [hudpServers]
    exact List.nodup_nil
  · rw [hudpServers]
    simp
  · intro u
    rw [hudpServers]
    exact iff_of_false (hsilent u) (by simp)
  · rw [hudpServers]
    simp
  · rw [hreports]
    refine h.mirrored.append_false (fun node hnode => ?_) fun node => ?_
    · exact List.mem_append_left _ ((hdowns node).mpr hnode)
    · rintro (⟨t, ht⟩ | ⟨u, hu, -⟩)
      · rw [htcpServers, AList.lookup_empty] at ht
        exact absurd ht (by simp)
      · rw [hudpServers] at hu
        exact absurd hu (by simp)
  · rw [List.nodup_append]
    refine ⟨?_, ?_, ?_⟩
    · rw [(hservers.map Prod.fst).nodup_iff]
      have hkeys : s.tcpServers.toPairs.map Prod.fst = s.tcpServers.keys := by
        unfold NodeMap.toPairs
        rw [List.map_map]
        rfl
      rw [hkeys]
      exact s.tcpServers.nodupKeys
    · exact h.nodup.map_on fun u hu u' hu' heq => h.alone u hu u' hu' heq
    · intro node hnode node' hnode'
      obtain ⟨t, ht⟩ := (hkey node).mp hnode
      obtain ⟨u, hu, rfl⟩ := List.mem_map.mp hnode'
      rintro rfl
      exact absurd ((h.tcp _ t ht).symm.trans (h.udp u hu)) (by simp)

end Internal

end NetworkPool
