import NetworkPool.Pool.Binds

/-!
# Answers to bind requests

Every bind request is answered by one `bindStatus` for its node, in order, unless it comes after
`on_wakeup` took the queues and before it finds `m_bWantExit` set (`binds_answered_iff`).
-/

namespace NetworkPool

/-! ## Steps -/

/-- The bind request an event makes. -/
def Event.bindRequest : Event → Option (CnetworkNode × Bool)
  | .bind node bBind => some (node, bBind)
  | _ => none

/-- The bind requests of a run, in order. -/
def bindRequests (es : List Event) : List (CnetworkNode × Bool) :=
  es.filterMap Event.bindRequest

namespace Pool

/-- The bind requests on the local copy of a running `on_wakeup`. -/
def bindCopy (p : Pool) : List (CnetworkNode × Bool) :=
  p.batch.elim [] Batch.bindCopy

/-- The bind requests that are waiting: those of the batch, and behind them the queue. -/
def unanswered (p : Pool) : List (CnetworkNode × Bool) :=
  p.bindCopy ++ p.exchanged.pendingBind

/-- `on_wakeup` finds `m_bWantExit` set. -/
def Exits (p : Pool) (e : Event) : Prop :=
  (∃ order, e = .dispatch order) ∧ p.exchanged.bWantExit = true

variable {p q p' : Pool} {e : Event} {es : List Event}

/-- What a step means for the bind requests. -/
inductive BindStep (p : Pool) (e : Event) (p' : Pool) : Prop
  | exit (hexits : p.Exits e) (hopen : p.batch ≠ none) (hbatch : p'.batch = none)
      (hclosing : p'.internal.async.closing = true) (downs : List CnetworkNode)
      (hnodup : downs.Nodup) (hdowns : ∀ node, node ∈ downs ↔ p.internal.IsBound node)
      (hreports : bindReports p'.internal.trace = bindReports p.internal.trace ++
        (downs ++ p.bindCopy.map Prod.fst).map fun node => (node, false))
  | other (hexits : ¬ p.Exits e) (hclosing : p'.internal.async.closing = p.internal.async.closing)
      (hflow : (bindReports p'.internal.trace ++ p'.unanswered).map Prod.fst =
        (bindReports p.internal.trace ++ p.unanswered).map Prod.fst ++
          (bindRequests [e]).map Prod.fst)
      (hquiet : p.internal.async.closing = true → p.batch = none →
        p'.batch = none ∧ bindReports p'.internal.trace = bindReports p.internal.trace)

/-- A step that answers nothing. -/
theorem BindStep.of_same (hexits : ¬ p.Exits e) (hs : p.internal.SameServers p'.internal)
    (hflow : p'.unanswered = p.unanswered ++ bindRequests [e])
    (hbatch : p.internal.async.closing = true → p.batch = none → p'.batch = none) :
    BindStep p e p' := by
  refine .other hexits hs.closing ?_ fun hclosing hnone => ⟨hbatch hclosing hnone, hs.reports⟩
  rw [hs.reports, hflow, ← List.append_assoc, List.map_append]

/-- **Inversion of a step, for the bind requests.** -/
theorem bindStep (h : p.internal.Bound) (hinited : p.internal.async.inited = true)
    (hstep : p.step e = some p') : p'.internal.Bound ∧ BindStep p e p' := by
  have hnot : ∀ e, (∀ order, e ≠ .dispatch order) → ¬ p.Exits e := by
    rintro e he ⟨⟨order, rfl⟩, -⟩
    exact he order rfl
  cases e with
  | bind node bBind =>
    obtain rfl := Option.some.inj hstep
    refine ⟨h, .of_same (hnot _ (by simp)) (.refl _) ?_ fun _ hnone => hnone⟩
    exact (List.append_assoc _ _ _).symm
  | send node data bAutoConnect =>
    obtain rfl := Option.some.inj hstep
    refine ⟨h, .of_same (hnot _ (by simp)) (.refl _) ?_ fun _ hnone => hnone⟩
    have hpending : (p.exchanged.send node data bAutoConnect).pendingBind =
        p.exchanged.pendingBind := by
      unfold Exchanged.send
      split_ifs <;> rfl
    show p.bindCopy ++ _ = _ ++ []
    rw [hpending, List.append_nil]
    rfl
  | close node bForceClose =>
    obtain rfl := Option.some.inj hstep
    refine ⟨h, .of_same (hnot _ (by simp)) (.refl _) ?_ fun _ hnone => hnone⟩
    have hpending : (p.exchanged.close node bForceClose).pendingBind =
        p.exchanged.pendingBind := by
      unfold Exchanged.close
      split_ifs <;> rfl
    show p.bindCopy ++ _ = _ ++ []
    rw [hpending, List.append_nil]
    rfl
  | wantExit =>
    obtain rfl := Option.some.inj hstep
    exact ⟨h, .of_same (hnot _ (by simp)) (.refl _) (List.append_nil _).symm fun _ hnone => hnone⟩
  | wakeup =>
    simp only [Pool.step] at hstep
    split at hstep
    · exact absurd hstep (by simp)
    · rename_i hbatch
      simp only [Option.ite_none_left_eq_some, Option.some.injEq] at hstep
      obtain ⟨hclosing, rfl⟩ := hstep
      refine ⟨h, .of_same (hnot _ (by simp)) (.refl _) ?_ fun hc => absurd hc hclosing⟩
      show p.exchanged.pendingBind ++ [] = (p.bindCopy ++ _) ++ []
      unfold bindCopy
      rw [hbatch, List.append_nil, List.append_nil]
      rfl
  | dispatch order =>
    simp only [Pool.step] at hstep
    split at hstep
    · rename_i binds sends closes hbatch
      split_ifs at hstep with hexit henum
      · obtain rfl := Option.some.inj hstep
        obtain ⟨hbound, hclosing, downs, hnodup, hdowns, hreports⟩ :=
          h.exitAll henum ⟨binds, sends, closes, false⟩ hinited
        refine ⟨hbound, .exit ⟨⟨order, rfl⟩, hexit⟩ (by simp [hbatch]) rfl hclosing downs hnodup
          hdowns ?_⟩
        unfold bindCopy
        rw [hbatch]
        exact hreports
      · obtain rfl := Option.some.inj hstep
        refine ⟨h, .of_same (fun hexits => hexit hexits.2) (.refl _) ?_ fun _ hnone => ?_⟩
        · simp [unanswered, bindCopy, hbatch, bindRequests, Event.bindRequest]
        · exact absurd (hbatch.symm.trans hnone) (by simp)
    · exact absurd hstep (by simp)
  | bindNext env =>
    simp only [Pool.step] at hstep
    split at hstep
    · rename_i node bBind binds sends closes hbatch
      obtain rfl := Option.some.inj hstep
      obtain ⟨hbound, ⟨ok, hreports⟩, hclosing⟩ := h.bindOne env node bBind
      refine ⟨hbound, .other (hnot _ (by simp)) hclosing ?_ fun _ hnone => ?_⟩
      · show ((bindReports (bindOne env node bBind p.internal).trace) ++ _).map Prod.fst = _
        rw [hreports]
        simp [unanswered, bindCopy, hbatch, bindRequests, Event.bindRequest]
      · exact absurd (hbatch.symm.trans hnone) (by simp)
    · exact absurd hstep (by simp)
  | sendNext env =>
    simp only [Pool.step] at hstep
    split at hstep
    · rename_i req sends closes hbatch
      obtain rfl := Option.some.inj hstep
      have hs := sameServers_sendOne env p.internal req
      refine ⟨h.same hs, .of_same (hnot _ (by simp)) hs ?_ fun _ hnone => ?_⟩
      · simp [unanswered, bindCopy, hbatch, bindRequests, Event.bindRequest]
      · exact absurd (hbatch.symm.trans hnone) (by simp)
    · exact absurd hstep (by simp)
  | closeNext env =>
    simp only [Pool.step] at hstep
    split at hstep
    · rename_i node bForceClose closes hbatch
      obtain rfl := Option.some.inj hstep
      have hs := sameServers_closeOne env p.internal node bForceClose
      refine ⟨h.same hs, .of_same (hnot _ (by simp)) hs ?_ fun _ hnone => ?_⟩
      · simp [unanswered, bindCopy, hbatch, bindRequests, Event.bindRequest]
      · exact absurd (hbatch.symm.trans hnone) (by simp)
    · exact absurd hstep (by simp)
  | wakeupDone =>
    simp only [Pool.step] at hstep
    split at hstep
    · rename_i hbatch
      obtain rfl := Option.some.inj hstep
      refine ⟨h, .of_same (hnot _ (by simp)) (.refl _) ?_ fun _ _ => rfl⟩
      simp [unanswered, bindCopy, hbatch, bindRequests, Event.bindRequest]
    · exact absurd hstep (by simp)
  | uv e =>
    simp only [Pool.step] at hstep
    split at hstep
    · exact absurd hstep (by simp)
    · rename_i hbatch
      split at hstep
      · rename_i s hs
        obtain rfl := Option.some.inj hstep
        have hsame := uvStep_servers hs
        refine ⟨h.same hsame, .of_same (hnot _ (by simp)) hsame ?_ fun _ hnone => hnone⟩
        exact (List.append_nil _).symm
      · exact absurd hstep (by simp)

theorem bound_of_reachable (hr : poolSystem.Reachable p) : p.internal.Bound :=
  hr.invariant (I := fun p => p.internal.Bound) Internal.Bound.init
    fun _ _ _ hr h hstep => (bindStep h (served_of_reachable hr).async hstep).1

theorem bindStep_of_reachable (hr : poolSystem.Reachable p) (hstep : poolSystem.step p e = some p') :
    BindStep p e p' :=
  (bindStep (bound_of_reachable hr) (served_of_reachable hr).async hstep).2

/-- A listener is stored under its node. -/
theorem listening_stored (hr : poolSystem.Reachable p) {t : ℕ}
    (hl : (p.internal.tcps t).tcp.listening = true) :
    p.internal.tcpServers.lookup (p.internal.tcps t).node = some t := by
  have hwf := wf_of_reachable hr
  have hhome := homed_of_reachable hr t
  obtain ⟨htcp, hclosing⟩ := ((life_of_reachable hr).flags t).listener hl
  rcases hhome.place htcp hclosing with hin | hin | hreg
  · have hreq := ((hwf.tcps t).connectReq (hwf.connecting t hin)).1
    exact absurd (hl.symm.trans hreq) (by simp)
  · exact hin
  · exact absurd (hl.symm.trans (hhome.up hreg hclosing).listening) (by simp)

/-- No node has two listening sockets. -/
theorem oneSocket_of_reachable (hr : poolSystem.Reachable p) : p.internal.OneSocket := by
  have h := bound_of_reachable hr
  have htcp : ∀ {node t}, p.internal.ListensAt node (.tcp t) →
      p.internal.tcpServers.lookup node = some t := by
    rintro node t ⟨hl, rfl⟩
    exact listening_stored hr hl
  have hudp : ∀ {node u}, p.internal.ListensAt node (.udp u) →
      u ∈ p.internal.udpServers ∧ (p.internal.udps u).node = node := by
    rintro node u ⟨hl, rfl⟩
    exact ⟨(h.receiving u).mp hl, rfl⟩
  have hcross : ∀ {node t u}, p.internal.ListensAt node (.tcp t) →
      ¬ p.internal.ListensAt node (.udp u) := by
    intro node t u ht hu
    obtain ⟨hin, rfl⟩ := hudp hu
    exact absurd ((h.tcp _ t (htcp ht)).symm.trans (h.udp u hin)) (by simp)
  rintro node (t | t | u | -) (t' | t' | u' | -) h₁ h₂
  case tcp.tcp => exact congrArg _ (Option.some.inj ((htcp h₁).symm.trans (htcp h₂)))
  case tcp.udp => exact absurd h₂ (hcross h₁)
  case udp.tcp => exact absurd h₁ (hcross h₂)
  case udp.udp =>
    obtain ⟨hin₁, hnode₁⟩ := hudp h₁
    obtain ⟨hin₂, hnode₂⟩ := hudp h₂
    exact congrArg _ (h.alone u hin₁ u' hin₂ (hnode₁.trans hnode₂.symm))
  all_goals first | exact h₁.elim | exact h₂.elim

/-! ## Runs -/

/-- Once `m_wakeup` is closed, `on_wakeup` does not run. -/
theorem batch_of_closing (hr : poolSystem.Reachable p) (hclosing : p.internal.async.closing = true) :
    p.batch = none := by
  refine hr.invariant (I := fun p => p.internal.async.closing = true → p.batch = none)
    (fun _ => rfl) (fun p e p' hr ih hstep hc => ?_) hclosing
  cases bindStep_of_reachable hr hstep with
  | exit hexits hopen hbatch => exact hbatch
  | other hexits hsame hflow hquiet =>
    rw [hsame] at hc
    exact (hquiet hc (ih hc)).1

/-- Before the exit branch, every request is answered or waiting, in order. -/
theorem flow_of_open (hrun : poolSystem.run es = some p)
    (hopen : p.internal.async.closing = false) :
    (bindReports p.internal.trace ++ p.unanswered).map Prod.fst = (bindRequests es).map Prod.fst := by
  induction es using List.reverseRecOn generalizing p with
  | nil =>
    obtain rfl : ({} : Pool) = p := Option.some.inj hrun
    rfl
  | append_singleton es e ih =>
    rw [Lib.Lts.run_concat] at hrun
    obtain ⟨q, hq, hstep⟩ := Option.bind_eq_some_iff.mp hrun
    cases bindStep_of_reachable (Lib.Lts.reachable_of_run hq) hstep with
    | exit hexits hne hbatch hclosing =>
      exact absurd (hopen.symm.trans hclosing) (by simp)
    | other hexits hsame hflow hquiet =>
      rw [hflow, ih hq (hsame.symm.trans hopen), bindRequests, bindRequests, bindRequests,
        List.filterMap_append, List.map_append]

/-- After the exit branch nothing is reported. -/
theorem reports_of_closing {p₁ : Pool} (hr : poolSystem.Reachable p₁)
    (hclosing : p₁.internal.async.closing = true) (hexec : poolSystem.exec p₁ es = some p) :
    p.internal.async.closing = true ∧ bindReports p.internal.trace = bindReports p₁.internal.trace := by
  refine (Lib.Lts.exec_invariant (I := fun q => q.internal.async.closing = true ∧
    bindReports q.internal.trace = bindReports p₁.internal.trace) hexec hr ⟨hclosing, rfl⟩ ?_).2
  rintro q e q' hq ⟨hc, hreports⟩ hstep
  have hbatch := batch_of_closing hq hc
  cases bindStep_of_reachable hq hstep with
  | exit hexits hopen => exact absurd hbatch hopen
  | other hexits hsame hflow hquiet =>
    exact ⟨hsame.trans hc, (hquiet hc hbatch).2.trans hreports⟩

/-- `m_wakeup` is closed by the exit branch. -/
theorem exists_exit (hrun : poolSystem.run es = some p)
    (hclosing : p.internal.async.closing = true) :
    ∃ pre e post q, es = pre ++ e :: post ∧ poolSystem.run pre = some q ∧ q.Exits e := by
  induction es using List.reverseRecOn generalizing p with
  | nil =>
    obtain rfl : ({} : Pool) = p := Option.some.inj hrun
    exact absurd hclosing (by simp)
  | append_singleton es e ih =>
    rw [Lib.Lts.run_concat] at hrun
    obtain ⟨q, hq, hstep⟩ := Option.bind_eq_some_iff.mp hrun
    by_cases hexits : q.Exits e
    · exact ⟨es, e, [], q, rfl, hq, hexits⟩
    · cases bindStep_of_reachable (Lib.Lts.reachable_of_run hq) hstep with
      | exit hexits' => exact absurd hexits' hexits
      | other _ hsame =>
        obtain ⟨pre, e', post, q', rfl, hq', hexits'⟩ := ih hq (hsame.symm.trans hclosing)
        exact ⟨pre, e', post ++ [e], q', by simp, hq', hexits'⟩

/-- The exit branch `q.Exits e` of a run, and the requests that are made from there on. -/
theorem exit_reports {pre post : List Event} (hq : poolSystem.run pre = some q) (hexits : q.Exits e)
    (hrun : poolSystem.run (pre ++ e :: post) = some p) :
    (bindReports q.internal.trace ++ q.unanswered).map Prod.fst = (bindRequests pre).map Prod.fst ∧
    q.internal.async.closing = false ∧ p.internal.async.closing = true ∧
    ∃ downs : List CnetworkNode, downs.Nodup ∧ (∀ node, node ∈ downs ↔ q.internal.IsBound node) ∧
      bindReports p.internal.trace = bindReports q.internal.trace ++
        (downs ++ q.bindCopy.map Prod.fst).map fun node => (node, false) := by
  have hr := Lib.Lts.reachable_of_run hq
  obtain ⟨q₀, q', hq₀, hstep, hexec⟩ := Lib.Lts.exists_step_of_run hrun
  obtain rfl : q = q₀ := Option.some.inj (hq.symm.trans hq₀)
  have hr' := hr.step hstep
  cases bindStep_of_reachable hr hstep with
  | other hnot => exact absurd hexits hnot
  | exit _ hopen hbatch hclosing downs hnodup hdowns hreports =>
    have hfalse : q.internal.async.closing = false := by
      by_contra hc
      exact hopen (batch_of_closing hr (by simpa using hc))
    obtain ⟨hclosing', hsame⟩ := reports_of_closing hr' hclosing hexec
    exact ⟨flow_of_open hq hfalse, hfalse, hclosing', downs, hnodup, hdowns,
      hsame.trans hreports⟩

end Pool

/-- Each bind request of the run `es`, which ends in `p`, is answered by one notification for its
node, in order. Where `on_wakeup` found `m_bWantExit` set in `q`, every server of that time was
reported down once, and behind them every request not yet answered. -/
structure Answered (es : List Event) (p : Pool) : Prop where
  running : p.internal.async.closing = false →
    (bindReports p.internal.trace ++ p.unanswered).map Prod.fst = (bindRequests es).map Prod.fst
  exited : ∀ pre e post q, es = pre ++ e :: post → poolSystem.run pre = some q → q.Exits e →
    (bindReports q.internal.trace ++ q.unanswered).map Prod.fst = (bindRequests es).map Prod.fst ∧
    ∃ downs : List CnetworkNode, downs.Nodup ∧ (∀ node, node ∈ downs ↔ q.internal.IsBound node) ∧
      bindReports p.internal.trace = bindReports q.internal.trace ++
        (downs ++ q.unanswered.map Prod.fst).map fun node => (node, false)

/-- No bind request is made between the moment `on_wakeup` takes the queues and the exit branch of
the same run of it, nor later. -/
def NoneMissed (p : Pool) (e : Event) (_ : Pool) : Prop :=
  (p.Exits e → p.exchanged.pendingBind = []) ∧
    (e.bindRequest.isSome = true → p.internal.async.closing = false)

/-- **Binds.** In a run the notifications mirror the servers, no node has two listening sockets, and
every request is answered exactly once, if and only if none was made too late for the exit branch. -/
theorem binds_answered_iff {es : List Event} {p : Pool} (hrun : poolSystem.run es = some p) :
    Lib.Mirrors p.internal.IsBound (bindReports p.internal.trace) ∧ p.internal.OneSocket ∧
      Answered es p ↔ poolSystem.EachStep NoneMissed es := by
  have hr := Lib.Lts.reachable_of_run hrun
  constructor
  · rintro ⟨-, -, hanswered⟩
    -- at the exit branch nothing waits in the queue, and nothing is requested behind it
    have hexit : ∀ pre e post q, es = pre ++ e :: post → poolSystem.run pre = some q → q.Exits e →
        q.exchanged.pendingBind = [] ∧ bindRequests (e :: post) = [] := by
      intro pre e post q hes hq hexits
      obtain ⟨hflow, -, -, downs, hnodup, hdowns, hreports⟩ :=
        Pool.exit_reports hq hexits (hes ▸ hrun)
      obtain ⟨hall, downs', hnodup', hdowns', hreports'⟩ := hanswered.exited pre e post q hes hq hexits
      have hperm : downs.Perm downs' :=
        (List.perm_ext_iff_of_nodup hnodup hnodup').mpr fun node =>
          (hdowns node).trans (hdowns' node).symm
      have hlength := congrArg List.length (hreports.symm.trans hreports')
      simp only [List.length_append, List.length_map, Pool.unanswered] at hlength
      have hsame := congrArg List.length (hflow.symm.trans hall)
      rw [hes] at hsame
      simp only [bindRequests, List.filterMap_append, List.length_append, List.length_map] at hsame
      have hdown := hperm.length_eq
      refine ⟨List.eq_nil_of_length_eq_zero (by omega), List.eq_nil_of_length_eq_zero ?_⟩
      show (List.filterMap _ (e :: post)).length = 0
      omega
    intro pre e post q q' hes hq hstep
    refine ⟨fun hexits => (hexit pre e post q hes hq hexits).1, fun hrequest => ?_⟩
    by_contra hclosing
    obtain ⟨pre', e', post', q₁, rfl, hq₁, hexits⟩ :=
      Pool.exists_exit hq (by simpa using hclosing)
    have hnone := (hexit pre' e' (post' ++ e :: post) q₁ (by rw [hes]; simp) hq₁ hexits).2
    have hmem : e ∈ e' :: (post' ++ e :: post) := by simp
    have hfree := List.filterMap_eq_nil_iff.mp hnone e hmem
    rw [hfree] at hrequest
    exact absurd hrequest (by simp)
  · intro hsteps
    refine ⟨(Pool.bound_of_reachable hr).mirrored, Pool.oneSocket_of_reachable hr,
      fun hopen => Pool.flow_of_open hrun hopen, ?_⟩
    intro pre e post q hes hq hexits
    obtain ⟨hflow, hopen, hclosing, downs, hnodup, hdowns, hreports⟩ :=
      Pool.exit_reports hq hexits (hes ▸ hrun)
    have hqueue : q.exchanged.pendingBind = [] := by
      obtain ⟨q₀, q', hq₀, hstep, -⟩ := Lib.Lts.exists_step_of_run (hes ▸ hrun)
      obtain rfl : q = q₀ := Option.some.inj (hq.symm.trans hq₀)
      exact (hsteps pre e post q q' hes hq hstep).1 hexits
    -- no request is made from the exit branch on
    have hnone : bindRequests (e :: post) = [] := by
      refine List.filterMap_eq_nil_iff.mpr fun e' he' => ?_
      obtain ⟨a, b, hab⟩ := List.append_of_mem he'
      by_contra hrequest
      have hsome : e'.bindRequest.isSome = true := Option.isSome_iff_ne_none.mpr hrequest
      have hsplit : es = (pre ++ a) ++ e' :: b := by rw [hes, hab, List.append_assoc]
      obtain ⟨q₁, q₂, hq₁, hstep, -⟩ := Lib.Lts.exists_step_of_run (hsplit ▸ hrun)
      have hopen₁ := (hsteps (pre ++ a) e' b q₁ q₂ hsplit hq₁ hstep).2 hsome
      cases a with
      | nil =>
        obtain ⟨rfl, -⟩ := List.cons.inj hab
        obtain ⟨⟨order, rfl⟩, -⟩ := hexits
        exact hrequest rfl
      | cons e₁ a =>
        obtain ⟨rfl, -⟩ := List.cons.inj hab
        have hclosed := (Pool.exit_reports hq hexits hq₁).2.2.1
        exact absurd (hopen₁.symm.trans hclosed) (by simp)
    refine ⟨?_, downs, hnodup, hdowns, ?_⟩
    · rw [hflow, hes, bindRequests, bindRequests, List.filterMap_append]
      have hnil : List.filterMap Event.bindRequest (e :: post) = [] := hnone
      rw [hnil, List.append_nil]
    · rw [hreports, Pool.unanswered, hqueue, List.append_nil]

/-- A server is bound. -/
def bindRun : List Event :=
  [.bind sampleNode true, .wakeup, .dispatch ⟨[], [], [], []⟩, .bindNext {}, .wakeupDone]

/-- `on_wakeup` takes the queues and finds `m_bWantExit` set; `late` comes between. -/
def exitRun (late : List Event) : List Event :=
  .wakeup :: late ++ [.wantExit, .dispatch ⟨[(sampleNode, 0)], [], [], []⟩]

/-- A bound server and a request of the batch are both reported down. -/
theorem binds_answered_exit :
    ∃ p, poolSystem.run (bindRun ++ .bind sampleNode true :: exitRun []) = some p ∧
      (Lib.Mirrors p.internal.IsBound (bindReports p.internal.trace) ∧ p.internal.OneSocket ∧
        Answered (bindRun ++ .bind sampleNode true :: exitRun []) p ↔
        poolSystem.EachStep NoneMissed (bindRun ++ .bind sampleNode true :: exitRun [])) ∧
      bindReports p.internal.trace =
        [(sampleNode, true), (sampleNode, false), (sampleNode, false)] :=
  ⟨(poolSystem.run _).get (by decide), (Option.some_get _).symm,
    binds_answered_iff (Option.some_get _).symm, by decide⟩

/-- A request comes in after `on_wakeup` took the queues, and then the destructor sets
`m_bWantExit`: the exit branch reports the server down, and nobody answers the request. -/
theorem bind_missed :
    ∃ p, poolSystem.run (bindRun ++ exitRun [.bind sampleNode true]) = some p ∧
      bindRequests (bindRun ++ exitRun [.bind sampleNode true]) =
        [(sampleNode, true), (sampleNode, true)] ∧
      bindReports p.internal.trace = [(sampleNode, true), (sampleNode, false)] ∧
      ¬ Answered (bindRun ++ exitRun [.bind sampleNode true]) p := by
  refine ⟨(poolSystem.run _).get (by decide), (Option.some_get _).symm, rfl, by decide, fun h => ?_⟩
  have hq := (Option.some_get (x := poolSystem.run
    (bindRun ++ [.wakeup, .bind sampleNode true, .wantExit])) (by decide)).symm
  set q := (poolSystem.run (bindRun ++ [.wakeup, .bind sampleNode true, .wantExit])).get (by decide)
    with hq'
  obtain ⟨-, downs, -, hdowns, hreports⟩ := h.exited _ (.dispatch ⟨[(sampleNode, 0)], [], [], []⟩) []
    q rfl hq ⟨⟨_, rfl⟩, by decide⟩
  have hmem : sampleNode ∈ downs := (hdowns sampleNode).mpr (.inl ⟨0, by decide⟩)
  have hbefore : (bindReports q.internal.trace).length = 1 ∧ q.unanswered.length = 1 := by decide
  -- two notifications are not enough for the server and the two requests
  have hlength := congrArg List.length hreports
  rw [List.length_append, List.length_map, List.length_append, List.length_map, hbefore.1,
    hbefore.2] at hlength
  have hafter : (bindReports ((poolSystem.run (bindRun ++ exitRun [.bind sampleNode true])).get
      (by decide)).internal.trace).length = 2 := by decide
  have hpos := List.length_pos_of_mem hmem
  have hcount := hafter.symm.trans hlength
  omega

end NetworkPool
