import NetworkPool.Pool.Steps

/-!
# Graceful close

After `uv_shutdown` was accepted for a connection the pool waits for its pending writes. The
handle lingers until `uv_close` is called on it, which should happen for one of four reasons
(`CloseReason`). Any negative read result tears a connection down, so a lingering connection is
closed for one of the reasons in exactly the runs in which it never reads `UV_EOF` or
`UV_ENOBUFS`.
-/

namespace NetworkPool

open Table

namespace Ctcp

/-- `uv_shutdown` was accepted and `uv_close` has not been called on the stream. -/
def Lingering (c : Ctcp) : Prop :=
  c.shutdown = true ∧ c.tcp.closing = false

variable {c c' : Ctcp}

theorem Lingering.touch (h : c.Lingering) (ht : c.Touch c') : c'.Lingering := by
  cases ht <;> exact h

theorem afterClose_tcpClosing (hclosing : c.closing = false) (htcp : c.tcpInited = true) :
    c.afterClose.tcp.closing = true := by
  unfold afterClose
  rw [if_pos (by simp [hclosing, htcp]), if_pos htcp]

/-- Connections, pending connects and listeners of the pool do not linger. -/
theorem Established.not_lingering {node : CnetworkNode} (he : c.Established node) :
    ¬ c.Lingering := fun h => absurd (he.shutdown.symm.trans h.1) (by simp)

theorem Wf.not_lingering (h : c.Wf) (hreq : c.Connecting) : ¬ c.Lingering :=
  fun hl => absurd ((h.not_shutdown hreq).symm.trans hl.1) (by simp)

theorem Listening.not_lingering {node : CnetworkNode} (hlisten : c.Listening node) :
    ¬ c.Lingering := fun h => absurd (hlisten.shutdown.symm.trans h.1) (by simp)

end Ctcp

namespace Table

variable {v : Table} {t : ℕ}

/-- An object that lingers has been allocated. -/
theorem Wf.ne_nextTcp (hwf : v.Wf) (h : (v.tcps t).Lingering) : t ≠ v.nextTcp := by
  rintro rfl
  rw [hwf.fresh _ le_rfl] at h
  exact absurd h.1 (by simp)

theorem add_tcps_other (hwf : v.Wf) (h : (v.tcps t).Lingering) (c : Ctcp) :
    (v.add c).tcps t = v.tcps t :=
  setTcp_tcps_other v (hwf.ne_nextTcp h)

end Table

/-- A lingering object goes on lingering, unless its shutdown completes or it is torn down. -/
theorem Act.lingering {v v' : Table} {l : Label} {t : ℕ} (hact : Act v l v') (hwf : v.Wf)
    (h : (v.tcps t).Lingering) :
    (v'.tcps t).Lingering ∨ l = .shutdownDone t ∨ l.torn = some t := by
  have hset : ∀ {u : Table} {t' : ℕ} {c : Ctcp}, u.tcps = v.tcps →
      (t' = t → c.Lingering) → ((u.setTcp t' c).tcps t).Lingering := by
    intro u t' c htcps hc
    by_cases ht : t = t'
    · subst ht
      rw [setTcp_tcps_self]
      exact hc rfl
    · rw [setTcp_tcps_other u ht, htcps]
      exact h
  have hadd : ∀ c : Ctcp, ((v.add c).tcps t).Lingering := by
    intro c
    rw [add_tcps_other hwf h]
    exact h
  cases hact with
  | touch t' c hc =>
    refine .inl (hset rfl ?_)
    rintro rfl
    exact h.touch hc
  | message t' data hreading => exact .inl h
  | written t' w hw =>
    refine .inl (hset (u := v) rfl ?_)
    rintro rfl
    exact h
  | lost t' w hw =>
    refine .inl (hset (u := v) rfl ?_)
    rintro rfl
    exact h
  | teardown t' hlistening hconnect =>
    by_cases ht : t' = t
    · exact .inr (.inr (by rw [ht]; rfl))
    · exact .inl (hset (u := v) rfl fun heq => absurd heq ht)
  | close t' node c hlookup hc =>
    refine .inl (hset (u := v) rfl ?_)
    rintro rfl
    exact absurd h (hwf.stream node t' hlookup).not_lingering
  | connectFail t' armed hreq harmed =>
    by_cases ht : t' = t
    · exact .inr (.inr (by rw [ht]; rfl))
    · refine .inl ?_
      show (Function.update (Function.update v.tcps t' _) t' _ t).Lingering
      rw [Function.update_of_ne (Ne.symm ht), Function.update_of_ne (Ne.symm ht)]
      exact h
  | connectUp t' ok v' hreq hclosing hstart =>
    have ht : t ≠ t' := by
      rintro rfl
      exact (hwf.tcps t).not_lingering hreq h
    rw [hstart.tcps_other ht]
    exact .inl (hset rfl fun heq => absurd heq.symm ht)
  | acceptUp peer ok v' hstart =>
    rw [hstart.tcps_other (hwf.ne_nextTcp h)]
    exact .inl (hadd _)
  | shutdownDone t' hreq =>
    by_cases ht : t' = t
    · exact .inr (.inl (by rw [ht]))
    · exact .inl (hset rfl fun heq => absurd heq ht)
  | dead c hc => exact .inl (hadd c)
  | connect node b req htcp hvalid hwaiting hlookup => exact .inl (hadd _)
  | write t' node b req hlookup =>
    refine .inl (hset (u := v) rfl ?_)
    rintro rfl
    exact absurd h (hwf.stream node t' hlookup).not_lingering
  | listen node hserver => exact .inl (hadd _)
  | unlisten node t' hserver =>
    refine .inl (hset rfl ?_)
    rintro rfl
    exact absurd h (hwf.server node t' hserver).not_lingering
  | exit batch streams connecting queues tcps hstreams hconnecting hqueues htcps =>
    refine .inl ?_
    show (tcps t).Lingering
    rcases htcps t with ⟨hin, -⟩ | ⟨-, heq⟩
    · -- the exit branch closes what is in a registry
      rcases hin with hin | ⟨node, hin⟩ | ⟨node, hin⟩
      · exact absurd h ((hwf.tcps t).not_lingering (hwf.connecting t hin))
      · exact absurd h (hwf.stream node t hin).not_lingering
      · exact absurd h (hwf.server node t hin).not_lingering
    · rw [heq]
      exact h
  | _ => exact .inl h

theorem Acts.lingering {v v' : Table} {ls : List Label} {t : ℕ} (hacts : Acts v ls v')
    (hwf : v.Wf) (h : (v.tcps t).Lingering) (hls : ∀ l ∈ ls, l ≠ .shutdownDone t ∧ l.torn ≠ some t) :
    (v'.tcps t).Lingering := by
  induction hacts with
  | nil => exact h
  | cons hact _ ih =>
    obtain ⟨hdone, htorn⟩ := hls _ (List.mem_cons_self ..)
    refine ih (hact.wf hwf) ?_ fun l hl => hls l (List.mem_cons_of_mem _ hl)
    rcases hact.lingering hwf h with h | h | h
    · exact h
    · exact absurd h hdone
    · exact absurd h htorn

/-! ## Pools -/

namespace Pool

/-- The reasons for which `uv_close` may be called on a connection whose shutdown was accepted. -/
inductive CloseReason (p : Pool) (t : ℕ) : Event → Prop
  | shutdownDone : CloseReason p t (.uv (.shutdownDone t))
  | timeout (harmed : (p.internal.tcps t).timer.armed = some .send) :
      CloseReason p t (.uv (.timeout t))
  | writeFailed (req : ℕ) (status : ℤ) (env : Env) (hstatus : status ≠ 0) :
      CloseReason p t (.uv (.writeDone t req status env))
  | readError (nread : ℤ) (data : List UInt8) (env : Env) (hnread : nread < 0)
      (heof : nread ≠ uvEof) (henobufs : nread ≠ uvEnobufs) :
      CloseReason p t (.uv (.tcpRead t nread data env))

/-- `uv_close` is called on a lingering connection for one of the reasons only. -/
def ClosesForReason (p : Pool) (e : Event) (p' : Pool) : Prop :=
  ∀ t, (p.internal.tcps t).shutdown = true → (p.internal.tcps t).tcp.closing = false →
    (p'.internal.tcps t).tcp.closing = true → p.CloseReason t e

/-- The event is no read callback with `UV_EOF` or `UV_ENOBUFS` on a connection whose shutdown was
accepted. -/
def NoEofWhileShutdown (p : Pool) (e : Event) : Prop :=
  ∀ t nread data env, e = .uv (.tcpRead t nread data env) → nread = uvEof ∨ nread = uvEnobufs →
    (p.internal.tcps t).shutdown = false

variable {p p' : Pool} {e : Event}

/-- A lingering connection is torn down for one of the reasons, or by `UV_EOF` or
`UV_ENOBUFS`. -/
theorem closeReason_of_tearsDown (hwf : p.table.Wf) {e : UvEvent} {t : ℕ} {s : Internal}
    (h : (p.internal.tcps t).Lingering) (hstep : uvStep p.internal e = some s)
    (htorn : tearsDown p.internal e = some t) (hno : p.NoEofWhileShutdown (.uv e)) :
    p.CloseReason t (.uv e) := by
  obtain ⟨hshutdown, -⟩ := h
  have hidle : ∀ env, idleTimerFails env (p.internal.tcps t) = false := by
    intro env
    simp [idleTimerFails, hshutdown]
  cases e with
  | timeout t' =>
    obtain rfl : t' = t := Option.some.inj htorn
    simp only [uvStep, Option.ite_none_right_eq_some] at hstep
    refine .timeout ?_
    rcases ((hwf.tcps t').shutdown hshutdown).2.2 with harmed | harmed
    · have harmed' : (p.internal.tcps t').timer.armed = none := harmed
      rw [harmed'] at hstep
      exact absurd hstep.1 (by simp)
    · exact harmed
  | tcpRead t' nread data env =>
    simp only [tearsDown, Option.ite_none_right_eq_some, Option.some.injEq] at htorn
    obtain ⟨hcond, rfl⟩ := htorn
    rw [hidle, Bool.and_false, Bool.or_false, decide_eq_true_eq] at hcond
    refine .readError nread data env hcond ?_ ?_
    · intro heof
      exact absurd ((hno t' nread data env rfl (.inl heof)).symm.trans hshutdown) (by simp)
    · intro henobufs
      exact absurd ((hno t' nread data env rfl (.inr henobufs)).symm.trans hshutdown) (by simp)
  | writeDone t' req status env =>
    simp only [tearsDown, Option.ite_none_right_eq_some, Option.some.injEq] at htorn
    obtain ⟨hcond, rfl⟩ := htorn
    rw [hidle, Bool.or_false, decide_eq_true_eq] at hcond
    exact .writeFailed req status env hcond
  | connectDone t' status env =>
    -- a pending connect is not shut down
    obtain rfl : t' = t := by
      simp only [tearsDown, Option.ite_none_right_eq_some, Option.some.injEq] at htorn
      exact htorn.2
    simp only [uvStep, Option.ite_none_right_eq_some] at hstep
    exact absurd ((hwf.tcps t').not_shutdown hstep.1) (by
      show ¬ (p.internal.tcps t').shutdown = false
      simp [hshutdown])
  | _ => exact absurd htorn (by simp [tearsDown])

/-- `UV_EOF` and `UV_ENOBUFS` close a lingering connection. -/
theorem closes_of_eof (hwf : p.table.Wf) {t : ℕ} {nread : ℤ} {data : List UInt8} {env : Env}
    (hnread : nread = uvEof ∨ nread = uvEnobufs)
    (hstep : Step p (.uv (.tcpRead t nread data env)) p') :
    (p.internal.tcps t).tcp.closing = false ∧ (p'.internal.tcps t).tcp.closing = true := by
  have hneg : nread < 0 := by
    unfold uvEof uvEnobufs at hnread
    omega
  cases hstep with
  | outside _ x new he => exact absurd rfl (he _)
  | loop _ s b took he => exact absurd rfl (he _)
  | uv _ s hstep hacts =>
    simp only [uvStep, Option.ite_none_right_eq_some] at hstep
    obtain ⟨-, -, hclosing, -⟩ := (hwf.tcps t).reading hstep.1.1
    refine ⟨?_, ?_⟩
    · by_contra hc
      have htcp := (hwf.tcps t).tcpClosing (by simpa using hc)
      exact absurd (hclosing.symm.trans htcp) (by simp)
    have htorn : tearsDown p.internal (.tcpRead t nread data env) = some t := by
      simp [tearsDown, hneg]
    obtain ⟨ls, v₁, hquiet, hls, ⟨-, hnone⟩ | ⟨l, hact, hallows, -, hl⟩⟩ := hacts
    · exact absurd (hnone.symm.trans htorn) (by simp)
    · have hsame := hquiet.sameRegistries fun l hl => (hls l hl).1
      have hopen : (v₁.tcps t).closing = false := (hsame.object t).2.1.trans hclosing
      have hl' : l.torn = some t := hl.symm.trans htorn
      show (s.table.tcps t).tcp.closing = true
      generalize s.table = v' at hact ⊢
      cases hact with
      | teardown t' hlistening hconnect =>
        obtain rfl : t' = t := Option.some.inj hl'
        show (Function.update v₁.tcps t' _ t').tcp.closing = true
        rw [Function.update_self]
        exact Ctcp.afterClose_tcpClosing hopen (hconnect hopen)
      | connectFail t' armed hreq harmed =>
        obtain rfl : t' = t := Option.some.inj hl'
        have htcp := ((hquiet.wf hwf).tcps t').connectReq hreq
        show (Function.update (Function.update v₁.tcps t' _) t' _ t').tcp.closing = true
        rw [Function.update_self]
        cases armed <;> exact Ctcp.afterClose_tcpClosing hopen htcp.2.1
      | _ => exact absurd hl' (by simp [Label.torn])

/-- A step closes lingering connections for one of the reasons only exactly when it is no read of
`UV_EOF` or `UV_ENOBUFS` on one. -/
theorem closesForReason_step (hr : poolSystem.Reachable p)
    (hstep : poolSystem.step p e = some p') :
    p.ClosesForReason e p' ↔ p.NoEofWhileShutdown e := by
  have hwf := wf_of_reachable hr
  have hcases : Step p e p' := step_cases hwf hstep
  constructor
  · rintro hreason t nread data env rfl hnread
    by_contra hshutdown
    obtain ⟨hopen, hclosed⟩ := closes_of_eof hwf hnread hcases
    cases hreason t (by simpa using hshutdown) hopen hclosed with
    | readError _ _ _ hneg heof henobufs =>
      rcases hnread with h | h
      · exact heof h
      · exact henobufs h
  · intro hno t hshutdown hopen hclosed
    have hlinger : (p.table.tcps t).Lingering := ⟨hshutdown, hopen⟩
    have hclosed' : ¬ (p'.table.tcps t).Lingering :=
      fun h => absurd (h.2.symm.trans hclosed) (by simp)
    cases hcases with
    | outside => exact absurd hlinger hclosed'
    | wakeup => exact absurd hlinger hclosed'
    | loop _ s b took he hacts =>
      obtain ⟨ls, hacts, hls, -⟩ := hacts
      refine absurd (hacts.lingering hwf hlinger fun l hl => ⟨?_, ?_⟩) hclosed'
      · rintro rfl
        exact hls _ hl
      · rw [(hls l hl).torn]
        simp
    | exit order s hexit hact =>
      refine absurd ((Acts.single hact).lingering hwf hlinger ?_) hclosed'
      simp [Label.torn]
    | uv e s hs hacts =>
      obtain ⟨ls, v₁, hquiet, hls, hlast⟩ := hacts
      have hlinger₁ : (v₁.tcps t).Lingering := by
        refine hquiet.lingering hwf hlinger fun l hl => ⟨?_, ?_⟩
        · rintro rfl
          exact (hls _ hl).1
        · rw [(hls l hl).1.torn]
          simp
      rcases hlast with ⟨rfl, -⟩ | ⟨l, hact, hallows, -, htorn⟩
      · exact absurd hlinger₁ hclosed'
      rcases hact.lingering (hquiet.wf hwf) hlinger₁ with h | rfl | h
      · exact absurd h hclosed'
      · cases e with
        | shutdownDone t' =>
          obtain rfl : t' = t := hallows
          exact .shutdownDone
        | _ => exact absurd hallows (by simp [UvEvent.Allows])
      · exact closeReason_of_tearsDown hwf hlinger hs (htorn.trans h) hno

end Pool

/-! ## Runs -/

/-- In a run, `uv_close` is called on a connection whose shutdown was accepted for one of the
reasons only exactly when no such connection reads `UV_EOF` or `UV_ENOBUFS`. -/
theorem graceful_close_iff_no_eof (es : List Event) :
    poolSystem.EachStep Pool.ClosesForReason es ↔
      poolSystem.EachStep (fun p e _ => p.NoEofWhileShutdown e) es :=
  Lib.Lts.eachStep_congr (fun _ _ _ hr hs => Pool.closesForReason_step hr hs) es

/-- The peer half-closes a connection that is shutting down while a write is in flight: the handle
is closed. -/
theorem closed_by_eof_while_shutdown :
    ∃ p p', poolSystem.run (openRun 0 ++ closeRun false) = some p ∧
      poolSystem.step p (.uv (.tcpRead 0 uvEof [] {})) = some p' ∧
      (p.internal.tcps 0).tcp.writes ≠ [] ∧
      ¬ p.ClosesForReason (.uv (.tcpRead 0 uvEof [] {})) p' := by
  refine ⟨(poolSystem.run _).get (by decide), (poolSystem.step _ _).get (by decide),
    (Option.some_get _).symm, (Option.some_get _).symm, by decide, fun h => ?_⟩
  cases h 0 (by decide) (by decide) (by decide) with
  | readError _ _ _ _ heof _ => exact heof rfl

end NetworkPool
