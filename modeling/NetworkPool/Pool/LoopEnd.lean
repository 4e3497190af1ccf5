import NetworkPool.Pool.BlockSteps
import NetworkPool.Pool.Conservation
import NetworkPool.Pool.Owed

/-!
# Behind the exit branch

`uv_run` comes back, and the destructor with it, once libuv has no callback left to run. Behind the
exit branch every callback it owes lowers the count, and reads on an orphaned connection do not
raise it; once no owed callback is left to run everything has been given back (`loop_ends`). An
orphan that keeps being read restarts its timer, so that libuv may go on owing that one.
-/

namespace NetworkPool

open Table Lib.Family

/-! ## Behind the exit branch -/

namespace Table

/-- Nothing is registered, queued or listening, and the objects that still connect are closing. -/
structure Vacated (v : Table) : Prop where
  tcpServers : v.tcpServers = ∅
  node2stream : v.node2stream = ∅
  connecting : v.connecting = ∅
  waitingSend : v.waitingSend = ∅
  listening : ∀ t, (v.tcps t).tcp.listening = false
  connectReq : ∀ t, (v.tcps t).tcp.connectReq.isSome = true → (v.tcps t).closing = true

variable {v v' : Table} {t : ℕ} {c : Ctcp} {batch : List (CnetworkNode × UvBuf)}

theorem Vacated.setTcp (h : v.Vacated) (hlistening : c.tcp.listening = false)
    (hconnect : c.tcp.connectReq.isSome = true → c.closing = true) : (v.setTcp t c).Vacated where
  tcpServers := h.tcpServers
  node2stream := h.node2stream
  connecting := h.connecting
  waitingSend := h.waitingSend
  listening := by
    intro t'
    by_cases heq : t' = t
    · subst heq
      rwa [setTcp_tcps_self]
    · rw [setTcp_tcps_other v heq]
      exact h.listening t'
  connectReq := by
    intro t'
    by_cases heq : t' = t
    · subst heq
      rwa [setTcp_tcps_self]
    · rw [setTcp_tcps_other v heq]
      exact h.connectReq t'

theorem Vacated.emit (h : v.Vacated) (obs : List Obs) : (v.emit obs).Vacated :=
  ⟨h.tcpServers, h.node2stream, h.connecting, h.waitingSend, h.listening, h.connectReq⟩

/-- A teardown. -/
theorem Vacated.teardown (h : v.Vacated) (b : Bool) (hlistening : c.tcp.listening = false)
    (hconnect : c.tcp.connectReq.isSome = true → c.closing = true) :
    (v.teardown t b c).Vacated := by
  have hset : (v.setTcp t c).Vacated := h.setTcp hlistening hconnect
  refine ⟨h.tcpServers, ?_, h.connecting, ?_, hset.listening, hset.connectReq⟩
  · show v.node2stream.erase _ = ∅
    rw [h.node2stream]
    rfl
  · show v.waitingSend.erase _ = ∅
    rw [h.waitingSend]
    rfl

/-- A listener is a server of the pool. -/
theorem Homed.listener (h : v.Homed) (hflags : (v.tcps t).Flags)
    (hl : (v.tcps t).tcp.listening = true) : v.InRegistry t := by
  obtain ⟨htcp, hopen⟩ := hflags.listener hl
  rcases (h t).place htcp hopen with hin | hin | hreg
  · exact .inl hin
  · exact .inr (.inr ⟨_, hin⟩)
  · have hup := ((h t).up hreg hopen).listening
    exact absurd (hup.symm.trans hl) (by simp)

/-- An open object that connects is a pending connect of the pool. -/
theorem Homed.pending (h : v.Homed) (hwf : v.Wf) (hreq : (v.tcps t).tcp.connectReq.isSome = true)
    (hopen : (v.tcps t).closing = false) : v.InRegistry t := by
  obtain ⟨-, htcp, -⟩ := (hwf.tcps t).connectReq hreq
  rcases (h t).place htcp hopen with hin | hin | hreg
  · exact .inl hin
  · exact .inr (.inr ⟨_, hin⟩)
  · rw [((h t).up hreg hopen).connectReq] at hreq
    exact absurd hreq (by simp)

/-- The exit branch closes the listeners and the pending connects. -/
theorem Homed.vacated (h : v.Homed) (hwf : v.Wf) (hflags : ∀ t, (v.tcps t).Flags)
    (hact : Act v (.exit batch) v') : v'.Vacated := by
  cases hact with
  | exit batch streams connecting queues tcps hstreams hconnecting hqueues htcps =>
    refine ⟨rfl, rfl, rfl, rfl, fun t => ?_, fun t => ?_⟩
    · show (tcps t).tcp.listening = false
      cases hl : (v.tcps t).tcp.listening with
      | true =>
        obtain ⟨htcp, hopen⟩ := (hflags t).listener hl
        have hin := h.listener (hflags t) hl
        rw [((htcps t).resolve_right fun hout => hout.1 hin).2, Ctcp.afterClose_of_open htcp hopen]
      | false =>
        rcases htcps t with ⟨-, heq⟩ | ⟨-, heq⟩
        · rw [heq]
          exact Ctcp.afterClose_listening hl
        · rw [heq, hl]
    · show (tcps t).tcp.connectReq.isSome = true → (tcps t).closing = true
      rcases htcps t with ⟨-, heq⟩ | ⟨hout, heq⟩
      · rw [heq, Ctcp.afterClose_connectReq]
        intro hreq
        obtain ⟨-, htcp, -⟩ := (hwf.tcps t).connectReq hreq
        exact Ctcp.afterClose_closing fun _ => htcp
      · rw [heq]
        intro hreq
        by_contra hopen
        exact hout (h.pending hwf hreq (by simpa using hopen))

end Table

/-- Callbacks enter nothing once everything is closed. -/
theorem Act.vacated {v v' : Table} {l : Label} (hact : Act v l v') (hl : l.Late) (h : v.Vacated) :
    v'.Vacated := by
  cases hact with
  | touch t c hc =>
    obtain ⟨-, hclosing, -, hconnect, -, hlistening, -⟩ := hc.same
    apply h.setTcp
    · rw [hlistening]
      exact h.listening t
    · rw [hconnect, hclosing]
      exact h.connectReq t
  | message t data hreading => exact h.emit _
  | written t w hw | lost t w hw =>
    have hset : (v.setTcp t ((v.tcps t).takeWrite w)).Vacated :=
      h.setTcp (h.listening t) (h.connectReq t)
    exact hset.emit _
  | teardown t hlistening hconnect =>
    apply h.teardown false (Ctcp.afterClose_listening hlistening)
    intro _
    exact Ctcp.afterClose_closing hconnect
  | connectFail t armed hreq harmed =>
    have herase : Table.Vacated { v with connecting := v.connecting.erase t } := by
      refine ⟨h.tcpServers, h.node2stream, ?_, h.waitingSend, h.listening, h.connectReq⟩
      rw [h.connecting]
      rfl
    set c := if armed then (v.tcps t).connectDone.arm .idle else (v.tcps t).connectDone with hc
    -- the connect is over, whether the timer was started or not
    have hdone : c.tcp.listening = false ∧ c.tcp.connectReq = none := by
      have hlistening : (v.tcps t).tcp.listening = false := h.listening t
      cases armed <;> exact ⟨hlistening, rfl⟩
    have hset : (({ v with connecting := v.connecting.erase t } : Table).setTcp t c).Vacated := by
      apply herase.setTcp hdone.1
      rw [hdone.2]
      simp
    apply hset.teardown true (Ctcp.afterClose_listening hdone.1)
    rw [Ctcp.afterClose_connectReq, hdone.2]
    simp
  | connectUp t ok v' hreq hclosing hstart =>
    exact absurd (hclosing.symm.trans (h.connectReq t hreq)) (by simp)
  | shutdownDone t hreq =>
    set c : Ctcp := { v.tcps t with tcp := { (v.tcps t).tcp with shutdownReq := none } }
    have hlistening : c.tcp.listening = false := h.listening t
    apply h.setTcp (Ctcp.afterClose_listening hlistening)
    rw [Ctcp.afterClose_connectReq]
    intro hconnect
    have hclosing : c.closing = true := h.connectReq t hconnect
    rwa [Ctcp.afterClose_of_closing hclosing]
  | dead c hc =>
    have hset : (v.setTcp v.nextTcp c).Vacated := by
      apply h.setTcp hc.listening
      rw [hc.connectReq]
      simp
    exact ⟨hset.tcpServers, hset.node2stream, hset.connecting, hset.waitingSend, hset.listening,
      hset.connectReq⟩
  | _ => exact absurd hl (by simp [Label.Late])

theorem Acts.vacated {v v' : Table} {ls : List Label} (hacts : Acts v ls v')
    (hls : ∀ l ∈ ls, l.Late) (h : v.Vacated) : v'.Vacated := by
  induction hacts with
  | nil => exact h
  | cons hact _ ih =>
    apply ih fun l hl => hls l (List.mem_cons_of_mem _ hl)
    exact hact.vacated (hls _ (List.mem_cons_self ..)) h

namespace Pool

/-- The state of the pool from the exit branch on, orphans or not. -/
structure Leaving (p : Pool) : Prop where
  table : p.table.Vacated
  udpServers : p.internal.udpServers = []
  async : p.internal.async.closing = true
  batch : p.batch = none

variable {p p₁ p' : Pool} {e : Event} {order : ExitOrder}

/-- The exit branch. -/
theorem leaving_of_exit (hr : poolSystem.Reachable p) (hexit : p.exchanged.bWantExit = true)
    (hstep : poolSystem.step p (.dispatch order) = some p₁) : p₁.Leaving := by
  obtain ⟨b, henum, heq⟩ := exit_cases hexit hstep
  have hrest := exitAll_rest order b (served_of_reachable hr).async
  have hact : Act p.table (.exit (b.sendCopy.map PendingSend.message)) p₁.table := by
    rw [heq]
    exact exitAll_act henum b
  refine ⟨(homed_of_reachable hr).vacated (wf_of_reachable hr) (life_of_reachable hr).flags hact,
    ?_, ?_, ?_⟩ <;> rw [heq]
  · exact hrest.1
  · exact hrest.2

/-- The timer of a connection that is still open runs. -/
theorem Leaving.armed (h : p.Leaving) (hr : poolSystem.Reachable p) {t : ℕ}
    (htcp : (p.internal.tcps t).tcpInited = true) (hopen : (p.internal.tcps t).closing = false) :
    (p.internal.tcps t).timer.armed.isSome = true :=
  (watched_of_reachable hr ⟨hopen, h.table.listening t⟩).armed htcp

/-- **One callback behind the exit branch.** A callback that `owed` counts lowers it, and the others
do not raise it. -/
theorem Leaving.owed {s' : Internal} {e : UvEvent} (h : p.Leaving) (hr : poolSystem.Reachable p)
    (hs : uvStep p.internal e = some s') : s'.owed + e.due.toNat ≤ p.internal.owed := by
  have hwf : ∀ t, (p.internal.tcps t).Wf := (wf_of_reachable hr).tcps
  have hlife := life_of_reachable hr
  have htidy := tidy_of_reachable hr
  cases e with
  | newConnection server status env =>
    have hlistening : (p.internal.tcps server).tcp.listening = false := h.table.listening server
    simp [uvStep, hlistening] at hs
  | connectDone t status env =>
    simp only [uvStep, Option.ite_none_right_eq_some, Option.some.injEq] at hs
    obtain ⟨hreq, rfl⟩ := hs
    obtain ⟨-, htcp, -⟩ := (hwf t).connectReq hreq
    apply (sets_onConnectDone env status (h.table.connectReq t hreq)).owed (hlife.lt_nextTcp htcp)
    have hdone := Ctcp.owed_connectDone hreq
    have hclose := Ctcp.owed_afterClose (p.internal.tcps t).connectDone
    show (p.internal.tcps t).connectDone.afterClose.owed + 1 ≤ (p.internal.tcps t).owed
    omega
  | tcpRead t nread data env =>
    simp only [uvStep, Option.ite_none_right_eq_some, Option.some.injEq] at hs
    obtain ⟨⟨hreading, -⟩, rfl⟩ := hs
    obtain ⟨-, -, -, htcp, -⟩ := (hwf t).reading hreading
    obtain ⟨c, hsets, hle⟩ := sets_onTcpRead env nread data (h.armed hr htcp)
    exact hsets.owed (hlife.lt_nextTcp htcp) hle
  | writeDone t req status env =>
    simp only [uvStep] at hs
    split at hs
    · rename_i w hfind
      obtain rfl := Option.some.inj hs
      have hw : w ∈ (p.internal.tcps t).tcp.writes := List.mem_of_find?_eq_some hfind
      obtain ⟨-, -, htcp, -⟩ := (hwf t).writes (List.ne_nil_of_mem hw)
      obtain ⟨c, hsets, hle⟩ := sets_onTcpWriteDone
        (p.internal.sets_setTcp t ((p.internal.tcps t).takeWrite w)) env w status (h.armed hr htcp)
      apply hsets.owed (hlife.lt_nextTcp htcp)
      have htake := Ctcp.owed_takeWrite hw
      show c.owed + 1 ≤ (p.internal.tcps t).owed
      omega
    · exact absurd hs (by simp)
  | timeout t =>
    simp only [uvStep, Option.ite_none_right_eq_some, Option.some.injEq] at hs
    obtain ⟨harmed, rfl⟩ := hs
    obtain ⟨-, htcp, -⟩ := (hwf t).armed harmed
    have hsets := (p.internal.sets_setTcp t { p.internal.tcps t with
      timer := { (p.internal.tcps t).timer with armed := none } }).teardown {} false
    apply hsets.owed (hlife.lt_nextTcp htcp)
    have hfired := Ctcp.owed_fired harmed
    have hclose := Ctcp.owed_afterClose { p.internal.tcps t with
      timer := { (p.internal.tcps t).timer with armed := none } }
    exact (Nat.succ_le_succ hclose).trans hfired.le
  | shutdownDone t =>
    simp only [uvStep, Option.ite_none_right_eq_some, Option.some.injEq] at hs
    obtain ⟨hreq, rfl⟩ := hs
    obtain ⟨-, htcp⟩ := (hwf t).shutdownReq hreq
    apply (sets_onShutdown p.internal t).owed (hlife.lt_nextTcp htcp)
    have hdone := Ctcp.owed_shutdownDone hreq
    have hclose := Ctcp.owed_afterClose { p.internal.tcps t with
      tcp := { (p.internal.tcps t).tcp with shutdownReq := none } }
    exact (Nat.succ_le_succ hclose).trans hdone.le
  | tcpClosed t =>
    simp only [uvStep, Option.ite_none_right_eq_some, Option.some.injEq] at hs
    obtain ⟨⟨hclosing, hclosed, -⟩, rfl⟩ := hs
    have htcp : (p.internal.tcps t).tcpInited = true := by
      have hflag := (hlife.flags t).tcpClosed
      rw [hclosing] at hflag
      simpa [hflag] using hclosed
    apply (sets_onTcpClosed p.internal t).owed (hlife.lt_nextTcp htcp)
    exact (Ctcp.owed_tcpClosed htcp).le
  | timerClosed t =>
    simp only [uvStep, Option.ite_none_right_eq_some, Option.some.injEq] at hs
    obtain ⟨⟨hclosing, hclosed⟩, rfl⟩ := hs
    have htimer : (p.internal.tcps t).timerInited = true := by
      have hflag := (hlife.flags t).timerClosed
      rw [hclosing] at hflag
      simpa [hflag] using hclosed
    have ht : t < p.internal.nextTcp := by
      by_contra hge
      rw [(hlife.fresh t (by omega)).1] at htimer
      exact absurd htimer (by simp)
    apply (sets_onTimerClosed p.internal t).owed ht
    exact (Ctcp.owed_timerClosed htimer).le
  | drained t n =>
    simp only [uvStep, Option.ite_none_right_eq_some, Option.some.injEq] at hs
    obtain ⟨-, rfl⟩ := hs
    have htotal : total Ctcp.owed (Function.update p.internal.tcps t { p.internal.tcps t with
        tcp := { (p.internal.tcps t).tcp with
          writeQueueSize := (p.internal.tcps t).tcp.writeQueueSize - n } }) p.internal.nextTcp =
        total Ctcp.owed p.internal.tcps p.internal.nextTcp := total_update_of_eq rfl
    exact (congrArg (fun k => k + total Cudp.owed p.internal.udps p.internal.nextUdp +
      p.internal.async.owed) htotal).le
  | udpRecv u nread data addr =>
    simp only [uvStep, Option.ite_none_right_eq_some, Option.some.injEq] at hs
    obtain ⟨-, rfl⟩ := hs
    unfold onUdpRecv
    split_ifs
    · exact le_rfl
    · cases addr <;> exact le_rfl
  | udpSendDone u req status =>
    simp only [uvStep] at hs
    split at hs
    · rename_i w hfind
      obtain rfl := Option.some.inj hs
      have hw : w ∈ (p.internal.udps u).sends := List.mem_of_find?_eq_some hfind
      have hu : u < p.internal.nextUdp := by
        by_contra hge
        rw [hlife.freshUdp u (by omega)] at hw
        exact absurd hw (by simp)
      have hlength := List.length_erase_add_one hw
      have howed : Cudp.owed { p.internal.udps u with sends := (p.internal.udps u).sends.erase w } +
          1 ≤ (p.internal.udps u).owed := by
        unfold Cudp.owed
        dsimp only
        omega
      unfold onUdpSendDone
      dsimp only
      split_ifs <;> exact owed_setUdp hu rfl rfl rfl rfl rfl howed
    · exact absurd hs (by simp)
  | udpClosed u =>
    simp only [uvStep, Option.ite_none_right_eq_some, Option.some.injEq] at hs
    obtain ⟨⟨hclosing, hclosed, -⟩, rfl⟩ := hs
    have hu : u < p.internal.nextUdp := htidy.inited u (htidy.closing u hclosing)
    have howed : Cudp.owed { p.internal.udps u with closed := true } + 1 ≤
        (p.internal.udps u).owed := by
      unfold Cudp.owed
      simp [hclosing, hclosed]
    exact owed_setUdp hu rfl rfl rfl rfl rfl howed
  | asyncClosed =>
    simp only [uvStep, Option.ite_none_right_eq_some, Option.some.injEq] at hs
    obtain ⟨⟨hclosing, hclosed⟩, rfl⟩ := hs
    have hone : p.internal.async.owed = 1 := by
      unfold Casync.owed
      simp [hclosing, hclosed]
    have hzero : (Casync.onClosed p.internal).async.owed = 0 := by
      show (p.internal.async.closing && !true).toNat = 0
      simp
    unfold Internal.owed
    rw [hone, hzero]
    exact le_rfl

theorem Leaving.uv {s' : Internal} {e : UvEvent} (h : p.Leaving) (hr : poolSystem.Reachable p)
    (hs : uvStep p.internal e = some s') : ({ p with internal := s' } : Pool).Leaving := by
  have hwf := wf_of_reachable hr
  have he : ∀ server status env, e ≠ .newConnection server status env := by
    rintro server status env rfl
    have hlistening : (p.internal.tcps server).tcp.listening = false := h.table.listening server
    simp [uvStep, hlistening] at hs
  have hservers := uvStep_servers hs
  refine ⟨?_, hservers.udpServers.trans h.udpServers, hservers.closing.trans h.async, h.batch⟩
  obtain ⟨ls, v₁, hacts, hls, hlast⟩ := uvStep_acts hwf hs
  have hvacated := hacts.vacated (fun l hl => (hls l hl).2.late he) h.table
  rcases hlast with ⟨rfl, -⟩ | ⟨l, hact, hallows, -⟩
  · exact hvacated
  · exact hact.vacated (hallows.late he) hvacated

/-- **Every step behind the exit branch.** -/
theorem Leaving.step (h : p.Leaving) (hr : poolSystem.Reachable p)
    (hstep : poolSystem.step p e = some p') :
    p'.Leaving ∧ p'.internal.owed + e.due.toNat ≤ p.internal.owed := by
  have hasync := h.async
  have hbatch := h.batch
  cases e with
  | bind node bBind | send node data bAutoConnect | close node bForceClose | wantExit =>
    obtain rfl := Option.some.inj hstep
    exact ⟨⟨h.table, h.udpServers, h.async, h.batch⟩, le_rfl⟩
  | wakeup => exact absurd hstep (by simp [poolSystem, Pool.step, hbatch, hasync])
  | dispatch | bindNext | sendNext | closeNext | wakeupDone =>
    exact absurd hstep (by simp [poolSystem, Pool.step, hbatch])
  | uv e =>
    simp only [poolSystem, Pool.step, hbatch] at hstep
    cases hs : uvStep p.internal e with
    | none => exact absurd hstep (by simp [hs])
    | some s =>
      obtain rfl : ({ p with internal := s } : Pool) = p' := by simpa [hs, hbatch] using hstep
      exact ⟨h.uv hr hs, h.owed hr hs⟩

/-! ## The end -/

/-- Everything the pool allocated is given back: the objects are deleted, and the requests and the
blocks of the messages freed once; and every message for a TCP node was written or dropped, once.
What was sent behind the exit branch is still in the pending queue, and goes with it. -/
structure Released (p : Pool) : Prop where
  tcps : ∀ t, t < p.internal.nextTcp → .delete (.tcp t) ∈ p.internal.trace
  udps : ∀ u, u < p.internal.nextUdp → .delete (.udp u) ∈ p.internal.trace
  async : .delete .async ∈ p.internal.trace
  requests : ∀ req, req < p.internal.nextReq → p.internal.trace.count (.freeReq req) = 1
  blocks : ∀ b, b < p.exchanged.accepted.length →
    p.pendingBlocks.count b + p.internal.trace.count (.freeBuf b) = 1
  messages : ∀ m ∈ p.acceptedMessages, m.1.IsTcp →
    p.pendingMessages.count m + (written p.internal.trace).count m +
      (dropped p.internal.trace).count m = 1

/-- libuv has nothing to call back. -/
def Stuck (p : Pool) : Prop :=
  ∀ e : UvEvent, e.due = true → uvStep p.internal e = none

section Stuck

variable {t u : ℕ}

/-- Nothing is pending on a connection, and its timer is off. -/
theorem Stuck.idle (h : p.Stuck) (t : ℕ) :
    (p.internal.tcps t).tcp.connectReq = none ∧ (p.internal.tcps t).tcp.shutdownReq = none ∧
      (p.internal.tcps t).tcp.writes = [] ∧ (p.internal.tcps t).timer.armed = none := by
  refine ⟨?_, ?_, ?_, ?_⟩
  · have hnone := h (.connectDone t 0 {}) rfl
    simpa [uvStep] using hnone
  · have hnone := h (.shutdownDone t) rfl
    simpa [uvStep] using hnone
  · apply List.eq_nil_iff_forall_not_mem.mpr
    intro w hw
    have hnone := h (.writeDone t w.req 0 {}) rfl
    simp only [uvStep] at hnone
    split at hnone
    · exact absurd hnone (by simp)
    · rename_i hfind
      have hne := List.find?_eq_none.mp hfind w hw
      simp at hne
  · have hnone := h (.timeout t) rfl
    simpa [uvStep] using hnone

theorem Stuck.sends (h : p.Stuck) (u : ℕ) : (p.internal.udps u).sends = [] := by
  apply List.eq_nil_iff_forall_not_mem.mpr
  intro w hw
  have hnone := h (.udpSendDone u w.req 0) rfl
  simp only [uvStep] at hnone
  split at hnone
  · exact absurd hnone (by simp)
  · rename_i hfind
    have hne := List.find?_eq_none.mp hfind w hw
    simp at hne

/-- The handles of a connection are closed. -/
theorem Leaving.tcp_deleted (h : p.Leaving) (hr : poolSystem.Reachable p) (hstuck : p.Stuck)
    (ht : t < p.internal.nextTcp) : .delete (.tcp t) ∈ p.internal.trace := by
  have hlife := life_of_reachable hr
  have hflags := hlife.flags t
  have hwf : (p.internal.tcps t).Wf := (wf_of_reachable hr).tcps t
  obtain ⟨hconnect, hshutdown, hwrites, harmed⟩ := hstuck.idle t
  -- an open connection would wait for its timer
  have hclosing : (p.internal.tcps t).tcpInited = true → (p.internal.tcps t).closing = true := by
    intro htcp
    by_contra hopen
    have hsome := h.armed hr htcp (by simpa using hopen)
    rw [harmed] at hsome
    exact absurd hsome (by simp)
  have htcp : (p.internal.tcps t).tcpInited = false := by
    by_contra htcp
    have htcp : (p.internal.tcps t).tcpInited = true := by simpa using htcp
    have hstream := hflags.tcpInited (hclosing htcp) htcp
    have hclosed := hflags.tcpClosed
    rw [htcp, Bool.not_true, Bool.and_false] at hclosed
    have hnone := hstuck (.tcpClosed t) rfl
    simp [uvStep, hstream, hclosed, hconnect, hshutdown, hwrites] at hnone
  have htimer : (p.internal.tcps t).timerInited = false := by
    by_contra htimer
    have htimer : (p.internal.tcps t).timerInited = true := by simpa using htimer
    have hclosing' : (p.internal.tcps t).closing = true := by
      by_contra hopen
      have hinited := hwf.inited (by simpa using hopen) htimer
      exact absurd (htcp.symm.trans hinited) (by simp)
    have hstop := hflags.timerInited hclosing' htimer
    have hclosed := hflags.timerClosed
    rw [htimer, Bool.not_true, Bool.and_false] at hclosed
    have hnone := hstuck (.timerClosed t) rfl
    simp [uvStep, hstop, hclosed] at hnone
  have hhistory := hlife.history t ht
  rw [Ctcp.history_of_deleted t htcp htimer] at hhistory
  have hmem : Obs.delete (.tcp t) ∈ p.internal.trace.filter (Obs.about t) := by
    rw [hhistory]
    exact List.mem_append_right _ (List.mem_singleton_self _)
  exact (List.mem_filter.mp hmem).1

/-- The UDP sockets are closed. -/
theorem Leaving.udp_deleted (h : p.Leaving) (hr : poolSystem.Reachable p) (hstuck : p.Stuck)
    (hu : u < p.internal.nextUdp) : .delete (.udp u) ∈ p.internal.trace := by
  by_contra hdel
  have hserved := served_of_reachable hr
  have hclosing : (p.internal.udps u).closing = true := by
    by_contra hopen
    have hin := hserved.udpServers u (by simp) (hserved.inited u hu hdel) (by simpa using hopen)
    rw [h.udpServers] at hin
    exact absurd hin (by simp)
  have hopen : (p.internal.udps u).closed = false := by
    by_contra hclosed
    exact hdel ((tidy_of_reachable hr).closed u (by simpa using hclosed))
  have hnone := hstuck (.udpClosed u) rfl
  simp [uvStep, hclosing, hopen, hstuck.sends u] at hnone

/-- Nothing is left. -/
theorem Leaving.released (h : p.Leaving) (hr : poolSystem.Reachable p) (hstuck : p.Stuck) :
    p.Released where
  tcps := fun _ ht => h.tcp_deleted hr hstuck ht
  udps := fun _ hu => h.udp_deleted hr hstuck hu
  async := by
    by_contra hdel
    have hopen : p.internal.async.closed = false := by
      by_contra hclosed
      exact hdel ((tidy_of_reachable hr).async (by simpa using hclosed))
    have hnone := hstuck .asyncClosed rfl
    simp [uvStep, h.async, hopen] at hnone
  requests := by
    intro req hreq
    have htcps : total Ctcp.requests p.internal.tcps p.internal.nextTcp = 0 := by
      apply total_eq_zero
      intro t
      obtain ⟨hconnect, hshutdown, hwrites, -⟩ := hstuck.idle t
      unfold Ctcp.requests
      rw [hconnect, hshutdown, hwrites]
      rfl
    have hudps : total Cudp.requests p.internal.udps p.internal.nextUdp = 0 := by
      apply total_eq_zero
      intro u
      unfold Cudp.requests
      rw [hstuck.sends u]
      rfl
    have hcount := request_count hr req
    have hnone : p.internal.requests.count req = 0 := by
      unfold Internal.requests
      rw [htcps, hudps]
      rfl
    rwa [hnone, if_pos hreq, Nat.zero_add] at hcount
  blocks := by
    intro b hb
    have htcps : total Ctcp.blocks p.internal.tcps p.internal.nextTcp = 0 := by
      apply total_eq_zero
      intro t
      obtain ⟨-, -, hwrites, -⟩ := hstuck.idle t
      unfold Ctcp.blocks
      rw [hwrites]
      rfl
    have hudps : total Cudp.blocks p.internal.udps p.internal.nextUdp = 0 := by
      apply total_eq_zero
      intro u
      unfold Cudp.blocks
      rw [hstuck.sends u]
      rfl
    have hwaiting : p.internal.waitingSend = ∅ := h.table.waitingSend
    have hcount := block_count hr b
    have hbatch : p.batchBlocks.count b = 0 := by
      unfold batchBlocks
      rw [h.batch]
      rfl
    have hnone : p.internal.blocks.count b = 0 := by
      unfold Internal.blocks
      rw [htcps, hudps, hwaiting]
      rfl
    rwa [hbatch, hnone, if_pos hb, Nat.add_zero] at hcount
  messages := by
    intro m hm htcp
    have hflight : inFlightCount p.internal.tcps p.internal.nextTcp m = 0 := by
      apply Finset.sum_eq_zero
      intro t _
      obtain ⟨-, -, hwrites, -⟩ := hstuck.idle t
      unfold Ctcp.inFlight
      rw [hwrites]
      rfl
    have hwaiting : p.internal.waitingSend = ∅ := h.table.waitingSend
    have hbatch : p.batchMessages = [] := by
      unfold batchMessages
      rw [h.batch]
    have hcount := message_count hr hm htcp
    rw [hwaiting, hbatch, hflight] at hcount
    simpa [add_assoc] using hcount

/-- Nothing is owed. -/
theorem Leaving.stuck (h : p.Leaving) (hr : poolSystem.Reachable p) (hzero : p.internal.owed = 0) :
    p.Stuck := by
  intro e he
  by_contra hstep
  obtain ⟨s', hs⟩ := Option.ne_none_iff_exists'.mp hstep
  have hle := h.owed hr hs
  rw [he, hzero, Bool.toNat_true] at hle
  omega

end Stuck

end Pool

/-- **The exit branch gives everything back.** From it on, the callbacks that libuv owes are run at
most as often as they were owed at that time, in whatever order they come and whatever is read, sent
or requested in between. Once no owed callback is left to run, every object is deleted, and every
request and every block of a message that was taken from the queue has been freed, once. -/
theorem loop_ends {p p₁ : Pool} {order : ExitOrder} (hr : poolSystem.Reachable p)
    (hexit : p.exchanged.bWantExit = true)
    (hstep : poolSystem.step p (.dispatch order) = some p₁) :
    ∀ es p₂, poolSystem.exec p₁ es = some p₂ →
      es.countP Event.due + p₂.internal.owed ≤ p₁.internal.owed ∧ (p₂.Stuck → p₂.Released) := by
  intro es p₂ hexec
  have hstart := Pool.leaving_of_exit hr hexit hstep
  have hbudget : poolSystem.Reachable p₂ ∧ p₂.Leaving ∧ es.countP Event.due + p₂.internal.owed ≤
      p₁.internal.owed + 0 * es.countP fun _ => false :=
    Lib.Lts.exec_budget (f := fun p => p.internal.owed) hexec (hr.step hstep) hstart
      fun p e p' hr h hs => h.step hr hs
  obtain ⟨hr₂, h₂, hcount⟩ := hbudget
  rw [Nat.zero_mul] at hcount
  exact ⟨hcount, h₂.released hr₂⟩

/-- A run that ends in `on_wakeup` with `m_bWantExit` set: an orphan is open, and another connection
closes with a write and a shutdown pending. -/
def orphanRun : List Event :=
  openRun 0 ++ closeRun false ++ openRun 1 ++ [.uv (.drained 1 1), .uv (.writeDone 1 4 0 {}),
    .uv (.tcpRead 0 uvEof [] {}), .wantExit, .wakeup]

/-- What libuv calls back behind it. -/
def lastCallbacks : List Event :=
  [.uv (.tcpRead 1 1 [0] {}), .uv (.writeDone 0 1 (-125) {}), .uv (.shutdownDone 0),
    .uv (.tcpClosed 0), .uv (.timerClosed 0), .uv (.timeout 1), .uv (.tcpClosed 1),
    .uv (.timerClosed 1), .uv .asyncClosed]

theorem loop_ends_orphan :
    ∃ p p₁ p₂, poolSystem.run orphanRun = some p ∧
      poolSystem.step p (.dispatch ⟨[], [], [], []⟩) = some p₁ ∧
      (p₁.internal.tcps 1).closing = false ∧
      poolSystem.exec p₁ lastCallbacks = some p₂ ∧ p₂.Released := by
  have hcheck : ((poolSystem.run orphanRun).bind fun p =>
      (poolSystem.step p (.dispatch ⟨[], [], [], []⟩)).bind fun p₁ =>
        (poolSystem.exec p₁ lastCallbacks).map fun _ =>
          decide (p.exchanged.bWantExit = true ∧ p₁.internal.owed = 8 ∧
            (p₁.internal.tcps 1).closing = false)) = some true := by decide +kernel
  obtain ⟨p, hrun, hcheck⟩ := Option.bind_eq_some_iff.mp hcheck
  obtain ⟨p₁, hstep, hcheck⟩ := Option.bind_eq_some_iff.mp hcheck
  obtain ⟨p₂, hexec, hcheck⟩ := Option.map_eq_some_iff.mp hcheck
  obtain ⟨hexit, howed, hopen⟩ := of_decide_eq_true hcheck
  have hr := Lib.Lts.reachable_of_run hrun
  obtain ⟨hcount, hreleased⟩ := loop_ends hr hexit hstep lastCallbacks p₂ hexec
  -- eight callbacks were owed, and eight ran
  have hdue : lastCallbacks.countP Event.due = 8 := by decide
  have hzero : p₂.internal.owed = 0 := by omega
  obtain ⟨hr₂, h₂⟩ := Lib.Lts.exec_invariant hexec (hr.step hstep)
    (Pool.leaving_of_exit hr hexit hstep) fun p e p' hr h hs => (h.step hr hs).1
  exact ⟨p, p₁, p₂, hrun, hstep, hopen, hexec, hreleased (h₂.stuck hr₂ hzero)⟩

end NetworkPool
