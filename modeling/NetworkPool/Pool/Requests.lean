import Mathlib.Algebra.Order.Group.Multiset
import NetworkPool.Lib.Family
import NetworkPool.Pool.Lifecycle

/-!
# Request blocks and handles

Every request block allocated for libuv is, at any time, in exactly one place: in the hands of the
running callback, pending on a handle, or freed (`Ledger`).
-/

namespace NetworkPool

open Table Lib.Family

/-! ## Places -/

/-- The requests pending on a connection. -/
def Ctcp.requests (c : Ctcp) : Multiset ℕ :=
  (c.tcp.connectReq.toList : Multiset ℕ) + (c.tcp.shutdownReq.toList : Multiset ℕ) +
    (c.tcp.writes.map WriteWithInfo.req : Multiset ℕ)

namespace Ctcp

variable {c : Ctcp} {req : ℕ}

theorem requests_connect (hreq : c.tcp.connectReq = none) :
    Ctcp.requests { c with tcp := { c.tcp with connectReq := some req } } = c.requests + {req} := by
  unfold requests
  dsimp only
  rw [hreq, Option.toList_some, Option.toList_none, Multiset.coe_singleton, Multiset.coe_nil]
  ac_rfl

theorem requests_connectDone (hreq : c.tcp.connectReq = some req) :
    c.requests = c.connectDone.requests + {req} := by
  unfold requests connectDone
  dsimp only
  rw [hreq, Option.toList_some, Option.toList_none, Multiset.coe_singleton, Multiset.coe_nil]
  ac_rfl

theorem requests_shutdown (hreq : c.tcp.shutdownReq = none) :
    Ctcp.requests { c with tcp := { c.tcp with shutdownReq := some req }, shutdown := true } =
      c.requests + {req} := by
  unfold requests
  dsimp only
  rw [hreq, Option.toList_some, Option.toList_none, Multiset.coe_singleton, Multiset.coe_nil]
  ac_rfl

theorem requests_shutdownDone (hreq : c.tcp.shutdownReq = some req) :
    c.requests = Ctcp.requests { c with tcp := { c.tcp with shutdownReq := none } } + {req} := by
  unfold requests
  dsimp only
  rw [hreq, Option.toList_some, Option.toList_none, Multiset.coe_singleton, Multiset.coe_nil]
  ac_rfl

theorem requests_write (w : WriteWithInfo) (n : ℕ) :
    Ctcp.requests { c with tcp := { c.tcp with
      writes := c.tcp.writes ++ [w], writeQueueSize := n } } = c.requests + {w.req} := by
  unfold requests
  dsimp only
  rw [List.map_append, ← Multiset.coe_add, ← add_assoc]
  rfl

end Ctcp

/-- A request taken from a list of writes. -/
theorem coe_map_req {ws : List WriteWithInfo} {w : WriteWithInfo} (hw : w ∈ ws) :
    (ws.map WriteWithInfo.req : Multiset ℕ) =
      ((ws.erase w).map WriteWithInfo.req : Multiset ℕ) + {w.req} := by
  have hperm : (ws.map WriteWithInfo.req).Perm (w.req :: (ws.erase w).map WriteWithInfo.req) :=
    (List.perm_cons_erase hw).map WriteWithInfo.req
  rw [Multiset.coe_eq_coe.mpr hperm, ← Multiset.cons_coe, ← Multiset.singleton_add, add_comm]

theorem Ctcp.requests_takeWrite {c : Ctcp} {w : WriteWithInfo} (hw : w ∈ c.tcp.writes) :
    c.requests = (c.takeWrite w).requests + {w.req} := by
  unfold requests takeWrite
  dsimp only
  rw [coe_map_req hw]
  ac_rfl

/-- The requests pending on a UDP socket. -/
def Cudp.requests (c : Cudp) : Multiset ℕ :=
  (c.sends.map WriteWithInfo.req : Multiset ℕ)

/-- The requests pending on the handles of the pool. -/
def Internal.requests (s : Internal) : Multiset ℕ :=
  total Ctcp.requests s.tcps s.nextTcp + total Cudp.requests s.udps s.nextUdp

/-- The request an entry frees. -/
def freedOf : Obs → Option ℕ
  | .freeReq req => some req
  | _ => none

/-- The requests freed so far. -/
def freed (tr : List Obs) : Multiset ℕ :=
  (tr.filterMap freedOf : Multiset ℕ)

@[simp] theorem freed_append (a b : List Obs) : freed (a ++ b) = freed a + freed b := by
  simp [freed, List.filterMap_append]

theorem count_freed (req : ℕ) (tr : List Obs) : (freed tr).count req = tr.count (.freeReq req) := by
  unfold freed
  rw [Multiset.coe_count]
  induction tr with
  | nil => rfl
  | cons o tr ih =>
    cases o with
    | freeReq r =>
      have hcons : (Obs.freeReq r :: tr).filterMap freedOf = r :: tr.filterMap freedOf := rfl
      rw [hcons, List.count_cons, List.count_cons, ih]
      simp
    | _ =>
      rw [List.filterMap_cons_none rfl, List.count_cons_of_ne (by simp)]
      exact ih

/-- Entries that free nothing. -/
theorem freed_of_not_free {tr obs : List Obs} (h : ∀ o ∈ obs, freedOf o = none) :
    freed (tr ++ obs) = freed tr := by
  have hnil : freed obs = 0 := by
    unfold freed
    rw [List.filterMap_eq_nil_iff.mpr h]
    rfl
  rw [freed_append, hnil, add_zero]

/-! ## The requests of a pool -/

namespace Internal

variable {s : Internal} {t u req : ℕ} {c : Ctcp} {d : Cudp}

theorem requests_setTcp (hc : c.requests = (s.tcps t).requests) :
    (s.setTcp t c).requests = s.requests :=
  congrArg (· + total Cudp.requests s.udps s.nextUdp) (total_update_of_eq hc)

theorem requests_put (ht : t < s.nextTcp) (hc : c.requests = (s.tcps t).requests + {req}) :
    (s.setTcp t c).requests = s.requests + {req} := by
  have hput : (s.setTcp t c).requests =
      total Ctcp.requests s.tcps s.nextTcp + {req} + total Cudp.requests s.udps s.nextUdp :=
    congrArg (· + total Cudp.requests s.udps s.nextUdp) (total_put ht hc)
  rw [hput, add_right_comm]
  rfl

theorem requests_take (ht : t < s.nextTcp) (hc : (s.tcps t).requests = c.requests + {req}) :
    (s.setTcp t c).requests + {req} = s.requests := by
  have htake : total Ctcp.requests (s.setTcp t c).tcps s.nextTcp + {req} =
      total Ctcp.requests s.tcps s.nextTcp := total_take ht hc
  have hdef : (s.setTcp t c).requests = total Ctcp.requests (s.setTcp t c).tcps s.nextTcp +
      total Cudp.requests s.udps s.nextUdp := rfl
  rw [hdef, add_right_comm, htake]
  rfl

/-- A new object has no requests. -/
theorem requests_newTcp (hc : c.requests = 0) :
    ({ s with nextTcp := s.nextTcp + 1 }.setTcp s.nextTcp c).requests = s.requests := by
  have hnew : total Ctcp.requests (Function.update s.tcps s.nextTcp c) (s.nextTcp + 1) =
      total Ctcp.requests s.tcps s.nextTcp := by
    rw [total_new, hc, add_zero]
  exact congrArg (· + total Cudp.requests s.udps s.nextUdp) hnew

theorem requests_setUdp (hd : d.requests = (s.udps u).requests) :
    (s.setUdp u d).requests = s.requests :=
  congrArg (total Ctcp.requests s.tcps s.nextTcp + ·) (total_update_of_eq hd)

theorem requests_putUdp (hu : u < s.nextUdp) (hd : d.requests = (s.udps u).requests + {req}) :
    (s.setUdp u d).requests = s.requests + {req} := by
  have hput : (s.setUdp u d).requests =
      total Ctcp.requests s.tcps s.nextTcp + (total Cudp.requests s.udps s.nextUdp + {req}) :=
    congrArg (total Ctcp.requests s.tcps s.nextTcp + ·) (total_put hu hd)
  rw [hput, ← add_assoc]
  rfl

theorem requests_takeUdp (hu : u < s.nextUdp) (hd : (s.udps u).requests = d.requests + {req}) :
    (s.setUdp u d).requests + {req} = s.requests := by
  have htake : total Cudp.requests (s.setUdp u d).udps s.nextUdp + {req} =
      total Cudp.requests s.udps s.nextUdp := total_take hu hd
  have hdef : (s.setUdp u d).requests = total Ctcp.requests s.tcps s.nextTcp +
      total Cudp.requests (s.setUdp u d).udps s.nextUdp := rfl
  rw [hdef, add_assoc, htake]
  rfl

theorem requests_newUdp (hd : d.requests = 0) :
    ({ s with nextUdp := s.nextUdp + 1 }.setUdp s.nextUdp d).requests = s.requests := by
  have hnew : total Cudp.requests (Function.update s.udps s.nextUdp d) (s.nextUdp + 1) =
      total Cudp.requests s.udps s.nextUdp := by
    rw [total_new, hd, add_zero]
  exact congrArg (total Ctcp.requests s.tcps s.nextTcp + ·) hnew

end Internal

/-! ## The ledger -/

/-- Every request allocated is held, pending or freed, once. -/
def Ledger (σ : Scope) : Prop :=
  (σ.held : Multiset ℕ) + σ.internal.requests + freed σ.internal.trace =
    Multiset.range σ.internal.nextReq

section Ledger

variable {s s' : Internal} {held : List ℕ} {loose loose' : Option UvHandle} {req : ℕ}
  {obs : List Obs}

/-- Nothing moves. -/
theorem Ledger.congr (h : Ledger ⟨s, held, loose⟩) (hrequests : s'.requests = s.requests)
    (hfreed : freed s'.trace = freed s.trace) (hnext : s'.nextReq = s.nextReq) :
    Ledger ⟨s', held, loose'⟩ := by
  unfold Ledger at h ⊢
  dsimp only at h ⊢
  rw [hrequests, hfreed, hnext]
  exact h

/-- Entries that free nothing are appended. -/
theorem Ledger.emit (h : Ledger ⟨s, held, loose⟩) (hobs : ∀ o ∈ obs, freedOf o = none) :
    Ledger ⟨s.emit obs, held, loose'⟩ :=
  h.congr rfl (freed_of_not_free hobs) rfl

/-- The request in hand is put on a handle. -/
theorem Ledger.put (h : Ledger ⟨s, req :: held, loose⟩) (hrequests : s'.requests = s.requests + {req})
    (hfreed : freed s'.trace = freed s.trace) (hnext : s'.nextReq = s.nextReq) :
    Ledger ⟨s', held, loose'⟩ := by
  unfold Ledger at h ⊢
  dsimp only at h ⊢
  rw [hrequests, hfreed, hnext, ← h, ← Multiset.cons_coe, ← Multiset.singleton_add]
  ac_rfl

/-- A request is taken off a handle. -/
theorem Ledger.take (h : Ledger ⟨s, held, loose⟩) (hrequests : s'.requests + {req} = s.requests)
    (hfreed : freed s'.trace = freed s.trace) (hnext : s'.nextReq = s.nextReq) :
    Ledger ⟨s', req :: held, loose'⟩ := by
  unfold Ledger at h ⊢
  dsimp only at h ⊢
  rw [hfreed, hnext, ← h, ← hrequests, ← Multiset.cons_coe, ← Multiset.singleton_add]
  ac_rfl

theorem Ledger.frame (h : Ledger ⟨s, held, loose⟩) (hframe : s.Frame s') :
    Ledger ⟨s', held, loose'⟩ := by
  obtain ⟨obs, htrace, hneutral⟩ := hframe.trace
  refine h.congr ?_ ?_ hframe.nextReq
  · unfold Internal.requests
    rw [hframe.tcps, hframe.nextTcp, hframe.udps, hframe.nextUdp]
  · rw [htrace]
    refine freed_of_not_free fun o ho => ?_
    have hn := hneutral o ho
    cases o <;> simp_all [Obs.neutral, freedOf]

theorem Ledger.close {t : ℕ} (h : Ledger ⟨s, held, loose⟩) (htcp : (s.tcps t).tcpInited = true) :
    Ledger ⟨Ctcp.closeSetNullptr t s, held, loose'⟩ := by
  cases hclosing : (s.tcps t).closing with
  | true =>
    rw [closeSetNullptr_of_closing htcp hclosing]
    exact h
  | false =>
    rw [closeSetNullptr_of_open htcp hclosing]
    have hrequests : (s.tcps t).afterClose.requests = (s.tcps t).requests := by
      rw [Ctcp.afterClose_of_open htcp hclosing]
      rfl
    have hs : Ledger ⟨s.setTcp t (s.tcps t).afterClose, held, loose⟩ :=
      h.congr (Internal.requests_setTcp hrequests) rfl rfl
    refine hs.emit fun o ho => ?_
    split at ho
    · rcases List.mem_pair.mp ho with rfl | rfl <;> rfl
    · rw [List.mem_singleton.mp ho]
      rfl

/-- A request block is allocated. -/
theorem Ledger.malloc (h : Ledger ⟨s, held, loose⟩) :
    Ledger ⟨(mallocReq s).2, s.nextReq :: held, loose'⟩ := by
  have hdef : Multiset.range (mallocReq s).2.nextReq = s.nextReq ::ₘ Multiset.range s.nextReq :=
    Multiset.range_succ s.nextReq
  have hrequests : (mallocReq s).2.requests = s.requests := rfl
  have htrace : (mallocReq s).2.trace = s.trace := rfl
  unfold Ledger at h ⊢
  dsimp only at h ⊢
  rw [hdef, hrequests, htrace, ← h, ← Multiset.cons_coe, Multiset.cons_add, Multiset.cons_add]

/-- The request in hand is freed. -/
theorem Ledger.free (h : Ledger ⟨s, req :: held, loose⟩) :
    Ledger ⟨s.emit [.freeReq req], held, loose'⟩ := by
  have hfreed : freed (s.emit [.freeReq req]).trace = freed s.trace + {req} :=
    freed_append _ _
  have hrequests : (s.emit [.freeReq req]).requests = s.requests := rfl
  have hnext : (s.emit [.freeReq req]).nextReq = s.nextReq := rfl
  unfold Ledger at h ⊢
  dsimp only at h ⊢
  rw [hfreed, hrequests, hnext, ← h, ← Multiset.cons_coe, ← Multiset.singleton_add]
  ac_rfl

end Ledger

/-! ## Calls -/

/-- Every call keeps the ledger. -/
theorem Call.ledger {σ σ' : Scope} (hcall : Call σ σ') (hlife : σ.internal.Life)
    (h : Ledger σ) : Ledger σ' := by
  cases hcall with
  | other held loose hframe => exact h.frame hframe
  | malloc s held loose => exact h.malloc
  | free s req held loose => exact h.free
  | newTcp s held =>
    have hnew : ({ s with nextTcp := s.nextTcp + 1 }.setTcp s.nextTcp
        { tcpInited := true }).requests = s.requests := Internal.requests_newTcp rfl
    exact h.congr hnew rfl rfl
  | newTcpFailed s held =>
    have hnew : ({ s with nextTcp := s.nextTcp + 1 }.setTcp s.nextTcp {}).requests = s.requests :=
      Internal.requests_newTcp rfl
    have hs : Ledger ⟨{ s with nextTcp := s.nextTcp + 1 }.setTcp s.nextTcp {}, held, none⟩ :=
      h.congr hnew rfl rfl
    exact hs.emit (by simp [freedOf])
  | timerInit s held t htcp htimer hclosing hclosed =>
    exact h.congr (Internal.requests_setTcp rfl) rfl rfl
  | setNode s held t node htcp => exact h.congr (Internal.requests_setTcp rfl) rfl rfl
  | listen s held t htcp hclosing => exact h.congr (Internal.requests_setTcp rfl) rfl rfl
  | watch s held loose t timeout htimeout hloose htcp hclosing hqueue =>
    have hs : Ledger ⟨s.emit [.uvTimerStart t timeout], held, none⟩ := h.emit (by simp [freedOf])
    exact hs.congr (Internal.requests_setTcp rfl) rfl rfl
  | watchFailed s held loose t timeout htimeout hloose htcp hclosing =>
    exact h.emit (by simp [freedOf])
  | sendTimer s held t ok husable =>
    have hs : Ledger ⟨s.emit [.uvTimerStart t .send], held, some (.tcp t)⟩ :=
      h.emit (by simp [freedOf])
    cases ok with
    | false => exact hs
    | true => exact hs.congr (Internal.requests_setTcp rfl) rfl rfl
  | readStart s held t htcp => exact h.congr (Internal.requests_setTcp rfl) rfl rfl
  | connect s req held t htcp hreq hqueue =>
    have hput : (s.setTcp t { s.tcps t with
        tcp := { (s.tcps t).tcp with connectReq := some req } }).requests = s.requests + {req} := by
      refine Internal.requests_put (Internal.Life.lt_nextTcp hlife htcp) ?_
      exact Ctcp.requests_connect hreq
    have hs : Ledger ⟨s.setTcp t { s.tcps t with
        tcp := { (s.tcps t).tcp with connectReq := some req } }, held, none⟩ :=
      h.put hput rfl rfl
    exact hs.emit (by simp [freedOf])
  | write s w held t husable harmed htimer =>
    have hs : Ledger ⟨s.emit [.uvWrite t (s.tcps t).node w.buf], w.req :: held, some (.tcp t)⟩ :=
      h.emit (by simp [freedOf])
    have hlt : t < s.nextTcp := Internal.Life.lt_nextTcp hlife husable.established.tcpInited
    have hput : (uvWrite t s w true).requests = s.requests + {w.req} :=
      Internal.requests_put hlt (Ctcp.requests_write w _)
    exact hs.put hput rfl rfl
  | writeFailed s w held t husable => exact h.emit (by simp [freedOf])
  | shutdown s req held t husable hreq harmed htimer =>
    have hs : Ledger ⟨s.emit [.uvShutdown t], req :: held, some (.tcp t)⟩ :=
      h.emit (by simp [freedOf])
    have heq : (uvShutdown t s req true).setTcp t
        { (uvShutdown t s req true).tcps t with shutdown := true } =
          (s.emit [.uvShutdown t]).setTcp t { s.tcps t with
            tcp := { (s.tcps t).tcp with shutdownReq := some req }, shutdown := true } := by
      simp [uvShutdown, Internal.setTcp, Internal.emit]
    rw [heq]
    have hlt : t < s.nextTcp := Internal.Life.lt_nextTcp hlife husable.established.tcpInited
    exact hs.put (Internal.requests_put hlt (Ctcp.requests_shutdown hreq)) rfl rfl
  | shutdownFailed s req held t husable =>
    have hs : Ledger ⟨s.emit [.uvShutdown t], req :: held, some (.tcp t)⟩ :=
      h.emit (by simp [freedOf])
    have hs' : Ledger ⟨(s.emit [.uvShutdown t]).emit [.freeReq req], held, some (.tcp t)⟩ := hs.free
    exact hs'.close husable.established.tcpInited
  | close s held loose t hloose htcp => exact h.close htcp
  | fire s held t htcp => exact h.congr (Internal.requests_setTcp rfl) rfl rfl
  | takeWrite s held t w hw htcp =>
    have hlt : t < s.nextTcp := Internal.Life.lt_nextTcp hlife htcp
    exact h.take (Internal.requests_take hlt (Ctcp.requests_takeWrite hw)) rfl rfl
  | takeConnect s held t req hreq htcp =>
    have hlt : t < s.nextTcp := Internal.Life.lt_nextTcp hlife htcp
    exact h.take (Internal.requests_take hlt (Ctcp.requests_connectDone hreq)) rfl rfl
  | takeShutdown s held t req hreq htcp =>
    have hlt : t < s.nextTcp := Internal.Life.lt_nextTcp hlife htcp
    exact h.take (Internal.requests_take hlt (Ctcp.requests_shutdownDone hreq)) rfl rfl
  | drained s held t n hn => exact h.congr (Internal.requests_setTcp rfl) rfl rfl
  | tcpClosed s held t hclosing hclosed hconnect hshutdown hwrites =>
    have hs : Ledger ⟨s.setTcp t { s.tcps t with
        tcp := { (s.tcps t).tcp with closed := true }, tcpInited := false }, held, none⟩ :=
      h.congr (Internal.requests_setTcp rfl) rfl rfl
    unfold Ctcp.onTcpClosed
    dsimp only
    split_ifs
    · exact hs.emit (by simp [freedOf])
    · exact hs
  | timerClosed s held t hclosing hclosed =>
    have hs : Ledger ⟨s.setTcp t { s.tcps t with
        timer := { (s.tcps t).timer with closed := true }, timerInited := false }, held, none⟩ :=
      h.congr (Internal.requests_setTcp rfl) rfl rfl
    unfold Ctcp.onTimerClosed
    dsimp only
    split_ifs
    · exact hs.emit (by simp [freedOf])
    · exact hs
  | newUdp s held =>
    have hnew : ({ s with nextUdp := s.nextUdp + 1 }.setUdp s.nextUdp
        { inited := true }).requests = s.requests := Internal.requests_newUdp rfl
    exact h.congr hnew rfl rfl
  | newUdpFailed s held =>
    have hnew : ({ s with nextUdp := s.nextUdp + 1 }.setUdp s.nextUdp {}).requests = s.requests :=
      Internal.requests_newUdp rfl
    have hs : Ledger ⟨{ s with nextUdp := s.nextUdp + 1 }.setUdp s.nextUdp {}, held, none⟩ :=
      h.congr hnew rfl rfl
    exact hs.emit (by simp [freedOf])
  | setUdp s held u node receiving => exact h.congr (Internal.requests_setUdp rfl) rfl rfl
  | linkUdp s held u hu => exact h.congr rfl rfl rfl
  | unlinkUdp s held u => exact h.congr rfl rfl rfl
  | closeUdp s held u =>
    have hs : Ledger ⟨s.setUdp u { s.udps u with receiving := false, closing := true }, held, none⟩ :=
      h.congr (Internal.requests_setUdp rfl) rfl rfl
    unfold Cudp.closeSetNullptr
    dsimp only
    split_ifs
    · exact hs.emit (by simp [freedOf])
    · exact h
    · exact h.emit (by simp [freedOf])
  | sendUdp s w held u hu =>
    refine h.put (Internal.requests_putUdp hu ?_) rfl rfl
    unfold Cudp.requests
    dsimp only
    rw [List.map_append, ← Multiset.coe_add]
    rfl
  | takeSend s held u w hw =>
    have hlt : u < s.nextUdp := by
      by_contra hu
      have hfresh : (s.udps u).sends = [] := Internal.Life.freshUdp hlife u (Nat.le_of_not_lt hu)
      rw [hfresh] at hw
      exact absurd hw (by simp)
    exact h.take (Internal.requests_takeUdp hlt (coe_map_req hw)) rfl rfl
  | udpClosed s held u =>
    have hs : Ledger ⟨s.setUdp u { s.udps u with closed := true }, held, none⟩ :=
      h.congr (Internal.requests_setUdp rfl) rfl rfl
    exact hs.emit (by simp [freedOf])
  | closeAsync s held =>
    have hfree : ∀ o ∈ [Obs.uvClose .async], freedOf o = none := by simp [freedOf]
    have hfree' : ∀ o ∈ [Obs.delete .async], freedOf o = none := by simp [freedOf]
    unfold Casync.closeSetNullptr
    split_ifs
    · exact h.congr rfl (freed_of_not_free hfree) rfl
    · exact h.congr rfl rfl rfl
    · exact h.congr rfl (freed_of_not_free hfree') rfl
  | asyncClosed s held =>
    have hfree : ∀ o ∈ [Obs.delete .async], freedOf o = none := by simp [freedOf]
    exact h.congr rfl (freed_of_not_free hfree) rfl

theorem ledger_of_reachable {p : Pool} (hr : poolSystem.Reachable p) :
    Ledger ⟨p.internal, [], none⟩ :=
  Pool.call_invariant (by simp [Ledger, Internal.requests, freed]) (fun _ _ hlife h hcall =>
    hcall.ledger hlife h) hr

end NetworkPool
