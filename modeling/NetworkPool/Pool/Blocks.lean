import Mathlib.Algebra.Order.Group.Multiset
import NetworkPool.Lib.Family
import NetworkPool.Lib.Log
import NetworkPool.Pool.Lifecycle

/-!
# Message blocks

The block of every message that `send` accepts, for whatever protocol, has one owner at any time:
the pending queue, a running `on_wakeup`, a waiting queue, a request pending on a TCP or UDP
handle, or the running callback, until it is freed. It is freed once and not touched afterwards
(`Owned`).
-/

namespace NetworkPool

open Lib Lib.Family

/-! ## Places -/

/-- The blocks of some buffers. -/
def blocksOf (buf : List UvBuf) : Multiset ℕ :=
  (buf.map UvBuf.base : Multiset ℕ)

/-- The blocks of the writes pending on a connection. -/
def Ctcp.blocks (c : Ctcp) : Multiset ℕ :=
  (c.tcp.writes.map fun w => blocksOf w.buf).sum

/-- The blocks of the sends pending on a UDP socket. -/
def Cudp.blocks (c : Cudp) : Multiset ℕ :=
  (c.sends.map fun w => blocksOf w.buf).sum

/-- The blocks of the waiting queues. -/
def queuedBlocks (queues : NodeMap (List UvBuf)) : Multiset ℕ :=
  AssocMap.sum (fun _ buf => blocksOf buf) queues

/-- The blocks the internal thread owns between two callbacks. -/
def Internal.blocks (s : Internal) : Multiset ℕ :=
  total Ctcp.blocks s.tcps s.nextTcp + total Cudp.blocks s.udps s.nextUdp +
    queuedBlocks s.waitingSend

/-- The block an entry frees. -/
def freedBlock : Obs → Option ℕ
  | .freeBuf base => some base
  | _ => none

/-- The blocks freed so far. -/
def freedBlocks (tr : List Obs) : Multiset ℕ :=
  (tr.filterMap freedBlock : Multiset ℕ)

/-- The blocks an entry hands to the application or to libuv. -/
def Obs.passes : Obs → List ℕ
  | .callback (.drop _ b) => [b.base]
  | .uvWrite _ _ buf => buf.map UvBuf.base
  | _ => []

/-- The entry neither frees a block nor hands one on. -/
def Obs.quiet (o : Obs) : Prop :=
  freedBlock o = none ∧ o.passes = []

/-- No block is handed on after it was freed. -/
def PassesLive (tr : List Obs) : Prop :=
  EachEntry (fun before o => ∀ b ∈ o.passes, Obs.freeBuf b ∉ before) tr

@[simp] theorem blocksOf_nil : blocksOf [] = 0 := rfl

@[simp] theorem blocksOf_cons (b : UvBuf) (buf : List UvBuf) :
    blocksOf (b :: buf) = {b.base} + blocksOf buf := by
  unfold blocksOf
  rw [List.map_cons, ← Multiset.cons_coe, Multiset.singleton_add]

theorem blocksOf_append (buf buf' : List UvBuf) :
    blocksOf (buf ++ buf') = blocksOf buf + blocksOf buf' := by
  unfold blocksOf
  rw [List.map_append, Multiset.coe_add]

theorem freedBlocks_append (a b : List Obs) :
    freedBlocks (a ++ b) = freedBlocks a + freedBlocks b := by
  unfold freedBlocks
  rw [List.filterMap_append, Multiset.coe_add]

theorem freedBlocks_of_none {obs : List Obs} (h : ∀ o ∈ obs, freedBlock o = none) :
    freedBlocks obs = 0 := by
  unfold freedBlocks
  rw [List.filterMap_eq_nil_iff.mpr h, Multiset.coe_nil]

theorem mem_freedBlocks {b : ℕ} {tr : List Obs} : b ∈ freedBlocks tr ↔ .freeBuf b ∈ tr := by
  unfold freedBlocks
  rw [Multiset.mem_coe, List.mem_filterMap]
  constructor
  · rintro ⟨o, ho, hfreed⟩
    cases o with
    | freeBuf base =>
      obtain rfl : base = b := by simpa [freedBlock] using hfreed
      exact ho
    | _ => simp [freedBlock] at hfreed
  · intro h
    exact ⟨.freeBuf b, h, rfl⟩

theorem count_freedBlocks (b : ℕ) (tr : List Obs) :
    (freedBlocks tr).count b = tr.count (.freeBuf b) := by
  unfold freedBlocks
  rw [Multiset.coe_count]
  induction tr with
  | nil => rfl
  | cons o tr ih =>
    cases o with
    | freeBuf base =>
      have hcons : (Obs.freeBuf base :: tr).filterMap freedBlock =
          base :: tr.filterMap freedBlock := rfl
      rw [hcons, List.count_cons, List.count_cons, ih]
      simp
    | _ =>
      rw [List.filterMap_cons_none rfl, List.count_cons_of_ne (by simp)]
      exact ih

namespace Ctcp

variable {c : Ctcp} {w : WriteWithInfo}

theorem blocks_takeWrite (hw : w ∈ c.tcp.writes) :
    c.blocks = (c.takeWrite w).blocks + blocksOf w.buf := by
  unfold blocks takeWrite
  rw [((List.perm_cons_erase hw).map _).sum_eq, List.map_cons, List.sum_cons, add_comm]

theorem blocks_queueWrite (n : ℕ) :
    Ctcp.blocks { c with tcp := { c.tcp with
      writes := c.tcp.writes ++ [w], writeQueueSize := n } } = c.blocks + blocksOf w.buf := by
  unfold blocks
  simp

end Ctcp

theorem Cudp.blocks_take {c : Cudp} {w : WriteWithInfo} (hw : w ∈ c.sends) :
    c.blocks = Cudp.blocks { c with sends := c.sends.erase w } + blocksOf w.buf := by
  unfold blocks
  rw [((List.perm_cons_erase hw).map _).sum_eq, List.map_cons, List.sum_cons, add_comm]

theorem Cudp.blocks_put {c : Cudp} {w : WriteWithInfo} :
    Cudp.blocks { c with sends := c.sends ++ [w] } = c.blocks + blocksOf w.buf := by
  unfold blocks
  simp

/-! ## Ownership -/

/-- Inside a callback: the blocks numbered up to `n` are in the hands of the callback or its caller
(`held`), owned by the internal thread, or freed, each in one place, and none was handed on after
it was freed. -/
structure Owned (held : Multiset ℕ) (n : ℕ) (s : Internal) : Prop where
  once : held + s.blocks + freedBlocks s.trace = Multiset.range n
  live : PassesLive s.trace

section Owned

variable {held m : Multiset ℕ} {n t u b : ℕ} {s s' : Internal} {c : Ctcp} {d : Cudp}
  {obs : List Obs} {node : CnetworkNode} {buf : List UvBuf}

/-- Nothing moves. -/
theorem Owned.congr (h : Owned held n s) (hblocks : s'.blocks = s.blocks)
    (htrace : s'.trace = s.trace) : Owned held n s' where
  once := by
    rw [hblocks, htrace]
    exact h.once
  live := by
    rw [htrace]
    exact h.live

/-- What is held is not freed. -/
theorem Owned.notMem (h : Owned held n s) (hb : b ∈ held) : Obs.freeBuf b ∉ s.trace := by
  intro hfree
  have hnodup := Multiset.nodup_range n
  rw [← h.once] at hnodup
  have hmem : b ∈ held + s.blocks := Multiset.mem_add.mpr (.inl hb)
  exact Multiset.disjoint_left.mp (Multiset.nodup_add.mp hnodup).2.2 hmem (mem_freedBlocks.mpr hfree)

/-- Entries that free nothing and hand on what is held. -/
theorem Owned.emit (h : Owned held n s) (hfree : ∀ o ∈ obs, freedBlock o = none)
    (hpasses : ∀ o ∈ obs, ∀ b ∈ o.passes, b ∈ held) : Owned held n (s.emit obs) := by
  induction obs generalizing s with
  | nil =>
    refine h.congr rfl ?_
    exact List.append_nil s.trace
  | cons o obs ih =>
    have hone : Owned held n (s.emit [o]) := by
      refine ⟨?_, h.live.concat fun b hb => h.notMem (hpasses o (by simp) b hb)⟩
      show held + s.blocks + freedBlocks (s.trace ++ [o]) = Multiset.range n
      have hnone : freedBlocks [o] = 0 :=
        freedBlocks_of_none fun o' ho' => hfree o' (by simp_all)
      rw [freedBlocks_append, hnone, add_zero]
      exact h.once
    have hrest := ih hone (fun o' ho' => hfree o' (List.mem_cons_of_mem o ho'))
      fun o' ho' => hpasses o' (List.mem_cons_of_mem o ho')
    refine hrest.congr rfl ?_
    exact List.append_cons s.trace o obs

theorem Owned.emit_quiet (h : Owned held n s) (hobs : ∀ o ∈ obs, o.quiet) :
    Owned held n (s.emit obs) := by
  refine h.emit (fun o ho => (hobs o ho).1) fun o ho b hb => ?_
  rw [(hobs o ho).2] at hb
  exact absurd hb List.not_mem_nil

/-- A block in hand is freed. -/
theorem Owned.free (h : Owned ({b} + held) n s) : Owned held n (s.emit [.freeBuf b]) where
  once := by
    show held + s.blocks + freedBlocks (s.trace ++ [.freeBuf b]) = Multiset.range n
    have hone : freedBlocks [.freeBuf b] = {b} := rfl
    rw [freedBlocks_append, hone, ← h.once]
    ac_rfl
  live := h.live.concat fun b hb => absurd hb List.not_mem_nil

/-- Blocks in hand are freed. -/
theorem Owned.freeAll (h : Owned (blocksOf buf + held) n s) :
    Owned held n (s.emit (buf.map fun b => .freeBuf b.base)) := by
  induction buf generalizing s with
  | nil =>
    rw [blocksOf_nil, zero_add] at h
    exact h.congr rfl (List.append_nil s.trace)
  | cons b buf ih =>
    rw [blocksOf_cons, add_assoc] at h
    exact (ih h.free).congr rfl (List.append_cons s.trace _ _)

/-- Blocks in hand are reported dropped and freed. -/
theorem Owned.dropAll (h : Owned (blocksOf buf + held) n s) (node : CnetworkNode) :
    Owned held n (s.emit (dropAll node buf)) := by
  induction buf generalizing s with
  | nil =>
    rw [blocksOf_nil, zero_add] at h
    exact h.congr rfl (List.append_nil s.trace)
  | cons b buf ih =>
    rw [blocksOf_cons, add_assoc] at h
    have hdrop : Owned ({b.base} + (blocksOf buf + held)) n
        (s.emit [.callback (.drop node b)]) := by
      apply h.emit
      · simp [freedBlock]
      · simp [Obs.passes]
    refine (ih hdrop.free).congr rfl ?_
    show s.trace ++ NetworkPool.dropAll node (b :: buf) =
      s.trace ++ [.callback (.drop node b)] ++ [.freeBuf b.base] ++ NetworkPool.dropAll node buf
    simp [NetworkPool.dropAll]

/-- An object is replaced by one with the same writes. -/
theorem Owned.setTcp (h : Owned held n s) (hc : c.blocks = (s.tcps t).blocks) :
    Owned held n (s.setTcp t c) := by
  refine h.congr ?_ rfl
  have htotal : total Ctcp.blocks (s.setTcp t c).tcps s.nextTcp =
      total Ctcp.blocks s.tcps s.nextTcp := total_update_of_eq hc
  unfold Internal.blocks
  rw [← htotal]
  rfl

/-- Blocks in hand are put on a connection. -/
theorem Owned.put (h : Owned (m + held) n s) (ht : t < s.nextTcp)
    (hc : c.blocks = (s.tcps t).blocks + m) : Owned held n (s.setTcp t c) where
  once := by
    have htotal : total Ctcp.blocks (s.setTcp t c).tcps s.nextTcp =
        total Ctcp.blocks s.tcps s.nextTcp + m := total_put ht hc
    have hblocks : (s.setTcp t c).blocks = m + s.blocks := by
      show total Ctcp.blocks (s.setTcp t c).tcps s.nextTcp + _ + _ = m + (_ + _ + _)
      rw [htotal]
      ac_rfl
    show held + (s.setTcp t c).blocks + freedBlocks s.trace = Multiset.range n
    rw [hblocks, ← h.once]
    ac_rfl
  live := h.live

/-- Blocks are taken off a connection. -/
theorem Owned.take (h : Owned held n s) (ht : t < s.nextTcp)
    (hc : (s.tcps t).blocks = c.blocks + m) : Owned (m + held) n (s.setTcp t c) where
  once := by
    have htotal : total Ctcp.blocks (s.setTcp t c).tcps s.nextTcp + m =
        total Ctcp.blocks s.tcps s.nextTcp := total_take ht hc
    have hblocks : s.blocks = m + (s.setTcp t c).blocks := by
      show _ + _ + _ = m + (total Ctcp.blocks (s.setTcp t c).tcps s.nextTcp + _ + _)
      rw [← htotal]
      ac_rfl
    show m + held + (s.setTcp t c).blocks + freedBlocks s.trace = Multiset.range n
    rw [← h.once, hblocks]
    ac_rfl
  live := h.live

theorem Owned.newTcp (h : Owned held n s) (hc : c.blocks = 0) :
    Owned held n ({ s with nextTcp := s.nextTcp + 1 }.setTcp s.nextTcp c) := by
  refine h.congr ?_ rfl
  have htotal : total Ctcp.blocks (Function.update s.tcps s.nextTcp c) (s.nextTcp + 1) =
      total Ctcp.blocks s.tcps s.nextTcp := by
    rw [total_new, hc, add_zero]
  unfold Internal.blocks
  rw [← htotal]
  rfl

theorem Owned.setUdp (h : Owned held n s) (hd : d.blocks = (s.udps u).blocks) :
    Owned held n (s.setUdp u d) := by
  refine h.congr ?_ rfl
  have htotal : total Cudp.blocks (s.setUdp u d).udps s.nextUdp =
      total Cudp.blocks s.udps s.nextUdp := total_update_of_eq hd
  unfold Internal.blocks
  rw [← htotal]
  rfl

theorem Owned.putUdp (h : Owned (m + held) n s) (hu : u < s.nextUdp)
    (hd : d.blocks = (s.udps u).blocks + m) : Owned held n (s.setUdp u d) where
  once := by
    have htotal : total Cudp.blocks (s.setUdp u d).udps s.nextUdp =
        total Cudp.blocks s.udps s.nextUdp + m := total_put hu hd
    have hblocks : (s.setUdp u d).blocks = m + s.blocks := by
      show _ + total Cudp.blocks (s.setUdp u d).udps s.nextUdp + _ = m + (_ + _ + _)
      rw [htotal]
      ac_rfl
    show held + (s.setUdp u d).blocks + freedBlocks s.trace = Multiset.range n
    rw [hblocks, ← h.once]
    ac_rfl
  live := h.live

theorem Owned.takeUdp (h : Owned held n s) (hu : u < s.nextUdp)
    (hd : (s.udps u).blocks = d.blocks + m) : Owned (m + held) n (s.setUdp u d) where
  once := by
    have htotal : total Cudp.blocks (s.setUdp u d).udps s.nextUdp + m =
        total Cudp.blocks s.udps s.nextUdp := total_take hu hd
    have hblocks : s.blocks = m + (s.setUdp u d).blocks := by
      show _ + _ + _ = m + (_ + total Cudp.blocks (s.setUdp u d).udps s.nextUdp + _)
      rw [← htotal]
      ac_rfl
    show m + held + (s.setUdp u d).blocks + freedBlocks s.trace = Multiset.range n
    rw [← h.once, hblocks]
    ac_rfl
  live := h.live

theorem Owned.newUdp (h : Owned held n s) (hd : d.blocks = 0) :
    Owned held n ({ s with nextUdp := s.nextUdp + 1 }.setUdp s.nextUdp d) := by
  refine h.congr ?_ rfl
  have htotal : total Cudp.blocks (Function.update s.udps s.nextUdp d) (s.nextUdp + 1) =
      total Cudp.blocks s.udps s.nextUdp := by
    rw [total_new, hd, add_zero]
  unfold Internal.blocks
  rw [← htotal]
  rfl

/-- The queue of a node is taken. -/
theorem Owned.takeQueue (h : Owned held n s) (hlookup : s.waitingSend.lookup node = some buf) :
    Owned (blocksOf buf + held) n { s with waitingSend := s.waitingSend.erase node } where
  once := by
    have hsum : queuedBlocks s.waitingSend =
        blocksOf buf + queuedBlocks (s.waitingSend.erase node) :=
      AssocMap.sum_of_lookup _ hlookup
    show blocksOf buf + held + (_ + _ + queuedBlocks (s.waitingSend.erase node)) + _ = _
    rw [← h.once]
    unfold Internal.blocks
    rw [hsum]
    ac_rfl
  live := h.live

/-- The queue of a node that has none. -/
theorem Owned.putQueue (h : Owned (blocksOf buf + held) n s)
    (hlookup : s.waitingSend.lookup node = none) :
    Owned held n { s with waitingSend := s.waitingSend.insert node buf } where
  once := by
    have hsum : queuedBlocks (s.waitingSend.insert node buf) =
        blocksOf buf + queuedBlocks s.waitingSend := by
      have herase : s.waitingSend.erase node = s.waitingSend :=
        AssocMap.erase_of_lookup_eq_none hlookup
      unfold queuedBlocks
      rw [AssocMap.sum_insert, herase]
    show held + (_ + _ + queuedBlocks (s.waitingSend.insert node buf)) + _ = _
    rw [← h.once, hsum]
    unfold Internal.blocks
    ac_rfl
  live := h.live

end Owned

/-! ## libuv and the wrappers -/

section Wrappers

variable {held : Multiset ℕ} {n : ℕ} {s : Internal}

theorem Owned.call (h : Owned held n s) {c : Callback} (hc : (Obs.callback c).quiet) :
    Owned held n (s.call c) := by
  apply h.emit_quiet
  intro o ho
  rwa [List.mem_singleton.mp ho]

theorem Owned.emit_one (h : Owned held n s) {o : Obs} (ho : o.quiet) : Owned held n (s.emit [o]) := by
  apply h.emit_quiet
  intro o' ho'
  rwa [List.mem_singleton.mp ho']

theorem Owned.freeReqs (h : Owned held n s) (reqs : List ℕ) :
    Owned held n (s.emit (reqs.map .freeReq)) := by
  apply h.emit_quiet
  intro o ho
  obtain ⟨req, -, rfl⟩ := List.mem_map.mp ho
  exact ⟨rfl, rfl⟩

theorem Owned.uvTimerStart (h : Owned held n s) (t : ℕ) (timeout : Timeout) (ok : Bool) :
    Owned held n (uvTimerStart t s timeout ok) := by
  have hemit : Owned held n (s.emit [.uvTimerStart t timeout]) := h.emit_one ⟨rfl, rfl⟩
  unfold NetworkPool.uvTimerStart
  cases ok with
  | true => exact hemit.setTcp rfl
  | false => exact hemit

theorem Owned.uvReadStart (h : Owned held n s) (t : ℕ) : Owned held n (uvReadStart t s) :=
  h.setTcp rfl

theorem Owned.uvListen (h : Owned held n s) (t : ℕ) : Owned held n (uvListen t s) :=
  h.setTcp rfl

theorem Owned.uvTcpConnect (h : Owned held n s) (t req : ℕ) :
    Owned held n (uvTcpConnect t s req) := by
  have hset : Owned held n (s.setTcp t { s.tcps t with
      tcp := { (s.tcps t).tcp with connectReq := some req } }) := h.setTcp rfl
  exact hset.emit_one ⟨rfl, rfl⟩

theorem Owned.uvShutdown (h : Owned held n s) (t req : ℕ) (ok : Bool) :
    Owned held n (uvShutdown t s req ok) := by
  have hemit : Owned held n (s.emit [.uvShutdown t]) := h.emit_one ⟨rfl, rfl⟩
  unfold NetworkPool.uvShutdown
  cases ok with
  | true => exact hemit.setTcp rfl
  | false => exact hemit

/-- `uv_write`: the blocks stay in hand when it fails. -/
theorem Owned.uvWrite {w : WriteWithInfo} {t : ℕ} (h : Owned (blocksOf w.buf + held) n s)
    (ht : t < s.nextTcp) :
    Owned held n (uvWrite t s w true) ∧ Owned (blocksOf w.buf + held) n (uvWrite t s w false) := by
  have hemit : Owned (blocksOf w.buf + held) n (s.emit [.uvWrite t (s.tcps t).node w.buf]) := by
    apply h.emit
    · simp [freedBlock]
    · intro o ho b hb
      rw [List.mem_singleton.mp ho] at hb
      exact Multiset.mem_add.mpr (.inl (Multiset.mem_coe.mpr hb))
  exact ⟨hemit.put ht (Ctcp.blocks_queueWrite _), hemit⟩

/-- `Ctcp::close_set_nullptr`. -/
theorem Owned.closeTcp (h : Owned held n s) (t : ℕ) : Owned held n (Ctcp.closeSetNullptr t s) := by
  have hstream : ∀ {s : Internal}, Owned held n s → Owned held n (uvCloseTcp t s) := by
    intro s h
    have hset : Owned held n (s.setTcp t { s.tcps t with tcp := { (s.tcps t).tcp with
        closing := true, reading := false, listening := false } }) := h.setTcp rfl
    exact hset.emit_one ⟨rfl, rfl⟩
  have htimer : ∀ {s : Internal}, Owned held n s → Owned held n (uvCloseTimer t s) := by
    intro s h
    have hset : Owned held n (s.setTcp t { s.tcps t with timer := { (s.tcps t).timer with
        closing := true, armed := none } }) := h.setTcp rfl
    exact hset.emit_one ⟨rfl, rfl⟩
  unfold Ctcp.closeSetNullptr
  dsimp only
  split_ifs with hinited hclosing htcp htimerInited htimerInited
  · exact (htimer (hstream h)).setTcp rfl
  · exact (htimer h).setTcp rfl
  · exact (hstream h).setTcp rfl
  · exact h.setTcp rfl
  · exact h
  · exact h.emit_one ⟨rfl, rfl⟩

/-- `Ctcp::alloc`: an object that is returned has been allocated. -/
theorem Owned.allocTcp (h : Owned held n s) (env : Env) (initTimer : Bool) :
    Owned held n (Ctcp.alloc env initTimer s).2 ∧
      ∀ t ∈ (Ctcp.alloc env initTimer s).1, t < (Ctcp.alloc env initTimer s).2.nextTcp := by
  have hnew : Owned held n ({ s with nextTcp := s.nextTcp + 1 }.setTcp s.nextTcp {}) :=
    h.newTcp rfl
  have hlt : s.nextTcp < ({ s with nextTcp := s.nextTcp + 1 }.setTcp s.nextTcp {}).nextTcp :=
    Nat.lt_succ_self _
  unfold Ctcp.alloc
  dsimp only
  generalize { s with nextTcp := s.nextTcp + 1 }.setTcp s.nextTcp {} = s₁ at hnew hlt
  split_ifs
  · exact ⟨h, by simp⟩
  · exact ⟨hnew.closeTcp _, by simp⟩
  · exact ⟨(hnew.setTcp (by rfl)).closeTcp _, by simp⟩
  · exact ⟨((hnew.setTcp (by rfl)).setTcp (by rfl)).closeTcp _, by simp⟩
  · exact ⟨(hnew.setTcp (by rfl)).closeTcp _, by simp⟩
  · refine ⟨(hnew.setTcp (by rfl)).setTcp rfl, fun t ht => ?_⟩
    rw [← Option.mem_some_iff.mp ht]
    exact hlt
  · refine ⟨hnew.setTcp rfl, fun t ht => ?_⟩
    rw [← Option.mem_some_iff.mp ht]
    exact hlt

/-- `Ctcp::shutdown_and_close_set_nullptr`. -/
theorem Owned.shutdownAndClose (h : Owned held n s) (env : Env) (t : ℕ) :
    Owned held n (Ctcp.shutdownAndCloseSetNullptr env t s) := by
  have hmalloc : Owned held n (mallocReq s).2 := h.congr rfl rfl
  unfold Ctcp.shutdownAndCloseSetNullptr
  dsimp only
  split_ifs
  · exact h.closeTcp t
  · exact h.closeTcp t
  · exact ((hmalloc.uvShutdown t _ _).emit_one ⟨rfl, rfl⟩).closeTcp t
  · exact (hmalloc.uvShutdown t _ _).setTcp rfl
  · exact h

theorem Owned.onShutdown (h : Owned held n s) (t : ℕ) : Owned held n (Ctcp.onShutdown t s) := by
  have hset : Owned held n (s.setTcp t { s.tcps t with
      tcp := { (s.tcps t).tcp with shutdownReq := none } }) := h.setTcp rfl
  exact (hset.freeReqs _).closeTcp t

theorem Owned.onTcpClosed (h : Owned held n s) (t : ℕ) : Owned held n (Ctcp.onTcpClosed t s) := by
  have hset : Owned held n (s.setTcp t { s.tcps t with
      tcp := { (s.tcps t).tcp with closed := true }, tcpInited := false }) := h.setTcp rfl
  unfold Ctcp.onTcpClosed
  dsimp only
  split_ifs
  · exact hset.emit_one ⟨rfl, rfl⟩
  · exact hset

theorem Owned.onTimerClosed (h : Owned held n s) (t : ℕ) :
    Owned held n (Ctcp.onTimerClosed t s) := by
  have hset : Owned held n (s.setTcp t { s.tcps t with
      timer := { (s.tcps t).timer with closed := true }, timerInited := false }) := h.setTcp rfl
  unfold Ctcp.onTimerClosed
  dsimp only
  split_ifs
  · exact hset.emit_one ⟨rfl, rfl⟩
  · exact hset

/-- `Cudp::close_set_nullptr`. -/
theorem Owned.closeUdp (h : Owned held n s) (u : ℕ) : Owned held n (Cudp.closeSetNullptr u s) := by
  have hset : Owned held n (s.setUdp u { s.udps u with receiving := false, closing := true }) :=
    h.setUdp rfl
  unfold Cudp.closeSetNullptr
  dsimp only
  split_ifs
  · exact hset.emit_one ⟨rfl, rfl⟩
  · exact h
  · exact h.emit_one ⟨rfl, rfl⟩

/-- `Cudp::alloc`. -/
theorem Owned.allocUdp (h : Owned held n s) (env : Env) : Owned held n (Cudp.alloc env s).2 := by
  have hnew : Owned held n ({ s with nextUdp := s.nextUdp + 1 }.setUdp s.nextUdp {}) :=
    h.newUdp rfl
  unfold Cudp.alloc
  dsimp only
  split_ifs
  · exact h
  · exact hnew.emit_one ⟨rfl, rfl⟩
  · exact hnew.setUdp rfl

/-- `Casync::close_set_nullptr`. -/
theorem Owned.closeAsync (h : Owned held n s) : Owned held n (Casync.closeSetNullptr s) := by
  unfold Casync.closeSetNullptr
  split_ifs
  · have hs : Owned held n { s with async := { s.async with closing := true }, wakeup := false } :=
      h.congr rfl rfl
    exact hs.emit_one ⟨rfl, rfl⟩
  · exact h.congr rfl rfl
  · have hs : Owned held n { s with wakeup := false } := h.congr rfl rfl
    exact hs.emit_one ⟨rfl, rfl⟩

end Wrappers

end NetworkPool
