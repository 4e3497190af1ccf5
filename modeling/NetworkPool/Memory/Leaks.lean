import NetworkPool.Memory.FreeLists
import Mathlib.Algebra.Order.BigOperators.Group.List

/-!
# Nothing leaks

`Kept` says that a block has at most one holder; here every block that `malloc` has handed out has
one (`Held`). So a block that no caller has and no call has in its hands is on the list of its size,
and between calls the callers' blocks and those on the lists are all there are.
-/

namespace NetworkPool.FastAllocator

open Lib (Linked Apart)

variable {maxNumber : ℕ → UInt64} {σ σ' : State} {lists : ℕ → List ℕ}

/-- Every block of the heap has a holder. -/
def Held (lists : ℕ → List ℕ) (σ : State) : Prop :=
  ∀ b ∈ σ.heap, ∃ o, σ.Holds lists o b.1

/-! ## Steps -/

/-- A call goes on with the block it had. -/
theorem Held.setCall (h : Held lists σ) {i : ℕ} {c : Call}
    (hblock : ∀ p, (σ.calls i).block = some p → c.block = some p) :
    Held lists (σ.setCall i c) := by
  intro b hb
  obtain ⟨o, ho⟩ := h b hb
  cases o with
  | live => exact ⟨.live, ho⟩
  | stored size => exact ⟨.stored size, ho⟩
  | call j =>
    refine ⟨.call j, ?_⟩
    show ((σ.setCall i c).calls j).block = some b.1
    by_cases hj : j = i
    · subst hj
      rw [calls_setCall_self]
      exact hblock b.1 ho
    · rw [calls_setCall_of_ne c hj]
      exact ho

/-- The call `i` moves the block at `a`; the others stay where they are. -/
theorem Held.move (h : Held lists σ) {σ₁ : State} {lists' : ℕ → List ℕ} {i a : ℕ} {c : Call}
    (hcalls : σ₁.calls = σ.calls) (hblock : ∀ p, (σ.calls i).block = some p → p = a)
    (hheap : ∀ b ∈ σ₁.heap, b.1 ≠ a → b ∈ σ.heap)
    (hlive : ∀ p ∈ σ.live.map Prod.fst, p ≠ a → p ∈ σ₁.live.map Prod.fst)
    (hlists : ∀ size, ∀ p ∈ lists size, p ≠ a → p ∈ lists' size)
    (hnew : (∃ b ∈ σ₁.heap, b.1 = a) → ∃ o, (σ₁.setCall i c).Holds lists' o a) :
    Held lists' (σ₁.setCall i c) := by
  intro b hb
  by_cases ha : b.1 = a
  · rw [ha]
    exact hnew ⟨b, hb, ha⟩
  · obtain ⟨o, ho⟩ := h b (hheap b hb ha)
    cases o with
    | live => exact ⟨.live, hlive b.1 ho ha⟩
    | stored size => exact ⟨.stored size, hlists size b.1 ho ha⟩
    | call j =>
      have hj : j ≠ i := by
        rintro rfl
        exact ha (hblock b.1 ho)
      refine ⟨.call j, ?_⟩
      show ((σ₁.setCall i c).calls j).block = some b.1
      rw [calls_setCall_of_ne c hj, hcalls]
      exact ho

theorem holds_call_self {i p : ℕ} {c : Call} (h : c.block = some p) :
    (σ.setCall i c).Holds lists (.call i) p := by
  show ((σ.setCall i c).calls i).block = some p
  rw [calls_setCall_self]
  exact h

/-- `__alloc` takes a block off the list. -/
theorem Held.take (h : Held lists σ) {i size : ℕ} {rest : List ℕ}
    (hcall : σ.calls i = .take size) (hhead : σ.store size ≠ 0)
    (hlist : lists size = σ.store size :: rest) :
    Held (Function.update lists size rest) (σ.takeStored i size) := by
  rw [State.takeStored, if_pos hhead]
  refine h.move (a := σ.store size) rfl ?_ (fun b hb _ => hb) (fun p hp _ => hp) ?_ ?_
  · rw [hcall]
    exact fun p hp => absurd hp (by simp [Call.block])
  · intro s p hp hne
    by_cases hs : s = size
    · subst hs
      rw [hlist, List.mem_cons] at hp
      rw [Function.update_self]
      exact hp.resolve_left hne
    · rw [Function.update_of_ne hs]
      exact hp
  · exact fun _ => ⟨.call i, holds_call_self (if_neg hhead)⟩

/-- `__free` puts a block on the list. -/
theorem Held.put (h : Held lists σ) {i p size : ℕ} (hcall : σ.calls i = .put p size)
    (hroom : σ.storeCount size < maxNumber size) :
    Held (Function.update lists size (p :: lists size)) (σ.putStored maxNumber i p size) := by
  rw [State.putStored, if_pos hroom]
  refine h.move (a := p) rfl ?_ (fun b hb _ => hb) (fun q hq _ => hq) ?_ ?_
  · rw [hcall]
    exact fun q hq => (Option.some.inj hq).symm
  · intro s q hq _
    by_cases hs : s = size
    · subst hs
      rw [Function.update_self]
      exact List.mem_cons_of_mem _ hq
    · rw [Function.update_of_ne hs]
      exact hq
  · intro _
    refine ⟨.stored size, ?_⟩
    show p ∈ Function.update lists size (p :: lists size) size
    rw [Function.update_self]
    exact List.mem_cons_self ..

/-- `__free` is called for a live block. -/
theorem Held.release (h : Held lists σ) {i p size : ℕ} (hidle : σ.calls i = .idle)
    (hp : p ≠ 0) (hlive : (p, size) ∈ σ.live) :
    Held lists ({ σ with live := σ.live.erase (p, size) }.free maxNumber i p size) := by
  have hgoes : ∀ c : Call, c.block = some p →
      Held lists ({ σ with live := σ.live.erase (p, size) }.setCall i c) := by
    intro c hblock
    refine h.move (a := p) rfl ?_ (fun b hb _ => hb) ?_ (fun _ _ hq _ => hq) ?_
    · rw [hidle]
      exact fun q hq => absurd hq (by simp [Call.block])
    · intro q hq hne
      have hperm := (List.perm_cons_erase hlive).map Prod.fst
      rcases List.mem_cons.mp (hperm.mem_iff.mp hq) with rfl | hq
      · exact absurd rfl hne
      · exact hq
    · exact fun _ => ⟨.call i, holds_call_self hblock⟩
  rw [State.free, if_neg hp]
  by_cases hplain : State.Plain maxNumber size
  · rw [if_pos hplain]
    exact hgoes _ rfl
  · rw [if_neg hplain]
    exact hgoes _ rfl

/-- The lists are determined by the memory. -/
theorem Kept.lists_eq (h : Kept maxNumber lists σ) {lists' : ℕ → List ℕ}
    (h' : ∀ size, Linked sizeofPtr σ.memory (σ.store size) (lists' size)) : lists = lists' := by
  ext1 size
  exact (h.linked size).unique (h' size)

/-- **Every step keeps the blocks held.** -/
theorem held_step {e : Event} (hkept : Kept maxNumber lists σ) (h : Held lists σ)
    (hstep : σ.step maxNumber e = some σ') :
    ∃ lists', Kept maxNumber lists' σ' ∧ Held lists' σ' := by
  obtain ⟨kept, hkept'⟩ := kept_step hkept hstep
  -- the lists of most steps are the ones before
  have hsame : (∀ size, Linked sizeofPtr σ'.memory (σ'.store size) (lists size)) →
      Held lists σ' → ∃ lists', Kept maxNumber lists' σ' ∧ Held lists' σ' := by
    intro hlinked hheld
    rw [hkept'.lists_eq hlinked] at hkept'
    exact ⟨lists, hkept', hheld⟩
  cases e with
  | alloc i size =>
    simp only [State.step, Option.ite_none_right_eq_some, Option.some.injEq] at hstep
    obtain ⟨hidle, rfl⟩ := hstep
    have hnone : ∀ c : Call, Held lists (σ.setCall i c) := by
      intro c
      apply h.setCall
      rw [hidle]
      exact fun p hp => absurd hp (by simp [Call.block])
    unfold State.alloc at hsame ⊢
    by_cases hplain : State.Plain maxNumber size
    · rw [if_pos hplain] at hsame ⊢
      exact hsame hkept.linked (hnone _)
    · rw [if_neg hplain] at hsame ⊢
      exact hsame hkept.linked (hnone _)
  | free i ptr size =>
    simp only [State.step, Option.ite_none_right_eq_some, Option.some.injEq] at hstep
    obtain ⟨⟨hidle, hptr⟩, rfl⟩ := hstep
    by_cases hlive : (ptr, size) ∈ σ.live
    · have hne : ptr ≠ 0 := hkept.ne_zero (hkept.liveRoom (ptr, size) hlive)
      refine hsame ?_ (h.release hidle hne hlive)
      rw [State.free, if_neg hne]
      split <;> exact hkept.linked
    · have hzero := hptr.resolve_right hlive
      rw [List.erase_of_not_mem hlive, State.free, if_pos hzero] at hsame ⊢
      exact hsame hkept.linked h
  | write memory =>
    simp only [State.step, Option.ite_none_right_eq_some, Option.some.injEq] at hstep
    obtain ⟨hspares, rfl⟩ := hstep
    refine hsame (hkept.write hspares).linked fun b hb => ?_
    obtain ⟨o, ho⟩ := h b hb
    cases o with
    | live => exact ⟨.live, ho⟩
    | stored size => exact ⟨.stored size, ho⟩
    | call j => exact ⟨.call j, ho⟩
  | next i answer =>
    simp only [State.step, State.next] at hstep
    cases hcall : σ.calls i with
    | idle => simp [hcall] at hstep
    | take size =>
      simp only [hcall, Option.some.injEq] at hstep
      subst hstep
      by_cases hhead : σ.store size = 0
      · rw [State.takeStored, if_neg (not_not.mpr hhead)] at hsame ⊢
        refine hsame hkept.linked (h.setCall ?_)
        rw [hcall]
        exact fun p hp => absurd hp (by simp [Call.block])
      · obtain ⟨rest, hrest⟩ := hkept.take hcall hhead
        obtain ⟨rest', hlist, hlinked⟩ := (hkept.linked size).pop hhead
        have hpopped := hrest.linked size
        rw [State.takeStored, if_pos hhead] at hpopped
        change Linked sizeofPtr σ.memory (Function.update σ.store size _ size) _ at hpopped
        rw [Function.update_self, Function.update_self] at hpopped
        rw [hlinked.unique hpopped] at hlist
        exact ⟨_, hrest, h.take hcall hhead hlist⟩
    | malloc size n =>
      simp only [hcall] at hstep
      have hnone : ∀ p, (σ.calls i).block = some p → p = answer := by
        rw [hcall]
        exact fun p hp => absurd hp (by simp [Call.block])
      by_cases hanswer : answer = 0
      · rw [if_pos hanswer, Option.some.injEq] at hstep
        subst hstep
        refine hsame hkept.linked (h.setCall ?_)
        rw [hcall]
        exact fun p hp => absurd hp (by simp [Call.block])
      · rw [if_neg hanswer, Option.ite_none_right_eq_some, Option.some.injEq] at hstep
        obtain ⟨-, rfl⟩ := hstep
        refine hsame hkept.linked (h.move (a := answer) rfl hnone ?_ (fun p hp _ => hp)
          (fun _ _ hp _ => hp) fun _ => ⟨.call i, holds_call_self (if_neg hanswer)⟩)
        intro b hb hne
        rcases List.mem_cons.mp hb with rfl | hb
        · exact absurd rfl hne
        · exact hb
    | back size ptr =>
      simp only [hcall] at hstep
      by_cases hptr : ptr = 0
      · rw [if_pos hptr, Option.some.injEq] at hstep
        subst hstep
        refine hsame hkept.linked (h.setCall ?_)
        rw [hcall, Call.block, if_pos hptr]
        exact fun p hp => absurd hp (by simp)
      · rw [if_neg hptr, Option.some.injEq] at hstep
        subst hstep
        refine hsame hkept.linked (h.move (a := ptr) rfl ?_ (fun b hb _ => hb)
          (fun p hp _ => List.mem_cons_of_mem _ hp) (fun _ _ hp _ => hp)
          fun _ => ⟨.live, List.mem_cons_self ..⟩)
        rw [hcall, Call.block, if_neg hptr]
        exact fun p hp => (Option.some.inj hp).symm
    | put ptr size =>
      simp only [hcall, Option.some.injEq] at hstep
      subst hstep
      by_cases hroom : σ.storeCount size < maxNumber size
      · exact ⟨_, hkept.put hcall hroom, h.put hcall hroom⟩
      · rw [State.putStored, if_neg hroom] at hsame ⊢
        refine hsame hkept.linked (h.setCall ?_)
        rw [hcall]
        exact fun p hp => hp
    | free ptr =>
      simp only [hcall, Option.some.injEq] at hstep
      subst hstep
      refine hsame hkept.linked (h.move (a := ptr) rfl ?_
        (fun b hb _ => (List.mem_filter.mp hb).1) (fun p hp _ => hp) (fun _ _ hp _ => hp) ?_)
      · rw [hcall]
        exact fun p hp => (Option.some.inj hp).symm
      · rintro ⟨b, hb, heq⟩
        exact absurd heq (by simpa using (List.mem_filter.mp hb).2)

theorem reachable_held (h : (allocatorSystem maxNumber).Reachable σ) :
    ∃ lists, Kept maxNumber lists σ ∧ Held lists σ := by
  apply h.invariant (I := fun σ => ∃ lists, Kept maxNumber lists σ ∧ Held lists σ)
    ⟨_, kept_init, fun b hb => absurd hb (by simp [allocatorSystem])⟩
  rintro s e s' - ⟨lists, hkept, hheld⟩ hstep
  exact held_step hkept hheld hstep

/-! ## Between calls -/

/-- The blocks on all lists. -/
def cached (lists : ℕ → List ℕ) : List ℕ :=
  (List.range maxAllocatorSlot).flatMap lists

theorem Kept.mem_cached (h : Kept maxNumber lists σ) {p : ℕ} :
    p ∈ cached lists ↔ ∃ size, p ∈ lists size := by
  unfold cached
  rw [List.mem_flatMap]
  constructor
  · rintro ⟨size, -, hp⟩
    exact ⟨size, hp⟩
  · rintro ⟨size, hp⟩
    refine ⟨size, ?_, hp⟩
    rw [List.mem_range]
    by_contra hlarge
    -- blocks of large sizes are not kept
    rw [h.plain size (.inl (by omega))] at hp
    exact absurd hp List.not_mem_nil

theorem Kept.nodup_cached (h : Kept maxNumber lists σ) : (cached lists).Nodup := by
  unfold cached
  rw [List.nodup_flatMap]
  refine ⟨fun size _ => (h.linked size).nodup, List.nodup_range.imp ?_⟩
  intro size size' hne p hp hp'
  exact hne (Holder.stored.inj (h.alone (.stored size) (.stored size') p hp hp'))

/-- The length of the lists together. -/
def State.storedCount (σ : State) : ℕ :=
  ((List.range maxAllocatorSlot).map fun size => (σ.storeCount size).toNat).sum

theorem Kept.length_cached (h : Kept maxNumber lists σ) :
    (cached lists).length = σ.storedCount := by
  unfold cached State.storedCount
  rw [List.length_flatMap]
  apply congrArg List.sum
  apply List.map_congr_left
  intro size _
  exact (h.count size).symm

/-- Between calls the heap has the callers' blocks and those on the lists. -/
theorem Kept.heap_perm (h : Kept maxNumber lists σ) (hheld : Held lists σ)
    (hidle : ∀ i, σ.calls i = .idle) :
    (σ.heap.map Prod.fst).Perm (σ.live.map Prod.fst ++ cached lists) := by
  have hheap : (σ.heap.map Prod.fst).Nodup :=
    List.pairwise_map.mpr (h.apart.imp fun hapart => hapart.1)
  have hboth : (σ.live.map Prod.fst ++ cached lists).Nodup := by
    rw [List.nodup_append]
    refine ⟨h.once, h.nodup_cached, ?_⟩
    rintro p hlive q hcached rfl
    obtain ⟨size, hstored⟩ := h.mem_cached.mp hcached
    exact absurd (h.alone .live (.stored size) p hlive hstored) (by simp)
  rw [List.perm_ext_iff_of_nodup hheap hboth]
  intro p
  rw [List.mem_append, h.mem_cached]
  constructor
  · intro hp
    obtain ⟨b, hb, rfl⟩ := List.mem_map.mp hp
    obtain ⟨o, ho⟩ := hheld b hb
    cases o with
    | live => exact .inl ho
    | stored size => exact .inr ⟨size, ho⟩
    | call i =>
      have hblock : (σ.calls i).block = some b.1 := ho
      rw [hidle i] at hblock
      exact absurd hblock (by simp [Call.block])
  · intro hp
    have hhas : σ.Has p 0 := by
      rcases hp with hp | ⟨size, hp⟩
      · exact h.has_of_holds (o := .live) hp
      · exact h.has_of_holds (o := .stored size) hp
    obtain ⟨b, hb, hbp, -⟩ := hhas
    exact List.mem_map.mpr ⟨b, hb, hbp⟩

/-- **Nothing leaks.** In every reachable state, whatever calls are under way, each block that
`malloc` has handed out and not got back has exactly one holder: a caller, a call, or the list of a
size. Between calls there are as many as the callers have and the lists count, which is bounded by
the limits of the sizes: what was freed is on a list or back with `free`. -/
theorem nothing_leaks (h : (allocatorSystem maxNumber).Reachable σ) :
    (∃ lists : ℕ → List ℕ, (∀ size, Linked sizeofPtr σ.memory (σ.store size) (lists size)) ∧
      ∀ b ∈ σ.heap, ∃! o, σ.Holds lists o b.1) ∧
    ((∀ i, σ.calls i = .idle) → σ.heap.length = σ.live.length + σ.storedCount) ∧
    σ.storedCount ≤ ((List.range maxAllocatorSlot).map fun size => (maxNumber size).toNat).sum := by
  obtain ⟨lists, hkept, hheld⟩ := reachable_held h
  refine ⟨⟨lists, hkept.linked, fun b hb => ?_⟩, fun hidle => ?_, ?_⟩
  · obtain ⟨o, ho⟩ := hheld b hb
    exact ⟨o, ho, fun o' ho' => hkept.alone o' o b.1 ho' ho⟩
  · have hlength := (hkept.heap_perm hheld hidle).length_eq
    rwa [List.length_append, List.length_map, List.length_map, hkept.length_cached] at hlength
  · apply List.sum_le_sum
    intro size _
    exact UInt64.le_iff_toNat_le.mp (hkept.limit size)

/-- A block that is on its way from the list to a caller. -/
theorem nothing_leaks_cached :
    ∃ σ, (allocatorSystem fun _ => 2).run cacheRun = some σ ∧
      ∃ lists : ℕ → List ℕ, (∃! o, σ.Holds lists o 8192) ∧ σ.Holds lists (.call 1) 8192 := by
  have hrun : ∃ σ, (allocatorSystem fun _ => 2).run cacheRun = some σ ∧
      (8192, 16) ∈ σ.heap ∧ σ.calls 1 = .back 16 8192 :=
    ⟨((allocatorSystem fun _ => 2).run cacheRun).get (by decide), (Option.some_get _).symm,
      by decide, by decide⟩
  obtain ⟨σ, hσ, hheap, hcall⟩ := hrun
  obtain ⟨lists, -, hholders⟩ := (nothing_leaks (Lib.Lts.reachable_of_run hσ)).1
  refine ⟨σ, hσ, lists, hholders (8192, 16) hheap, ?_⟩
  show (σ.calls 1).block = some 8192
  rw [hcall]
  rfl

end NetworkPool.FastAllocator
