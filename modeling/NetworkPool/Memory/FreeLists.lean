import NetworkPool.Memory.Allocator
import Mathlib.Algebra.Order.Ring.Nat

/-!
# No block is handed out twice

Every block that `malloc` has handed out has at most one holder: the caller it was returned to, the
list of its size, or a call that is under way (`Kept`). A call takes a block over from its former
holder in one step, so the block that `__alloc` returns is nobody's.
-/

namespace NetworkPool.FastAllocator

open Lib (ByteMemory Apart Linked Exclusive)

variable {maxNumber : ℕ → UInt64} {σ σ' : State} {lists : ℕ → List ℕ}

/-! ## Holders -/

/-- The block a call has in its hands. -/
def Call.block : Call → Option ℕ
  | .back _ ptr => if ptr = 0 then none else some ptr
  | .put ptr _ | .free ptr => some ptr
  | .idle | .take _ | .malloc _ _ => none

/-- Who may hold a block. -/
inductive Holder
  /-- A caller. -/
  | live
  /-- The list for `size`. -/
  | stored (size : ℕ)
  /-- A call. -/
  | call (i : ℕ)

/-- Who holds the block at an address, when `lists size` is the list for `size`. -/
def State.Holds (σ : State) (lists : ℕ → List ℕ) : Holder → ℕ → Prop
  | .live, p => p ∈ σ.live.map Prod.fst
  | .stored size, p => p ∈ lists size
  | .call i, p => (σ.calls i).block = some p

/-- There is a block of at least `n` bytes at `p`. -/
def State.Has (σ : State) (p n : ℕ) : Prop :=
  ∃ b ∈ σ.heap, b.1 = p ∧ n ≤ b.2

/-- The bytes a block for `size` has at least. -/
def room (maxNumber : ℕ → UInt64) (size : ℕ) : ℕ :=
  if State.Plain maxNumber size then size else max size sizeofPtr

/-- What a call relies on. -/
def State.CallOk (maxNumber : ℕ → UInt64) (σ : State) : Call → Prop
  | .idle => True
  | .take size => ¬State.Plain maxNumber size
  | .malloc size n => n = room maxNumber size
  | .back size ptr => ptr ≠ 0 → σ.Has ptr (room maxNumber size)
  | .put ptr size => ¬State.Plain maxNumber size ∧ σ.Has ptr (room maxNumber size)
  | .free ptr => σ.Has ptr 0

/-- **The blocks are kept.** -/
structure Kept (maxNumber : ℕ → UInt64) (lists : ℕ → List ℕ) (σ : State) : Prop where
  apart : σ.heap.Pairwise Apart
  bounds : ∀ b ∈ σ.heap, b.1 ≠ 0 ∧ b.1 + b.2 ≤ 2 ^ 64
  linked : ∀ size, Linked sizeofPtr σ.memory (σ.store size) (lists size)
  count : ∀ size, (σ.storeCount size).toNat = (lists size).length
  limit : ∀ size, σ.storeCount size ≤ maxNumber size
  plain : ∀ size, State.Plain maxNumber size → lists size = []
  alone : Exclusive (σ.Holds lists)
  once : (σ.live.map Prod.fst).Nodup
  liveRoom : ∀ b ∈ σ.live, σ.Has b.1 (room maxNumber b.2)
  storedRoom : ∀ size, ∀ p ∈ lists size, σ.Has p (room maxNumber size)
  calls : ∀ i, σ.CallOk maxNumber (σ.calls i)

theorem size_le_room (size : ℕ) : size ≤ room maxNumber size := by
  unfold room
  by_cases hplain : State.Plain maxNumber size
  · rw [if_pos hplain]
  · rw [if_neg hplain]
    exact Nat.le_max_left _ _

theorem room_of_not_plain {size : ℕ} (h : ¬State.Plain maxNumber size) :
    room maxNumber size = max size sizeofPtr :=
  if_neg h

/-- A larger block is one of the smaller size. -/
theorem State.Has.le {p n n' : ℕ} (h : σ.Has p n) (hle : n' ≤ n) : σ.Has p n' := by
  obtain ⟨b, hb, hp, hn⟩ := h
  exact ⟨b, hb, hp, hle.trans hn⟩

/-- What does not depend on the blocks being the same but on their being there. -/
theorem State.CallOk.mono {c : Call} (h : σ.CallOk maxNumber c)
    (hhas : ∀ p n, c.block = some p → σ.Has p n → σ'.Has p n) : σ'.CallOk maxNumber c := by
  cases c with
  | idle | take | malloc => exact h
  | back size ptr =>
    intro hptr
    apply hhas ptr _ _ (h hptr)
    rw [Call.block, if_neg hptr]
  | put ptr size => exact ⟨h.1, hhas ptr _ rfl h.2⟩
  | free ptr => exact hhas ptr _ rfl h

@[simp] theorem calls_setCall_self (i : ℕ) (c : Call) : (σ.setCall i c).calls i = c :=
  Function.update_self ..

theorem calls_setCall_of_ne {i j : ℕ} (c : Call) (h : j ≠ i) :
    (σ.setCall i c).calls j = σ.calls j :=
  Function.update_of_ne h ..

/-- A call holds what it held before it went on, unless it is the one that went on. -/
theorem holds_setCall {i : ℕ} {c : Call} {o : Holder} {p : ℕ}
    (h : (σ.setCall i c).Holds lists o p) :
    (o = .call i ∧ c.block = some p) ∨ (o ≠ .call i ∧ σ.Holds lists o p) := by
  cases o with
  | live => exact .inr ⟨by simp, h⟩
  | stored size => exact .inr ⟨by simp, h⟩
  | call j =>
    by_cases hj : j = i
    · subst hj
      have hblock : ((σ.setCall j c).calls j).block = some p := h
      rw [calls_setCall_self] at hblock
      exact .inl ⟨rfl, hblock⟩
    · have hblock : ((σ.setCall i c).calls j).block = some p := h
      rw [calls_setCall_of_ne c hj] at hblock
      exact .inr ⟨by simpa using hj, hblock⟩

/-! ## Steps -/

/-- A call goes on with the block it had, or with none. -/
theorem Kept.setCall (h : Kept maxNumber lists σ) {i : ℕ} {c : Call}
    (hblock : ∀ p, c.block = some p → (σ.calls i).block = some p) (hok : σ.CallOk maxNumber c) :
    Kept maxNumber lists (σ.setCall i c) where
  apart := h.apart
  bounds := h.bounds
  linked := h.linked
  count := h.count
  limit := h.limit
  plain := h.plain
  alone := by
    apply h.alone.mono
    intro o p ho
    rcases holds_setCall ho with ⟨rfl, hp⟩ | ⟨-, hp⟩
    · exact hblock p hp
    · exact hp
  once := h.once
  liveRoom := h.liveRoom
  storedRoom := h.storedRoom
  calls := by
    intro j
    by_cases hj : j = i
    · rw [hj, calls_setCall_self]
      exact hok
    · rw [calls_setCall_of_ne c hj]
      exact h.calls j

theorem kept_init : Kept maxNumber (fun _ => []) ({} : State) where
  apart := List.Pairwise.nil
  bounds := by simp
  linked := fun _ => .nil
  count := fun _ => rfl
  limit := fun size => by simp
  plain := fun _ _ => rfl
  alone := by
    intro o o' p ho
    cases o with
    | live => simp [State.Holds] at ho
    | stored size => simp [State.Holds] at ho
    | call i => simp [State.Holds, Call.block] at ho
  once := List.nodup_nil
  liveRoom := by simp
  storedRoom := by simp
  calls := fun _ => trivial

/-- Whoever holds an address holds a block. -/
theorem Kept.has_of_holds (h : Kept maxNumber lists σ) {o : Holder} {p : ℕ}
    (ho : σ.Holds lists o p) : σ.Has p 0 := by
  cases o with
  | live =>
    obtain ⟨b, hb, rfl⟩ := List.mem_map.mp ho
    exact (h.liveRoom b hb).le (Nat.zero_le _)
  | stored size => exact (h.storedRoom size p ho).le (Nat.zero_le _)
  | call i =>
    have hblock : (σ.calls i).block = some p := ho
    have hok := h.calls i
    cases hc : σ.calls i with
    | idle | take | malloc => simp [hc, Call.block] at hblock
    | back size ptr =>
      rw [hc] at hblock hok
      by_cases hptr : ptr = 0
      · simp [Call.block, hptr] at hblock
      · rw [Call.block, if_neg hptr, Option.some.injEq] at hblock
        exact hblock ▸ (hok hptr).le (Nat.zero_le _)
    | put ptr size =>
      rw [hc] at hblock hok
      obtain rfl : ptr = p := Option.some.inj hblock
      exact hok.2.le (Nat.zero_le _)
    | free ptr =>
      rw [hc] at hblock hok
      obtain rfl : ptr = p := Option.some.inj hblock
      exact hok

theorem Kept.ne_zero (h : Kept maxNumber lists σ) {p n : ℕ} (hp : σ.Has p n) : p ≠ 0 := by
  obtain ⟨b, hb, rfl, -⟩ := hp
  exact (h.bounds b hb).1

/-- The address of a block fits into a pointer. -/
theorem Kept.lt_of_has (h : Kept maxNumber lists σ) {p n : ℕ} (hp : σ.Has p n) (hn : 0 < n) :
    p < 256 ^ sizeofPtr := by
  obtain ⟨b, hb, rfl, hle⟩ := hp
  have hbound := (h.bounds b hb).2
  have hpow : 256 ^ sizeofPtr = 2 ^ 64 := by decide
  omega

/-- The first words of different blocks have no byte in common. -/
theorem Kept.words_apart (h : Kept maxNumber lists σ) {p q n : ℕ} (hp : σ.Has p n) (hq : σ.Has q n)
    (hne : p ≠ q) : p + n ≤ q ∨ q + n ≤ p := by
  obtain ⟨b, hb, rfl, hbn⟩ := hp
  obtain ⟨c, hc, rfl, hcn⟩ := hq
  have hapart := (Lib.apart_of_mem h.apart hb hc hne).2
  omega

/-- The blocks on a list have room for a pointer. -/
theorem Kept.word_of_stored (h : Kept maxNumber lists σ) {size p : ℕ} (hp : p ∈ lists size) :
    σ.Has p sizeofPtr := by
  have hnotPlain : ¬State.Plain maxNumber size := by
    intro hplain
    rw [h.plain size hplain] at hp
    exact absurd hp (by simp)
  have hroom := h.storedRoom size p hp
  rw [room_of_not_plain hnotPlain] at hroom
  exact hroom.le (Nat.le_max_right _ _)

/-- The head of a list fits into a pointer. -/
theorem Kept.head_lt (h : Kept maxNumber lists σ) (size : ℕ) :
    σ.store size < 256 ^ sizeofPtr := by
  by_cases hzero : σ.store size = 0
  · rw [hzero]
    exact Nat.pow_pos (by omega)
  · obtain ⟨rest, hlist, -⟩ := (h.linked size).pop hzero
    have hmem : σ.store size ∈ lists size := by simp [hlist]
    exact h.lt_of_has (h.word_of_stored hmem) (by decide)

/-- `__alloc` takes a block off the list. -/
theorem Kept.take (h : Kept maxNumber lists σ) {i size : ℕ} (hcall : σ.calls i = .take size)
    (hhead : σ.store size ≠ 0) :
    ∃ rest, Kept maxNumber (Function.update lists size rest) (σ.takeStored i size) := by
  obtain ⟨rest, hlist, hrest⟩ := (h.linked size).pop hhead
  refine ⟨rest, ?_⟩
  have hfirst : σ.store size ∈ lists size := by simp [hlist]
  have hnodup := (h.linked size).nodup
  rw [hlist, List.nodup_cons] at hnodup
  have hnotPlain : ¬State.Plain maxNumber size := by
    have hok := h.calls i
    rw [hcall] at hok
    exact hok
  have hlength : (σ.storeCount size).toNat = rest.length + 1 := by
    rw [h.count, hlist, List.length_cons]
  have hle : (1 : UInt64) ≤ σ.storeCount size := by
    rw [UInt64.le_iff_toNat_le, hlength]
    exact Nat.le_add_left 1 _
  have hcount : (σ.storeCount size - 1).toNat = rest.length := by
    rw [UInt64.toNat_sub_of_le _ _ hle, hlength]
    rfl
  have htake : σ.takeStored i size =
      { σ with
        store := Function.update σ.store size (σ.memory.load sizeofPtr (σ.store size))
        storeCount := Function.update σ.storeCount size (σ.storeCount size - 1) }.setCall i
          (.back size (σ.store size)) := by
    rw [State.takeStored, if_pos hhead]
  rw [htake]
  refine ⟨h.apart, h.bounds, ?_, ?_, ?_, ?_, ?_, h.once, h.liveRoom, ?_, ?_⟩
  · intro s
    by_cases hs : s = size
    · subst hs
      show Linked sizeofPtr σ.memory (Function.update σ.store s _ s) _
      rw [Function.update_self, Function.update_self]
      exact hrest
    · show Linked sizeofPtr σ.memory (Function.update σ.store size _ s) _
      rw [Function.update_of_ne hs, Function.update_of_ne hs]
      exact h.linked s
  · intro s
    show (Function.update σ.storeCount size _ s).toNat = _
    by_cases hs : s = size
    · subst hs
      rw [Function.update_self, Function.update_self]
      exact hcount
    · rw [Function.update_of_ne hs, Function.update_of_ne hs]
      exact h.count s
  · intro s
    show Function.update σ.storeCount size _ s ≤ _
    by_cases hs : s = size
    · subst hs
      have hlimit := h.limit s
      rw [UInt64.le_iff_toNat_le] at hlimit
      rw [Function.update_self, UInt64.le_iff_toNat_le, hcount]
      omega
    · rw [Function.update_of_ne hs]
      exact h.limit s
  · intro s hplain
    by_cases hs : s = size
    · subst hs
      exact absurd hplain hnotPlain
    · rw [Function.update_of_ne hs]
      exact h.plain s hplain
  · -- the block goes from the list to the call
    apply h.alone.take (i := .call i) (a := σ.store size)
    intro o q ho
    rcases holds_setCall ho with ⟨rfl, hq⟩ | ⟨hne, hq⟩
    · rw [Call.block, if_neg hhead, Option.some.injEq] at hq
      exact .inl ⟨hq.symm, rfl⟩
    · right
      cases o with
      | live =>
        refine ⟨?_, hq⟩
        rintro rfl
        exact absurd (h.alone .live (.stored size) _ hq hfirst) (by simp)
      | stored s =>
        have hmem : q ∈ Function.update lists size rest s := hq
        by_cases hs : s = size
        · subst hs
          rw [Function.update_self] at hmem
          refine ⟨?_, ?_⟩
          · rintro rfl
            exact hnodup.1 hmem
          · show q ∈ lists s
            rw [hlist]
            exact List.mem_cons_of_mem _ hmem
        · rw [Function.update_of_ne hs] at hmem
          refine ⟨?_, hmem⟩
          rintro rfl
          have heq := h.alone (.stored s) (.stored size) _ hmem hfirst
          exact hs (Holder.stored.inj heq)
      | call j =>
        refine ⟨?_, hq⟩
        rintro rfl
        exact absurd (h.alone (.call j) (.stored size) _ hq hfirst) (by simp)
  · intro s q hq
    by_cases hs : s = size
    · subst hs
      rw [Function.update_self] at hq
      exact h.storedRoom s q (hlist ▸ List.mem_cons_of_mem _ hq)
    · rw [Function.update_of_ne hs] at hq
      exact h.storedRoom s q hq
  · intro j
    by_cases hj : j = i
    · subst hj
      rw [calls_setCall_self]
      exact fun _ => h.storedRoom size _ hfirst
    · rw [calls_setCall_of_ne _ hj]
      exact h.calls j

/-- A list is not changed by a store into a block that is on none. -/
theorem Kept.linked_store (h : Kept maxNumber lists σ) {i p v : ℕ} (hp : σ.Has p sizeofPtr)
    (hcall : (σ.calls i).block = some p) (size : ℕ) :
    Linked sizeofPtr (σ.memory.store sizeofPtr p v) (σ.store size) (lists size) := by
  apply (h.linked size).frame
  intro q hq
  apply ByteMemory.load_store_of_apart
  apply h.words_apart hp (h.word_of_stored hq)
  rintro rfl
  exact absurd (h.alone (.stored size) (.call i) p hq hcall) (by simp)

/-- `__free` puts a block on the list. -/
theorem Kept.put (h : Kept maxNumber lists σ) {i p size : ℕ} (hcall : σ.calls i = .put p size)
    (hroom : σ.storeCount size < maxNumber size) :
    Kept maxNumber (Function.update lists size (p :: lists size))
      (σ.putStored maxNumber i p size) := by
  have hok := h.calls i
  rw [hcall] at hok
  obtain ⟨hnotPlain, hhas⟩ := hok
  have hblock : (σ.calls i).block = some p := by
    rw [hcall]
    rfl
  have hword : σ.Has p sizeofPtr := by
    rw [room_of_not_plain hnotPlain] at hhas
    exact hhas.le (Nat.le_max_right _ _)
  have hlt : (σ.storeCount size).toNat < (maxNumber size).toNat := UInt64.lt_iff_toNat_lt.mp hroom
  have hcount : (σ.storeCount size + 1).toNat = (lists size).length + 1 := by
    have hmax := (maxNumber size).toNat_lt
    rw [UInt64.toNat_add, h.count] at *
    have hone : (1 : UInt64).toNat = 1 := rfl
    rw [hone]
    omega
  have hput : σ.putStored maxNumber i p size =
      { σ with
        memory := σ.memory.store sizeofPtr p (σ.store size)
        store := Function.update σ.store size p
        storeCount := Function.update σ.storeCount size (σ.storeCount size + 1) }.setCall i
          .idle := by
    rw [State.putStored, if_pos hroom]
  rw [hput]
  refine ⟨h.apart, h.bounds, ?_, ?_, ?_, ?_, ?_, h.once, h.liveRoom, ?_, ?_⟩
  · intro s
    show Linked sizeofPtr (σ.memory.store sizeofPtr p (σ.store size))
      (Function.update σ.store size p s) _
    by_cases hs : s = size
    · subst hs
      rw [Function.update_self, Function.update_self]
      apply Linked.push _ (h.ne_zero hword)
      rw [ByteMemory.load_store (h.head_lt s)]
      exact h.linked_store hword hblock s
    · rw [Function.update_of_ne hs, Function.update_of_ne hs]
      exact h.linked_store hword hblock s
  · intro s
    show (Function.update σ.storeCount size _ s).toNat = _
    by_cases hs : s = size
    · subst hs
      rw [Function.update_self, Function.update_self, List.length_cons]
      exact hcount
    · rw [Function.update_of_ne hs, Function.update_of_ne hs]
      exact h.count s
  · intro s
    show Function.update σ.storeCount size _ s ≤ _
    by_cases hs : s = size
    · subst hs
      rw [Function.update_self, UInt64.le_iff_toNat_le, hcount, ← h.count]
      exact hlt
    · rw [Function.update_of_ne hs]
      exact h.limit s
  · intro s hplain
    by_cases hs : s = size
    · subst hs
      exact absurd hplain hnotPlain
    · rw [Function.update_of_ne hs]
      exact h.plain s hplain
  · -- the block goes from the call to the list
    apply h.alone.take (i := .stored size) (a := p)
    intro o q ho
    rcases holds_setCall ho with ⟨rfl, hq⟩ | ⟨hne, hq⟩
    · exact absurd hq (by simp [Call.block])
    · cases o with
      | live =>
        right
        refine ⟨?_, hq⟩
        rintro rfl
        exact absurd (h.alone .live (.call i) _ hq hblock) (by simp)
      | stored s =>
        have hmem : q ∈ Function.update lists size (p :: lists size) s := hq
        have hout : q ∈ lists s → q ≠ p := by
          rintro hmem' rfl
          exact absurd (h.alone (.stored s) (.call i) _ hmem' hblock) (by simp)
        by_cases hs : s = size
        · subst hs
          rw [Function.update_self, List.mem_cons] at hmem
          rcases hmem with hqp | hmem
          · exact .inl ⟨hqp, rfl⟩
          · exact .inr ⟨hout hmem, hmem⟩
        · rw [Function.update_of_ne hs] at hmem
          exact .inr ⟨hout hmem, hmem⟩
      | call j =>
        right
        refine ⟨?_, hq⟩
        rintro rfl
        exact hne (h.alone (.call j) (.call i) _ hq hblock)
  · intro s q hq
    by_cases hs : s = size
    · subst hs
      rw [Function.update_self, List.mem_cons] at hq
      rcases hq with rfl | hq
      · exact hhas
      · exact h.storedRoom s q hq
    · rw [Function.update_of_ne hs] at hq
      exact h.storedRoom s q hq
  · intro j
    by_cases hj : j = i
    · subst hj
      rw [calls_setCall_self]
      trivial
    · rw [calls_setCall_of_ne _ hj]
      exact h.calls j

/-- `malloc` returns a block. -/
theorem Kept.malloc (h : Kept maxNumber lists σ) {i p size n : ℕ}
    (hcall : σ.calls i = .malloc size n) (hfresh : σ.Fresh p n) :
    Kept maxNumber lists ({ σ with heap := (p, n) :: σ.heap }.setCall i (.back size p)) := by
  obtain ⟨hp, hbound, hapart⟩ := hfresh
  have hok := h.calls i
  rw [hcall] at hok
  have hn : n = room maxNumber size := hok
  have hmono : ∀ q k, σ.Has q k → ({ σ with heap := (p, n) :: σ.heap } : State).Has q k := by
    rintro q k ⟨b, hb, hbq⟩
    exact ⟨b, List.mem_cons_of_mem _ hb, hbq⟩
  refine ⟨List.pairwise_cons.mpr ⟨hapart, h.apart⟩, ?_, h.linked, h.count, h.limit, h.plain, ?_,
    h.once, ?_, ?_, ?_⟩
  · intro b hb
    rcases List.mem_cons.mp hb with rfl | hb
    · exact ⟨hp, hbound⟩
    · exact h.bounds b hb
  · -- nobody holds an address without a block
    apply h.alone.take (i := .call i) (a := p)
    intro o q ho
    rcases holds_setCall ho with ⟨rfl, hq⟩ | ⟨-, hq⟩
    · rw [Call.block, if_neg hp, Option.some.injEq] at hq
      exact .inl ⟨hq.symm, rfl⟩
    · have hheld : σ.Holds lists o q := by
        cases o with
        | live | stored | call => exact hq
      right
      refine ⟨?_, hheld⟩
      rintro rfl
      obtain ⟨b, hb, hbq, -⟩ := h.has_of_holds hheld
      exact (hapart b hb).1 hbq.symm
  · intro b hb
    exact hmono _ _ (h.liveRoom b hb)
  · intro s q hq
    exact hmono _ _ (h.storedRoom s q hq)
  · intro j
    by_cases hj : j = i
    · subst hj
      rw [calls_setCall_self]
      exact fun _ => ⟨(p, n), List.mem_cons_self .., rfl, hn.ge⟩
    · rw [calls_setCall_of_ne _ hj]
      exact (h.calls j).mono fun q k _ hq => hmono q k hq

/-- `__alloc` returns a block. -/
theorem Kept.back (h : Kept maxNumber lists σ) {i p size : ℕ} (hcall : σ.calls i = .back size p)
    (hp : p ≠ 0) :
    Kept maxNumber lists ({ σ with live := (p, size) :: σ.live }.setCall i .idle) := by
  have hblock : (σ.calls i).block = some p := by
    rw [hcall, Call.block, if_neg hp]
  have hok := h.calls i
  rw [hcall] at hok
  refine ⟨h.apart, h.bounds, h.linked, h.count, h.limit, h.plain, ?_, ?_, ?_, h.storedRoom, ?_⟩
  · -- the block goes from the call to the caller
    apply h.alone.take (i := .live) (a := p)
    intro o q ho
    rcases holds_setCall ho with ⟨rfl, hq⟩ | ⟨hne, hq⟩
    · exact absurd hq (by simp [Call.block])
    · have hout : ∀ o', o' ≠ .call i → σ.Holds lists o' q → q ≠ p := by
        intro o' hother hheld hqp
        exact hother (h.alone o' (.call i) q hheld (hqp ▸ hblock))
      cases o with
      | live =>
        have hmem : q ∈ p :: σ.live.map Prod.fst := hq
        rcases List.mem_cons.mp hmem with hqp | hmem
        · exact .inl ⟨hqp, rfl⟩
        · exact .inr ⟨hout .live (by simp) hmem, hmem⟩
      | stored s => exact .inr ⟨hout (.stored s) (by simp) hq, hq⟩
      | call j => exact .inr ⟨hout (.call j) hne hq, hq⟩
  · show (p :: σ.live.map Prod.fst).Nodup
    rw [List.nodup_cons]
    refine ⟨?_, h.once⟩
    intro hmem
    exact absurd (h.alone .live (.call i) p hmem hblock) (by simp)
  · intro b hb
    rcases List.mem_cons.mp hb with rfl | hb
    · exact hok hp
    · exact h.liveRoom b hb
  · intro j
    by_cases hj : j = i
    · subst hj
      rw [calls_setCall_self]
      trivial
    · rw [calls_setCall_of_ne _ hj]
      exact h.calls j

/-- `__free` is called for a live block. -/
theorem Kept.release (h : Kept maxNumber lists σ) {i p size : ℕ} (hidle : σ.calls i = .idle)
    (hlive : (p, size) ∈ σ.live) :
    Kept maxNumber lists
      ({ σ with live := σ.live.erase (p, size) }.free maxNumber i p size) := by
  have hhas := h.liveRoom (p, size) hlive
  have hp : p ≠ 0 := h.ne_zero hhas
  have hout : p ∉ (σ.live.erase (p, size)).map Prod.fst := by
    have hperm := (List.perm_cons_erase hlive).map Prod.fst
    have hnodup := hperm.nodup_iff.mp h.once
    exact (List.nodup_cons.mp hnodup).1
  have hsub : ((σ.live.erase (p, size)).map Prod.fst).Sublist (σ.live.map Prod.fst) :=
    (List.erase_sublist ..).map Prod.fst
  -- whichever way the call goes on, it takes the block over from the caller
  have hgoes : ∀ c : Call, c.block = some p → σ.CallOk maxNumber c →
      Kept maxNumber lists ({ σ with live := σ.live.erase (p, size) }.setCall i c) := by
    intro c hblock hok
    refine ⟨h.apart, h.bounds, h.linked, h.count, h.limit, h.plain, ?_, h.once.sublist hsub, ?_,
      h.storedRoom, ?_⟩
    · apply h.alone.take (i := .call i) (a := p)
      intro o q ho
      rcases holds_setCall ho with ⟨rfl, hq⟩ | ⟨hne, hq⟩
      · rw [hblock, Option.some.injEq] at hq
        exact .inl ⟨hq.symm, rfl⟩
      · right
        have hmem : σ.Holds lists .live p := List.mem_map_of_mem (f := Prod.fst) hlive
        cases o with
        | live =>
          refine ⟨?_, hsub.subset hq⟩
          rintro rfl
          exact hout hq
        | stored s =>
          refine ⟨?_, hq⟩
          rintro rfl
          exact absurd (h.alone (.stored s) .live _ hq hmem) (by simp)
        | call j =>
          refine ⟨?_, hq⟩
          rintro rfl
          exact absurd (h.alone (.call j) .live _ hq hmem) (by simp)
    · intro b hb
      exact h.liveRoom b (List.mem_of_mem_erase hb)
    · intro j
      by_cases hj : j = i
      · subst hj
        rw [calls_setCall_self]
        exact hok
      · rw [calls_setCall_of_ne _ hj]
        exact h.calls j
  rw [State.free, if_neg hp]
  by_cases hplain : State.Plain maxNumber size
  · rw [if_pos hplain]
    exact hgoes (.free p) rfl (hhas.le (Nat.zero_le _))
  · rw [if_neg hplain]
    exact hgoes (.put p size) rfl ⟨hplain, hhas⟩

/-- A block goes back to `free`. -/
theorem Kept.drop (h : Kept maxNumber lists σ) {i p : ℕ} (hcall : σ.calls i = .free p) :
    Kept maxNumber lists
      ({ σ with heap := σ.heap.filter fun b => b.1 ≠ p }.setCall i .idle) := by
  have hblock : (σ.calls i).block = some p := by
    rw [hcall]
    rfl
  have hother : ∀ o q, o ≠ .call i → σ.Holds lists o q → q ≠ p := by
    intro o q hne hheld hqp
    exact hne (h.alone o (.call i) q hheld (hqp ▸ hblock))
  have hkeep : ∀ q k, q ≠ p → σ.Has q k →
      ({ σ with heap := σ.heap.filter fun b => b.1 ≠ p } : State).Has q k := by
    rintro q k hne ⟨b, hb, rfl, hle⟩
    refine ⟨b, ?_, rfl, hle⟩
    exact List.mem_filter.mpr ⟨hb, by simpa using hne⟩
  refine ⟨h.apart.filter _, ?_, h.linked, h.count, h.limit, h.plain, ?_, h.once, ?_, ?_, ?_⟩
  · intro b hb
    exact h.bounds b (List.mem_filter.mp hb).1
  · apply h.alone.mono
    intro o q ho
    rcases holds_setCall ho with ⟨rfl, hq⟩ | ⟨-, hq⟩
    · exact absurd hq (by simp [Call.block])
    · cases o with
      | live | stored | call => exact hq
  · intro b hb
    have hmem : σ.Holds lists .live b.1 := List.mem_map_of_mem (f := Prod.fst) hb
    exact hkeep _ _ (hother .live b.1 (by simp) hmem) (h.liveRoom b hb)
  · intro s q hq
    exact hkeep _ _ (hother (.stored s) q (by simp) hq) (h.storedRoom s q hq)
  · intro j
    by_cases hj : j = i
    · subst hj
      rw [calls_setCall_self]
      trivial
    · rw [calls_setCall_of_ne _ hj]
      apply (h.calls j).mono
      intro q k hq hhas
      exact hkeep q k (hother (.call j) q (by simpa using hj) hq) hhas

/-- Memory changes where it is not the allocator's. -/
theorem Kept.write (h : Kept maxNumber lists σ) {memory : ByteMemory} (hspares : σ.Spares memory) :
    Kept maxNumber lists { σ with memory := memory } := by
  refine ⟨h.apart, h.bounds, ?_, h.count, h.limit, h.plain, ?_, h.once, h.liveRoom, h.storedRoom,
    h.calls⟩
  · intro size
    apply (h.linked size).frame
    intro q hq
    obtain ⟨b, hb, rfl, hle⟩ := h.word_of_stored hq
    have hdead : b.1 ∉ σ.live.map Prod.fst := by
      intro hlive
      exact absurd (h.alone (.stored size) .live b.1 hq hlive) (by simp)
    apply ByteMemory.load_congr
    intro k hk
    exact hspares b hb hdead k (by omega)
  · apply h.alone.mono
    intro o q ho
    cases o with
    | live | stored | call => exact ho

/-- **Every step keeps the blocks.** -/
theorem kept_step {e : Event} (h : Kept maxNumber lists σ) (hstep : σ.step maxNumber e = some σ') :
    ∃ lists', Kept maxNumber lists' σ' := by
  cases e with
  | alloc i size =>
    simp only [State.step, Option.ite_none_right_eq_some, Option.some.injEq] at hstep
    obtain ⟨-, rfl⟩ := hstep
    refine ⟨lists, ?_⟩
    unfold State.alloc
    by_cases hplain : State.Plain maxNumber size
    · rw [if_pos hplain]
      refine h.setCall (by simp [Call.block]) ?_
      exact (if_pos hplain).symm
    · rw [if_neg hplain]
      exact h.setCall (by simp [Call.block]) hplain
  | free i ptr size =>
    simp only [State.step, Option.ite_none_right_eq_some, Option.some.injEq] at hstep
    obtain ⟨⟨hidle, hptr⟩, rfl⟩ := hstep
    refine ⟨lists, ?_⟩
    by_cases hlive : (ptr, size) ∈ σ.live
    · exact h.release hidle hlive
    · have hzero := hptr.resolve_right hlive
      rw [List.erase_of_not_mem hlive, State.free, if_pos hzero]
      exact h
  | write memory =>
    simp only [State.step, Option.ite_none_right_eq_some, Option.some.injEq] at hstep
    obtain ⟨hspares, rfl⟩ := hstep
    exact ⟨lists, h.write hspares⟩
  | next i answer =>
    have hok := h.calls i
    simp only [State.step, State.next] at hstep
    cases hcall : σ.calls i with
    | idle => simp [hcall] at hstep
    | take size =>
      simp only [hcall, Option.some.injEq] at hstep
      subst hstep
      by_cases hhead : σ.store size = 0
      · refine ⟨lists, ?_⟩
        rw [State.takeStored, if_neg (not_not.mpr hhead)]
        refine h.setCall (by simp [Call.block]) ?_
        rw [hcall] at hok
        show (if size < sizeofPtr then sizeofPtr else size) = room maxNumber size
        rw [room_of_not_plain hok, max_def]
        by_cases hlt : size < sizeofPtr
        · rw [if_pos hlt, if_pos (Nat.le_of_lt hlt)]
        · rw [if_neg hlt]
          split <;> omega
      · obtain ⟨rest, hkept⟩ := h.take hcall hhead
        exact ⟨_, hkept⟩
    | malloc size n =>
      simp only [hcall] at hstep
      refine ⟨lists, ?_⟩
      by_cases hanswer : answer = 0
      · rw [if_pos hanswer, Option.some.injEq] at hstep
        subst hstep
        exact h.setCall (by simp [Call.block]) fun hne => absurd rfl hne
      · rw [if_neg hanswer, Option.ite_none_right_eq_some, Option.some.injEq] at hstep
        obtain ⟨hfresh, rfl⟩ := hstep
        exact h.malloc hcall hfresh
    | back size ptr =>
      simp only [hcall] at hstep
      refine ⟨lists, ?_⟩
      by_cases hptr : ptr = 0
      · rw [if_pos hptr, Option.some.injEq] at hstep
        subst hstep
        exact h.setCall (by simp [Call.block]) trivial
      · rw [if_neg hptr, Option.some.injEq] at hstep
        subst hstep
        exact h.back hcall hptr
    | put ptr size =>
      simp only [hcall, Option.some.injEq] at hstep
      subst hstep
      by_cases hroom : σ.storeCount size < maxNumber size
      · exact ⟨_, h.put hcall hroom⟩
      · refine ⟨lists, ?_⟩
        rw [State.putStored, if_neg hroom]
        rw [hcall] at hok
        apply h.setCall (c := .free ptr) _ (hok.2.le (Nat.zero_le _))
        intro p hp
        rw [hcall]
        exact hp
    | free ptr =>
      simp only [hcall, Option.some.injEq] at hstep
      subst hstep
      exact ⟨lists, h.drop hcall⟩

/-- The blocks are kept in every reachable state. -/
theorem reachable_kept (h : (allocatorSystem maxNumber).Reachable σ) :
    ∃ lists, Kept maxNumber lists σ := by
  apply h.invariant (I := fun σ => ∃ lists, Kept maxNumber lists σ) ⟨_, kept_init⟩
  rintro s e s' - ⟨lists, hkept⟩ hstep
  exact kept_step hkept hstep

/-- **The allocator never hands out a block twice.** A block that `__alloc` is about to return is
not live and has the size asked for; no two blocks share a byte. The list for each size is acyclic,
as long as its count says and within its limit; its blocks are not live, on no other list, and have
room for the size and a pointer. -/
theorem never_handed_out_twice (h : (allocatorSystem maxNumber).Reachable σ) :
    (∀ i size ptr, σ.calls i = .back size ptr → ptr ≠ 0 →
      ptr ∉ σ.live.map Prod.fst ∧ σ.Has ptr size) ∧
    (σ.live.map Prod.fst).Nodup ∧ (∀ b ∈ σ.live, σ.Has b.1 b.2) ∧ σ.heap.Pairwise Apart ∧
    ∃ lists : ℕ → List ℕ,
      (∀ size, Linked sizeofPtr σ.memory (σ.store size) (lists size) ∧ (lists size).Nodup ∧
        (lists size).length = (σ.storeCount size).toNat ∧ σ.storeCount size ≤ maxNumber size ∧
        ∀ p ∈ lists size, p ∉ σ.live.map Prod.fst ∧ σ.Has p (max size sizeofPtr)) ∧
      ∀ size size' p, p ∈ lists size → p ∈ lists size' → size = size' := by
  obtain ⟨lists, hkept⟩ := reachable_kept h
  refine ⟨?_, hkept.once, ?_, hkept.apart, lists, ?_, ?_⟩
  · intro i size ptr hcall hptr
    have hok := hkept.calls i
    rw [hcall] at hok
    refine ⟨?_, (hok hptr).le (size_le_room size)⟩
    intro hlive
    have hblock : σ.Holds lists (.call i) ptr := by
      show (σ.calls i).block = some ptr
      rw [hcall, Call.block, if_neg hptr]
    exact absurd (hkept.alone .live (.call i) ptr hlive hblock) (by simp)
  · intro b hb
    exact (hkept.liveRoom b hb).le (size_le_room b.2)
  · intro size
    refine ⟨hkept.linked size, (hkept.linked size).nodup, (hkept.count size).symm,
      hkept.limit size, ?_⟩
    intro p hp
    constructor
    · intro hlive
      exact absurd (hkept.alone .live (.stored size) p hlive hp) (by simp)
    · have hroom := hkept.storedRoom size p hp
      rwa [room_of_not_plain] at hroom
      intro hplain
      rw [hkept.plain size hplain] at hp
      exact absurd hp (by simp)
  · intro size size' p hp hp'
    exact Holder.stored.inj (hkept.alone (.stored size) (.stored size') p hp hp')

/-- Two blocks of a size that is kept are allocated and freed; the second one is freed while a
third is allocated. -/
def cacheRun : List Event :=
  [.alloc 0 16, .next 0 0, .next 0 4096, .next 0 0, .alloc 0 16, .next 0 0, .next 0 8192, .next 0 0,
    .free 0 4096 16, .next 0 0, .free 0 8192 16, .alloc 1 16, .next 0 0, .next 1 0]

theorem never_handed_out_twice_cached :
    ∃ σ, (allocatorSystem fun _ => 2).run cacheRun = some σ ∧ σ.calls 1 = .back 16 8192 ∧
      σ.store 16 = 4096 ∧ 8192 ∉ σ.live.map Prod.fst ∧ σ.Has 8192 16 := by
  have hrun : ∃ σ, (allocatorSystem fun _ => 2).run cacheRun = some σ ∧
      σ.calls 1 = .back 16 8192 ∧ σ.store 16 = 4096 :=
    ⟨((allocatorSystem fun _ => 2).run cacheRun).get (by decide), (Option.some_get _).symm,
      by decide, by decide⟩
  obtain ⟨σ, hσ, hcall, hstore⟩ := hrun
  have hreach := Lib.Lts.reachable_of_run hσ
  exact ⟨σ, hσ, hcall, hstore, (never_handed_out_twice hreach).1 1 16 8192 hcall (by decide)⟩

end NetworkPool.FastAllocator
