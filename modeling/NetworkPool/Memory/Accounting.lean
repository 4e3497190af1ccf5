import NetworkPool.Lib.Family
import NetworkPool.Memory.Trace

/-!
# The counters tell the live blocks

Every block that the allocator has handed out is with its owner or in the hands of one call, its
header tells the size it was asked for with, and the counters add up what has been counted
(`Accounts`). Every call of `__free` is one the allocator allows, so what holds of the allocator
holds under the trace.
-/

namespace NetworkPool

open Lib (ByteMemory Exclusive Apart)

namespace FastAllocator

variable {maxNumber : ℕ → UInt64} {σ σ' : State} {i answer : ℕ}

/-! ## The allocator under a call -/

/-- The call is in `__alloc(size)`. -/
def Call.InAlloc (size : ℕ) (c : Call) : Prop :=
  c = .take size ∨ (∃ n, c = .malloc size n) ∨ ∃ ptr, c = .back size ptr

/-- The call is in `__free`. -/
def Call.InFree (c : Call) : Prop :=
  (∃ ptr size, c = .put ptr size) ∨ ∃ ptr, c = .free ptr

theorem alloc_inAlloc (size : ℕ) :
    ((σ.alloc maxNumber i size).calls i).InAlloc size := by
  unfold State.alloc
  by_cases hplain : State.Plain maxNumber size
  · rw [if_pos hplain, calls_setCall_self]
    exact .inr (.inl ⟨size, rfl⟩)
  · rw [if_neg hplain, calls_setCall_self]
    exact .inl rfl

theorem alloc_spec (maxNumber : ℕ → UInt64) (i : ℕ) (σ : State) (size : ℕ) :
    (σ.alloc maxNumber i size).live = σ.live ∧ (σ.alloc maxNumber i size).memory = σ.memory ∧
    ∀ j, j ≠ i → (σ.alloc maxNumber i size).calls j = σ.calls j := by
  unfold State.alloc
  by_cases hplain : State.Plain maxNumber size
  · rw [if_pos hplain]
    exact ⟨rfl, rfl, fun j hj => calls_setCall_of_ne _ hj⟩
  · rw [if_neg hplain]
    exact ⟨rfl, rfl, fun j hj => calls_setCall_of_ne _ hj⟩

/-- A step of `__alloc` either returns or goes on. -/
theorem next_inAlloc {size : ℕ} (hcall : (σ.calls i).InAlloc size)
    (h : σ.next maxNumber i answer = some σ') :
    σ'.memory = σ.memory ∧ (∀ j, j ≠ i → σ'.calls j = σ.calls j) ∧
    ((∃ ptr, σ.calls i = .back size ptr ∧ σ'.calls i = .idle ∧
        σ'.live = if ptr = 0 then σ.live else (ptr, size) :: σ.live) ∨
      ((∀ s ptr, σ.calls i ≠ .back s ptr) ∧ (σ'.calls i).InAlloc size ∧ σ'.live = σ.live)) := by
  have hother : ∀ (s : State) (c : Call) (j : ℕ), j ≠ i → (s.setCall i c).calls j = s.calls j :=
    fun s c j hj => calls_setCall_of_ne c hj
  rcases hcall with hcall | ⟨n, hcall⟩ | ⟨ptr, hcall⟩
  · simp only [State.next, hcall, Option.some.injEq] at h
    subst h
    unfold State.takeStored
    by_cases hhead : σ.store size ≠ 0
    · rw [if_pos hhead]
      refine ⟨rfl, hother _ _, .inr ⟨by simp [hcall], ?_, rfl⟩⟩
      rw [calls_setCall_self]
      exact .inr (.inr ⟨_, rfl⟩)
    · rw [if_neg hhead]
      refine ⟨rfl, hother _ _, .inr ⟨by simp [hcall], ?_, rfl⟩⟩
      rw [calls_setCall_self]
      exact .inr (.inl ⟨_, rfl⟩)
  · simp only [State.next, hcall] at h
    by_cases hanswer : answer = 0
    · rw [if_pos hanswer, Option.some.injEq] at h
      subst h
      refine ⟨rfl, hother _ _, .inr ⟨by simp [hcall], ?_, rfl⟩⟩
      rw [calls_setCall_self]
      exact .inr (.inr ⟨_, rfl⟩)
    · rw [if_neg hanswer, Option.ite_none_right_eq_some, Option.some.injEq] at h
      obtain ⟨-, rfl⟩ := h
      refine ⟨rfl, hother _ _, .inr ⟨by simp [hcall], ?_, rfl⟩⟩
      rw [calls_setCall_self]
      exact .inr (.inr ⟨_, rfl⟩)
  · simp only [State.next, hcall] at h
    by_cases hptr : ptr = 0
    · rw [if_pos hptr, Option.some.injEq] at h
      subst h
      refine ⟨rfl, hother _ _, .inl ⟨ptr, hcall, calls_setCall_self i _, ?_⟩⟩
      rw [if_pos hptr]
      rfl
    · rw [if_neg hptr, Option.some.injEq] at h
      subst h
      refine ⟨rfl, hother _ _, .inl ⟨ptr, hcall, calls_setCall_self i _, ?_⟩⟩
      rw [if_neg hptr]
      rfl

/-- A step of `__free` leaves the words of live blocks alone. -/
theorem next_inFree (hreach : (allocatorSystem maxNumber).Reachable σ)
    (hcall : (σ.calls i).InFree) (h : σ.next maxNumber i answer = some σ') :
    σ'.live = σ.live ∧ (∀ j, j ≠ i → σ'.calls j = σ.calls j) ∧
    (σ'.calls i = .idle ∨ (σ'.calls i).InFree) ∧
    ∀ b ∈ σ.live, sizeofPtr ≤ b.2 →
      σ'.memory.load sizeofPtr b.1 = σ.memory.load sizeofPtr b.1 := by
  have hother : ∀ (s : State) (c : Call) (j : ℕ), j ≠ i → (s.setCall i c).calls j = s.calls j :=
    fun s c j hj => calls_setCall_of_ne c hj
  rcases hcall with ⟨ptr, size, hcall⟩ | ⟨ptr, hcall⟩
  · simp only [State.next, hcall, Option.some.injEq] at h
    subst h
    unfold State.putStored
    by_cases hroom : σ.storeCount size < maxNumber size
    · rw [if_pos hroom]
      refine ⟨rfl, hother _ _, .inl (calls_setCall_self i _), ?_⟩
      intro b hb hle
      obtain ⟨lists, hkept⟩ := reachable_kept hreach
      have hok := hkept.calls i
      rw [hcall] at hok
      have hhas := hok.2
      rw [room_of_not_plain hok.1] at hhas
      have hlive : σ.Has b.1 sizeofPtr :=
        (hkept.liveRoom b hb).le (hle.trans (size_le_room b.2))
      apply ByteMemory.load_store_of_apart
      apply hkept.words_apart (hhas.le (Nat.le_max_right _ _)) hlive
      -- what the call has in its hands is not live
      intro hptr
      have hmem : σ.Holds lists .live ptr := hptr ▸ List.mem_map_of_mem (f := Prod.fst) hb
      have hblock : σ.Holds lists (.call i) ptr := by
        show (σ.calls i).block = some ptr
        rw [hcall]
        rfl
      exact absurd (hkept.alone .live (.call i) ptr hmem hblock) (by simp)
    · rw [if_neg hroom]
      refine ⟨rfl, hother _ _, .inr ?_, fun _ _ _ => rfl⟩
      rw [calls_setCall_self]
      exact .inr ⟨ptr, rfl⟩
  · simp only [State.next, hcall, Option.some.injEq] at h
    subst h
    exact ⟨rfl, hother _ _, .inl (calls_setCall_self i _), fun _ _ _ => rfl⟩

end FastAllocator

namespace MemoryTrace

variable {maxNumber : ℕ → UInt64} {n i : ℕ} {σ σ' : State}

/-! ## What a call has counted -/

/-- The block in the hands of a call. -/
def Call.block : Call → Option (ℕ × ℕ)
  | .header _ b | .addSize _ b | .addCount _ b | .constructing b | .destructing b
  | .readSize b _ | .subSize b _ | .subCount b _ | .release b _ => some b
  | .idle | .allocating _ _ | .freeing _ => none

/-- The block in the hands of a call, once its header is written. -/
def Call.written : Call → Option (ℕ × ℕ)
  | .header _ _ => none
  | c => c.block

/-- What the block in the hands of a call makes up of `m_size`. -/
def Call.sized : Call → ℕ
  | .addCount _ b | .constructing b | .destructing b | .readSize b _ | .subSize b _ => b.2
  | _ => 0

/-- What the block in the hands of a call makes up of `m_count`. -/
def Call.counted : Call → ℕ
  | .constructing _ | .destructing _ | .readSize _ _ | .subSize _ _ | .subCount _ _ => 1
  | _ => 0

/-- Who may hold a block. -/
inductive Holder
  /-- A caller. -/
  | live
  | call (i : ℕ)

/-- Who holds a block. -/
def State.Holds (σ : State) : Holder → ℕ × ℕ → Prop
  | .live, b => b ∈ σ.live
  | .call i, b => (σ.calls i).block = some b

/-- Where the allocator stands while a call is here. -/
def Call.Under (c : Call) (a : FastAllocator.Call) : Prop :=
  match c with
  | .allocating _ allocSize => sizeofSize ≤ allocSize ∧ allocSize < 2 ^ 64 ∧ a.InAlloc allocSize
  | .freeing _ => a.InFree
  | _ => a = .idle

/-- **The accounts.** -/
structure Accounts (maxNumber : ℕ → UInt64) (n : ℕ) (σ : State) : Prop where
  reach : (allocatorSystem maxNumber).Reachable σ.allocator
  size : σ.size = BitVec.ofNat 64
    ((σ.live.map Prod.snd).sum + Lib.Family.total Call.sized σ.calls n)
  count : σ.count = BitVec.ofNat 32
    (σ.live.length + Lib.Family.total Call.counted σ.calls n)
  once : σ.live.Nodup
  alone : Exclusive σ.Holds
  held : ∀ o b, σ.Holds o b → b ∈ σ.allocator.live ∧ sizeofSize ≤ b.2 ∧ b.2 < 2 ^ 64
  whole : ∀ b ∈ σ.allocator.live, ∃ o, σ.Holds o b
  header : ∀ b, b ∈ σ.live ∨ (∃ i, (σ.calls i).written = some b) →
    σ.allocator.memory.load sizeofSize b.1 = b.2
  under : ∀ i, (σ.calls i).Under (σ.allocator.calls i)
  unused : ∀ i, n ≤ i → σ.calls i = .idle

theorem holds_update {o : Holder} {b : ℕ × ℕ} {c : Call} {live : List (ℕ × ℕ)}
    {s : State} (hcalls : s.calls = Function.update σ.calls i c) (hlive : s.live = live)
    (h : s.Holds o b) :
    (o = .call i ∧ c.block = some b) ∨ (o = .live ∧ b ∈ live) ∨
      ∃ j, j ≠ i ∧ o = .call j ∧ (σ.calls j).block = some b := by
  cases o with
  | live => exact .inr (.inl ⟨rfl, hlive ▸ h⟩)
  | call j =>
    have hblock : (s.calls j).block = some b := h
    rw [hcalls] at hblock
    by_cases hj : j = i
    · rw [hj, Function.update_self] at hblock
      exact .inl ⟨by rw [hj], hblock⟩
    · rw [Function.update_of_ne hj] at hblock
      exact .inr (.inr ⟨j, hj, rfl, hblock⟩)

/-- Only a call below `n` goes on. -/
theorem unused_update {c : Call} {calls : ℕ → Call} (h : ∀ j, n ≤ j → calls j = .idle)
    (hi : i < n) (j : ℕ) (hj : n ≤ j) : Function.update calls i c j = .idle := by
  have hne : j ≠ i := by omega
  rw [Function.update_of_ne hne]
  exact h j hj

theorem block_of_written {c : Call} {b : ℕ × ℕ} (h : c.written = some b) : c.block = some b := by
  cases c with
  | header => simp [Call.written] at h
  | _ => exact h

/-- What the calls have counted, after one of them went on. -/
theorem total_step (g : Call → ℕ) {c : Call} (calls : ℕ → Call) (hi : i < n) {w : ℕ}
    {x x' : BitVec w} {k k' : ℕ} (hx : x = BitVec.ofNat w (k + Lib.Family.total g calls n))
    (hstep : x' + BitVec.ofNat w (g (calls i)) + BitVec.ofNat w k =
      x + BitVec.ofNat w (g c) + BitVec.ofNat w k') :
    x' = BitVec.ofNat w (k' + Lib.Family.total g (Function.update calls i c) n) := by
  have htotal := Lib.Family.total_update (g := g) (f := calls) (x := c) hi
  have hsum : k + Lib.Family.total g calls n + g c + k' =
      k' + Lib.Family.total g (Function.update calls i c) n + g (calls i) + k := by
    omega
  have hcast := congrArg (BitVec.ofNat w) hsum
  rw [BitVec.ofNat_add, BitVec.ofNat_add, ← hx] at hcast
  rw [hcast, BitVec.ofNat_add, BitVec.ofNat_add] at hstep
  exact (BitVec.add_left_inj _).mp ((BitVec.add_left_inj _).mp hstep)

/-- A call goes on with the block it has, and the allocator with the blocks it has handed out. -/
theorem Accounts.go (h : Accounts maxNumber n σ) (hi : i < n) {a : FastAllocator.State}
    {size : BitVec 64} {count : BitVec 32} {c : Call} {outcomes : List (ℕ × Outcome)}
    (hreach : (allocatorSystem maxNumber).Reachable a) (hlive : a.live = σ.allocator.live)
    (hcalls : ∀ j, j ≠ i → a.calls j = σ.allocator.calls j)
    (hblock : c.block = (σ.calls i).block)
    (hsize : size + BitVec.ofNat 64 (σ.calls i).sized = σ.size + BitVec.ofNat 64 c.sized)
    (hcount : count + BitVec.ofNat 32 (σ.calls i).counted = σ.count + BitVec.ofNat 32 c.counted)
    (hloads : ∀ o b, o ≠ .call i → σ.Holds o b →
      a.memory.load sizeofSize b.1 = σ.allocator.memory.load sizeofSize b.1)
    (hwritten : ∀ b, c.written = some b → a.memory.load sizeofSize b.1 = b.2)
    (hunder : c.Under (a.calls i)) :
    Accounts maxNumber n ⟨a, size, count, Function.update σ.calls i c, σ.live, outcomes⟩ where
  reach := hreach
  size := by
    apply total_step Call.sized σ.calls hi h.size
    rw [hsize]
  count := by
    apply total_step Call.counted σ.calls hi h.count
    rw [hcount]
  once := h.once
  alone := by
    apply h.alone.mono
    intro o b ho
    rcases holds_update rfl rfl ho with ⟨rfl, hb⟩ | ⟨rfl, hb⟩ | ⟨j, -, rfl, hb⟩
    · exact hblock.symm.trans hb
    · exact hb
    · exact hb
  held := by
    intro o b ho
    rw [hlive]
    rcases holds_update rfl rfl ho with ⟨rfl, hb⟩ | ⟨rfl, hb⟩ | ⟨j, -, rfl, hb⟩
    · exact h.held (.call i) b (hblock.symm.trans hb)
    · exact h.held .live b hb
    · exact h.held (.call j) b hb
  whole := by
    intro b hb
    rw [hlive] at hb
    obtain ⟨o, ho⟩ := h.whole b hb
    refine ⟨o, ?_⟩
    cases o with
    | live => exact ho
    | call j =>
      show (Function.update σ.calls i c j).block = some b
      by_cases hj : j = i
      · subst hj
        rw [Function.update_self, hblock]
        exact ho
      · rw [Function.update_of_ne hj]
        exact ho
  header := by
    intro b hb
    show a.memory.load sizeofSize b.1 = b.2
    rcases hb with hb | ⟨j, hj⟩
    · rw [hloads .live b (by simp) hb]
      exact h.header b (.inl hb)
    · have hj' : (Function.update σ.calls i c j).written = some b := hj
      by_cases hji : j = i
      · rw [hji, Function.update_self] at hj'
        exact hwritten b hj'
      · rw [Function.update_of_ne hji] at hj'
        rw [hloads (.call j) b (by simpa using hji) (block_of_written hj')]
        exact h.header b (.inr ⟨j, hj'⟩)
  under := by
    intro j
    show (Function.update σ.calls i c j).Under (a.calls j)
    by_cases hj : j = i
    · rw [hj, Function.update_self]
      exact hunder
    · rw [Function.update_of_ne hj, hcalls j hj]
      exact h.under j
  unused := unused_update h.unused hi

/-- A call gives its block to the caller. -/
theorem Accounts.giveOut (h : Accounts maxNumber n σ) (hi : i < n) {b : ℕ × ℕ} {size : BitVec 64}
    {count : BitVec 32} {outcomes : List (ℕ × Outcome)}
    (hwritten : (σ.calls i).written = some b) (hidle : σ.allocator.calls i = .idle)
    (hsize : size + BitVec.ofNat 64 (σ.calls i).sized = σ.size + BitVec.ofNat 64 b.2)
    (hcount : count + BitVec.ofNat 32 (σ.calls i).counted = σ.count + 1) :
    Accounts maxNumber n
      ⟨σ.allocator, size, count, Function.update σ.calls i .idle, b :: σ.live, outcomes⟩ where
  reach := h.reach
  size := by
    apply total_step Call.sized σ.calls hi h.size
    rw [hsize, List.map_cons, List.sum_cons, BitVec.ofNat_add]
    show σ.size + BitVec.ofNat 64 b.2 + _ = σ.size + 0#64 + _
    rw [BitVec.add_zero, BitVec.add_assoc]
  count := by
    apply total_step Call.counted σ.calls hi h.count
    rw [hcount, List.length_cons, BitVec.ofNat_add]
    show σ.count + 1 + _ = σ.count + 0#32 + (_ + 1)
    rw [BitVec.add_zero, BitVec.add_assoc, BitVec.add_comm 1]
  once := by
    rw [List.nodup_cons]
    refine ⟨?_, h.once⟩
    intro hmem
    exact absurd (h.alone .live (.call i) b hmem (block_of_written hwritten)) (by simp)
  alone := by
    apply h.alone.take (i := .live) (a := b)
    intro o b' ho
    have hout : ∀ o', o' ≠ .call i → σ.Holds o' b' → b' ≠ b := by
      intro o' hother hheld heq
      exact hother (h.alone o' (.call i) b' hheld (heq ▸ block_of_written hwritten))
    rcases holds_update rfl rfl ho with ⟨rfl, hb⟩ | ⟨rfl, hb⟩ | ⟨j, hj, rfl, hb⟩
    · exact absurd hb (by simp [Call.block])
    · rcases List.mem_cons.mp hb with rfl | hb
      · exact .inl ⟨rfl, rfl⟩
      · exact .inr ⟨hout .live (by simp) hb, hb⟩
    · exact .inr ⟨hout (.call j) (by simpa using hj) hb, hb⟩
  held := by
    intro o b' ho
    rcases holds_update rfl rfl ho with ⟨rfl, hb⟩ | ⟨rfl, hb⟩ | ⟨j, -, rfl, hb⟩
    · exact absurd hb (by simp [Call.block])
    · rcases List.mem_cons.mp hb with rfl | hb
      · exact h.held (.call i) b' (block_of_written hwritten)
      · exact h.held .live b' hb
    · exact h.held (.call j) b' hb
  whole := by
    intro b' hb'
    obtain ⟨o, ho⟩ := h.whole b' hb'
    cases o with
    | live => exact ⟨.live, List.mem_cons_of_mem _ ho⟩
    | call j =>
      by_cases hj : j = i
      · subst hj
        have heq : b = b' := Option.some.inj ((block_of_written hwritten).symm.trans ho)
        exact ⟨.live, heq ▸ List.mem_cons_self ..⟩
      · refine ⟨.call j, ?_⟩
        show (Function.update σ.calls i .idle j).block = some b'
        rw [Function.update_of_ne hj]
        exact ho
  header := by
    intro b' hb'
    rcases hb' with hb' | ⟨j, hj⟩
    · rcases List.mem_cons.mp hb' with rfl | hb'
      · exact h.header b' (.inr ⟨i, hwritten⟩)
      · exact h.header b' (.inl hb')
    · have hj' : (Function.update σ.calls i .idle j).written = some b' := hj
      by_cases hji : j = i
      · rw [hji, Function.update_self] at hj'
        exact absurd hj' (by simp [Call.written, Call.block])
      · rw [Function.update_of_ne hji] at hj'
        exact h.header b' (.inr ⟨j, hj'⟩)
  under := by
    intro j
    show (Function.update σ.calls i .idle j).Under (σ.allocator.calls j)
    by_cases hj : j = i
    · rw [hj, Function.update_self]
      exact hidle
    · rw [Function.update_of_ne hj]
      exact h.under j
  unused := unused_update h.unused hi

/-- A call takes a block back from its owner. -/
theorem Accounts.takeBack (h : Accounts maxNumber n σ) (hi : i < n) {b : ℕ × ℕ} {c : Call}
    (hidle : σ.calls i = .idle) (hb : b ∈ σ.live) (hwritten : c.written = some b)
    (hsized : c.sized = b.2) (hcounted : c.counted = 1)
    (hunder : ∀ a, a = .idle → c.Under a) :
    Accounts maxNumber n (σ.takeBack i b c) where
  reach := h.reach
  size := by
    apply total_step Call.sized σ.calls hi h.size
    have hsum := congrArg (BitVec.ofNat 64) ((List.perm_cons_erase hb).map Prod.snd).sum_eq
    rw [List.map_cons, List.sum_cons, BitVec.ofNat_add] at hsum
    rw [hsum, hidle, hsized, ← BitVec.add_assoc]
    show σ.size + 0#64 + _ + _ = _
    rw [BitVec.add_zero]
    rfl
  count := by
    apply total_step Call.counted σ.calls hi h.count
    have hlength := congrArg (BitVec.ofNat 32) (List.perm_cons_erase hb).length_eq
    rw [List.length_cons, BitVec.ofNat_add] at hlength
    rw [hlength, hidle, hcounted, BitVec.add_comm _ (BitVec.ofNat 32 1), ← BitVec.add_assoc]
    show σ.count + 0#32 + _ + _ = _
    rw [BitVec.add_zero]
    rfl
  once := h.once.erase b
  alone := by
    apply h.alone.take (i := .call i) (a := b)
    intro o b' ho
    rcases holds_update rfl rfl ho with ⟨rfl, hc⟩ | ⟨rfl, hc⟩ | ⟨j, hj, rfl, hc⟩
    · rw [block_of_written hwritten, Option.some.injEq] at hc
      exact .inl ⟨hc.symm, rfl⟩
    · have hc' : b' ∈ σ.live.erase b := hc
      exact .inr (h.once.mem_erase_iff.mp hc')
    · right
      refine ⟨?_, hc⟩
      rintro rfl
      exact absurd (h.alone (.call j) .live b' hc hb) (by simp)
  held := by
    intro o b' ho
    rcases holds_update rfl rfl ho with ⟨rfl, hc⟩ | ⟨rfl, hc⟩ | ⟨j, hj, rfl, hc⟩
    · rw [block_of_written hwritten, Option.some.injEq] at hc
      exact hc ▸ h.held .live b hb
    · exact h.held .live b' (List.mem_of_mem_erase hc)
    · exact h.held (.call j) b' hc
  whole := by
    intro b' hb'
    obtain ⟨o, ho⟩ := h.whole b' hb'
    by_cases heq : b' = b
    · refine ⟨.call i, ?_⟩
      show (Function.update σ.calls i c i).block = some b'
      rw [Function.update_self, heq]
      exact block_of_written hwritten
    · refine ⟨o, ?_⟩
      cases o with
      | live => exact h.once.mem_erase_iff.mpr ⟨heq, ho⟩
      | call j =>
        have hblock : (σ.calls j).block = some b' := ho
        have hj : j ≠ i := by
          rintro rfl
          rw [hidle] at hblock
          exact absurd hblock (by simp [Call.block])
        show (Function.update σ.calls i c j).block = some b'
        rw [Function.update_of_ne hj]
        exact hblock
  header := by
    intro b' hb'
    rcases hb' with hb' | ⟨j, hj⟩
    · exact h.header b' (.inl (List.mem_of_mem_erase hb'))
    · have hj' : (Function.update σ.calls i c j).written = some b' := hj
      by_cases hji : j = i
      · rw [hji, Function.update_self, hwritten, Option.some.injEq] at hj'
        exact hj' ▸ h.header b (.inl hb)
      · rw [Function.update_of_ne hji] at hj'
        exact h.header b' (.inr ⟨j, hj'⟩)
  under := by
    intro j
    show (Function.update σ.calls i c j).Under (σ.allocator.calls j)
    by_cases hj : j = i
    · subst hj
      rw [Function.update_self]
      apply hunder
      have hunder' := h.under j
      rw [hidle] at hunder'
      exact hunder'
    · rw [Function.update_of_ne hj]
      exact h.under j
  unused := unused_update h.unused hi

/-- `__alloc` returns a block to a call. -/
theorem Accounts.allocated (h : Accounts maxNumber n σ) (hi : i < n) {a : FastAllocator.State}
    {make : Make} {ptr allocSize : ℕ} (hcall : σ.calls i = .allocating make allocSize)
    (hreach : (allocatorSystem maxNumber).Reachable a)
    (hlive : a.live = (ptr, allocSize) :: σ.allocator.live)
    (hcalls : ∀ j, j ≠ i → a.calls j = σ.allocator.calls j) (hidle : a.calls i = .idle)
    (hmemory : a.memory = σ.allocator.memory) :
    Accounts maxNumber n ({ σ with allocator := a }.setCall i (.header make (ptr, allocSize))) := by
  have hunder := h.under i
  rw [hcall] at hunder
  -- the allocator does not have the same block twice
  have hnew : (ptr, allocSize) ∉ σ.allocator.live := by
    obtain ⟨lists, hkept⟩ := FastAllocator.reachable_kept hreach
    have honce := hkept.once
    rw [hlive, List.map_cons, List.nodup_cons] at honce
    exact fun hmem => honce.1 (List.mem_map_of_mem (f := Prod.fst) hmem)
  refine ⟨hreach, ?_, ?_, h.once, ?_, ?_, ?_, ?_, ?_, unused_update h.unused hi⟩
  · apply total_step Call.sized σ.calls hi h.size
    rw [hcall]
    rfl
  · apply total_step Call.counted σ.calls hi h.count
    rw [hcall]
    rfl
  · apply h.alone.take (i := .call i) (a := (ptr, allocSize))
    intro o b ho
    have hold : σ.Holds o b → b ≠ (ptr, allocSize) := by
      rintro hheld rfl
      exact hnew (h.held o _ hheld).1
    rcases holds_update rfl rfl ho with ⟨rfl, hb⟩ | ⟨rfl, hb⟩ | ⟨j, hj, rfl, hb⟩
    · exact .inl ⟨(Option.some.inj hb).symm, rfl⟩
    · exact .inr ⟨hold hb, hb⟩
    · exact .inr ⟨hold hb, hb⟩
  · intro o b ho
    show b ∈ a.live ∧ _
    rw [hlive]
    rcases holds_update rfl rfl ho with ⟨rfl, hb⟩ | ⟨rfl, hb⟩ | ⟨j, hj, rfl, hb⟩
    · obtain rfl : (ptr, allocSize) = b := Option.some.inj hb
      exact ⟨List.mem_cons_self .., hunder.1, hunder.2.1⟩
    · exact ⟨List.mem_cons_of_mem _ (h.held .live b hb).1, (h.held .live b hb).2⟩
    · exact ⟨List.mem_cons_of_mem _ (h.held (.call j) b hb).1, (h.held (.call j) b hb).2⟩
  · intro b hb
    have hb' : b ∈ a.live := hb
    rw [hlive] at hb'
    rcases List.mem_cons.mp hb' with rfl | hb'
    · refine ⟨.call i, ?_⟩
      show (Function.update σ.calls i _ i).block = _
      rw [Function.update_self]
      rfl
    · obtain ⟨o, ho⟩ := h.whole b hb'
      refine ⟨o, ?_⟩
      cases o with
      | live => exact ho
      | call j =>
        have hblock : (σ.calls j).block = some b := ho
        have hj : j ≠ i := by
          rintro rfl
          rw [hcall] at hblock
          exact absurd hblock (by simp [Call.block])
        show (Function.update σ.calls i _ j).block = some b
        rw [Function.update_of_ne hj]
        exact hblock
  · intro b hb
    show a.memory.load sizeofSize b.1 = b.2
    rw [hmemory]
    rcases hb with hb | ⟨j, hj⟩
    · exact h.header b (.inl hb)
    · have hj' : (Function.update σ.calls i (.header make (ptr, allocSize)) j).written = some b :=
        hj
      by_cases hji : j = i
      · rw [hji, Function.update_self] at hj'
        exact absurd hj' (by simp [Call.written])
      · rw [Function.update_of_ne hji] at hj'
        exact h.header b (.inr ⟨j, hj'⟩)
  · intro j
    show (Function.update σ.calls i (.header make (ptr, allocSize)) j).Under (a.calls j)
    by_cases hj : j = i
    · subst hj
      rw [Function.update_self]
      exact hidle
    · rw [Function.update_of_ne hj, hcalls j hj]
      exact h.under j

/-- The state of the allocator after `__free` is called. -/
theorem free_spec (maxNumber : ℕ → UInt64) (i : ℕ) (s : FastAllocator.State) {b : ℕ × ℕ}
    (hptr : b.1 ≠ 0) :
    (s.free maxNumber i b.1 b.2).live = s.live ∧ (s.free maxNumber i b.1 b.2).memory = s.memory ∧
    (∀ j, j ≠ i → (s.free maxNumber i b.1 b.2).calls j = s.calls j) ∧
    ((s.free maxNumber i b.1 b.2).calls i).InFree := by
  unfold FastAllocator.State.free
  rw [if_neg hptr]
  by_cases hplain : FastAllocator.State.Plain maxNumber b.2
  · rw [if_pos hplain]
    refine ⟨rfl, rfl, fun j hj => FastAllocator.calls_setCall_of_ne _ hj, ?_⟩
    rw [FastAllocator.calls_setCall_self]
    exact .inr ⟨b.1, rfl⟩
  · rw [if_neg hplain]
    refine ⟨rfl, rfl, fun j hj => FastAllocator.calls_setCall_of_ne _ hj, ?_⟩
    rw [FastAllocator.calls_setCall_self]
    exact .inl ⟨b.1, b.2, rfl⟩

/-- A call gives its block back to the allocator. -/
theorem Accounts.release (h : Accounts maxNumber n σ) (hi : i < n) {a : FastAllocator.State}
    {b : ℕ × ℕ} {thrown : Bool} (hcall : σ.calls i = .release b thrown)
    (hreach : (allocatorSystem maxNumber).Reachable a)
    (hlive : a.live = σ.allocator.live.erase b) (hmemory : a.memory = σ.allocator.memory)
    (hcalls : ∀ j, j ≠ i → a.calls j = σ.allocator.calls j) (hinFree : (a.calls i).InFree) :
    Accounts maxNumber n ({ σ with allocator := a }.setCall i (.freeing thrown)) := by
  have hblock : σ.Holds (.call i) b := by
    show (σ.calls i).block = some b
    rw [hcall]
    rfl
  obtain ⟨lists, hkept⟩ := FastAllocator.reachable_kept h.reach
  have hnodup : σ.allocator.live.Nodup := List.Nodup.of_map Prod.fst hkept.once
  refine ⟨hreach, ?_, ?_, h.once, ?_, ?_, ?_, ?_, ?_, unused_update h.unused hi⟩
  · apply total_step Call.sized σ.calls hi h.size
    rw [hcall]
    rfl
  · apply total_step Call.counted σ.calls hi h.count
    rw [hcall]
    rfl
  · apply h.alone.mono
    intro o b' ho
    rcases holds_update rfl rfl ho with ⟨rfl, hb⟩ | ⟨rfl, hb⟩ | ⟨j, hj, rfl, hb⟩
    · exact absurd hb (by simp [Call.block])
    · exact hb
    · exact hb
  · intro o b' ho
    have hkeep : o ≠ .call i → σ.Holds o b' →
        b' ∈ σ.allocator.live.erase b ∧ sizeofSize ≤ b'.2 ∧ b'.2 < 2 ^ 64 := by
      intro hother hheld
      obtain ⟨hin, hrest⟩ := h.held o b' hheld
      refine ⟨hnodup.mem_erase_iff.mpr ⟨?_, hin⟩, hrest⟩
      rintro rfl
      exact hother (h.alone o (.call i) _ hheld hblock)
    show b' ∈ a.live ∧ _
    rw [hlive]
    rcases holds_update rfl rfl ho with ⟨rfl, hb⟩ | ⟨rfl, hb⟩ | ⟨j, hj, rfl, hb⟩
    · exact absurd hb (by simp [Call.block])
    · exact hkeep (by simp) hb
    · exact hkeep (by simpa using hj) hb
  · intro b' hb'
    have hin : b' ∈ a.live := hb'
    rw [hlive, hnodup.mem_erase_iff] at hin
    obtain ⟨o, ho⟩ := h.whole b' hin.2
    refine ⟨o, ?_⟩
    cases o with
    | live => exact ho
    | call j =>
      have hblock' : (σ.calls j).block = some b' := ho
      have hj : j ≠ i := by
        rintro rfl
        exact hin.1 (Option.some.inj (hblock'.symm.trans hblock))
      show (Function.update σ.calls i _ j).block = some b'
      rw [Function.update_of_ne hj]
      exact hblock'
  · intro b' hb'
    show a.memory.load sizeofSize b'.1 = b'.2
    rw [hmemory]
    rcases hb' with hb' | ⟨j, hj⟩
    · exact h.header b' (.inl hb')
    · have hj' : (Function.update σ.calls i (.freeing thrown) j).written = some b' := hj
      by_cases hji : j = i
      · rw [hji, Function.update_self] at hj'
        exact absurd hj' (by simp [Call.written, Call.block])
      · rw [Function.update_of_ne hji] at hj'
        exact h.header b' (.inr ⟨j, hj'⟩)
  · intro j
    show (Function.update σ.calls i (.freeing thrown) j).Under (a.calls j)
    by_cases hj : j = i
    · subst hj
      rw [Function.update_self]
      exact hinFree
    · rw [Function.update_of_ne hj, hcalls j hj]
      exact h.under j

/-! ## Steps -/

/-- A block that somebody holds has room for its header. -/
theorem Accounts.word (h : Accounts maxNumber n σ) {lists : ℕ → List ℕ}
    (hkept : FastAllocator.Kept maxNumber lists σ.allocator) {b : ℕ × ℕ}
    (hb : b ∈ σ.allocator.live) : σ.allocator.Has b.1 sizeofSize := by
  obtain ⟨o, ho⟩ := h.whole b hb
  have hle := (h.held o b ho).2.1
  exact (hkept.liveRoom b hb).le (hle.trans (FastAllocator.size_le_room b.2))

/-- Memory changes, but for the headers. -/
theorem Accounts.write (h : Accounts maxNumber n σ) {memory : ByteMemory}
    (hspares : σ.Spares memory) :
    Accounts maxNumber n { σ with allocator := { σ.allocator with memory := memory } } where
  reach := by
    have hallowed : σ.allocator.Spares memory := by
      intro b hb hdead k hk
      exact hspares b hb k hk fun hlive => absurd hlive hdead
    have hstep : (allocatorSystem maxNumber).step σ.allocator (.write memory) =
        some { σ.allocator with memory := memory } := if_pos hallowed
    exact h.reach.step hstep
  size := h.size
  count := h.count
  once := h.once
  alone := by
    apply h.alone.mono
    intro o b ho
    cases o with
    | live | call => exact ho
  held := by
    intro o b ho
    cases o with
    | live => exact h.held .live b ho
    | call j => exact h.held (.call j) b ho
  whole := by
    intro b hb
    obtain ⟨o, ho⟩ := h.whole b hb
    cases o with
    | live => exact ⟨.live, ho⟩
    | call j => exact ⟨.call j, ho⟩
  header := by
    intro b hb
    have hlive : b ∈ σ.allocator.live := by
      rcases hb with hb | ⟨j, hj⟩
      · exact (h.held .live b hb).1
      · exact (h.held (.call j) b (block_of_written hj)).1
    obtain ⟨lists, hkept⟩ := FastAllocator.reachable_kept h.reach
    obtain ⟨d, hd, heq, hle⟩ := h.word hkept hlive
    have hload : memory.load sizeofSize b.1 = σ.allocator.memory.load sizeofSize b.1 := by
      apply ByteMemory.load_congr
      intro k hk
      rw [← heq]
      exact hspares d hd k (by omega) fun _ => hk
    exact hload.trans (h.header b hb)
  under := h.under
  unused := h.unused

/-- The header of a block is written. -/
theorem Accounts.writeHeader (h : Accounts maxNumber n σ) (hi : i < n) {make : Make} {b : ℕ × ℕ}
    (hcall : σ.calls i = .header make b) :
    Accounts maxNumber n ({ σ with
      allocator := { σ.allocator with
        memory := σ.allocator.memory.store sizeofSize b.1 b.2 } }.setCall i (.addSize make b)) := by
  have hblock : σ.Holds (.call i) b := by
    show (σ.calls i).block = some b
    rw [hcall]
    rfl
  obtain ⟨hmem, hle, hlt⟩ := h.held (.call i) b hblock
  obtain ⟨lists, hkept⟩ := FastAllocator.reachable_kept h.reach
  have hidle : σ.allocator.calls i = .idle := by
    have hunder := h.under i
    rw [hcall] at hunder
    exact hunder
  have hspares : σ.allocator.Spares (σ.allocator.memory.store sizeofSize b.1 b.2) := by
    intro d hd hdead k hk
    obtain ⟨e, he, heq, hroom⟩ := h.word hkept hmem
    have hne : d.1 ≠ e.1 := by
      intro hde
      exact hdead (hde ▸ heq ▸ List.mem_map_of_mem (f := Prod.fst) hmem)
    have hapart := (Lib.apart_of_mem hkept.apart hd he hne).2
    apply ByteMemory.store_of_lt_or_le
    omega
  have hstep : (allocatorSystem maxNumber).step σ.allocator
      (.write (σ.allocator.memory.store sizeofSize b.1 b.2)) =
      some { σ.allocator with memory := σ.allocator.memory.store sizeofSize b.1 b.2 } :=
    if_pos hspares
  apply h.go hi (h.reach.step hstep) rfl (fun _ _ => rfl)
  · rw [hcall]
    rfl
  · rw [hcall]
    rfl
  · rw [hcall]
    rfl
  · intro o d ho hheld
    have hd := (h.held o d hheld).1
    apply ByteMemory.load_store_of_apart
    apply hkept.words_apart (h.word hkept hmem) (h.word hkept hd)
    intro heq
    have hdb : b = d := List.inj_on_of_nodup_map hkept.once hmem hd heq
    exact ho (h.alone o (.call i) b (hdb ▸ hheld) hblock)
  · intro d hd
    obtain rfl : b = d := Option.some.inj hd
    exact ByteMemory.load_store hlt
  · exact hidle

/-- A call goes on while the allocator does nothing. -/
theorem Accounts.move (h : Accounts maxNumber n σ) (hi : i < n) {size : BitVec 64}
    {count : BitVec 32} {c : Call} {outcomes : List (ℕ × Outcome)}
    (hidle : σ.allocator.calls i = .idle) (hunder : c.Under .idle)
    (hblock : c.block = (σ.calls i).block) (hwritten : c.written = (σ.calls i).written)
    (hsize : size + BitVec.ofNat 64 (σ.calls i).sized = σ.size + BitVec.ofNat 64 c.sized)
    (hcount : count + BitVec.ofNat 32 (σ.calls i).counted =
      σ.count + BitVec.ofNat 32 c.counted) :
    Accounts maxNumber n
      ⟨σ.allocator, size, count, Function.update σ.calls i c, σ.live, outcomes⟩ := by
  apply h.go hi h.reach rfl (fun _ _ => rfl) hblock hsize hcount (fun _ _ _ _ => rfl)
  · intro b hb
    exact h.header b (.inr ⟨i, hwritten.symm.trans hb⟩)
  · rw [hidle]
    exact hunder

/-- A step of `__alloc` under a call. -/
theorem Accounts.nextAlloc (h : Accounts maxNumber n σ) (hi : i < n) {make : Make}
    {allocSize answer : ℕ} {throws : Bool} (hcall : σ.calls i = .allocating make allocSize)
    (hnext : σ.next maxNumber i answer throws = some σ') : Accounts maxNumber n σ' := by
  have hunder := h.under i
  rw [hcall] at hunder
  simp only [State.next, hcall] at hnext
  obtain ⟨a, ha, rfl⟩ := Option.map_eq_some_iff.mp hnext
  have hreach : (allocatorSystem maxNumber).Reachable a :=
    h.reach.step (e := .next i answer) ha
  obtain ⟨hmemory, hcalls, ⟨ptr, hback, hidle, hlive⟩ | ⟨hback, hinAlloc, hlive⟩⟩ :=
    FastAllocator.next_inAlloc hunder.2.2 ha
  · simp only [hback]
    by_cases hptr : ptr = 0
    · -- the null pointer ends the call
      rw [if_pos hptr] at hlive
      have hend : ∀ outcome, Accounts maxNumber n ({ σ with allocator := a }.finish i outcome) := by
        intro outcome
        apply h.go hi hreach hlive hcalls
        · rw [hcall]
          rfl
        · rw [hcall]
          rfl
        · rw [hcall]
          rfl
        · intro o b _ _
          rw [hmemory]
        · intro b hb
          exact absurd hb (by simp [Call.written, Call.block])
        · exact hidle
      unfold State.allocated
      rw [if_pos hptr]
      cases make with
      | mallocThrow => exact hend .badAlloc
      | newThrow => exact hend .badAlloc
      | mallocNoThrow => exact hend .null
      | newNoThrow => exact hend .null
    · rw [if_neg hptr] at hlive
      unfold State.allocated
      rw [if_neg hptr]
      exact h.allocated hi hcall hreach hlive hcalls hidle hmemory
  · have hsame : Accounts maxNumber n { σ with
        allocator := a, calls := Function.update σ.calls i (σ.calls i) } := by
      apply h.go hi hreach hlive hcalls rfl rfl rfl
      · intro o b _ _
        rw [hmemory]
      · intro b hb
        rw [hcall] at hb
        exact absurd hb (by simp [Call.written, Call.block])
      · rw [hcall]
        exact ⟨hunder.1, hunder.2.1, hinAlloc⟩
    rw [Function.update_eq_self] at hsame
    cases hc : σ.allocator.calls i with
    | back s ptr => exact absurd hc (hback s ptr)
    | _ => exact hsame

/-- A step of `__free` under a call. -/
theorem Accounts.nextFree (h : Accounts maxNumber n σ) (hi : i < n) {answer : ℕ}
    {throws thrown : Bool} (hcall : σ.calls i = .freeing thrown)
    (hnext : σ.next maxNumber i answer throws = some σ') : Accounts maxNumber n σ' := by
  have hunder := h.under i
  rw [hcall] at hunder
  simp only [State.next, hcall] at hnext
  obtain ⟨a, ha, rfl⟩ := Option.map_eq_some_iff.mp hnext
  have hreach : (allocatorSystem maxNumber).Reachable a :=
    h.reach.step (e := .next i answer) ha
  obtain ⟨hlive, hcalls, hafter, hloads⟩ := FastAllocator.next_inFree h.reach hunder ha
  have hgo : ∀ c outcomes, c.block = none → c.sized = 0 → c.counted = 0 → c.Under (a.calls i) →
      Accounts maxNumber n ⟨a, σ.size, σ.count, Function.update σ.calls i c, σ.live, outcomes⟩ := by
    intro c outcomes hblock hsized hcounted hunder'
    apply h.go hi hreach hlive hcalls
    · rw [hcall, hblock]
      rfl
    · rw [hcall, hsized]
      rfl
    · rw [hcall, hcounted]
      rfl
    · intro o b _ hheld
      obtain ⟨hmem, hle, -⟩ := h.held o b hheld
      exact hloads b hmem hle
    · intro b hb
      rw [block_of_written hb] at hblock
      exact absurd hblock (by simp)
    · exact hunder'
  by_cases hidle : a.calls i = .idle
  · simp only [if_pos hidle]
    exact hgo .idle _ rfl rfl rfl hidle
  · simp only [if_neg hidle]
    have hsame := hgo (σ.calls i) σ.outcomes (by rw [hcall]; rfl) (by rw [hcall]; rfl)
      (by rw [hcall]; rfl) (by rw [hcall]; exact hafter.resolve_left hidle)
    rw [Function.update_eq_self] at hsame
    exact hsame

/-- The next step of a call. -/
theorem accounts_next (h : Accounts maxNumber n σ) (hi : i < n) {answer : ℕ} {throws : Bool}
    (hnext : σ.next maxNumber i answer throws = some σ') : Accounts maxNumber n σ' := by
  have hunder := h.under i
  cases hcall : σ.calls i with
  | idle => simp [State.next, hcall] at hnext
  | allocating make allocSize => exact h.nextAlloc hi hcall hnext
  | freeing thrown => exact h.nextFree hi hcall hnext
  | header make b =>
    simp only [State.next, hcall, Option.some.injEq] at hnext
    subst hnext
    exact h.writeHeader hi hcall
  | addSize make b =>
    simp only [State.next, hcall, Option.some.injEq] at hnext
    subst hnext
    rw [hcall] at hunder
    apply h.move (c := .addCount make b) hi hunder rfl <;> rw [hcall]
    · rfl
    · rfl
    · exact BitVec.add_zero _
    · rfl
  | addCount make b =>
    simp only [State.next, hcall, Option.some.injEq] at hnext
    subst hnext
    rw [hcall] at hunder
    have hgive : Accounts maxNumber n ({ σ with count := σ.count + 1 }.giveOut i b) := by
      apply h.giveOut hi _ hunder <;> rw [hcall]
      · rfl
      · exact BitVec.add_zero _
      · rfl
    have hgo : Accounts maxNumber n
        ({ σ with count := σ.count + 1 }.setCall i (.constructing b)) := by
      apply h.move (c := .constructing b) hi hunder rfl <;> rw [hcall]
      · rfl
      · rfl
      · rfl
      · exact BitVec.add_zero _
    cases make with
    | mallocThrow => exact hgive
    | mallocNoThrow => exact hgive
    | newThrow => exact hgo
    | newNoThrow => exact hgo
  | constructing b =>
    simp only [State.next, hcall] at hnext
    rw [hcall] at hunder
    cases throws with
    | true =>
      rw [if_pos rfl, Option.some.injEq] at hnext
      subst hnext
      apply h.move (c := .readSize b true) hi hunder rfl <;> rw [hcall] <;> rfl
    | false =>
      rw [if_neg (by simp), Option.some.injEq] at hnext
      subst hnext
      apply h.giveOut hi _ hunder <;> rw [hcall] <;> rfl
  | destructing b =>
    simp only [State.next, hcall, Option.some.injEq] at hnext
    subst hnext
    rw [hcall] at hunder
    apply h.move (c := .readSize b throws) hi hunder rfl <;> rw [hcall] <;> rfl
  | readSize b thrown =>
    simp only [State.next, hcall, Option.some.injEq] at hnext
    subst hnext
    -- the header tells the size the block was asked for with
    have hheader := h.header b (.inr ⟨i, by rw [hcall]; rfl⟩)
    rw [hcall] at hunder
    rw [hheader]
    apply h.move (c := .subSize b thrown) hi hunder rfl <;> rw [hcall] <;> rfl
  | subSize b thrown =>
    simp only [State.next, hcall, Option.some.injEq] at hnext
    subst hnext
    rw [hcall] at hunder
    apply h.move (c := .subCount b thrown) hi hunder rfl <;> rw [hcall]
    · rfl
    · rfl
    · exact (BitVec.sub_add_cancel _ _).trans (BitVec.add_zero _).symm
    · rfl
  | subCount b thrown =>
    simp only [State.next, hcall, Option.some.injEq] at hnext
    subst hnext
    rw [hcall] at hunder
    apply h.move (c := .release b thrown) hi hunder rfl <;> rw [hcall]
    · rfl
    · rfl
    · rfl
    · exact (BitVec.sub_add_cancel _ _).trans (BitVec.add_zero _).symm
  | release b thrown =>
    simp only [State.next, hcall, Option.some.injEq] at hnext
    subst hnext
    rw [hcall] at hunder
    obtain ⟨hmem, -, -⟩ := h.held (.call i) b (by show (σ.calls i).block = _; rw [hcall]; rfl)
    obtain ⟨lists, hkept⟩ := FastAllocator.reachable_kept h.reach
    have hptr : b.1 ≠ 0 := hkept.ne_zero (hkept.liveRoom b hmem)
    obtain ⟨hlive, hmemory, hcalls, hinFree⟩ := free_spec maxNumber i
      { σ.allocator with live := σ.allocator.live.erase b } hptr
    have hstep : (allocatorSystem maxNumber).step σ.allocator (.free i b.1 b.2) =
        some ({ σ.allocator with live := σ.allocator.live.erase b }.free maxNumber i b.1 b.2) :=
      if_pos ⟨hunder, .inr hmem⟩
    exact h.release hi hcall (h.reach.step hstep) hlive hmemory hcalls hinFree

/-- A call of `_malloc_throw` or its like begins. -/
theorem Accounts.make (h : Accounts maxNumber n σ) (hi : i < n) {make : Make} {sz : ℕ}
    (hidle : σ.calls i = .idle) (hstep : σ.make maxNumber i make sz = some σ') :
    Accounts maxNumber n σ' := by
  have hunder := h.under i
  rw [hidle] at hunder
  simp only [State.make] at hstep
  by_cases hover : (sizeofSize + sz) % 2 ^ 64 < sz
  · rw [if_pos hover] at hstep
    exact absurd hstep (by simp)
  · rw [if_neg hover, Option.some.injEq] at hstep
    subst hstep
    have hsize : sizeofSize = 8 := rfl
    have hle : sizeofSize ≤ (sizeofSize + sz) % 2 ^ 64 := by omega
    have hlt : (sizeofSize + sz) % 2 ^ 64 < 2 ^ 64 := Nat.mod_lt _ (by omega)
    have halloc : (allocatorSystem maxNumber).step σ.allocator
        (.alloc i ((sizeofSize + sz) % 2 ^ 64)) =
        some (σ.allocator.alloc maxNumber i ((sizeofSize + sz) % 2 ^ 64)) := if_pos hunder
    obtain ⟨hlive, hmemory, hcalls⟩ :=
      FastAllocator.alloc_spec maxNumber i σ.allocator ((sizeofSize + sz) % 2 ^ 64)
    apply h.go hi (h.reach.step halloc) hlive hcalls
    · rw [hidle]
      rfl
    · rw [hidle]
      rfl
    · rw [hidle]
      rfl
    · intro o b _ _
      rw [hmemory]
    · intro b hb
      exact absurd hb (by simp [Call.written, Call.block])
    · exact ⟨hle, hlt, FastAllocator.alloc_inAlloc _⟩

/-- **Every step keeps the accounts.** -/
theorem accounts_step {e : Event} (h : Accounts maxNumber n σ)
    (hstep : σ.step maxNumber n e = some σ') : Accounts maxNumber n σ' := by
  cases e with
  | make i make sz =>
    simp only [State.step, Option.ite_none_right_eq_some] at hstep
    exact h.make hstep.1.1 hstep.1.2 hstep.2
  | free i ptr =>
    simp only [State.step, Option.ite_none_right_eq_some] at hstep
    obtain ⟨⟨hi, hidle⟩, hstep⟩ := hstep
    by_cases hptr : ptr = 0
    · rw [if_pos hptr, Option.some.injEq] at hstep
      exact hstep ▸ h
    · rw [if_neg hptr] at hstep
      obtain ⟨b, hb, rfl⟩ := Option.map_eq_some_iff.mp hstep
      exact h.takeBack hi hidle (List.mem_of_find?_eq_some hb) rfl rfl rfl fun _ ha => ha
  | delete i ptr =>
    simp only [State.step, Option.ite_none_right_eq_some] at hstep
    obtain ⟨⟨hi, hidle⟩, hstep⟩ := hstep
    by_cases hptr : ptr = 0
    · rw [if_pos hptr, Option.some.injEq] at hstep
      exact hstep ▸ h
    · rw [if_neg hptr] at hstep
      obtain ⟨b, hb, rfl⟩ := Option.map_eq_some_iff.mp hstep
      exact h.takeBack hi hidle (List.mem_of_find?_eq_some hb) rfl rfl rfl fun _ ha => ha
  | next i answer throws =>
    simp only [State.step, Option.ite_none_right_eq_some] at hstep
    exact accounts_next h hstep.1 hstep.2
  | write memory =>
    simp only [State.step, Option.ite_none_right_eq_some, Option.some.injEq] at hstep
    obtain ⟨hspares, rfl⟩ := hstep
    exact h.write hspares

theorem accounts_init : Accounts maxNumber n ({} : State) := by
  have htotal : ∀ g : Call → ℕ, g .idle = 0 →
      Lib.Family.total g ({} : State).calls n = 0 := by
    intro g hg
    simp [Lib.Family.total, hg]
  have hnone : ∀ o b, ¬({} : State).Holds o b := by
    intro o b ho
    cases o with
    | live => exact absurd ho (List.not_mem_nil)
    | call i => exact absurd ho (by simp [State.Holds, Call.block])
  refine ⟨.init, ?_, ?_, List.nodup_nil, ?_, ?_, ?_, ?_, fun _ => rfl, fun _ _ => rfl⟩
  · rw [htotal Call.sized rfl]
    rfl
  · rw [htotal Call.counted rfl]
    rfl
  · intro o o' b ho
    exact absurd ho (hnone o b)
  · intro o b ho
    exact absurd ho (hnone o b)
  · intro b hb
    exact absurd hb (List.not_mem_nil)
  · rintro b (hb | ⟨i, hi⟩)
    · exact absurd hb (List.not_mem_nil)
    · exact absurd hi (by simp [Call.written, Call.block])

/-- The accounts are kept in every reachable state. -/
theorem reachable_accounts (h : (memoryTraceSystem maxNumber n).Reachable σ) :
    Accounts maxNumber n σ := by
  apply h.invariant accounts_init
  intro s e s' _ haccounts hstep
  exact accounts_step haccounts hstep

/-! ## The counters -/

/-- The blocks of the callers fit into memory. -/
theorem Accounts.sum_lt (h : Accounts maxNumber n σ) : (σ.live.map Prod.snd).sum < 2 ^ 64 := by
  obtain ⟨lists, hkept⟩ := FastAllocator.reachable_kept h.reach
  have hhas : ∀ b ∈ σ.live, σ.allocator.Has b.1 b.2 := by
    intro b hb
    exact (hkept.liveRoom b (h.held .live b hb).1).le (FastAllocator.size_le_room b.2)
  have hapart : σ.live.Pairwise Apart := by
    apply h.once.imp_of_mem
    intro b c hb hc hne
    obtain ⟨d, hd, hdb, hdle⟩ := hhas b hb
    obtain ⟨e, he, hec, hele⟩ := hhas c hc
    have haddress : b.1 ≠ c.1 := by
      intro heq
      exact hne (List.inj_on_of_nodup_map hkept.once (h.held .live b hb).1
        (h.held .live c hc).1 heq)
    have hde := (Lib.apart_of_mem hkept.apart hd he (by rw [hdb, hec]; exact haddress)).2
    exact ⟨haddress, by omega⟩
  have hsum := Lib.sum_le_of_apart 1 (2 ^ 64) hapart (by
    intro b hb
    obtain ⟨d, hd, hdb, hdle⟩ := hhas b hb
    have hbounds := hkept.bounds d hd
    omega)
  omega

/-- While no call is under way none has counted a block that is not with its owner. -/
theorem total_eq_zero {g : Call → ℕ} (hg : g .idle = 0) (hidle : ∀ i < n, σ.calls i = .idle) :
    Lib.Family.total g σ.calls n = 0 := by
  apply Finset.sum_eq_zero
  intro i hi
  rw [hidle i (Finset.mem_range.mp hi)]
  exact hg

/-- **Memory accounting equals the live blocks.** What the allocator is asked is allowed: every
call of `__free` gets the address and the size of a call of `__alloc`. The counters add up the
blocks of the callers and those in the hands of the calls that are under way; while there are none,
these are the blocks the allocator has handed out, the counters are their total size and their
number, and both are zero when there is no block. -/
theorem memory_accounted (h : (memoryTraceSystem maxNumber n).Reachable σ) :
    (allocatorSystem maxNumber).Reachable σ.allocator ∧
    (∀ i b thrown, σ.calls i = .release b thrown → b ∈ σ.allocator.live) ∧
    σ.size = BitVec.ofNat 64
      ((σ.live.map Prod.snd).sum + Lib.Family.total Call.sized σ.calls n) ∧
    σ.count = BitVec.ofNat 32 (σ.live.length + Lib.Family.total Call.counted σ.calls n) ∧
    ((∀ i < n, σ.calls i = .idle) →
      (∀ b, b ∈ σ.allocator.live ↔ b ∈ σ.live) ∧
      σ.getMemoryUsage = (σ.live.map Prod.snd).sum ∧
      ((σ.live.map Prod.snd).sum < 2 ^ 63 → σ.size.toInt = (σ.live.map Prod.snd).sum) ∧
      (σ.live.length < 2 ^ 31 →
        σ.getObjectCount = σ.live.length ∧ σ.count.toInt = σ.live.length) ∧
      (σ.live = [] → σ.size = 0 ∧ σ.count = 0)) := by
  have haccounts := reachable_accounts h
  refine ⟨haccounts.reach, ?_, haccounts.size, haccounts.count, fun hidle => ?_⟩
  · intro i b thrown hcall
    have hblock : (σ.calls i).block = some b := by
      rw [hcall]
      rfl
    exact (haccounts.held (.call i) b hblock).1
  · have hsize := haccounts.size
    have hcount := haccounts.count
    rw [total_eq_zero rfl hidle, Nat.add_zero] at hsize hcount
    have hlt := haccounts.sum_lt
    have husage : σ.size.toNat = (σ.live.map Prod.snd).sum := by
      rw [hsize, BitVec.toNat_ofNat, Nat.mod_eq_of_lt hlt]
    refine ⟨?_, husage, ?_, ?_, ?_⟩
    · intro b
      constructor
      · intro hb
        obtain ⟨o, ho⟩ := haccounts.whole b hb
        cases o with
        | live => exact ho
        | call i =>
          have hblock : (σ.calls i).block = some b := ho
          have hnone : σ.calls i = .idle := by
            by_cases hi : i < n
            · exact hidle i hi
            · exact haccounts.unused i (by omega)
          rw [hnone] at hblock
          exact absurd hblock (by simp [Call.block])
      · intro hb
        exact (haccounts.held .live b hb).1
    · intro hsum
      rw [BitVec.toInt_eq_toNat_of_lt (by omega), husage]
    · intro hlength
      have hobjects : σ.count.toNat = σ.live.length := by
        rw [hcount, BitVec.toNat_ofNat, Nat.mod_eq_of_lt (by omega)]
      refine ⟨hobjects, ?_⟩
      rw [BitVec.toInt_eq_toNat_of_lt (by omega), hobjects]
    · intro hnil
      rw [hnil] at hsize hcount
      exact ⟨hsize, hcount⟩

/-- A block is allocated; a constructor throws and its block is kept by the allocator. -/
def accountRun : List Event :=
  .make 0 .mallocThrow 24 :: .next 0 0 false :: .next 0 4096 false ::
    List.replicate 4 (.next 0 0 false) ++
  .make 0 .newThrow 8 :: .next 0 0 false :: .next 0 8192 false ::
    List.replicate 4 (.next 0 0 false) ++ List.replicate 6 (.next 0 0 true)

theorem memory_accounted_thrown :
    ∃ σ, (memoryTraceSystem (fun _ => 1) 1).run accountRun = some σ ∧
      σ.outcomes = [(0, .block 4104), (0, .thrown)] ∧ σ.allocator.store 16 = 8192 ∧
      σ.getMemoryUsage = (σ.live.map Prod.snd).sum ∧ σ.live = [(4096, 32)] := by
  have hrun := (Option.some_get (x := (memoryTraceSystem (fun _ => 1) 1).run accountRun)
    (by decide)).symm
  set σ := ((memoryTraceSystem (fun _ => 1) 1).run accountRun).get (by decide) with hσ
  obtain ⟨houtcomes, hstore, hlive, hidle⟩ :
      σ.outcomes = [(0, .block 4104), (0, .thrown)] ∧ σ.allocator.store 16 = 8192 ∧
      σ.live = [(4096, 32)] ∧ ∀ i < 1, σ.calls i = .idle := by
    rw [hσ]
    decide
  have haccounted := memory_accounted (Lib.Lts.reachable_of_run hrun)
  exact ⟨σ, hrun, houtcomes, hstore, (haccounted.2.2.2.2 hidle).2.1, hlive⟩

end MemoryTrace

end NetworkPool
