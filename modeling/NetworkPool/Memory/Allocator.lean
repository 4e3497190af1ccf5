import NetworkPool.Lib.Lts
import NetworkPool.Lib.Memory
import Mathlib.Logic.Function.Basic

/-!
# The caching allocator

`__alloc` and `__free` of `fast_allocator.cpp`. Freed blocks are kept in one list for each size,
linked through their first word. `s_globalLock` makes the bodies of the two critical sections
single steps; between them any number of calls interleave. `malloc` and `free` answer as they are
documented to: a block that `malloc` returns has the size asked for and shares no byte with one
that was not given back.
-/

namespace NetworkPool

open Lib (ByteMemory Apart)

namespace FastAllocator

/-- `s_maxAllocatorSlot`. -/
def maxAllocatorSlot : ℕ := 4096

/-- `sizeof(void *)`. -/
def sizeofPtr : ℕ := 8

/-- Where a call of `__alloc` or `__free` stands. -/
inductive Call
  /-- No call. -/
  | idle
  /-- In `__alloc(size)`, before the lock. -/
  | take (size : ℕ)
  /-- In `__alloc(size)`, before `malloc(n)`. -/
  | malloc (size n : ℕ)
  /-- At the end of `__alloc(size)`, which returns `ptr`; zero is the null pointer. -/
  | back (size ptr : ℕ)
  /-- In `__free(ptr, size)`, before the lock. -/
  | put (ptr size : ℕ)
  /-- In `__free`, before `free(ptr)`. -/
  | free (ptr : ℕ)
deriving DecidableEq, Repr

/-- `s_allocatorStore` and `s_allocatorStoreCount`, memory, and the calls. `heap` has the blocks
that `malloc` has handed out and `free` has not got back, with their sizes; `live` has the blocks
that `__alloc` has returned and `__free` was not called for, with the sizes they were asked for
with. -/
structure State where
  memory : ByteMemory := fun _ => 0
  store : ℕ → ℕ := fun _ => 0
  storeCount : ℕ → UInt64 := fun _ => 0
  heap : List (ℕ × ℕ) := []
  live : List (ℕ × ℕ) := []
  calls : ℕ → Call := fun _ => .idle

/-- Events of the allocator. -/
inductive Event
  /-- `__alloc(size)` is called, as the call `i`. -/
  | alloc (i size : ℕ)
  /-- `__free(ptr, size)` is called, as the call `i`. -/
  | free (i ptr size : ℕ)
  /-- The next step of the call `i`. `answer` is what `malloc` returns, if it is called. -/
  | next (i answer : ℕ)
  /-- Memory changes where the allocator does not use it. -/
  | write (memory : ByteMemory)

namespace State

variable (σ : State)

/-- The call `i` goes on. -/
def setCall (i : ℕ) (c : Call) : State :=
  { σ with calls := Function.update σ.calls i c }

/-! ## The functions

`maxNumber` is `s_maxAllocatorStoreNumber`.
-/

/-- Blocks of this size are not kept. -/
def Plain (maxNumber : ℕ → UInt64) (size : ℕ) : Prop :=
  maxAllocatorSlot ≤ size ∨ maxNumber size = 0

instance (maxNumber : ℕ → UInt64) (size : ℕ) : Decidable (Plain maxNumber size) :=
  inferInstanceAs (Decidable (_ ∨ _))

/-- `__alloc`, up to the lock or the call of `malloc`. -/
def alloc (maxNumber : ℕ → UInt64) (i size : ℕ) : State :=
  if Plain maxNumber size then σ.setCall i (.malloc size size) else σ.setCall i (.take size)

/-- The critical section of `__alloc`. -/
def takeStored (i size : ℕ) : State :=
  let take := σ.store size
  if take ≠ 0 then
    { σ with
      store := Function.update σ.store size (σ.memory.load sizeofPtr take)
      storeCount := Function.update σ.storeCount size (σ.storeCount size - 1) }.setCall i
        (.back size take)
  else σ.setCall i (.malloc size (if size < sizeofPtr then sizeofPtr else size))

/-- `__free`, up to the lock or the call of `free`. -/
def free (maxNumber : ℕ → UInt64) (i ptr size : ℕ) : State :=
  if ptr = 0 then σ
  else if Plain maxNumber size then σ.setCall i (.free ptr)
  else σ.setCall i (.put ptr size)

/-- The critical section of `__free`. -/
def putStored (maxNumber : ℕ → UInt64) (i ptr size : ℕ) : State :=
  if σ.storeCount size < maxNumber size then
    { σ with
      memory := σ.memory.store sizeofPtr ptr (σ.store size)
      store := Function.update σ.store size ptr
      storeCount := Function.update σ.storeCount size (σ.storeCount size + 1) }.setCall i .idle
  else σ.setCall i (.free ptr)

/-! ## The system -/

/-- `malloc(n)` may return `ptr`. -/
def Fresh (ptr n : ℕ) : Prop :=
  ptr ≠ 0 ∧ ptr + n ≤ 2 ^ 64 ∧ ∀ b ∈ σ.heap, Apart (ptr, n) b

instance (ptr n : ℕ) : Decidable (σ.Fresh ptr n) :=
  inferInstanceAs (Decidable (_ ∧ _ ∧ ∀ b ∈ σ.heap, _))

/-- The memory changes only inside live blocks and outside all blocks. -/
def Spares (memory : ByteMemory) : Prop :=
  ∀ b ∈ σ.heap, b.1 ∉ σ.live.map Prod.fst → ∀ k < b.2, memory (b.1 + k) = σ.memory (b.1 + k)

instance (memory : ByteMemory) : Decidable (σ.Spares memory) :=
  inferInstanceAs (Decidable (∀ b ∈ σ.heap, b.1 ∉ _ → ∀ k < b.2, _))

/-- The next step of the call `i`. -/
def next (maxNumber : ℕ → UInt64) (i answer : ℕ) : Option State :=
  match σ.calls i with
  | .idle => none
  | .take size => some (σ.takeStored i size)
  | .malloc size n =>
    if answer = 0 then some (σ.setCall i (.back size 0))
    else if σ.Fresh answer n then
      some ({ σ with heap := (answer, n) :: σ.heap }.setCall i (.back size answer))
    else none
  | .back size ptr =>
    if ptr = 0 then some (σ.setCall i .idle)
    else some ({ σ with live := (ptr, size) :: σ.live }.setCall i .idle)
  | .put ptr size => some (σ.putStored maxNumber i ptr size)
  | .free ptr => some ({ σ with heap := σ.heap.filter fun b => b.1 ≠ ptr }.setCall i .idle)

/-- One step. A block is freed once, with the size it was allocated with. -/
def step (maxNumber : ℕ → UInt64) : Event → Option State
  | .alloc i size => if σ.calls i = .idle then some (σ.alloc maxNumber i size) else none
  | .free i ptr size =>
    if σ.calls i = .idle ∧ (ptr = 0 ∨ (ptr, size) ∈ σ.live) then
      some ({ σ with live := σ.live.erase (ptr, size) }.free maxNumber i ptr size)
    else none
  | .next i answer => σ.next maxNumber i answer
  | .write memory => if σ.Spares memory then some { σ with memory := memory } else none

end State

end FastAllocator

/-- The allocator, for a table of limits. -/
def allocatorSystem (maxNumber : ℕ → UInt64) :
    Lib.Lts FastAllocator.State FastAllocator.Event where
  init := {}
  step := fun σ => σ.step maxNumber

end NetworkPool
