import NetworkPool.Memory.FreeLists

/-!
# The memory trace

`CmemoryTrace` of `memory_trace.h` over the caching allocator. A block carries its total size in a
word before the bytes that are handed out. Any number of calls interleave: each change of a counter
is atomic, and so is what the allocator does under its lock. A call that a constructor or a
destructor makes counts as a call of its own. What `NP_DBG` adds is left out.
-/

namespace NetworkPool

open Lib (ByteMemory)

namespace MemoryTrace

/-- `sizeof(size_t)`. -/
def sizeofSize : ℕ := 8

/-- The functions that hand out a block. -/
inductive Make
  | mallocThrow
  | mallocNoThrow
  | newThrow
  | newNoThrow
deriving DecidableEq, Repr

/-- How a call ended. -/
inductive Outcome
  /-- A pointer was returned. -/
  | block (ptr : ℕ)
  /-- The null pointer was returned. -/
  | null
  /-- `std::bad_alloc` was thrown. -/
  | badAlloc
  /-- The exception of a constructor or destructor went on. -/
  | thrown
  /-- A block was released. -/
  | released
deriving DecidableEq, Repr

/-- Where a call stands. A block is the address `org` of its header and its total size; before the
header is read the size is not known to the code. `thrown` says that an exception is on its way. -/
inductive Call
  | idle
  /-- In `__alloc(allocSize)`. -/
  | allocating (make : Make) (allocSize : ℕ)
  /-- Before `*(size_t *)ptr = allocSize`. -/
  | header (make : Make) (block : ℕ × ℕ)
  /-- Before `m_size += allocSize`. -/
  | addSize (make : Make) (block : ℕ × ℕ)
  /-- Before `++m_count`. -/
  | addCount (make : Make) (block : ℕ × ℕ)
  /-- In the constructor of `T`. -/
  | constructing (block : ℕ × ℕ)
  /-- In the destructor of `T`. -/
  | destructing (block : ℕ × ℕ)
  /-- In `_free_set_nullptr`, before the header is read. -/
  | readSize (block : ℕ × ℕ) (thrown : Bool)
  /-- Before `m_size -= allocSize`. -/
  | subSize (block : ℕ × ℕ) (thrown : Bool)
  /-- Before `--m_count`. -/
  | subCount (block : ℕ × ℕ) (thrown : Bool)
  /-- Before `__free(org, allocSize)`. -/
  | release (block : ℕ × ℕ) (thrown : Bool)
  /-- In `__free`. -/
  | freeing (thrown : Bool)
deriving DecidableEq, Repr

/-- The counters, the allocator and the calls. `live` has the blocks that were returned and not
given back; `outcomes` records how the calls ended. -/
structure State where
  allocator : FastAllocator.State := {}
  size : BitVec 64 := 0
  count : BitVec 32 := 0
  calls : ℕ → Call := fun _ => .idle
  live : List (ℕ × ℕ) := []
  outcomes : List (ℕ × Outcome) := []

/-- Events. -/
inductive Event
  /-- `_malloc_throw(sz)` and its like are called, as the call `i`. -/
  | make (i : ℕ) (make : Make) (sz : ℕ)
  /-- `_free_set_nullptr(ptr)`. -/
  | free (i ptr : ℕ)
  /-- `_delete_set_nullptr(ptr)`. -/
  | delete (i ptr : ℕ)
  /-- The next step of the call `i`. `answer` is what `malloc` returns, `throws` whether the
  constructor or destructor throws, if the step is a call of it. -/
  | next (i answer : ℕ) (throws : Bool)
  /-- Memory changes, but for the headers and what the allocator uses. -/
  | write (memory : ByteMemory)

namespace State

variable (σ : State)

/-- `getMemoryUsage`. -/
def getMemoryUsage : ℕ := σ.size.toNat

/-- `getObjectCount`. -/
def getObjectCount : ℕ := σ.count.toNat

/-- The call `i` goes on. -/
def setCall (i : ℕ) (c : Call) : State :=
  { σ with calls := Function.update σ.calls i c }

/-- The call `i` ends. -/
def finish (i : ℕ) (outcome : Outcome) : State :=
  { σ.setCall i .idle with outcomes := σ.outcomes ++ [(i, outcome)] }

/-- The call `i` returns `block`. -/
def giveOut (i : ℕ) (block : ℕ × ℕ) : State :=
  { σ with live := block :: σ.live }.finish i (.block (block.1 + sizeofSize))

/-- The call `i` takes a block back from its owner. -/
def takeBack (i : ℕ) (block : ℕ × ℕ) (c : Call) : State :=
  { σ with live := σ.live.erase block }.setCall i c

/-- The block whose bytes start at `ptr`. -/
def blockAt (ptr : ℕ) : Option (ℕ × ℕ) :=
  σ.live.find? fun b => b.1 + sizeofSize = ptr

/-- The end of a call that an exception may be on its way through. -/
def released (i : ℕ) (thrown : Bool) : State :=
  σ.finish i (if thrown then .thrown else .released)

/-- `_malloc_throw` and its like, up to `__alloc`; `none` is `std::terminate`. -/
def make (maxNumber : ℕ → UInt64) (i : ℕ) (make : Make) (sz : ℕ) : Option State :=
  let allocSize := (sizeofSize + sz) % 2 ^ 64
  if allocSize < sz then none
  else
    some ({ σ with allocator := σ.allocator.alloc maxNumber i allocSize }.setCall i
      (.allocating make allocSize))

/-- The end of `__alloc` for `_malloc_throw` and its like. -/
def allocated (i : ℕ) (make : Make) (allocSize ptr : ℕ) : State :=
  if ptr = 0 then
    match make with
    | .mallocThrow | .newThrow => σ.finish i .badAlloc
    | .mallocNoThrow | .newNoThrow => σ.finish i .null
  else σ.setCall i (.header make (ptr, allocSize))

/-- After `++m_count`: `_malloc_throw` and `_malloc_no_throw` return, the others construct. -/
def counted (i : ℕ) (make : Make) (block : ℕ × ℕ) : State :=
  match make with
  | .mallocThrow | .mallocNoThrow => σ.giveOut i block
  | .newThrow | .newNoThrow => σ.setCall i (.constructing block)

/-- The next step of the call `i`. -/
def next (maxNumber : ℕ → UInt64) (i answer : ℕ) (throws : Bool) : Option State :=
  match σ.calls i with
  | .idle => none
  | .allocating make allocSize =>
    (σ.allocator.next maxNumber i answer).map fun a =>
      let σ' := { σ with allocator := a }
      match σ.allocator.calls i with
      | .back _ ptr => σ'.allocated i make allocSize ptr
      | _ => σ'
  | .header make block =>
    let memory := σ.allocator.memory.store sizeofSize block.1 block.2
    some ({ σ with allocator := { σ.allocator with memory := memory } }.setCall i
      (.addSize make block))
  | .addSize make block =>
    some ({ σ with size := σ.size + BitVec.ofNat 64 block.2 }.setCall i (.addCount make block))
  | .addCount make block => some ({ σ with count := σ.count + 1 }.counted i make block)
  | .constructing block =>
    if throws then some (σ.setCall i (.readSize block true)) else some (σ.giveOut i block)
  | .destructing block => some (σ.setCall i (.readSize block throws))
  | .readSize block thrown =>
    let allocSize := σ.allocator.memory.load sizeofSize block.1
    some (σ.setCall i (.subSize (block.1, allocSize) thrown))
  | .subSize block thrown =>
    some ({ σ with size := σ.size - BitVec.ofNat 64 block.2 }.setCall i (.subCount block thrown))
  | .subCount block thrown =>
    some ({ σ with count := σ.count - 1 }.setCall i (.release block thrown))
  | .release block thrown =>
    let a := { σ.allocator with live := σ.allocator.live.erase block }
    some ({ σ with allocator := a.free maxNumber i block.1 block.2 }.setCall i (.freeing thrown))
  | .freeing thrown =>
    (σ.allocator.next maxNumber i answer).map fun a =>
      let σ' := { σ with allocator := a }
      if a.calls i = .idle then σ'.released i thrown else σ'

/-- The memory changes only inside the bytes handed out and outside all blocks. -/
def Spares (memory : ByteMemory) : Prop :=
  ∀ b ∈ σ.allocator.heap, ∀ k < b.2,
    (b.1 ∈ σ.allocator.live.map Prod.fst → k < sizeofSize) →
      memory (b.1 + k) = σ.allocator.memory (b.1 + k)

instance (memory : ByteMemory) : Decidable (σ.Spares memory) :=
  inferInstanceAs (Decidable (∀ b ∈ σ.allocator.heap, ∀ k < b.2, (_ → _) → _))

/-- One step, with at most `n` calls at a time. A pointer is given back once; `ptr` is null or one
that was handed out. -/
def step (maxNumber : ℕ → UInt64) (n : ℕ) : Event → Option State
  | .make i make sz => if i < n ∧ σ.calls i = .idle then σ.make maxNumber i make sz else none
  | .free i ptr =>
    if i < n ∧ σ.calls i = .idle then
      if ptr = 0 then some σ
      else (σ.blockAt ptr).map fun b => σ.takeBack i b (.readSize b false)
    else none
  | .delete i ptr =>
    if i < n ∧ σ.calls i = .idle then
      if ptr = 0 then some σ
      else (σ.blockAt ptr).map fun b => σ.takeBack i b (.destructing b)
    else none
  | .next i answer throws => if i < n then σ.next maxNumber i answer throws else none
  | .write memory =>
    if σ.Spares memory then
      some { σ with allocator := { σ.allocator with memory := memory } }
    else none

end State

end MemoryTrace

/-- The memory trace, for a table of limits of the allocator and at most `n` calls at a time. -/
def memoryTraceSystem (maxNumber : ℕ → UInt64) (n : ℕ) :
    Lib.Lts MemoryTrace.State MemoryTrace.Event where
  init := {}
  step := fun σ => σ.step maxNumber n

end NetworkPool
