import NetworkPool.Buffer
import NetworkPool.Lib.Blocks
import NetworkPool.Lib.Lts

/-!
# Buffers in memory

`Cbuffer` of `buffer.h` with its pointer into the memory that `CmemoryTrace` hands out. Any number
of buffers exist at once, every allocation can fail, and the caller catches `std::bad_alloc`. The
counters of the traces are left out, and with them which trace a buffer belongs to.
-/

namespace NetworkPool

open Lib (Blocks Lts)

namespace Stored

/-- The blocks that `_malloc_throw` has returned and `_free_set_nullptr` has not got back. -/
abbrev Memory := Blocks (List UInt8)

/-- `Cbuffer`: `m_data` is null or a block. -/
structure Cbuffer where
  data : Option ℕ
  length : ℕ
  maxLength : ℕ
deriving DecidableEq, Repr

/-- What `_malloc_throw` does: it calls `std::terminate`, it throws, or it returns a block. -/
inductive Malloc
  | terminate
  | badAlloc
  | block (p : ℕ) (m : Memory)

/-- How an operation ends. After a `fault`, a copy from or to memory that is not there, nothing is
known of the program. -/
inductive Outcome
  | done
  | badAlloc
  | fault
deriving DecidableEq, Repr

namespace Memory

variable (m : Memory)

/-- `_malloc_throw`. `answer` is what the allocator returns: null, or a block with its contents. -/
def mallocThrow (size : ℕ) (answer : Option (ℕ → UInt8)) : Malloc :=
  if 2 ^ 64 ≤ size + 8 then .terminate
  else
    match answer with
    | none => .badAlloc
    | some garbage => .block m.next (m.alloc ((List.range size).map garbage))

/-- `_free_set_nullptr`, but for setting the pointer. -/
def freeSetNullptr : Option ℕ → Memory
  | none => m
  | some p => m.free p

/-- The first `n` bytes at `src`; `none` where there are none. -/
def read (src : Option ℕ) (n : ℕ) : Option (List UInt8) :=
  src.bind fun p => (m.block p).bind fun bytes =>
    if n ≤ bytes.length then some (bytes.take n) else none

/-- `memcpy` to `dst`; `none` where one of the pointers is not to so many bytes. -/
def memcpy (dst : Option ℕ) (source : Option (List UInt8)) : Option Memory :=
  source.bind fun bytes => dst.bind fun p => (m.block p).bind fun old =>
    if bytes.length ≤ old.length then some (m.write p (overwrite old 0 bytes)) else none

end Memory

namespace Cbuffer

/-- The bytes of a buffer. -/
def contents (m : Memory) (b : Cbuffer) : List UInt8 :=
  (b.data.bind m.block).elim [] (·.take b.length)

/-- `Cbuffer(trace)`. -/
def new : Cbuffer where
  data := none
  length := 0
  maxLength := 0

/-- What the constructor from `data` and `length` and the copy constructor have in common:
`source` is where the bytes come from. -/
def construct (length : ℕ) (source : Memory → Option (List UInt8))
    (answer : Option (ℕ → UInt8)) (m : Memory) : Option (Outcome × Cbuffer × Memory) :=
  if length = 0 then some (.done, new, m)
  else
    match m.mallocThrow length answer with
    | .terminate => none
    | .badAlloc => some (.badAlloc, new, m)
    | .block p m =>
      match m.memcpy (some p) (source m) with
      | none => some (.fault, { data := some p, length := 0, maxLength := 0 }, m)
      | some m => some (.done, { data := some p, length, maxLength := length }, m)

/-- `Cbuffer(trace, length)`. -/
def constructLength (length : ℕ) (answer : Option (ℕ → UInt8)) (m : Memory) :
    Option (Outcome × Cbuffer × Memory) :=
  if length = 0 then some (.done, new, m)
  else
    match m.mallocThrow length answer with
    | .terminate => none
    | .badAlloc => some (.badAlloc, new, m)
    | .block p m => some (.done, { data := some p, length, maxLength := length }, m)

/-- `Cbuffer(trace, data, length)`. -/
def constructData (bytes : List UInt8) (answer : Option (ℕ → UInt8)) (m : Memory) :
    Option (Outcome × Cbuffer × Memory) :=
  construct bytes.length (fun _ => some bytes) answer m

/-- `Cbuffer(const Cbuffer& another)`. -/
def copyConstruct (another : Cbuffer) (answer : Option (ℕ → UInt8)) (m : Memory) :
    Option (Outcome × Cbuffer × Memory) :=
  construct another.length (fun m => m.read another.data another.length) answer m

/-- What `set` and `operator=(const Cbuffer&)` have in common. -/
def replace (self : Cbuffer) (length : ℕ) (source : Memory → Option (List UInt8))
    (answer : Option (ℕ → UInt8)) (m : Memory) : Option (Outcome × Cbuffer × Memory) :=
  if length ≤ self.maxLength then
    if length > 0 then
      match m.memcpy self.data (source m) with
      | none => some (.fault, self, m)
      | some m => some (.done, { self with length }, m)
    else some (.done, { self with length }, m)
  else
    let m := m.freeSetNullptr self.data
    let self := { self with data := none }
    match m.mallocThrow length answer with
    | .terminate => none
    | .badAlloc => some (.badAlloc, self, m)
    | .block p m =>
      let self := { self with data := some p }
      match m.memcpy self.data (source m) with
      | none => some (.fault, self, m)
      | some m => some (.done, { self with length, maxLength := length }, m)

/-- `set`, for bytes outside of the buffer. -/
def set (self : Cbuffer) (bytes : List UInt8) (answer : Option (ℕ → UInt8)) (m : Memory) :
    Option (Outcome × Cbuffer × Memory) :=
  replace self bytes.length (fun _ => some bytes) answer m

/-- `operator=(const Cbuffer& another)`. -/
def copyAssign (self another : Cbuffer) (answer : Option (ℕ → UInt8)) (m : Memory) :
    Option (Outcome × Cbuffer × Memory) :=
  replace self another.length (fun m => m.read another.data another.length) answer m

/-- `resize`. -/
def resize (self : Cbuffer) (preferLength validLength : ℕ) (answer : Option (ℕ → UInt8))
    (m : Memory) : Option (Outcome × Cbuffer × Memory) :=
  if preferLength ≤ self.maxLength then some (.done, { self with length := preferLength }, m)
  else
    let copy := if validLength > self.length then self.length else validLength
    if copy > 0 then
      match m.mallocThrow preferLength answer with
      | .terminate => none
      | .badAlloc => some (.badAlloc, self, m)
      | .block p m =>
        match m.memcpy (some p) (m.read self.data copy) with
        | none => some (.fault, self, m)
        | some m =>
          let m := m.freeSetNullptr self.data
          some (.done, { data := some p, length := preferLength, maxLength := preferLength }, m)
    else
      let m := m.freeSetNullptr self.data
      let self := { self with data := none }
      match m.mallocThrow preferLength answer with
      | .terminate => none
      | .badAlloc => some (.badAlloc, self, m)
      | .block p m =>
        some (.done, { data := some p, length := preferLength, maxLength := preferLength }, m)

end Cbuffer

/-! ## Any number of buffers -/

/-- The operations on the buffers `x` and `y`, with what the allocator answers. -/
inductive BufferOp
  | construct (x : ℕ)
  | constructLength (x length : ℕ) (answer : Option (ℕ → UInt8))
  | constructData (x : ℕ) (bytes : List UInt8) (answer : Option (ℕ → UInt8))
  | copyConstruct (x y : ℕ) (answer : Option (ℕ → UInt8))
  | moveConstruct (x y : ℕ)
  | destroy (x : ℕ)
  | copyAssign (x y : ℕ) (answer : Option (ℕ → UInt8))
  | moveAssign (x y : ℕ)
  | set (x : ℕ) (bytes : List UInt8) (answer : Option (ℕ → UInt8))
  | resize (x preferLength validLength : ℕ) (answer : Option (ℕ → UInt8))

/-- Memory, the buffers that exist, and how the last operation has ended. -/
structure Buffers where
  memory : Memory
  buffer : ℕ → Option Cbuffer
  outcome : Outcome

namespace Buffers

/-- The buffer `x` after an operation. -/
def put (s : Buffers) (x : ℕ) (r : Outcome × Cbuffer × Memory) : Buffers where
  memory := r.2.2
  buffer := Function.update s.buffer x (some r.2.1)
  outcome := r.1

/-- The buffer `x` after a constructor: where it throws there is none. -/
def create (s : Buffers) (x : ℕ) (r : Outcome × Cbuffer × Memory) : Buffers where
  memory := r.2.2
  buffer := if r.1 = .badAlloc then s.buffer else Function.update s.buffer x (some r.2.1)
  outcome := r.1

/-- The end of both operations that move: `x` takes what `y` has, and `y` is cleared. -/
def take (s : Buffers) (x y : ℕ) : Option Buffers :=
  (s.buffer y).map fun another =>
    { s with
      buffer := Function.update (Function.update s.buffer x (some another)) y (some .new)
      outcome := .done }

/-- An operation; `none` where it cannot take place, or does not return. -/
def step (s : Buffers) (op : BufferOp) : Option Buffers :=
  if s.outcome = .fault then none
  else
    match op with
    | .construct x =>
      match s.buffer x with
      | none => some (s.put x (.done, .new, s.memory))
      | some _ => none
    | .constructLength x length answer =>
      match s.buffer x with
      | none => (Cbuffer.constructLength length answer s.memory).map (s.create x)
      | some _ => none
    | .constructData x bytes answer =>
      match s.buffer x with
      | none => (Cbuffer.constructData bytes answer s.memory).map (s.create x)
      | some _ => none
    | .copyConstruct x y answer =>
      match s.buffer x, s.buffer y with
      | none, some another => (another.copyConstruct answer s.memory).map (s.create x)
      | _, _ => none
    | .moveConstruct x y =>
      match s.buffer x with
      | none => s.take x y
      | some _ => none
    | .destroy x =>
      (s.buffer x).map fun self =>
        { memory := s.memory.freeSetNullptr self.data
          buffer := Function.update s.buffer x none
          outcome := .done }
    | .copyAssign x y answer =>
      match s.buffer x, s.buffer y with
      | some self, some another => (self.copyAssign another answer s.memory).map (s.put x)
      | _, _ => none
    | .moveAssign x y =>
      match s.buffer x with
      | none => none
      | some self =>
        { s with
          memory := s.memory.freeSetNullptr self.data
          buffer := Function.update s.buffer x (some { self with data := none }) : Buffers }.take x y
    | .set x bytes answer =>
      (s.buffer x).bind fun self => (self.set bytes answer s.memory).map (s.put x)
    | .resize x preferLength validLength answer =>
      (s.buffer x).bind fun self =>
        (self.resize preferLength validLength answer s.memory).map (s.put x)

/-- Sequences of operations on buffers. -/
def system : Lts Buffers BufferOp where
  init := { memory := .empty, buffer := fun _ => none, outcome := .done }
  step := step

end Buffers

end Stored

end NetworkPool
