import Mathlib.Data.List.Basic
import Mathlib.Order.Lattice
import Mathlib.Algebra.Order.Ring.Nat

/-!
# Buffers

`Cbuffer` of `buffer.h`, as the HTTP context uses it: one owner, no failed allocation survived.
-/

namespace NetworkPool

/-- `memcpy` to offset `i` of a block. A block does not grow: what would be written behind its
end is lost. -/
def overwrite (data : List UInt8) (i : ℕ) (bytes : List UInt8) : List UInt8 :=
  (data.take i ++ bytes ++ data.drop (i + bytes.length)).take data.length

@[simp] theorem length_overwrite (data : List UInt8) (i : ℕ) (bytes : List UInt8) :
    (overwrite data i bytes).length = data.length := by
  unfold overwrite
  simp only [List.length_take, List.length_append, List.length_drop]
  omega

theorem overwrite_append {p old bytes : List UInt8} (h : old.length = bytes.length)
    (q : List UInt8) :
    overwrite (p ++ old ++ q) p.length bytes = p ++ bytes ++ q := by
  have htake : (p ++ old ++ q).take p.length = p := by
    rw [List.append_assoc, List.take_left]
  have hdrop : (p ++ old ++ q).drop (p.length + bytes.length) = q := by
    rw [← h, ← List.length_append, List.drop_left]
  have hlen : (p ++ bytes ++ q).length = (p ++ old ++ q).length := by
    simp only [List.length_append, h]
  rw [overwrite, htake, hdrop, ← hlen, List.take_length]

/-- The block at `m_data` (empty when it is null, `m_maxLength` bytes otherwise), of which the
first `m_length` bytes are in use. -/
structure Cbuffer where
  data : List UInt8
  length : ℕ
  length_le : length ≤ data.length
  /-- No block is larger than `PTRDIFF_MAX` bytes. -/
  data_lt : data.length < 2 ^ 63

namespace Cbuffer

/-- `Cbuffer(CmemoryTrace *trace)`. -/
def new : Cbuffer where
  data := []
  length := 0
  length_le := le_rfl
  data_lt := by decide

def getData (b : Cbuffer) : List UInt8 := b.data

def getLength (b : Cbuffer) : ℕ := b.length

def getMaxLength (b : Cbuffer) : ℕ := b.data.length

/-- `resize`. A new block holds `garbage` behind the bytes that are kept; `none` is the
`std::bad_alloc` of `_malloc_throw`. -/
def resize (b : Cbuffer) (preferLength validLength : ℕ) (garbage : ℕ → UInt8) :
    Option Cbuffer :=
  if h : preferLength ≤ b.getMaxLength then
    some { b with length := preferLength, length_le := h }
  else if hmax : preferLength < 2 ^ 63 then
    let copy := if validLength > b.length then b.length else validLength
    let data := overwrite ((List.range preferLength).map garbage) 0 (b.data.take copy)
    have hdata : data.length = preferLength := by simp [data]
    some { data, length := preferLength, length_le := hdata.ge, data_lt := hdata ▸ hmax }
  else none

/-- `set`, for bytes that come from another block. -/
def set (b : Cbuffer) (bytes : List UInt8) (h : bytes.length < 2 ^ 63) : Cbuffer :=
  if hle : bytes.length ≤ b.getMaxLength then
    { data := overwrite b.data 0 bytes
      length := bytes.length
      length_le := by simpa [getMaxLength] using hle
      data_lt := by simpa using b.data_lt }
  else
    { data := bytes, length := bytes.length, length_le := le_rfl, data_lt := h }

/-- Stores through the pointer `getData` returned. -/
def store (b : Cbuffer) (data : List UInt8) (h : data.length = b.data.length) : Cbuffer where
  data := data
  length := b.length
  length_le := h ▸ b.length_le
  data_lt := h ▸ b.data_lt

@[simp] theorem store_data (b : Cbuffer) (data : List UInt8) (h : data.length = b.data.length) :
    (b.store data h).data = data := rfl

@[simp] theorem store_length (b : Cbuffer) (data : List UInt8)
    (h : data.length = b.data.length) : (b.store data h).length = b.length := rfl

variable {b b' : Cbuffer} {preferLength validLength : ℕ} {garbage : ℕ → UInt8}

/-- There is one buffer without a block. -/
theorem eq_new (h : b.data = []) : b = new := by
  obtain ⟨data, length, hle, hlt⟩ := b
  simp only at h
  subst h
  obtain rfl := Nat.le_zero.mp hle
  rfl

theorem resize_length (h : b.resize preferLength validLength garbage = some b') :
    b'.length = preferLength := by
  unfold resize at h
  split at h
  · rw [← Option.some.inj h]
  · split at h
    · rw [← Option.some.inj h]
    · exact absurd h (by simp)

/-- Blocks only grow. -/
theorem le_resize (h : b.resize preferLength validLength garbage = some b') :
    b.data.length ≤ b'.data.length := by
  have hlength := resize_length h
  have hle := b'.length_le
  unfold resize at h
  split at h
  · rw [← Option.some.inj h]
  · next hmore =>
    rw [getMaxLength] at hmore
    omega

theorem resize_maxLength_pos (h : b.resize preferLength validLength garbage = some b')
    (hpos : 0 < preferLength) : 0 < b'.data.length := by
  have hlen := resize_length h
  have hle := b'.length_le
  omega

/-- The valid bytes survive. -/
theorem resize_take (h : b.resize preferLength validLength garbage = some b')
    (hvalid : validLength ≤ b.length) : b'.data.take validLength = b.data.take validLength := by
  have hdata := b.length_le
  unfold resize at h
  split at h
  · rw [← Option.some.inj h]
  · next hmore =>
    have hprefer : validLength ≤ preferLength := by
      rw [getMaxLength] at hmore
      omega
    split at h
    · have hkeep : (b.data.take validLength).length = validLength := by
        rw [List.length_take]
        omega
      rw [← Option.some.inj h]
      simp only [gt_iff_lt, if_neg (not_lt.mpr hvalid), overwrite, List.take_zero, List.nil_append,
        List.length_map, List.length_range]
      rw [List.take_take, min_eq_left hprefer, List.take_append_of_le_length hkeep.ge,
        List.take_take, min_self]
    · exact absurd h (by simp)

theorem overwrite_zero_take {data bytes : List UInt8} (h : bytes.length ≤ data.length) :
    (overwrite data 0 bytes).take bytes.length = bytes := by
  unfold overwrite
  rw [List.take_zero, List.nil_append, List.take_take, min_eq_left h, List.take_left]

/-- What `set` is given is there. -/
theorem set_take {bytes : List UInt8} {n : ℕ} (hn : bytes.length = n)
    (hbytes : bytes.length < 2 ^ 63) : (b.set bytes hbytes).data.take n = bytes := by
  rw [← hn]
  unfold set
  split
  · next hle => exact overwrite_zero_take hle
  · exact List.take_length

theorem exists_resize (b : Cbuffer) (validLength : ℕ) (garbage : ℕ → UInt8)
    (h : preferLength < 2 ^ 63) :
    ∃ b', b.resize preferLength validLength garbage = some b' := by
  unfold resize
  split
  · exact ⟨_, rfl⟩
  · exact ⟨_, rfl⟩

end Cbuffer

end NetworkPool
