import NetworkPool.Buffer.Ownership
import NetworkPool.Peer.Framing

/-!
# Progress and bounds of decoding

The loop of both `getContent`, for a `size_t` of `w` bits, with the copy of each pack: the copy is
allocated before its bytes are read and before the cursor moves, and `_malloc_throw` ends the
process when the size of the block is no `size_t`. The sum of the cursor, 4 and the length of a
pack can wrap only where there is no such block beside the bytes that are decoded, so that the
loop ends, moves on and reads no byte behind the given length (`decodes`).
-/

namespace NetworkPool

/-! ## Rounds -/

/-- What a round gets from the allocators: what `__alloc` returns for a request of so many bytes,
and where `push_back` puts the new element, if it does not throw. -/
structure Room where
  alloc : ℕ → Option ℕ
  element : Option ℕ

/-- How the constructor of a copy ends. -/
inductive Copy where
  | terminate
  | badAlloc
  | copied
  deriving DecidableEq, Repr

/-- `Cbuffer(data, length)`: nothing is allocated for no bytes, and `_malloc_throw` adds the size
of a `size_t` to the length. -/
def copy (w : ℕ) (alloc : ℕ → Option ℕ) (length : ℕ) : Copy :=
  if length = 0 then .copied
  else
    let allocSize := (w / 8 + length) % 2 ^ w
    if allocSize < length then .terminate
    else
      match alloc allocSize with
      | none => .badAlloc
      | some _ => .copied

/-- How a round of the loop ends: before the length of a pack is read, at a pack that is not
complete, in `std::terminate`, with `std::bad_alloc` from the copy, with an exception from
`push_back`, or behind a pack. -/
inductive Round where
  | out
  | short (packLength : ℕ)
  | terminate (packLength : ℕ)
  | badAlloc (packLength : ℕ)
  | full (packLength : ℕ)
  | pack (packLength nowCheck : ℕ)
  deriving DecidableEq, Repr

/-- One round of the loop from offset `nowCheck` on, with a `size_t` of `w` bits. -/
def round (w : ℕ) (order : ByteOrder) (data : List UInt8) (length : ℕ) (room : Room)
    (nowCheck : ℕ) : Round :=
  if length < (nowCheck + 4) % 2 ^ w then .out
  else
    let packLength := order.value ((data.drop nowCheck).take 4)
    if length < (nowCheck + 4 + packLength) % 2 ^ w then .short packLength
    else
      match copy w room.alloc packLength with
      | .terminate => .terminate packLength
      | .badAlloc => .badAlloc packLength
      | .copied =>
        match room.element with
        | none => .full packLength
        | some _ => .pack packLength ((nowCheck + 4 + packLength) % 2 ^ w)

/-- Where a round that starts at `nowCheck` reads, as offsets and numbers of bytes. -/
def Round.reads (nowCheck : ℕ) : Round → List (ℕ × ℕ)
  | .out => []
  | .short _ | .terminate _ | .badAlloc _ => [(nowCheck, 4)]
  | .full packLength | .pack packLength _ => [(nowCheck, 4), (nowCheck + 4, packLength)]

/-- Where the next round starts, if there is one. -/
def Round.next : Round → Option ℕ
  | .pack _ nowCheck => some nowCheck
  | _ => none

/-- Where round `i` starts, if the loop comes to it. -/
def cursorAt (w : ℕ) (order : ByteOrder) (data : List UInt8) (length : ℕ) (rooms : ℕ → Room) :
    ℕ → Option ℕ
  | 0 => some 0
  | i + 1 => (cursorAt w order data length rooms i).bind fun nowCheck =>
    (round w order data length (rooms i) nowCheck).next

/-- The loop ends, moves on in every round, and reads below `length` only; so does the `memmove`
that follows it. The process is ended only for a block whose size is no `size_t`. -/
structure Decodes (w : ℕ) (order : ByteOrder) (data : List UInt8) (length : ℕ)
    (rooms : ℕ → Room) : Prop where
  halts : ∃ i nowCheck, cursorAt w order data length rooms i = some nowCheck ∧
    ∀ packLength nowCheck', round w order data length (rooms i) nowCheck ≠
      .pack packLength nowCheck'
  progress : ∀ i nowCheck packLength nowCheck',
    cursorAt w order data length rooms i = some nowCheck →
      round w order data length (rooms i) nowCheck = .pack packLength nowCheck' →
        nowCheck < nowCheck'
  reads : ∀ i nowCheck, cursorAt w order data length rooms i = some nowCheck →
    ∀ r ∈ (round w order data length (rooms i) nowCheck).reads nowCheck, ∀ k < r.2,
      r.1 + k < length
  moved : ∀ i nowCheck, cursorAt w order data length rooms i = some nowCheck → nowCheck ≤ length
  ended : ∀ i nowCheck packLength, cursorAt w order data length rooms i = some nowCheck →
    round w order data length (rooms i) nowCheck = .terminate packLength →
      2 ^ w ≤ w / 8 + packLength

/-! ## Memory -/

/-- `size` bytes at `p` are in memory, and none of them is one of the `length` bytes at `base`. -/
def Placed (w base length size p : ℕ) : Prop :=
  p + size ≤ 2 ^ w ∧ (p + size ≤ base ∨ base + length ≤ p)

/-- What is allocated is not placed on the bytes that are decoded. An element is a `Cbuffer`, of
four words. -/
structure Room.Apart (w base length : ℕ) (room : Room) : Prop where
  alloc : ∀ size p, room.alloc size = some p → Placed w base length size p
  element : ∀ p, room.element = some p → Placed w base length (4 * (w / 8)) p

/-- Beside the bytes that are decoded there is space for what is allocated. -/
structure Room.Fits (w length : ℕ) (room : Room) : Prop where
  alloc : ∀ size p, size < w / 8 + 2 ^ 32 → room.alloc size = some p → size + length ≤ 2 ^ w
  element : ∀ p, room.element = some p → 4 * (w / 8) + length ≤ 2 ^ w

theorem Placed.add_le {w base length size p : ℕ} (h : Placed w base length size p)
    (hbase : base + length ≤ 2 ^ w) : size + length ≤ 2 ^ w := by
  obtain ⟨hend, hbefore | hbehind⟩ := h
  · omega
  · omega

theorem Room.Apart.fits {w base length : ℕ} {room : Room} (h : room.Apart w base length)
    (hbase : base + length ≤ 2 ^ w) : room.Fits w length where
  alloc := fun size p _ halloc => (h.alloc size p halloc).add_le hbase
  element := fun p helement => (h.element p helement).add_le hbase

/-- With 64 bits a pack is small beside the memory. -/
theorem Room.fits_sixtyFour {length : ℕ} (room : Room) (hlength : length < 2 ^ 63) :
    room.Fits 64 length where
  alloc := fun size _ hsize _ => by omega
  element := fun _ _ => by omega

/-- A copy that is made has a block of its length and a word more. -/
theorem copy_copied {w length : ℕ} {alloc : ℕ → Option ℕ} (h : copy w alloc length = .copied) :
    length = 0 ∨ ∃ p, alloc (w / 8 + length) = some p := by
  unfold copy at h
  split_ifs at h with hzero
  · exact .inl hzero
  · right
    simp only at h
    split_ifs at h with hoverflow
    have hword : w / 8 < 2 ^ w := (Nat.div_le_self w 8).trans_lt Nat.lt_two_pow_self
    have hsum : w / 8 + length < 2 ^ w := by
      have hlt := Nat.mod_lt (w / 8 + length) (Nat.two_pow_pos w)
      by_contra hge
      -- a sum that wraps is below the length, which the test of `_malloc_throw` finds
      rw [Nat.mod_eq_sub_mod (by omega)] at hoverflow hlt
      have hle := Nat.mod_le (w / 8 + length - 2 ^ w) (2 ^ w)
      omega
    rw [Nat.mod_eq_of_lt hsum] at h
    cases halloc : alloc (w / 8 + length) with
    | none =>
      rw [halloc] at h
      exact absurd h (by simp)
    | some p => exact ⟨p, rfl⟩

theorem copy_terminate {w length : ℕ} {alloc : ℕ → Option ℕ}
    (h : copy w alloc length = .terminate) : 2 ^ w ≤ w / 8 + length := by
  unfold copy at h
  split_ifs at h with hzero
  simp only at h
  split_ifs at h with hoverflow
  · by_contra hlt
    rw [Nat.mod_eq_of_lt (by omega)] at hoverflow
    omega
  · cases halloc : alloc ((w / 8 + length) % 2 ^ w) with
    | none =>
      rw [halloc] at h
      exact absurd h (by simp)
    | some p =>
      rw [halloc] at h
      exact absurd h (by simp)

/-! ## Invariant of the loop -/

/-- What a round has read and computed: the bytes are there, and no sum has wrapped. -/
def Round.Sound (w length nowCheck : ℕ) : Round → Prop
  | .out => True
  | .short _ | .badAlloc _ => nowCheck + 4 ≤ length
  | .terminate packLength =>
    nowCheck + 4 ≤ length ∧ 2 ^ w ≤ w / 8 + packLength ∧ packLength < 2 ^ 32
  | .full packLength => nowCheck + 4 + packLength ≤ length
  | .pack packLength nowCheck' =>
    nowCheck' = nowCheck + 4 + packLength ∧ nowCheck' ≤ length ∧ nowCheck' + 4 < 2 ^ w

section Rounds

variable {w : ℕ} {order : ByteOrder} {data : List UInt8} {length nowCheck : ℕ} {room : Room}
  {rooms : ℕ → Room}

/-- The sum of the cursor, 4 and the length of a pack does not wrap where the copy is made: block
and bytes are in memory together. -/
theorem add_lt_of_copied {packLength : ℕ} (hw : 32 ≤ w) (hfits : room.Fits w length)
    (hpack : packLength < 2 ^ 32) (hfour : nowCheck + 4 ≤ length) (hlt : nowCheck + 4 < 2 ^ w)
    (hcopy : copy w room.alloc packLength = .copied) : nowCheck + 4 + packLength < 2 ^ w := by
  rcases copy_copied hcopy with rfl | ⟨p, halloc⟩
  · exact hlt
  · have hroom := hfits.alloc _ p (by omega) halloc
    omega

variable (order data) in
/-- One round, from a cursor at which its first sum does not wrap. -/
theorem round_sound (hw : 32 ≤ w) (hfits : room.Fits w length) (hlt : nowCheck + 4 < 2 ^ w) :
    (round w order data length room nowCheck).Sound w length nowCheck := by
  have hpack : order.value ((data.drop nowCheck).take 4) < 2 ^ 32 :=
    order.value_lt _ (List.length_take_le ..)
  unfold round
  rw [Nat.mod_eq_of_lt hlt]
  by_cases hout : length < nowCheck + 4
  · rw [if_pos hout]
    exact trivial
  · rw [if_neg hout]
    have hfour : nowCheck + 4 ≤ length := Nat.le_of_not_lt hout
    simp only
    generalize order.value ((data.drop nowCheck).take 4) = packLength at hpack ⊢
    by_cases hshort : length < (nowCheck + 4 + packLength) % 2 ^ w
    · rw [if_pos hshort]
      exact hfour
    · rw [if_neg hshort]
      cases hcopy : copy w room.alloc packLength with
      | terminate => exact ⟨hfour, copy_terminate hcopy, hpack⟩
      | badAlloc => exact hfour
      | copied =>
        -- block and bytes are in memory together, so the sum does not wrap
        have hsum := add_lt_of_copied hw hfits hpack hfour hlt hcopy
        rw [Nat.mod_eq_of_lt hsum] at hshort ⊢
        cases helement : room.element with
        | none => exact Nat.le_of_not_lt hshort
        | some p =>
          have hroom := hfits.element p helement
          exact ⟨rfl, Nat.le_of_not_lt hshort, by omega⟩

theorem cursorAt_succ {i nowCheck' : ℕ}
    (h : cursorAt w order data length rooms (i + 1) = some nowCheck') :
    ∃ nowCheck packLength, cursorAt w order data length rooms i = some nowCheck ∧
      round w order data length (rooms i) nowCheck = .pack packLength nowCheck' := by
  obtain ⟨nowCheck, hcursor, hnext⟩ := Option.bind_eq_some_iff.mp h
  cases hround : round w order data length (rooms i) nowCheck with
  | pack packLength n =>
    rw [hround] at hnext
    obtain rfl := Option.some.inj hnext
    exact ⟨nowCheck, packLength, hcursor, hround⟩
  | out | short | terminate | badAlloc | full =>
    rw [hround] at hnext
    exact absurd hnext (by simp [Round.next])

/-- Every cursor is one from which the next round is sound. -/
theorem cursorAt_sound (hw : 32 ≤ w) (hfits : ∀ i, (rooms i).Fits w length) {i : ℕ}
    (h : cursorAt w order data length rooms i = some nowCheck) :
    i ≤ nowCheck ∧ nowCheck ≤ length ∧ nowCheck + 4 < 2 ^ w := by
  induction i generalizing nowCheck with
  | zero =>
    obtain rfl := Option.some.inj h
    have hpow : 2 ^ 32 ≤ 2 ^ w := Nat.pow_le_pow_right (by decide) hw
    exact ⟨le_rfl, Nat.zero_le _, by omega⟩
  | succ i ih =>
    obtain ⟨n, packLength, hcursor, hround⟩ := cursorAt_succ h
    obtain ⟨hi, -, hlt⟩ := ih hcursor
    have hsound := round_sound order data hw (hfits i) hlt
    rw [hround] at hsound
    obtain ⟨rfl, hle, hnext⟩ := hsound
    exact ⟨by omega, hle, hnext⟩

/-- The loop comes to a round behind which there is none. -/
theorem exists_last (hw : 32 ≤ w) (hfits : ∀ i, (rooms i).Fits w length) {i : ℕ}
    (h : cursorAt w order data length rooms i = some nowCheck) :
    ∃ j n, cursorAt w order data length rooms j = some n ∧
      ∀ packLength n', round w order data length (rooms j) n ≠ .pack packLength n' := by
  induction hk : length - nowCheck using Nat.strong_induction_on generalizing i nowCheck with
  | _ k ih =>
    by_cases hlast : ∀ packLength n',
        round w order data length (rooms i) nowCheck ≠ .pack packLength n'
    · exact ⟨i, nowCheck, h, hlast⟩
    · push Not at hlast
      obtain ⟨packLength, n', hround⟩ := hlast
      have hsound := round_sound order data hw (hfits i)
        (cursorAt_sound hw hfits h).2.2
      rw [hround] at hsound
      obtain ⟨hn', hle, -⟩ := hsound
      have hnext : cursorAt w order data length rooms (i + 1) = some n' := by
        rw [cursorAt, h, Option.bind_some, hround, Round.next]
      exact ih (length - n') (by omega) hnext rfl

/-- Where there is space beside the bytes for what the loop allocates, it is in order. -/
theorem decodes_of_fits (hw : 32 ≤ w) (hfits : ∀ i, (rooms i).Fits w length) :
    Decodes w order data length rooms := by
  have hsound : ∀ {i n : ℕ}, cursorAt w order data length rooms i = some n →
      (round w order data length (rooms i) n).Sound w length n := fun h =>
    round_sound order data hw (hfits _) (cursorAt_sound hw hfits h).2.2
  refine ⟨exists_last hw hfits (i := 0) rfl, ?_, ?_,
    fun i n h => (cursorAt_sound hw hfits h).2.1, ?_⟩
  · intro i n packLength n' h hround
    have hs := hsound h
    rw [hround] at hs
    obtain ⟨rfl, -⟩ := hs
    omega
  · intro i n h r hr k hk
    have hs := hsound h
    generalize round w order data length (rooms i) n = x at hs hr
    cases x with
    | out => exact absurd hr List.not_mem_nil
    | short | terminate | badAlloc =>
      obtain rfl := List.mem_singleton.mp hr
      simp only [Round.Sound] at hs
      simp only at hk ⊢
      omega
    | full | pack =>
      simp only [Round.Sound] at hs
      simp only [Round.reads, List.mem_cons, List.not_mem_nil, or_false] at hr
      rcases hr with rfl | rfl
      · simp only at hk ⊢
        omega
      · simp only at hk ⊢
        omega
  · intro i n packLength h hround
    have hs := hsound h
    rw [hround] at hs
    exact hs.2.1

/-! ## The loop as a function -/

/-- Without the allocations, the loop of `getContent` goes from round to round. -/
theorem decode_round {fuel packLength nowCheck' : ℕ}
    (h : round 64 order data length room nowCheck = .pack packLength nowCheck') :
    (decode order data length (fuel + 1) nowCheck).2 =
      (decode order data length fuel nowCheck').2 := by
  unfold round at h
  split_ifs at h with hout
  simp only at h
  split_ifs at h with hshort
  rw [decode, if_neg hout]
  simp only
  rw [if_neg hshort]
  cases hcopy : copy 64 room.alloc (order.value ((data.drop nowCheck).take 4)) with
  | terminate | badAlloc =>
    rw [hcopy] at h
    exact absurd h (by simp)
  | copied =>
    cases helement : room.element with
    | none =>
      rw [hcopy, helement] at h
      exact absurd h (by simp)
    | some p =>
      rw [hcopy, helement] at h
      rw [(Round.pack.inj h).2]

/-- It stops before the length of a pack and at a pack that is not complete. -/
theorem decode_stop {fuel : ℕ}
    (h : round 64 order data length room nowCheck = .out ∨
      ∃ packLength, round 64 order data length room nowCheck = .short packLength) :
    (decode order data length (fuel + 1) nowCheck).2 = nowCheck := by
  rw [decode]
  by_cases hout : length < (nowCheck + 4) % 2 ^ 64
  · rw [if_pos hout]
  · rw [if_neg hout]
    simp only
    by_cases hshort : length < (nowCheck + 4 +
        order.value ((data.drop nowCheck).take 4)) % 2 ^ 64
    · rw [if_pos hshort]
    · -- such a round comes to the copy
      unfold round at h
      simp only [if_neg hout, if_neg hshort] at h
      cases hcopy : copy 64 room.alloc (order.value ((data.drop nowCheck).take 4)) with
      | terminate | badAlloc => simp [hcopy] at h
      | copied => cases helement : room.element <;> simp [hcopy, helement] at h

/-- The first rounds are the first rounds of the function. -/
theorem decode_cursorAt {i fuel : ℕ} (h : cursorAt 64 order data length rooms i = some nowCheck) :
    (decode order data length (i + fuel) 0).2 = (decode order data length fuel nowCheck).2 := by
  induction i generalizing nowCheck fuel with
  | zero =>
    obtain rfl := Option.some.inj h
    rw [Nat.zero_add]
  | succ i ih =>
    obtain ⟨n, packLength, hcursor, hround⟩ := cursorAt_succ h
    rw [Nat.add_assoc, Nat.add_comm 1, ih hcursor, decode_round hround]

/-- The constructor of a copy is the one of a buffer in memory. -/
theorem copy_eq_constructData {bytes : List UInt8} (hlt : bytes.length < 2 ^ 64)
    (m : Stored.Memory) (answer : Option (ℕ → UInt8)) (alloc : ℕ → Option ℕ)
    (hanswer : answer.isSome = (alloc (8 + bytes.length)).isSome) :
    (Stored.Cbuffer.constructData bytes answer m).map (·.1) =
      match copy 64 alloc bytes.length with
      | .terminate => none
      | .badAlloc => some .badAlloc
      | .copied => some .done := by
  unfold Stored.Cbuffer.constructData Stored.Cbuffer.construct copy
  by_cases hzero : bytes.length = 0
  · rw [if_pos hzero, if_pos hzero]
    rfl
  · rw [if_neg hzero, if_neg hzero]
    by_cases hoverflow : 2 ^ 64 ≤ bytes.length + 8
    · have hwrap : (64 / 8 + bytes.length) % 2 ^ 64 < bytes.length := by omega
      simp only [Stored.Memory.mallocThrow, if_pos hoverflow, if_pos hwrap]
      rfl
    · have hsum : (64 / 8 + bytes.length) % 2 ^ 64 = 8 + bytes.length := by omega
      have hfits : ¬ 8 + bytes.length < bytes.length := by omega
      simp only [hsum, if_neg hfits]
      cases hmalloc : m.mallocThrow bytes.length answer with
      | terminate =>
        unfold Stored.Memory.mallocThrow at hmalloc
        rw [if_neg hoverflow] at hmalloc
        cases answer <;> exact absurd hmalloc (by simp)
      | badAlloc =>
        have hnone := Stored.mallocThrow_badAlloc hmalloc
        rw [hnone, Option.isSome_none] at hanswer
        have halloc : alloc (8 + bytes.length) = none := by
          simpa using hanswer.symm
        simp only [halloc]
        rfl
      | block p m₁ =>
        have hsome : answer.isSome :=
          Option.isSome_iff_ne_none.mpr (Stored.answer_ne_of_block hmalloc)
        rw [hsome] at hanswer
        obtain ⟨q, halloc⟩ := Option.isSome_iff_exists.mp hanswer.symm
        obtain ⟨m₂, hcopy⟩ := Stored.exists_memcpy hmalloc (le_refl bytes.length)
        simp only [halloc, hcopy]
        rfl

end Rounds

/-- **Both `getContent` end and stay inside.** For a `size_t` of at least 32 bits, whatever the
bytes and whatever the allocators return beside them, the loop ends, each of its rounds moves on,
and all it reads lies below the given length. With 64 bits this holds of any allocators, the
process goes on, and where no allocation fails the loop stops where the function stops. -/
theorem decodes (order : ByteOrder) {w : ℕ} (hw : 32 ≤ w) :
    (∀ (data : List UInt8) (length base : ℕ) (rooms : ℕ → Room),
      base + length ≤ 2 ^ w → (∀ i, (rooms i).Apart w base length) →
        Decodes w order data length rooms) ∧
    (∀ (ctx : CpeerContext) (base : ℕ) (rooms : ℕ → Room), base + ctx.nowIndex ≤ 2 ^ w →
      (∀ i, (rooms i).Apart w base ctx.nowIndex) →
        Decodes w order ctx.buffer.getData ctx.nowIndex rooms) ∧
    (∀ (data : List UInt8) (length : ℕ) (rooms : ℕ → Room),
      length < 2 ^ 63 → Decodes 64 order data length rooms ∧
        ∀ i nowCheck, cursorAt 64 order data length rooms i = some nowCheck →
          (∀ packLength, round 64 order data length (rooms i) nowCheck ≠ .terminate packLength) ∧
          (round 64 order data length (rooms i) nowCheck = .out ∨
              (∃ packLength,
                round 64 order data length (rooms i) nowCheck = .short packLength) →
            (decode order data length (length + 1) 0).2 = nowCheck)) := by
  refine ⟨fun data length base rooms hbase hrooms =>
      decodes_of_fits hw fun i => (hrooms i).fits hbase,
    fun ctx base rooms hbase hrooms => decodes_of_fits hw fun i => (hrooms i).fits hbase, ?_⟩
  intro data length rooms hlength
  have hfits : ∀ i, (rooms i).Fits 64 length := fun i => (rooms i).fits_sixtyFour hlength
  refine ⟨decodes_of_fits (by decide) hfits, fun i nowCheck hcursor => ⟨?_, ?_⟩⟩
  · intro packLength hround
    obtain ⟨-, -, hlt⟩ := cursorAt_sound (by decide) hfits hcursor
    have hsound := round_sound order data (by decide) (hfits i) hlt
    rw [hround] at hsound
    obtain ⟨-, hended, hpack⟩ := hsound
    omega
  · intro hstop
    obtain ⟨hi, hnow, -⟩ := cursorAt_sound (by decide) hfits hcursor
    have hfuel : length + 1 = i + (length - i + 1) := by omega
    rw [hfuel, decode_cursorAt hcursor, decode_stop hstop]

/-- Small blocks at `0x2000`, and elements at `0x8000`. -/
def Room.small : Room where
  alloc size := if size < 0x1000 then some 0x2000 else none
  element := some 0x8000

/-- A pack of one byte and a length just below `2 ^ 32`, at `0x1000` with 32 bits: the sum of the
second round wraps, and the copy ends the process. -/
theorem decodes_wrapping :
    Decodes 32 .little [1, 0, 0, 0, 104, 252, 255, 255, 255] 9 (fun _ => .small) ∧
      cursorAt 32 .little [1, 0, 0, 0, 104, 252, 255, 255, 255] 9 (fun _ => .small) 1 = some 5 ∧
      round 32 .little [1, 0, 0, 0, 104, 252, 255, 255, 255] 9 .small 5 =
        .terminate 4294967292 := by
  have hapart : Room.small.Apart 32 0x1000 9 := by
    refine ⟨fun size p h => ?_, fun p h => ?_⟩
    · obtain ⟨hsize, h⟩ := Option.ite_none_right_eq_some.mp h
      obtain rfl := Option.some.inj h
      exact ⟨by omega, by omega⟩
    · obtain rfl := Option.some.inj h
      exact ⟨by decide, by decide⟩
  obtain ⟨hstatic, -, -⟩ := decodes .little (show 32 ≤ 32 by decide)
  exact ⟨hstatic _ 9 0x1000 _ (by decide) fun _ => hapart, by decide, by decide⟩

end NetworkPool
