import NetworkPool.Buffer.Heap

/-!
# Who owns a block

Every buffer has a block of its own that is large enough, or none and no room (`Represented`).
`set`, `resize` and the assignment of a longer buffer free the old block before they allocate, and
leave the sizes when that throws; a buffer that is moved to itself loses its bytes. The runs that
keep the representation and the bytes are exactly those in which neither happens
(`represented_iff`).
-/

namespace NetworkPool

open Lib (Blocks Lts)
open Lib.Blocks

namespace Stored

/-! ## One buffer -/

/-- A buffer has a block of at least `maxLength` bytes, or none and no room. -/
structure Sized (m : Memory) (b : Cbuffer) : Prop where
  length_le : b.length ≤ b.maxLength
  null : b.data = none → b.maxLength = 0
  live : ∀ p, b.data = some p → ∃ bytes, m.block p = some bytes ∧ b.maxLength ≤ bytes.length

theorem Sized.new (m : Memory) : Sized m .new :=
  ⟨le_rfl, fun _ => rfl, fun _ h => absurd h (by simp [Cbuffer.new])⟩

/-- The blocks that are not `d` are the same. -/
def Frame (m : Memory) (d : Option ℕ) (m' : Memory) : Prop :=
  ∀ p bytes, d ≠ some p → m.block p = some bytes → m'.block p = some bytes

theorem Frame.refl (m : Memory) (d : Option ℕ) : Frame m d m :=
  fun _ _ _ hp => hp

theorem Frame.trans {m m' m'' : Memory} {d : Option ℕ} (h : Frame m d m')
    (h' : Frame m' none m'') : Frame m d m'' :=
  fun p bytes hp hbytes => h' p bytes (by simp) (h p bytes hp hbytes)

theorem Sized.frame {m m' : Memory} {b : Cbuffer} {d : Option ℕ} (h : Sized m b)
    (hframe : Frame m d m') (hne : ∀ p, b.data = some p → d ≠ some p) : Sized m' b where
  length_le := h.length_le
  null := h.null
  live p hp := by
    obtain ⟨bytes, hbytes, hle⟩ := h.live p hp
    exact ⟨bytes, hframe p bytes (hne p hp) hbytes, hle⟩

theorem contents_frame {m m' : Memory} {b : Cbuffer} {d : Option ℕ} (h : Sized m b)
    (hframe : Frame m d m') (hne : ∀ p, b.data = some p → d ≠ some p) :
    b.contents m' = b.contents m := by
  unfold Cbuffer.contents
  cases hdata : b.data with
  | none => rfl
  | some p =>
    obtain ⟨bytes, hbytes, -⟩ := h.live p hdata
    rw [Option.bind_some, Option.bind_some, hbytes, hframe p bytes (hne p hdata) hbytes]

/-- What is read from a buffer. -/
theorem Sized.read {m : Memory} {b : Cbuffer} (h : Sized m b) {n : ℕ} (hn : n ≤ b.length)
    (hpos : 0 < n) : m.read b.data n = some ((b.contents m).take n) := by
  have hle := h.length_le
  cases hdata : b.data with
  | none =>
    have hzero := h.null hdata
    omega
  | some p =>
    obtain ⟨bytes, hbytes, hroom⟩ := h.live p hdata
    unfold Memory.read Cbuffer.contents
    rw [hdata, Option.bind_some, Option.bind_some, hbytes, Option.bind_some, if_pos (by omega),
      Option.elim_some, List.take_take, min_eq_left hn]

theorem length_contents {m : Memory} {b : Cbuffer} (h : Sized m b) :
    (b.contents m).length = b.length := by
  have hle := h.length_le
  unfold Cbuffer.contents
  cases hdata : b.data with
  | none =>
    have hzero := h.null hdata
    simp only [Option.bind_none, Option.elim_none, List.length_nil]
    omega
  | some p =>
    obtain ⟨bytes, hbytes, hroom⟩ := h.live p hdata
    simp only [Option.bind_some, hbytes, Option.elim_some, List.length_take]
    omega

/-! ## Memory -/

section Memory

variable {m m' : Memory} {ptr : ℕ → Option ℕ} {x : ℕ} {d : Option ℕ}

/-- The block of `x` is freed. -/
theorem owned_freeSetNullptr (h : Owned m ptr) (hx : ptr x = d) :
    Owned (m.freeSetNullptr d) (Function.update ptr x none) ∧
      Frame m d (m.freeSetNullptr d) := by
  cases d with
  | none =>
    have hsame := Function.update_eq_self x ptr
    rw [hx] at hsame
    rw [hsame]
    exact ⟨h, fun p bytes _ hp => hp⟩
  | some p =>
    refine ⟨h.free hx, fun q bytes hq hbytes => ?_⟩
    rw [Memory.freeSetNullptr, block_free (by simpa using Ne.symm hq)]
    exact hbytes

theorem mallocThrow_block {size p : ℕ} {answer : Option (ℕ → UInt8)}
    (h : m.mallocThrow size answer = .block p m') :
    p = m.next ∧ ∃ old : List UInt8, old.length = size ∧ m' = m.alloc old := by
  unfold Memory.mallocThrow at h
  split_ifs at h
  cases answer with
  | none => exact absurd h (by simp)
  | some garbage =>
    obtain ⟨rfl, rfl⟩ := Malloc.block.inj h
    exact ⟨rfl, _, by simp, rfl⟩

theorem answer_ne_of_block {size p : ℕ} {answer : Option (ℕ → UInt8)}
    (h : m.mallocThrow size answer = .block p m') : answer ≠ none := by
  rintro rfl
  unfold Memory.mallocThrow at h
  split_ifs at h

theorem mallocThrow_badAlloc {size : ℕ} {answer : Option (ℕ → UInt8)}
    (h : m.mallocThrow size answer = .badAlloc) : answer = none := by
  unfold Memory.mallocThrow at h
  split_ifs at h
  cases answer with
  | none => rfl
  | some garbage => exact absurd h (by simp)

/-- `memcpy` into a live block. -/
theorem memcpy_eq {p : ℕ} {old bytes : List UInt8} (hp : m.block p = some old)
    (hle : bytes.length ≤ old.length) :
    m.memcpy (some p) (some bytes) = some (m.write p (overwrite old 0 bytes)) := by
  unfold Memory.memcpy
  rw [Option.bind_some, Option.bind_some, hp, Option.bind_some, if_pos hle]

/-- A block is new for all. -/
theorem owned_alloc (h : Owned m ptr) (hx : ptr x = none) (old : List UInt8) :
    Owned (m.alloc old) (Function.update ptr x (some m.next)) ∧ Frame m none (m.alloc old) :=
  ⟨h.alloc hx, fun _ _ _ hp => block_alloc hp⟩

/-- A new block with bytes at its start. -/
theorem owned_alloc_write (h : Owned m ptr) (hx : ptr x = none) (old new : List UInt8) :
    Owned ((m.alloc old).write m.next new) (Function.update ptr x (some m.next)) ∧
      Frame m none ((m.alloc old).write m.next new) ∧
      ((m.alloc old).write m.next new).block m.next = some new := by
  obtain ⟨howned, hframe⟩ := owned_alloc h hx old
  refine ⟨howned.write, fun p bytes hp hbytes => ?_, block_write_self block_alloc_self⟩
  rw [block_write (Nat.ne_of_lt (lt_next hbytes))]
  exact hframe p bytes hp hbytes

end Memory

/-! ## Operations -/

/-- What a successful operation on the buffer `x` leaves. -/
structure Effect (m : Memory) (ptr : ℕ → Option ℕ) (x : ℕ) (b : Cbuffer) (m' : Memory) : Prop where
  owned : Owned m' (Function.update ptr x b.data)
  sized : Sized m' b
  frame : Frame m (ptr x) m'

/-- What is left when the old block is freed and there is no new one. -/
structure Lost (m : Memory) (ptr : ℕ → Option ℕ) (x : ℕ) (self b : Cbuffer) (m' : Memory) :
    Prop where
  owned : Owned m' (Function.update ptr x none)
  buffer_eq : b = { self with data := none }
  frame : Frame m (ptr x) m'

/-- The sizes are stale, unless there was no room. -/
theorem Lost.maxLength_eq {m m' : Memory} {ptr : ℕ → Option ℕ} {x : ℕ} {self b : Cbuffer}
    (h : Lost m ptr x self b m') (hb : Sized m' b) : self.maxLength = 0 := by
  obtain ⟨-, rfl, -⟩ := h
  exact hb.null rfl

/-- Without room there is nothing to lose. -/
theorem Lost.effect {m m' : Memory} {ptr : ℕ → Option ℕ} {x : ℕ} {self b : Cbuffer}
    (h : Lost m ptr x self b m') (hself : Sized m self) (hzero : self.maxLength = 0) :
    Effect m ptr x b m' := by
  obtain ⟨howned, rfl, hframe⟩ := h
  exact ⟨howned, ⟨hself.length_le, fun _ => hzero, fun _ hp => absurd hp (by simp)⟩, hframe⟩

section Operations

variable {m m' : Memory} {ptr : ℕ → Option ℕ} {x : ℕ} {self b : Cbuffer} {o : Outcome}
  {answer : Option (ℕ → UInt8)} {length : ℕ} {source : Memory → Option (List UInt8)}
  {bytes : List UInt8}

theorem Effect.new (h : Owned m ptr) (hx : ptr x = none) : Effect m ptr x .new m := by
  have hsame := Function.update_eq_self x ptr
  rw [hx] at hsame
  refine ⟨?_, .new m, .refl m _⟩
  show Owned m (Function.update ptr x none)
  rw [hsame]
  exact h

/-- The pointer stays. -/
theorem Effect.of_same (h : Owned m' ptr) (hx : ptr x = b.data) (hsized : Sized m' b)
    (hframe : Frame m (ptr x) m') : Effect m ptr x b m' := by
  have hsame := Function.update_eq_self x ptr
  rw [hx] at hsame
  refine ⟨?_, hsized, hframe⟩
  rw [hsame]
  exact h

/-- What is done after the old block was freed. -/
theorem Effect.after_free {m₁ : Memory} (hx : ptr x = self.data) (hframe : Frame m self.data m₁)
    (h : Effect m₁ (Function.update ptr x none) x b m') : Effect m ptr x b m' := by
  obtain ⟨howned, hsized, hframe'⟩ := h
  rw [Function.update_idem] at howned
  rw [Function.update_self] at hframe'
  refine ⟨howned, hsized, ?_⟩
  rw [hx]
  exact hframe.trans hframe'

/-- A new block, for the buffer `x` that has none. -/
theorem Effect.alloc {p : ℕ} (h : Owned m ptr) (hx : ptr x = none)
    (hmalloc : m.mallocThrow length answer = .block p m') :
    Effect m ptr x { data := some p, length, maxLength := length } m' := by
  obtain ⟨rfl, old, hold, rfl⟩ := mallocThrow_block hmalloc
  obtain ⟨howned, hframe⟩ := owned_alloc h hx old
  refine ⟨howned, ⟨le_rfl, by simp, fun q hq => ?_⟩, ?_⟩
  · obtain rfl := Option.some.inj hq
    exact ⟨_, block_alloc_self, hold.ge⟩
  · rw [hx]
    exact hframe

/-- A new block with bytes at its start, for the buffer `x` that has none. -/
theorem effect_write {old : List UInt8} (h : Owned m ptr) (hx : ptr x = none)
    (hold : old.length = length) (hlength : bytes.length ≤ length) :
    Effect m ptr x { data := some m.next, length, maxLength := length }
        ((m.alloc old).write m.next (overwrite old 0 bytes)) ∧
      (Cbuffer.contents ((m.alloc old).write m.next (overwrite old 0 bytes))
        { data := some m.next, length, maxLength := length }).take bytes.length = bytes := by
  obtain ⟨howned, hframe, hblock⟩ := owned_alloc_write h hx old (overwrite old 0 bytes)
  have hsize : (overwrite old 0 bytes).length = length := by
    rw [length_overwrite]
    exact hold
  refine ⟨⟨howned, ⟨le_rfl, by simp, fun q hq => ?_⟩, ?_⟩, ?_⟩
  · obtain rfl := Option.some.inj hq
    exact ⟨_, hblock, hsize.ge⟩
  · rw [hx]
    exact hframe
  · unfold Cbuffer.contents
    rw [Option.bind_some, hblock, Option.elim_some, List.take_take, min_eq_left hlength]
    exact Cbuffer.overwrite_zero_take (by omega)

/-- A new block with the bytes of a source, for the buffer `x` that has none. -/
theorem effect_new {p : ℕ} {m₁ m₂ : Memory} (h : Owned m ptr) (hx : ptr x = none)
    (hmalloc : m.mallocThrow length answer = .block p m₁) (hlength : bytes.length ≤ length)
    (hcopy : m₁.memcpy (some p) (some bytes) = some m₂) :
    Effect m ptr x { data := some p, length, maxLength := length } m₂ ∧
      (Cbuffer.contents m₂ { data := some p, length, maxLength := length }).take bytes.length =
        bytes := by
  obtain ⟨rfl, old, hold, rfl⟩ := mallocThrow_block hmalloc
  rw [memcpy_eq block_alloc_self (by omega), Option.some.injEq] at hcopy
  subst hcopy
  exact effect_write h hx hold hlength

/-- The two constructors that copy. -/
theorem construct_spec (h : Owned m ptr) (hx : ptr x = none)
    (hsource : 0 < length → ∀ m', Frame m none m' → source m' = some bytes)
    (hlength : bytes.length = length)
    (hop : Cbuffer.construct length source answer m = some (o, b, m')) :
    o = .badAlloc ∧ m' = m ∨ o = .done ∧ Effect m ptr x b m' ∧ b.contents m' = bytes := by
  unfold Cbuffer.construct at hop
  by_cases hzero : length = 0
  · rw [if_pos hzero, Option.some.injEq, Prod.mk.injEq, Prod.mk.injEq] at hop
    obtain ⟨rfl, rfl, rfl⟩ := hop
    have hbytes : bytes = [] := List.length_eq_zero_iff.mp (hlength.trans hzero)
    exact .inr ⟨rfl, .new h hx, hbytes.symm⟩
  · rw [if_neg hzero] at hop
    cases hmalloc : m.mallocThrow length answer with
    | terminate =>
      rw [hmalloc] at hop
      exact absurd hop (by simp)
    | badAlloc =>
      rw [hmalloc, Option.some.injEq, Prod.mk.injEq, Prod.mk.injEq] at hop
      exact .inl ⟨hop.1.symm, hop.2.2.symm⟩
    | block p m₁ =>
      have hsource₁ : source m₁ = some bytes := by
        obtain ⟨-, old, -, rfl⟩ := mallocThrow_block hmalloc
        exact hsource (Nat.pos_of_ne_zero hzero) _ (owned_alloc h hx old).2
      rw [hmalloc] at hop
      simp only [hsource₁] at hop
      obtain ⟨m₂, hcopy⟩ : ∃ m₂, m₁.memcpy (some p) (some bytes) = some m₂ := by
        obtain ⟨rfl, old, hold, rfl⟩ := mallocThrow_block hmalloc
        exact ⟨_, memcpy_eq block_alloc_self (by omega)⟩
      rw [hcopy] at hop
      simp only [Option.some.injEq, Prod.mk.injEq] at hop
      obtain ⟨rfl, rfl, rfl⟩ := hop
      obtain ⟨heffect, hcontents⟩ := effect_new h hx hmalloc hlength.le hcopy
      refine .inr ⟨rfl, heffect, ?_⟩
      have hall := length_contents heffect.sized
      rw [← hcontents, List.take_of_length_le]
      rw [hall]
      exact hlength.ge

theorem constructLength_spec (h : Owned m ptr) (hx : ptr x = none)
    (hop : Cbuffer.constructLength length answer m = some (o, b, m')) :
    o = .badAlloc ∧ m' = m ∨ o = .done ∧ Effect m ptr x b m' := by
  unfold Cbuffer.constructLength at hop
  by_cases hzero : length = 0
  · rw [if_pos hzero, Option.some.injEq, Prod.mk.injEq, Prod.mk.injEq] at hop
    obtain ⟨rfl, rfl, rfl⟩ := hop
    exact .inr ⟨rfl, .new h hx⟩
  · rw [if_neg hzero] at hop
    cases hmalloc : m.mallocThrow length answer with
    | terminate =>
      rw [hmalloc] at hop
      exact absurd hop (by simp)
    | badAlloc =>
      rw [hmalloc, Option.some.injEq, Prod.mk.injEq, Prod.mk.injEq] at hop
      exact .inl ⟨hop.1.symm, hop.2.2.symm⟩
    | block p m₁ =>
      rw [hmalloc, Option.some.injEq, Prod.mk.injEq, Prod.mk.injEq] at hop
      obtain ⟨rfl, rfl, rfl⟩ := hop
      exact .inr ⟨rfl, .alloc h hx hmalloc⟩

/-- A block that is allocated takes bytes. -/
theorem exists_memcpy {p : ℕ} {m₁ : Memory} (hmalloc : m.mallocThrow length answer = .block p m₁)
    (hlength : bytes.length ≤ length) : ∃ m₂, m₁.memcpy (some p) (some bytes) = some m₂ := by
  obtain ⟨rfl, old, hold, rfl⟩ := mallocThrow_block hmalloc
  exact ⟨_, memcpy_eq block_alloc_self (by omega)⟩

/-- `set` and `operator=(const Cbuffer&)` where the block is large enough. -/
theorem replace_fits (h : Owned m ptr) (hx : ptr x = self.data) (hself : Sized m self)
    (hfits : length ≤ self.maxLength) (hsource : 0 < length → source m = some bytes)
    (hlength : bytes.length = length)
    (hop : self.replace length source answer m = some (o, b, m')) :
    o = .done ∧ Effect m ptr x b m' ∧ b.contents m' = bytes := by
  unfold Cbuffer.replace at hop
  rw [if_pos hfits] at hop
  by_cases hpos : length > 0
  · rw [if_pos hpos, hsource hpos] at hop
    have hne : self.data ≠ none := by
      intro hnull
      have hzero := hself.null hnull
      omega
    obtain ⟨p, hp⟩ := Option.ne_none_iff_exists'.mp hne
    obtain ⟨old, hold, hroom⟩ := hself.live p hp
    have hcopy : m.memcpy self.data (some bytes) = some (m.write p (overwrite old 0 bytes)) := by
      rw [hp]
      exact memcpy_eq hold (by omega)
    rw [hcopy] at hop
    simp only [Option.some.injEq, Prod.mk.injEq] at hop
    obtain ⟨rfl, rfl, rfl⟩ := hop
    have hblock := block_write_self (v := overwrite old 0 bytes) hold
    refine ⟨rfl, .of_same h.write hx ⟨hfits, hself.null, fun q hq => ?_⟩ ?_, ?_⟩
    · obtain rfl := Option.some.inj (hp.symm.trans hq)
      refine ⟨_, hblock, ?_⟩
      rw [length_overwrite]
      exact hroom
    · intro q bytes' hq hbytes'
      rw [hx, hp] at hq
      rw [block_write (by simpa using Ne.symm hq)]
      exact hbytes'
    · unfold Cbuffer.contents
      simp only
      rw [hp, Option.bind_some, hblock, Option.elim_some, ← hlength]
      exact Cbuffer.overwrite_zero_take (by omega)
  · rw [if_neg hpos, Option.some.injEq, Prod.mk.injEq, Prod.mk.injEq] at hop
    obtain ⟨rfl, rfl, rfl⟩ := hop
    have hsized : Sized m { self with length } := ⟨hfits, hself.null, hself.live⟩
    refine ⟨rfl, .of_same h hx hsized (.refl m _), ?_⟩
    have hnone := length_contents hsized
    simp only at hnone
    have hempty : bytes.length = 0 := by omega
    rw [List.length_eq_zero_iff.mp hempty]
    exact List.length_eq_zero_iff.mp (hnone.trans (by omega))

/-- `set` and `operator=(const Cbuffer&)`. -/
theorem replace_spec (h : Owned m ptr) (hx : ptr x = self.data) (hself : Sized m self)
    (hsource : length ≤ self.maxLength → 0 < length → source m = some bytes)
    (hstable : self.maxLength < length → ∀ m', Frame m self.data m' → source m' = some bytes)
    (hlength : bytes.length = length)
    (hop : self.replace length source answer m = some (o, b, m')) :
    o = .done ∧ (answer = none → length ≤ self.maxLength) ∧ Effect m ptr x b m' ∧
        b.contents m' = bytes ∨
      o = .badAlloc ∧ answer = none ∧ self.maxLength < length ∧ Lost m ptr x self b m' := by
  by_cases hfits : length ≤ self.maxLength
  · obtain ⟨hdone, heffect, hcontents⟩ :=
      replace_fits h hx hself hfits (hsource hfits) hlength hop
    exact .inl ⟨hdone, fun _ => hfits, heffect, hcontents⟩
  · have hlong : self.maxLength < length := Nat.lt_of_not_le hfits
    obtain ⟨hfreed, hframe⟩ := owned_freeSetNullptr h hx
    unfold Cbuffer.replace at hop
    rw [if_neg hfits] at hop
    simp only at hop
    cases hmalloc : (m.freeSetNullptr self.data).mallocThrow length answer with
    | terminate =>
      rw [hmalloc] at hop
      exact absurd hop (by simp)
    | badAlloc =>
      rw [hmalloc, Option.some.injEq, Prod.mk.injEq, Prod.mk.injEq] at hop
      obtain ⟨rfl, rfl, rfl⟩ := hop
      exact .inr ⟨rfl, mallocThrow_badAlloc hmalloc, hlong, hfreed, rfl, hx ▸ hframe⟩
    | block p m₁ =>
      have hnone : Function.update ptr x none x = none := Function.update_self ..
      have halloc := Effect.alloc hfreed hnone hmalloc
      have hsource₁ : source m₁ = some bytes := by
        have hframe₁ := halloc.frame
        rw [hnone] at hframe₁
        exact hstable hlong m₁ (hframe.trans hframe₁)
      obtain ⟨m₂, hcopy⟩ := exists_memcpy hmalloc hlength.le
      rw [hmalloc] at hop
      simp only [hsource₁, hcopy, Option.some.injEq, Prod.mk.injEq] at hop
      obtain ⟨rfl, rfl, rfl⟩ := hop
      obtain ⟨heffect, hcontents⟩ := effect_new hfreed hnone hmalloc hlength.le hcopy
      refine .inl ⟨rfl, fun hnone => absurd hnone (answer_ne_of_block hmalloc),
        heffect.after_free hx hframe, ?_⟩
      have hall := length_contents heffect.sized
      rw [← hcontents, List.take_of_length_le]
      rw [hall]
      exact hlength.ge

theorem resize_spec {preferLength validLength : ℕ} (h : Owned m ptr) (hx : ptr x = self.data)
    (hself : Sized m self)
    (hop : self.resize preferLength validLength answer m = some (o, b, m')) :
    o = .done ∧ (answer = none → preferLength ≤ self.maxLength) ∧ Effect m ptr x b m' ∧
        b.length = preferLength ∧
        (self.maxLength < preferLength →
          (b.contents m').take (min validLength self.length) =
            (self.contents m).take (min validLength self.length)) ∨
      o = .badAlloc ∧ answer = none ∧ self.maxLength < preferLength ∧
        (b = self ∧ m' = m ∧ 0 < min validLength self.length ∨
          min validLength self.length = 0 ∧ Lost m ptr x self b m') := by
  unfold Cbuffer.resize at hop
  by_cases hfits : preferLength ≤ self.maxLength
  · rw [if_pos hfits, Option.some.injEq, Prod.mk.injEq, Prod.mk.injEq] at hop
    obtain ⟨rfl, rfl, rfl⟩ := hop
    have hsized : Sized m { self with length := preferLength } :=
      ⟨hfits, hself.null, hself.live⟩
    exact .inl ⟨rfl, fun _ => hfits, .of_same h hx hsized (.refl m _), rfl,
      fun hlong => absurd hfits (Nat.not_le_of_lt hlong)⟩
  · have hlong : self.maxLength < preferLength := Nat.lt_of_not_le hfits
    have hcopy : (if validLength > self.length then self.length else validLength) =
        min validLength self.length := by
      split_ifs
      · omega
      · omega
    have hlength := hself.length_le
    rw [if_neg hfits] at hop
    simp only [hcopy] at hop
    set copy := min validLength self.length with hcopyEq
    by_cases hpos : copy > 0
    · rw [if_pos hpos] at hop
      have hread := hself.read (n := copy) (by omega) hpos
      have hkept : ((self.contents m).take copy).length = copy := by
        rw [List.length_take, length_contents hself]
        omega
      cases hmalloc : m.mallocThrow preferLength answer with
      | terminate =>
        rw [hmalloc] at hop
        exact absurd hop (by simp)
      | badAlloc =>
        rw [hmalloc, Option.some.injEq, Prod.mk.injEq, Prod.mk.injEq] at hop
        obtain ⟨rfl, rfl, rfl⟩ := hop
        exact .inr ⟨rfl, mallocThrow_badAlloc hmalloc, hlong, .inl ⟨rfl, rfl, hpos⟩⟩
      | block p m₁ =>
        obtain ⟨hp, old, hold, hm₁⟩ := mallocThrow_block hmalloc
        -- the old block is not the new one
        have hne : self.data ≠ none := by
          intro hnull
          have hzero := hself.null hnull
          omega
        obtain ⟨q, hq⟩ := Option.ne_none_iff_exists'.mp hne
        obtain ⟨before, hbefore, -⟩ := hself.live q hq
        have hqp : q ≠ m.next := Nat.ne_of_lt (lt_next hbefore)
        have hread₁ : m₁.read self.data copy = some ((self.contents m).take copy) := by
          have hframe : Frame m none m₁ := by
            rw [hm₁]
            exact fun _ _ _ hblock => block_alloc hblock
          rw [(hself.frame hframe (by simp)).read (by omega) hpos,
            contents_frame hself hframe (by simp)]
        have hcopied : m₁.memcpy (some p) (some ((self.contents m).take copy)) =
            some (m₁.write p (overwrite old 0 ((self.contents m).take copy))) := by
          apply memcpy_eq
          · rw [hm₁, hp]
            exact block_alloc_self
          · omega
        rw [hmalloc] at hop
        simp only [hread₁, hcopied, Option.some.injEq, Prod.mk.injEq] at hop
        obtain ⟨rfl, rfl, rfl⟩ := hop
        obtain ⟨hfreed, hframe⟩ := owned_freeSetNullptr h hx
        obtain ⟨heffect, hcontents⟩ := effect_write hfreed (Function.update_self ..) hold
          (show ((self.contents m).take copy).length ≤ preferLength by omega)
        have hsame : Memory.freeSetNullptr
              (m₁.write p (overwrite old 0 ((self.contents m).take copy))) self.data =
            ((m.freeSetNullptr self.data).alloc old).write m.next
              (overwrite old 0 ((self.contents m).take copy)) := by
          rw [hm₁, hp, hq]
          exact alloc_write_free hqp
        have hnext : (m.freeSetNullptr self.data).next = m.next := by
          rw [hq]
          rfl
        rw [hnext, ← hsame, ← hp] at heffect hcontents
        refine .inl ⟨rfl, fun hnone => absurd hnone (answer_ne_of_block hmalloc),
          heffect.after_free hx hframe, rfl, fun _ => ?_⟩
        rw [hkept] at hcontents
        exact hcontents
    · have hzero : copy = 0 := Nat.eq_zero_of_not_pos hpos
      rw [if_neg hpos] at hop
      obtain ⟨hfreed, hframe⟩ := owned_freeSetNullptr h hx
      cases hmalloc : (m.freeSetNullptr self.data).mallocThrow preferLength answer with
      | terminate =>
        rw [hmalloc] at hop
        exact absurd hop (by simp)
      | badAlloc =>
        rw [hmalloc, Option.some.injEq, Prod.mk.injEq, Prod.mk.injEq] at hop
        obtain ⟨rfl, rfl, rfl⟩ := hop
        exact .inr ⟨rfl, mallocThrow_badAlloc hmalloc, hlong,
          .inr ⟨hzero, hfreed, rfl, hx ▸ hframe⟩⟩
      | block p m₁ =>
        rw [hmalloc, Option.some.injEq, Prod.mk.injEq, Prod.mk.injEq] at hop
        obtain ⟨rfl, rfl, rfl⟩ := hop
        have heffect := Effect.alloc hfreed (Function.update_self ..) hmalloc
        refine .inl ⟨rfl, fun hnone => absurd hnone (answer_ne_of_block hmalloc),
          heffect.after_free hx hframe, rfl, fun _ => ?_⟩
        rw [hzero, List.take_zero, List.take_zero]

end Operations

/-! ## Runs -/

namespace Buffers

/-- **The representation**: every buffer has a live block of at least `maxLength` bytes that is its
own, or none and no room. -/
structure Represented (s : Buffers) : Prop where
  sized : ∀ x b, s.buffer x = some b → Sized s.memory b
  alone : ∀ x y a b p, s.buffer x = some a → s.buffer y = some b → a.data = some p →
    b.data = some p → x = y
  outcome_ne : s.outcome ≠ .fault

/-- What the pointers are. -/
def pointer (s : Buffers) (x : ℕ) : Option ℕ :=
  (s.buffer x).bind Cbuffer.data

/-- The invariant: besides, no block is lost. -/
structure Sound (s : Buffers) : Prop where
  owned : Owned s.memory s.pointer
  sized : ∀ x b, s.buffer x = some b → Sized s.memory b
  outcome_ne : s.outcome ≠ .fault

section Sound

variable {s s' : Buffers} {x y : ℕ} {self b : Cbuffer} {m' : Memory} {o : Outcome}

theorem pointer_eq (h : s.buffer x = some b) : s.pointer x = b.data := by
  rw [pointer, h, Option.bind_some]

theorem pointer_none (h : s.buffer x = none) : s.pointer x = none := by
  rw [pointer, h, Option.bind_none]

theorem Sound.represented (hs : s.Sound) : s.Represented where
  sized := hs.sized
  alone x y _ _ p hx hy ha hb :=
    hs.owned.alone x y p ((pointer_eq hx).trans ha) ((pointer_eq hy).trans hb)
  outcome_ne := hs.outcome_ne

theorem pointer_update (f : ℕ → Option Cbuffer) (x : ℕ) (o : Option Cbuffer) :
    (fun y => (Function.update f x o y).bind Cbuffer.data) =
      Function.update (fun y => (f y).bind Cbuffer.data) x (o.bind Cbuffer.data) := by
  funext y
  by_cases hyx : y = x
  · rw [hyx, Function.update_self, Function.update_self]
  · rw [Function.update_of_ne hyx, Function.update_of_ne hyx]

theorem put_self (s : Buffers) (x : ℕ) (r : Outcome × Cbuffer × Memory) :
    (s.put x r).buffer x = some r.2.1 :=
  Function.update_self ..

theorem put_of_ne (hyx : y ≠ x) (r : Outcome × Cbuffer × Memory) :
    (s.put x r).buffer y = s.buffer y :=
  Function.update_of_ne hyx ..

/-- The other buffers do not notice. -/
theorem Sound.others (hs : s.Sound) (hframe : Frame s.memory (s.pointer x) m') (hyx : y ≠ x)
    (hy : s.buffer y = some b) : Sized m' b := by
  apply (hs.sized y b hy).frame hframe
  intro p hp hx
  exact hyx (hs.owned.alone y x p ((pointer_eq hy).trans hp) hx)

theorem Sound.put (hs : s.Sound) (h : Effect s.memory s.pointer x b m') (ho : o ≠ .fault) :
    (s.put x (o, b, m')).Sound where
  owned := by
    have hpointer : (s.put x (o, b, m')).pointer = Function.update s.pointer x b.data :=
      pointer_update s.buffer x (some b)
    rw [hpointer]
    exact h.owned
  sized y c hy := by
    by_cases hyx : y = x
    · subst hyx
      rw [put_self] at hy
      obtain rfl := Option.some.inj hy
      exact h.sized
    · rw [put_of_ne hyx] at hy
      exact hs.others h.frame hyx hy
  outcome_ne := ho

/-- A buffer whose block is lost is not represented, unless it had no room. -/
theorem put_lost (h : Lost s.memory s.pointer x self b m')
    (hrep : (s.put x (o, b, m')).Represented) : self.maxLength = 0 :=
  h.maxLength_eq (hrep.sized x b (put_self ..))

/-- A constructor that throws leaves all as it was. -/
theorem Sound.create (hs : s.Sound)
    (h : o = .badAlloc ∧ m' = s.memory ∨ o = .done ∧ Effect s.memory s.pointer x b m') :
    (s.create x (o, b, m')).Sound := by
  rcases h with ⟨rfl, rfl⟩ | ⟨rfl, h⟩
  · exact ⟨hs.owned, hs.sized, by simp [Buffers.create]⟩
  · exact hs.put h (by simp)

theorem Sound.destroy (hs : s.Sound) (hx : s.buffer x = some self) :
    Sound
      { memory := s.memory.freeSetNullptr self.data, buffer := Function.update s.buffer x none
        outcome := .done } := by
  obtain ⟨hfreed, hframe⟩ := owned_freeSetNullptr hs.owned (pointer_eq hx)
  refine ⟨?_, fun y b hy => ?_, by simp⟩
  · have hpointer := pointer_update s.buffer x none
    rw [Option.bind_none] at hpointer
    show Owned _ (fun y => (Function.update s.buffer x none y).bind Cbuffer.data)
    rw [hpointer]
    exact hfreed
  · simp only at hy
    by_cases hyx : y = x
    · rw [hyx, Function.update_self] at hy
      exact absurd hy (by simp)
    · rw [Function.update_of_ne hyx] at hy
      rw [← pointer_eq hx] at hframe ⊢
      exact hs.others hframe hyx hy

/-- `x`, which has no block, takes what `y` has. -/
theorem sound_take (howned : Owned s.memory s.pointer) (hx : s.pointer x = none)
    (hsized : ∀ y b, y ≠ x → s.buffer y = some b → Sized s.memory b)
    (htake : s.take x y = some s') :
    s'.Sound ∧ s'.memory = s.memory ∧
      ∃ another, s.buffer y = some another ∧
        s'.buffer x = some (if x = y then .new else another) := by
  obtain ⟨another, hy, rfl⟩ := Option.map_eq_some_iff.mp htake
  refine ⟨⟨?_, fun z b hz => ?_, by simp⟩, rfl, another, hy, ?_⟩
  · have hpointer : (fun z => (Function.update (Function.update s.buffer x (some another)) y
        (some Cbuffer.new) z).bind Cbuffer.data) =
          Function.update (Function.update s.pointer x (s.pointer y)) y none := by
      rw [pointer_update, pointer_update, pointer_eq hy]
      rfl
    show Owned s.memory (fun z => (Function.update (Function.update s.buffer x (some another)) y
        (some Cbuffer.new) z).bind Cbuffer.data)
    rw [hpointer]
    exact howned.move hx
  · simp only at hz ⊢
    by_cases hzy : z = y
    · rw [hzy, Function.update_self] at hz
      exact Option.some.inj hz ▸ .new s.memory
    · rw [Function.update_of_ne hzy] at hz
      by_cases hzx : z = x
      · rw [hzx, Function.update_self] at hz
        obtain rfl := Option.some.inj hz
        exact hsized y another (by rw [← hzx]; exact Ne.symm hzy) hy
      · rw [Function.update_of_ne hzx] at hz
        exact hsized z b hzx hz
  · simp only
    by_cases hxy : x = y
    · rw [if_pos hxy, hxy, Function.update_self]
    · rw [if_neg hxy, Function.update_of_ne hxy, Function.update_self]

end Sound

/-! ## The condition -/

/-- After a step that does not throw, `set` and the assignments have given the bytes of the source,
and `resize` has kept the valid ones if it has enlarged the buffer. -/
def Exact (s : Buffers) (op : BufferOp) (s' : Buffers) : Prop :=
  s'.outcome = .done →
    match op with
    | .set x bytes _ => ∀ b, s'.buffer x = some b → b.contents s'.memory = bytes
    | .copyAssign x y _ | .moveAssign x y => ∀ another b, s.buffer y = some another →
        s'.buffer x = some b → b.contents s'.memory = another.contents s.memory
    | .resize x preferLength validLength _ => ∀ self b, s.buffer x = some self →
        s'.buffer x = some b → self.maxLength < preferLength →
          (b.contents s'.memory).take (min validLength self.length) =
            (self.contents s.memory).take (min validLength self.length)
    | _ => True

/-- No allocation fails after a block was freed for it, and no buffer with bytes is moved to
itself. -/
def Spares (s : Buffers) : BufferOp → Prop
  | .copyAssign x y none => ∀ self another, s.buffer x = some self → s.buffer y = some another →
      self.maxLength < another.length → self.maxLength = 0
  | .set x bytes none => ∀ self, s.buffer x = some self → self.maxLength < bytes.length →
      self.maxLength = 0
  | .resize x preferLength validLength none => ∀ self, s.buffer x = some self →
      self.maxLength < preferLength → min validLength self.length = 0 → self.maxLength = 0
  | .moveAssign x y => x = y → ∀ self, s.buffer x = some self → self.length = 0
  | _ => True

/-! ## Steps -/

section Steps

variable {s s' : Buffers} {x y : ℕ} {self another b : Cbuffer} {m' : Memory} {o : Outcome}
  {answer : Option (ℕ → UInt8)} {length : ℕ} {source : Memory → Option (List UInt8)}
  {bytes : List UInt8}

/-- `set` and the copy assignment in a state. -/
theorem put_replace (hs : s.Sound) (hx : s.buffer x = some self)
    (hsource : length ≤ self.maxLength → 0 < length → source s.memory = some bytes)
    (hstable : self.maxLength < length → ∀ m', Frame s.memory self.data m' →
      source m' = some bytes)
    (hlength : bytes.length = length)
    (hop : self.replace length source answer s.memory = some (o, b, m')) :
    ((answer = none → self.maxLength < length → self.maxLength = 0) →
        (s.put x (o, b, m')).Sound ∧ (o = .done → b.contents m' = bytes)) ∧
      ((s.put x (o, b, m')).Represented → answer = none → self.maxLength < length →
        self.maxLength = 0) := by
  rcases replace_spec hs.owned (pointer_eq hx) (hs.sized x self hx) hsource hstable hlength hop with
    ⟨rfl, hfits, heffect, hcontents⟩ | ⟨rfl, hnone, hlong, hlost⟩
  · refine ⟨fun _ => ⟨hs.put heffect (by simp), fun _ => hcontents⟩, fun _ hnone hlong => ?_⟩
    exact absurd (hfits hnone) (Nat.not_le_of_lt hlong)
  · refine ⟨fun hspares => ⟨?_, fun h => absurd h (by simp)⟩, fun hrep _ _ => put_lost hlost hrep⟩
    exact hs.put (hlost.effect (hs.sized x self hx) (hspares hnone hlong)) (by simp)

/-- What is read from a buffer, before and after the block of another one is freed. -/
theorem source_read (hs : s.Sound) (hy : s.buffer y = some another) (hpos : 0 < another.length) :
    s.memory.read another.data another.length = some (another.contents s.memory) := by
  have hsized := hs.sized y another hy
  rw [hsized.read le_rfl hpos, List.take_of_length_le (length_contents hsized).le]

theorem stable_read (hs : s.Sound) (hx : s.buffer x = some self) (hy : s.buffer y = some another)
    (hlong : self.maxLength < another.length) (hframe : Frame s.memory self.data m') :
    m'.read another.data another.length = some (another.contents s.memory) := by
  have hsized := hs.sized y another hy
  have hne : y ≠ x := by
    rintro rfl
    obtain rfl := Option.some.inj (hx.symm.trans hy)
    have hle := hsized.length_le
    omega
  rw [← pointer_eq hx] at hframe
  have hother : ∀ p, another.data = some p → s.pointer x ≠ some p := by
    intro p hp hxp
    exact hne (hs.owned.alone y x p ((pointer_eq hy).trans hp) hxp)
  have hsized' := hsized.frame hframe hother
  rw [hsized'.read le_rfl (by omega), contents_frame hsized hframe hother,
    List.take_of_length_le (length_contents hsized).le]

theorem step_set (hs : s.Sound)
    (hstep : s.step (.set x bytes answer) = some s') :
    (Spares s (.set x bytes answer) → s'.Sound ∧ Exact s (.set x bytes answer) s') ∧
      (s'.Represented → Spares s (.set x bytes answer)) := by
  unfold step at hstep
  rw [if_neg hs.outcome_ne] at hstep
  simp only at hstep
  obtain ⟨self, hx, hmap⟩ := Option.bind_eq_some_iff.mp hstep
  obtain ⟨⟨o, b, m'⟩, hop, rfl⟩ := Option.map_eq_some_iff.mp hmap
  obtain ⟨hkeep, hback⟩ := put_replace hs hx (fun _ _ => rfl) (fun _ _ _ => rfl)
    (show bytes.length = bytes.length from rfl) hop
  constructor
  · intro hspares
    obtain ⟨hsound, hexact⟩ := hkeep (by
      rintro rfl hlong
      exact hspares self hx hlong)
    refine ⟨hsound, fun hdone c hc => ?_⟩
    rw [put_self] at hc
    obtain rfl := Option.some.inj hc
    exact hexact hdone
  · intro hrep
    cases answer with
    | some garbage => exact trivial
    | none =>
      intro self' hx' hlong
      obtain rfl := Option.some.inj (hx.symm.trans hx')
      exact hback hrep rfl hlong

theorem step_copyAssign (hs : s.Sound)
    (hstep : s.step (.copyAssign x y answer) = some s') :
    (Spares s (.copyAssign x y answer) → s'.Sound ∧ Exact s (.copyAssign x y answer) s') ∧
      (s'.Represented → Spares s (.copyAssign x y answer)) := by
  unfold step at hstep
  rw [if_neg hs.outcome_ne] at hstep
  simp only at hstep
  split at hstep
  · next self another hx hy =>
    obtain ⟨⟨o, b, m'⟩, hop, rfl⟩ := Option.map_eq_some_iff.mp hstep
    obtain ⟨hkeep, hback⟩ := put_replace hs hx (fun _ hpos => source_read hs hy hpos)
      (fun hlong _ hframe => stable_read hs hx hy hlong hframe)
      (length_contents (hs.sized y another hy)) hop
    constructor
    · intro hspares
      obtain ⟨hsound, hexact⟩ := hkeep (by
        rintro rfl hlong
        exact hspares self another hx hy hlong)
      refine ⟨hsound, fun hdone another' c hy' hc => ?_⟩
      obtain rfl := Option.some.inj (hy.symm.trans hy')
      rw [put_self] at hc
      obtain rfl := Option.some.inj hc
      exact hexact hdone
    · intro hrep
      cases answer with
      | some garbage => exact trivial
      | none =>
        intro self' another' hx' hy' hlong
        obtain rfl := Option.some.inj (hx.symm.trans hx')
        obtain rfl := Option.some.inj (hy.symm.trans hy')
        exact hback hrep rfl hlong
  · exact absurd hstep (by simp)

theorem step_resize {preferLength validLength : ℕ} (hs : s.Sound)
    (hstep : s.step (.resize x preferLength validLength answer) = some s') :
    (Spares s (.resize x preferLength validLength answer) →
        s'.Sound ∧ Exact s (.resize x preferLength validLength answer) s') ∧
      (s'.Represented → Spares s (.resize x preferLength validLength answer)) := by
  unfold step at hstep
  rw [if_neg hs.outcome_ne] at hstep
  simp only at hstep
  obtain ⟨self, hx, hmap⟩ := Option.bind_eq_some_iff.mp hstep
  obtain ⟨⟨o, b, m'⟩, hop, rfl⟩ := Option.map_eq_some_iff.mp hmap
  have hself := hs.sized x self hx
  have hexact : ∀ garbage, (o = .done → self.maxLength < preferLength →
      (b.contents m').take (min validLength self.length) =
        (self.contents s.memory).take (min validLength self.length)) →
      Exact s (.resize x preferLength validLength garbage) (s.put x (o, b, m')) := by
    intro garbage h hdone self' c hx' hc hlong
    obtain rfl := Option.some.inj (hx.symm.trans hx')
    rw [put_self] at hc
    obtain rfl := Option.some.inj hc
    exact h hdone hlong
  rcases resize_spec hs.owned (pointer_eq hx) hself hop with
    ⟨rfl, hfits, heffect, -, hcontents⟩ | ⟨rfl, rfl, hlong, ⟨rfl, rfl, hpos⟩ | ⟨hzero, hlost⟩⟩
  · refine ⟨fun _ => ⟨hs.put heffect (by simp), hexact answer fun _ => hcontents⟩, fun _ => ?_⟩
    cases answer with
    | some garbage => exact trivial
    | none =>
      intro self' hx' hlong
      obtain rfl := Option.some.inj (hx.symm.trans hx')
      exact absurd (hfits rfl) (Nat.not_le_of_lt hlong)
  · -- the old block is still there
    have heffect : Effect s.memory s.pointer x b s.memory :=
      .of_same hs.owned (pointer_eq hx) hself (.refl _ _)
    refine ⟨fun _ => ⟨hs.put heffect (by simp), hexact none fun h => absurd h (by simp)⟩,
      fun _ self' hx' _ hzero => ?_⟩
    obtain rfl := Option.some.inj (hx.symm.trans hx')
    omega
  · refine ⟨fun hspares => ⟨?_, hexact none fun h => absurd h (by simp)⟩,
      fun hrep self' hx' _ _ => ?_⟩
    · exact hs.put (hlost.effect hself (hspares self hx hlong hzero)) (by simp)
    · obtain rfl := Option.some.inj (hx.symm.trans hx')
      exact put_lost hlost hrep

theorem contents_new (m : Memory) : Cbuffer.new.contents m = [] := rfl

/-- The buffer `y` is not the one that gives up its block. -/
theorem step_moveAssign (hs : s.Sound) (hstep : s.step (.moveAssign x y) = some s') :
    s'.Sound ∧ (Exact s (.moveAssign x y) s' ↔ Spares s (.moveAssign x y)) := by
  unfold step at hstep
  rw [if_neg hs.outcome_ne] at hstep
  simp only at hstep
  split at hstep
  · exact absurd hstep (by simp)
  · next self hx =>
    obtain ⟨hfreed, hframe⟩ := owned_freeSetNullptr hs.owned (pointer_eq hx)
    have hpointer : pointer
        { s with
          memory := s.memory.freeSetNullptr self.data
          buffer := Function.update s.buffer x (some { self with data := none }) } =
        Function.update s.pointer x none :=
      pointer_update s.buffer x (some { self with data := none })
    have hothers : ∀ z c, z ≠ x → s.buffer z = some c →
        Sized (s.memory.freeSetNullptr self.data) c := by
      intro z c hz hc
      rw [← pointer_eq hx] at hframe ⊢
      exact hs.others hframe hz hc
    obtain ⟨hsound, hmemory, another, hy, hx'⟩ := sound_take (by rw [hpointer]; exact hfreed)
      (by rw [hpointer, Function.update_self])
      (fun z c hz hc => hothers z c hz (by
        simp only at hc
        rwa [Function.update_of_ne hz] at hc)) hstep
    simp only at hmemory hy
    refine ⟨hsound, ?_⟩
    have hdone : s'.outcome = .done := by
      obtain ⟨_, -, rfl⟩ := Option.map_eq_some_iff.mp hstep
      rfl
    by_cases hxy : x = y
    · subst hxy
      rw [if_pos rfl] at hx'
      constructor
      · intro hexact _ self' hself'
        obtain rfl := Option.some.inj (hx.symm.trans hself')
        have hempty := hexact hdone self .new hx hx'
        have hlength := length_contents (hs.sized x self hx)
        rw [← hempty] at hlength
        exact hlength.symm
      · intro hspares _ self' c hself' hc
        obtain rfl := Option.some.inj (hx.symm.trans hself')
        obtain rfl := Option.some.inj (hx'.symm.trans hc)
        have hlength := length_contents (hs.sized x self hx)
        rw [hspares rfl self hx] at hlength
        rw [contents_new, List.length_eq_zero_iff.mp hlength]
    · rw [Function.update_of_ne (Ne.symm hxy)] at hy
      rw [if_neg hxy] at hx'
      refine ⟨fun _ heq => absurd heq hxy, fun _ _ another' c hy' hc => ?_⟩
      obtain rfl := Option.some.inj (hy.symm.trans hy')
      obtain rfl := Option.some.inj (hx'.symm.trans hc)
      rw [hmemory]
      apply contents_frame (hs.sized y another hy) hframe
      intro p hp hself
      have hsame := hs.owned.alone x y p ((pointer_eq hx).trans hself) ((pointer_eq hy).trans hp)
      exact hxy hsame

/-- The constructors and the destructor. -/
theorem step_sound {op : BufferOp} (hs : s.Sound) (hstep : s.step op = some s')
    (hother : ∀ x y bytes n k answer, op ≠ .copyAssign x y answer ∧ op ≠ .moveAssign x y ∧
      op ≠ .set x bytes answer ∧ op ≠ .resize x n k answer) : s'.Sound := by
  unfold step at hstep
  rw [if_neg hs.outcome_ne] at hstep
  cases op with
  | construct x =>
    simp only at hstep
    split at hstep
    · next hx =>
      rw [← Option.some.inj hstep]
      exact hs.put (.new hs.owned (pointer_none hx)) (by simp)
    · exact absurd hstep (by simp)
  | constructLength x length answer =>
    simp only at hstep
    split at hstep
    · next hx =>
      obtain ⟨⟨o, b, m'⟩, hop, rfl⟩ := Option.map_eq_some_iff.mp hstep
      exact hs.create (constructLength_spec hs.owned (pointer_none hx) hop)
    · exact absurd hstep (by simp)
  | constructData x bytes answer =>
    simp only at hstep
    split at hstep
    · next hx =>
      obtain ⟨⟨o, b, m'⟩, hop, rfl⟩ := Option.map_eq_some_iff.mp hstep
      have hspec := construct_spec hs.owned (pointer_none hx) (fun _ _ _ => rfl) rfl hop
      exact hs.create (hspec.imp_right fun h => ⟨h.1, h.2.1⟩)
    · exact absurd hstep (by simp)
  | copyConstruct x y answer =>
    simp only at hstep
    split at hstep
    · next another hx hy =>
      obtain ⟨⟨o, b, m'⟩, hop, rfl⟩ := Option.map_eq_some_iff.mp hstep
      have hsized := hs.sized y another hy
      have hspec := construct_spec hs.owned (pointer_none hx) (fun hpos m' hframe => ?_)
        (length_contents hsized) hop
      · exact hs.create (hspec.imp_right fun h => ⟨h.1, h.2.1⟩)
      · rw [(hsized.frame hframe (by simp)).read le_rfl hpos,
          contents_frame hsized hframe (by simp), List.take_of_length_le (length_contents hsized).le]
    · exact absurd hstep (by simp)
  | moveConstruct x y =>
    simp only at hstep
    split at hstep
    · next hx =>
      exact (sound_take hs.owned (pointer_none hx) (fun z b _ hz => hs.sized z b hz) hstep).1
    · exact absurd hstep (by simp)
  | destroy x =>
    obtain ⟨self, hx, rfl⟩ := Option.map_eq_some_iff.mp hstep
    exact hs.destroy hx
  | copyAssign x y answer => exact absurd rfl (hother x y [] 0 0 answer).1
  | moveAssign x y => exact absurd rfl (hother x y [] 0 0 none).2.1
  | set x bytes answer => exact absurd rfl (hother x 0 bytes 0 0 answer).2.2.1
  | resize x n k answer => exact absurd rfl (hother x 0 [] n k answer).2.2.2

/-- **A step keeps the representation and the bytes exactly when it spares the old block.** -/
theorem step_iff {op : BufferOp} (hs : s.Sound) (hstep : s.step op = some s') :
    (Spares s op → s'.Sound ∧ Exact s op s') ∧
      (s'.Represented ∧ Exact s op s' → Spares s op) := by
  cases op with
  | copyAssign x y answer =>
    obtain ⟨hkeep, hback⟩ := step_copyAssign hs hstep
    exact ⟨hkeep, fun h => hback h.1⟩
  | moveAssign x y =>
    obtain ⟨hsound, hexact⟩ := step_moveAssign hs hstep
    exact ⟨fun h => ⟨hsound, hexact.mpr h⟩, fun h => hexact.mp h.2⟩
  | set x bytes answer =>
    obtain ⟨hkeep, hback⟩ := step_set hs hstep
    exact ⟨hkeep, fun h => hback h.1⟩
  | resize x preferLength validLength answer =>
    obtain ⟨hkeep, hback⟩ := step_resize hs hstep
    exact ⟨hkeep, fun h => hback h.1⟩
  | _ => exact ⟨fun _ => ⟨step_sound hs hstep (by simp), fun _ => trivial⟩, fun _ => trivial⟩

end Steps

theorem Sound.init : system.init.Sound where
  owned := ⟨fun _ _ h => absurd h (by simp [system, pointer]),
    fun _ _ _ h => absurd h (by simp [system, pointer]),
    fun _ _ h => absurd h (by simp [system, Lib.Blocks.empty])⟩
  sized _ _ h := absurd h (by simp [system])
  outcome_ne := by simp [system]

/-- **The representation is kept, and so are the bytes**, in exactly the runs in which no allocation
fails after a block was freed for it and no buffer with bytes is moved to itself. -/
theorem represented_iff (ops : List BufferOp) :
    system.EachState Represented ops ∧ system.EachStep Exact ops ↔
      system.EachStep (fun s op _ => Spares s op) ops :=
  Lts.eachState_and_eachStep_iff Sound.init (fun _ hs => hs.represented)
    (fun _ _ _ hs hstep hspares => (step_iff hs hstep).1 hspares)
    (fun _ _ _ hs hstep hrep hexact => (step_iff hs hstep).2 ⟨hrep, hexact⟩) ops

/-- `set` frees the block of one byte, cannot allocate one of two, and leaves the sizes: the next
`set` that fits copies to a null pointer. A buffer that is moved to itself is empty. -/
theorem set_loses_block :
    (∃ s b s', system.run [.constructData 0 [7] (some fun _ => 0), .set 0 [8, 9] none] = some s ∧
      s.buffer 0 = some b ∧ b.data = none ∧ b.length = 1 ∧ b.maxLength = 1 ∧ ¬s.Represented ∧
      s.step (.set 0 [7] none) = some s' ∧ s'.outcome = .fault) ∧
    ∃ s b s' b', system.run [.constructData 0 [7] (some fun _ => 0)] = some s ∧
      s.buffer 0 = some b ∧ b.contents s.memory = [7] ∧
      s.step (.moveAssign 0 0) = some s' ∧ s'.outcome = .done ∧ s'.buffer 0 = some b' ∧
      b'.contents s'.memory = [] := by
  constructor
  · refine ⟨_, _, _, rfl, rfl, rfl, rfl, rfl, fun hrep => ?_, rfl, rfl⟩
    exact absurd ((hrep.sized 0 _ rfl).null rfl) (by decide)
  · exact ⟨_, _, _, _, rfl, rfl, rfl, rfl, rfl, rfl, rfl⟩

end Buffers

end Stored

end NetworkPool
