import NetworkPool.Lib.Codec
import NetworkPool.Peer.Context

/-!
# Packs

The packs of a peer are a codec. Both `getContent` are its reader: packs come out as they were
written, however they were cut into pushes, and the two agree on all bytes.
-/

namespace NetworkPool

open Lib (Codec)

/-! ## The codec -/

/-- The pack at the front of the bytes, if it is complete, and the bytes behind it. -/
def nextPack (order : ByteOrder) (l : List UInt8) : Option (List UInt8 × List UInt8) :=
  if l.length < 4 then none
  else
    let packLength := order.value (l.take 4)
    if l.length < 4 + packLength then none
    else some ((l.drop 4).take packLength, l.drop (4 + packLength))

/-- `[length: 4 bytes][data: length]`. -/
def pack (order : ByteOrder) (data : List UInt8) : List UInt8 :=
  order.bytes data.length ++ data

/-- Packs, of which the length is a `uint32_t`. -/
def packs (order : ByteOrder) : Codec UInt8 (List UInt8) where
  next := nextPack order
  next_append := by
    intro l r a m h
    unfold nextPack at h ⊢
    split at h
    · exact absurd h (by simp)
    · next hfour =>
      simp only at h
      split at h
      · exact absurd h (by simp)
      · next hall =>
        rw [Option.some.injEq, Prod.mk.injEq] at h
        have hlength : (l ++ m).length = l.length + m.length := List.length_append
        rw [if_neg (by omega), List.take_append_of_le_length (by omega)]
        simp only
        rw [if_neg (by omega), List.drop_append_of_le_length (by omega),
          List.drop_append_of_le_length (by omega),
          List.take_append_of_le_length (by rw [List.length_drop]; omega), h.1, h.2]
  Valid data := data.length < 2 ^ 32
  encode := pack order
  next_encode := by
    intro a ha m
    have hbytes := order.length_bytes a.length
    have hlength : (pack order a ++ m).length = 4 + a.length + m.length := by
      rw [pack, List.length_append, List.length_append, hbytes]
    have hassoc : pack order a ++ m = order.bytes a.length ++ (a ++ m) := by
      rw [pack, List.append_assoc]
    have hvalue : order.value ((pack order a ++ m).take 4) = a.length := by
      rw [hassoc, List.take_left' hbytes, order.value_bytes ha]
    have hdrop : (pack order a ++ m).drop 4 = a ++ m := by
      rw [hassoc, List.drop_left' hbytes]
    unfold nextPack
    simp only [hvalue]
    rw [if_neg (by omega), if_neg (by omega), ← List.drop_drop, hdrop, List.take_left,
      List.drop_left]

variable (order : ByteOrder)

/-! ## The loop -/

section Decode

variable {data : List UInt8} {length : ℕ}

/-- The pack at an offset of the bytes that are given. -/
theorem nextPack_drop (hle : length ≤ data.length) {nowCheck : ℕ} (hnow : nowCheck ≤ length) :
    nextPack order ((data.take length).drop nowCheck) =
      if length < nowCheck + 4 then none
      else
        let packLength := order.value ((data.drop nowCheck).take 4)
        if length < nowCheck + 4 + packLength then none
        else some ((data.drop (nowCheck + 4)).take packLength,
          (data.take length).drop (nowCheck + 4 + packLength)) := by
  have hlength : ((data.take length).drop nowCheck).length = length - nowCheck := by
    rw [List.length_drop, List.length_take, min_eq_left hle]
  by_cases hfour : length < nowCheck + 4
  · rw [if_pos hfour, nextPack, if_pos (by omega)]
  · have hhead : ((data.take length).drop nowCheck).take 4 = (data.drop nowCheck).take 4 := by
      rw [List.drop_take, List.take_take, min_eq_left (by omega)]
    rw [if_neg hfour, nextPack, if_neg (by omega), hhead]
    simp only
    generalize order.value ((data.drop nowCheck).take 4) = n
    by_cases hall : length < nowCheck + 4 + n
    · rw [if_pos hall, if_pos (by omega)]
    · rw [if_neg hall, if_neg (by omega), List.drop_drop, List.drop_drop, ← Nat.add_assoc,
        List.drop_take, List.take_take, min_eq_left (by omega)]

/-- The loop runs the reader of packs to its end. -/
theorem decode_halts (hle : length ≤ data.length) (hlt : length < 2 ^ 63) {fuel nowCheck : ℕ}
    (hnow : nowCheck ≤ length) (hfuel : length - nowCheck < fuel) :
    (packs order).reader.Halts ((data.take length).drop nowCheck)
        (decode order data length fuel nowCheck).1
        ((data.take length).drop (decode order data length fuel nowCheck).2) ∧
      nowCheck ≤ (decode order data length fuel nowCheck).2 ∧
      (decode order data length fuel nowCheck).2 ≤ length := by
  induction fuel generalizing nowCheck with
  | zero => exact absurd hfuel (Nat.not_lt_zero _)
  | succ fuel ih =>
    have hnext := nextPack_drop order hle hnow
    -- the loop stops where the reader does
    have hstop : nextPack order ((data.take length).drop nowCheck) = none →
        (packs order).reader.Halts ((data.take length).drop nowCheck) []
          ((data.take length).drop nowCheck) := fun hnone =>
      ⟨.refl _, Codec.reader_step_eq_none.mpr hnone⟩
    have hpack := order.value_lt ((data.drop nowCheck).take 4) (List.length_take_le ..)
    rw [decode, Nat.mod_eq_of_lt (show nowCheck + 4 < 2 ^ 64 by omega)]
    by_cases hfour : length < nowCheck + 4
    · rw [if_pos hfour] at hnext ⊢
      exact ⟨hstop hnext, le_rfl, hnow⟩
    · rw [if_neg hfour] at hnext ⊢
      simp only at hnext ⊢
      generalize order.value ((data.drop nowCheck).take 4) = n at hpack hnext ⊢
      rw [Nat.mod_eq_of_lt (show nowCheck + 4 + n < 2 ^ 64 by omega)]
      by_cases hall : length < nowCheck + 4 + n
      · rw [if_pos hall] at hnext ⊢
        exact ⟨hstop hnext, le_rfl, hnow⟩
      · rw [if_neg hall] at hnext ⊢
        obtain ⟨hrest, hge, hend⟩ := @ih (nowCheck + 4 + n) (by omega) (by omega)
        refine ⟨⟨?_, hrest.2⟩, by omega, hend⟩
        exact .head (Codec.reader_step hnext) hrest.1

/-- The static `getContent` runs the reader on the datagram. -/
theorem datagramContent_halts (hlt : data.length < 2 ^ 63) :
    ∃ rest, (packs order).reader.Halts data (datagramContent order data data.length) rest := by
  have hhalts := (decode_halts order le_rfl hlt (Nat.zero_le _) (Nat.lt_succ_self _)).1
  rw [List.take_length, List.drop_zero] at hhalts
  exact ⟨_, hhalts⟩

end Decode

/-! ## The context -/

namespace CpeerContext

variable {ctx ctx' : CpeerContext}

/-- The bytes that have been received and not been taken. -/
def received (ctx : CpeerContext) : List UInt8 :=
  ctx.buffer.data.take ctx.nowIndex

theorem length_received (ctx : CpeerContext) : ctx.received.length = ctx.nowIndex := by
  rw [received, List.length_take, min_eq_left ctx.now_le]

/-- What the member `getContent` does: it drops the packs it has copied. -/
theorem getContent_spec (ctx : CpeerContext) :
    let r := decode order ctx.buffer.data ctx.nowIndex (ctx.nowIndex + 1) 0
    (ctx.getContent order).1 = r.1 ∧ (ctx.getContent order).2.received = ctx.received.drop r.2 ∧
      (ctx.getContent order).2.buffer.length = ctx.buffer.length := by
  intro r
  have hr : decode order ctx.buffer.getData ctx.nowIndex (ctx.nowIndex + 1) 0 = r := rfl
  have hle := ctx.now_le
  unfold getContent
  simp only [hr]
  by_cases hpos : r.2 > 0
  · rw [if_pos hpos]
    refine ⟨rfl, ?_, rfl⟩
    have hextra : ((ctx.buffer.data.drop r.2).take (ctx.nowIndex - r.2)).length =
        ctx.nowIndex - r.2 := by
      rw [List.length_take, List.length_drop]
      omega
    have hfits : ((ctx.buffer.data.drop r.2).take (ctx.nowIndex - r.2)).length ≤
        ctx.buffer.data.length := by omega
    have hmoved := Cbuffer.overwrite_zero_take hfits
    rw [hextra] at hmoved
    show (overwrite ctx.buffer.data 0 ((ctx.buffer.data.drop r.2).take
      (ctx.nowIndex - r.2))).take (ctx.nowIndex - r.2) = ctx.received.drop r.2
    rw [hmoved, received, List.drop_take]
  · rw [if_neg hpos, Nat.eq_zero_of_not_pos hpos, List.drop_zero]
    exact ⟨rfl, rfl, rfl⟩

/-- The member `getContent` runs the reader on the received bytes. -/
theorem getContent_halts (ctx : CpeerContext) :
    (packs order).reader.Halts ctx.received (ctx.getContent order).1
      (ctx.getContent order).2.received := by
  have hle := ctx.now_le
  have hlt := ctx.buffer.data_lt
  have hhalts := (decode_halts order hle (by omega) (Nat.zero_le _)
    (Nat.lt_succ_self ctx.nowIndex)).1
  obtain ⟨hcontent, hreceived, -⟩ := getContent_spec order ctx
  rw [hcontent, hreceived]
  exact hhalts

/-- A block that is replaced keeps the received bytes. -/
theorem resize_received {size : ℕ} {garbage : ℕ → UInt8}
    (h : ctx.resize size ctx.nowIndex garbage = some ctx') (hnow : ctx.nowIndex ≤ ctx.buffer.length) :
    ctx'.received = ctx.received := by
  unfold resize at h
  split at h
  · next buffer hresize =>
    rw [← Option.some.inj h]
    show buffer.data.take ctx.nowIndex = _
    rw [Cbuffer.resize_take hresize hnow, received]
  · exact absurd h (by simp)

/-- `prepareBuffer` keeps the received bytes. -/
theorem prepareBuffer_received {garbage : ℕ → UInt8} {length : ℕ}
    (h : ctx.prepareBuffer garbage = some (ctx', length)) : ctx'.received = ctx.received := by
  obtain ⟨ctx₁, hinit, h⟩ := Option.bind_eq_some_iff.mp h
  obtain ⟨ctx₂, hresize, heq⟩ := Option.map_eq_some_iff.mp h
  rw [Prod.mk.injEq] at heq
  rw [← heq.1]
  have hnow := ctx.now_le
  have hreceived₁ : ctx₁.received = ctx.received := by
    unfold init at hinit
    split at hinit
    · next hempty =>
      have hzero : ctx.nowIndex = 0 := by
        rw [Cbuffer.getMaxLength] at hempty
        omega
      rw [← hzero] at hinit
      exact resize_received hinit (by rw [hzero]; exact Nat.zero_le _)
    · rw [Option.some.inj hinit]
  rw [← hreceived₁]
  split at hresize
  · next hsmall =>
    -- a window that wraps is not small
    have hfits : ctx₁.nowIndex ≤ ctx₁.buffer.length := by
      have hlt := ctx₁.buffer.data_lt
      have hnow₁ := ctx₁.now_le
      have hlength := ctx₁.buffer.length_le
      unfold window Cbuffer.getLength at hsmall
      omega
    split at hresize
    · exact resize_received hresize hfits
    · exact resize_received hresize hfits
  · rw [Option.some.inj hresize]

/-- Bytes that fit into the buffer follow the received ones. -/
theorem pushBuffer_received {bytes : List UInt8}
    (hfits : ctx.nowIndex + bytes.length ≤ ctx.buffer.getLength) :
    ((ctx.fill bytes).pushBuffer bytes.length).received = ctx.received ++ bytes := by
  have hroom : (ctx.fill bytes).nowIndex + bytes.length ≤ (ctx.fill bytes).buffer.getLength := hfits
  have hlength := ctx.buffer.length_le
  have hnow := ctx.now_le
  have hold : ((ctx.buffer.data.drop ctx.nowIndex).take bytes.length).length = bytes.length := by
    rw [Cbuffer.getLength] at hfits
    rw [List.length_take, List.length_drop]
    omega
  have hblock : ctx.received ++ (ctx.buffer.data.drop ctx.nowIndex).take bytes.length ++
      ctx.buffer.data.drop (ctx.nowIndex + bytes.length) = ctx.buffer.data := by
    rw [List.append_assoc, ← List.drop_drop, List.take_append_drop, received,
      List.take_append_drop]
  have hover := overwrite_append (p := ctx.received) hold
    (ctx.buffer.data.drop (ctx.nowIndex + bytes.length))
  rw [hblock, length_received] at hover
  rw [pushBuffer, dif_pos hroom]
  show (overwrite ctx.buffer.data ctx.nowIndex bytes).take (ctx.nowIndex + bytes.length) = _
  rw [hover]
  apply List.take_left'
  rw [List.length_append, length_received]

/-- A push feeds the reader, which then runs to its end. -/
theorem push_halts {r : Push} {content : List (List UInt8)}
    (h : ctx.push order r = some (content, ctx')) :
    (packs order).reader.Halts ((packs order).reader.feed ctx.received r.bytes) content
      ctx'.received := by
  obtain ⟨ctx₁, hprepared, h⟩ := Option.bind_eq_some_iff.mp h
  obtain ⟨hfits, h⟩ := Option.ite_none_right_eq_some.mp h
  have hreceived₁ : ctx₁.received = ctx.received := by
    unfold Push.prepared at hprepared
    split at hprepared
    · rw [Option.some.inj hprepared]
    · obtain ⟨⟨ctx₂, length⟩, hprepare, rfl⟩ := Option.map_eq_some_iff.mp hprepared
      exact prepareBuffer_received hprepare
  have hpushed := pushBuffer_received hfits
  have hhalts := getContent_halts order ((ctx₁.fill r.bytes).pushBuffer r.bytes.length)
  rw [Option.some.inj h, hpushed, hreceived₁] at hhalts
  exact hhalts

/-- Pushes are reads of the reader. -/
theorem pushes_reads {rs : List Push} {content : List (List UInt8)}
    (h : ctx.pushes order rs = some (content, ctx')) :
    (packs order).reader.Reads ctx.received (rs.map Push.bytes) content ctx'.received := by
  induction rs generalizing ctx content with
  | nil =>
    rw [pushes, Option.some.injEq, Prod.mk.injEq] at h
    rw [← h.1, ← h.2]
    exact .nil _
  | cons r rs ih =>
    obtain ⟨⟨content₁, ctx₁⟩, hpush, h⟩ := Option.bind_eq_some_iff.mp h
    obtain ⟨⟨content₂, ctx₂⟩, hrest, heq⟩ := Option.map_eq_some_iff.mp h
    rw [Prod.mk.injEq] at heq
    rw [heq.2] at hrest
    rw [← heq.1]
    exact .cons (push_halts order hpush) (ih hrest)

end CpeerContext

open CpeerContext

/-- **Packs survive any segmentation.** Pushes that fit, into a context without received bytes,
of packs and a part of one more yield the packs and leave the part; and of any bytes they yield
what the static function does. Bytes in memory, as the static function reads them, are less than
`2 ^ 63`. -/
theorem packs_round_trip {ctx ctx' : CpeerContext} {rs : List Push}
    {content : List (List UInt8)} (hempty : ctx.nowIndex = 0)
    (hpushes : ctx.pushes order rs = some (content, ctx')) :
    (∀ (payloads : List (List UInt8)) (part last : List UInt8),
      (∀ payload ∈ payloads, payload.length < 2 ^ 32) → last.length < 2 ^ 32 →
      part <+: pack order last → part ≠ pack order last →
      rs.flatMap Push.bytes = payloads.flatMap (pack order) ++ part →
      content = payloads ∧ ctx'.buffer.data.take ctx'.nowIndex = part ∧
        ctx'.nowIndex = part.length) ∧
    ((rs.flatMap Push.bytes).length < 2 ^ 63 →
      content = datagramContent order (rs.flatMap Push.bytes) (rs.flatMap Push.bytes).length) := by
  have hnil : ctx.received = [] := by
    rw [received, hempty, List.take_zero]
  have hreads := pushes_reads order hpushes
  rw [hnil] at hreads
  have hstuck : (packs order).reader.step [] = none := rfl
  have hhalts := hreads.halts trivial hstuck
  rw [← List.flatMap_def] at hhalts
  constructor
  · intro payloads part last hpayloads hlast hpre hne hbytes
    have hpart := Codec.next_partial (C := packs order) hlast hpre hne
    have hencoded := Codec.halts_encode (C := packs order) hpayloads hpart
    rw [hbytes] at hhalts
    obtain ⟨hcontent, hrest⟩ := hhalts.unique hencoded
    refine ⟨hcontent, hrest, ?_⟩
    rw [← length_received ctx', hrest]
  · intro hlt
    obtain ⟨rest, hdatagram⟩ := datagramContent_halts order hlt
    exact (hhalts.unique hdatagram).1

/-- A context with a block of 16 bytes. -/
def CpeerContext.ofSixteen : CpeerContext where
  maxBufferSize := 16
  buffer := ⟨List.replicate 16 0, 16, by decide, by decide⟩
  nowIndex := 0
  now_le := by decide

/-- Two packs, of which one is empty, and a part of a third, in three pushes. -/
theorem packs_round_trip_three :
    ∃ rs ctx content, rs.map Push.bytes = [[1, 0], [0, 0, 104, 0, 0], [0, 0, 2, 0, 0, 0, 105]] ∧
      CpeerContext.ofSixteen.pushes .little rs = some (content, ctx) ∧
      (content = [[104], []] ∧ ctx.buffer.data.take ctx.nowIndex = [2, 0, 0, 0, 105] ∧
        ctx.nowIndex = 5) ∧
      content = datagramContent .little (rs.flatMap Push.bytes)
        (rs.flatMap Push.bytes).length := by
  let rs : List Push := [⟨none, [1, 0]⟩, ⟨none, [0, 0, 104, 0, 0]⟩,
    ⟨none, [0, 0, 2, 0, 0, 0, 105]⟩]
  obtain ⟨⟨content, ctx⟩, hpushes⟩ :=
    Option.isSome_iff_exists.mp (show (ofSixteen.pushes .little rs).isSome = true by decide)
  obtain ⟨hround, hsame⟩ := packs_round_trip .little rfl hpushes
  exact ⟨rs, ctx, content, rfl, hpushes,
    hround [[104], []] [2, 0, 0, 0, 105] [105, 106] (by decide) (by decide) (by decide)
      (by decide) (by decide), hsame (by decide)⟩

end NetworkPool
