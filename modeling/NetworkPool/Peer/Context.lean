import NetworkPool.Buffer

/-!
# The peer context

`CpeerContext` collects the bytes of a TCP connection and takes from them the packs that are
complete, `[length: 4 bytes][data: length]` one after the other; its static `getContent` does the
same to a datagram.
-/

namespace NetworkPool

/-- The order of the bytes of a `uint32_t`. -/
inductive ByteOrder where
  | little
  | big
  deriving DecidableEq, Repr

namespace ByteOrder

/-- Digits to base 256, the least first. -/
def littleValue : List UInt8 → ℕ
  | [] => 0
  | b :: bytes => b.toNat + 256 * littleValue bytes

/-- The value of the bytes of an integer. -/
def value : ByteOrder → List UInt8 → ℕ
  | little, bytes => littleValue bytes
  | big, bytes => littleValue bytes.reverse

/-- The last digits of a number to base 256, the least first. -/
def littleBytes : ℕ → ℕ → List UInt8
  | 0, _ => []
  | width + 1, n => UInt8.ofNat n :: littleBytes width (n / 256)

/-- The bytes of a `uint32_t`. -/
def bytes : ByteOrder → ℕ → List UInt8
  | little, n => littleBytes 4 n
  | big, n => (littleBytes 4 n).reverse

theorem length_littleBytes (width n : ℕ) : (littleBytes width n).length = width := by
  induction width generalizing n with
  | zero => rfl
  | succ width ih => rw [littleBytes, List.length_cons, ih]

theorem littleValue_littleBytes {width n : ℕ} (h : n < 256 ^ width) :
    littleValue (littleBytes width n) = n := by
  induction width generalizing n with
  | zero =>
    rw [Nat.pow_zero] at h
    rw [littleBytes, littleValue]
    omega
  | succ width ih =>
    have hrest : n / 256 < 256 ^ width := by
      rw [Nat.pow_succ] at h
      omega
    rw [littleBytes, littleValue, ih hrest, UInt8.toNat_ofNat']
    omega

theorem littleValue_lt (bytes : List UInt8) : littleValue bytes < 256 ^ bytes.length := by
  induction bytes with
  | nil => exact Nat.one_pos
  | cons b bytes ih =>
    have hb := b.toNat_lt
    rw [littleValue, List.length_cons, Nat.pow_succ]
    omega

variable (order : ByteOrder)

@[simp] theorem length_bytes (n : ℕ) : (order.bytes n).length = 4 := by
  cases order with
  | little => exact length_littleBytes 4 n
  | big => rw [bytes, List.length_reverse, length_littleBytes]

theorem value_bytes {n : ℕ} (h : n < 2 ^ 32) : order.value (order.bytes n) = n := by
  cases order with
  | little => exact littleValue_littleBytes (by omega)
  | big => rw [bytes, value, List.reverse_reverse, littleValue_littleBytes (by omega)]

theorem value_lt (bytes : List UInt8) (h : bytes.length ≤ 4) : order.value bytes < 2 ^ 32 := by
  have hpow : 256 ^ bytes.length ≤ 256 ^ 4 := Nat.pow_le_pow_right (by decide) h
  have hlt : order.value bytes < 256 ^ bytes.length := by
    cases order with
    | little => exact littleValue_lt bytes
    | big =>
      have hlt := littleValue_lt bytes.reverse
      rw [List.length_reverse] at hlt
      exact hlt
  omega

end ByteOrder

/-! ## Decoding -/

/-- The loop of both `getContent`, from offset `nowCheck` on: the packs it copies, and where it
stops. The sums are of type `size_t`; every round moves on, so that `fuel` rounds suffice
(`decode_halts`). -/
def decode (order : ByteOrder) (data : List UInt8) (length : ℕ) :
    ℕ → ℕ → List (List UInt8) × ℕ
  | 0, nowCheck => ([], nowCheck)
  | fuel + 1, nowCheck =>
    if length < (nowCheck + 4) % 2 ^ 64 then ([], nowCheck)
    else
      let packLength := order.value ((data.drop nowCheck).take 4)
      if length < (nowCheck + 4 + packLength) % 2 ^ 64 then ([], nowCheck)
      else
        let r := decode order data length fuel ((nowCheck + 4 + packLength) % 2 ^ 64)
        ((data.drop (nowCheck + 4)).take packLength :: r.1, r.2)

/-- The static `getContent`: the buffers it adds. -/
def datagramContent (order : ByteOrder) (data : List UInt8) (length : ℕ) : List (List UInt8) :=
  (decode order data length (length + 1) 0).1

/-- `CpeerContext`. Of the block at `m_data` the first `m_nowIndex` bytes have been received. -/
structure CpeerContext where
  maxBufferSize : ℕ
  buffer : Cbuffer
  nowIndex : ℕ
  now_le : nowIndex ≤ buffer.data.length

namespace CpeerContext

variable (ctx : CpeerContext)

theorem now_le_new : 0 ≤ Cbuffer.new.data.length :=
  Nat.zero_le _

/-- The constructor. -/
def new (maxBufferSize : ℕ) : CpeerContext :=
  { maxBufferSize, buffer := Cbuffer.new, nowIndex := 0, now_le := now_le_new }

/-- `m_buffer.resize(preferLength, validLength)`. -/
def resize (preferLength validLength : ℕ) (garbage : ℕ → UInt8) : Option CpeerContext :=
  match h : ctx.buffer.resize preferLength validLength garbage with
  | some buffer => some { ctx with buffer, now_le := ctx.now_le.trans (Cbuffer.le_resize h) }
  | none => none

/-- `init`. -/
def init (garbage : ℕ → UInt8) : Option CpeerContext :=
  if ctx.buffer.getMaxLength = 0 then ctx.resize 0x1000 0 garbage else some ctx

/-- `m_buffer.getLength() - m_nowIndex`, of type `size_t`. -/
def window : ℕ :=
  (ctx.buffer.getLength + 2 ^ 64 - ctx.nowIndex) % 2 ^ 64

/-- `prepareBuffer`: the context and the length of the window, which begins behind the received
bytes. The source declares that parameter as `lenght` and assigns it as `length`. -/
def prepareBuffer (garbage : ℕ → UInt8) : Option (CpeerContext × ℕ) :=
  (ctx.init garbage).bind fun ctx =>
    let ctx' :=
      if ctx.window < 0x800 then
        if ctx.buffer.getLength * 2 > ctx.maxBufferSize then
          ctx.resize ctx.maxBufferSize ctx.nowIndex garbage
        else ctx.resize (ctx.buffer.getLength * 2) ctx.nowIndex garbage
      else some ctx
    ctx'.map fun ctx => (ctx, ctx.window)

/-- The bytes libuv puts behind the received ones. -/
def fill (bytes : List UInt8) : CpeerContext :=
  { ctx with
    buffer := ctx.buffer.store (overwrite ctx.buffer.data ctx.nowIndex bytes) (by simp)
    now_le := by simpa using ctx.now_le }

/-- `pushBuffer`. -/
def pushBuffer (length : ℕ) : CpeerContext :=
  if h : ctx.nowIndex + length ≤ ctx.buffer.getLength then
    { ctx with nowIndex := ctx.nowIndex + length, now_le := h.trans ctx.buffer.length_le }
  else ctx

/-- The member `getContent`: the buffers it adds, and the context with what is left moved to the
front. -/
def getContent (order : ByteOrder) : List (List UInt8) × CpeerContext :=
  let r := decode order ctx.buffer.getData ctx.nowIndex (ctx.nowIndex + 1) 0
  if r.2 > 0 then
    let extra := ctx.nowIndex - r.2
    let moved := overwrite ctx.buffer.getData 0 ((ctx.buffer.getData.drop r.2).take extra)
    (r.1,
      { ctx with
        buffer := ctx.buffer.store moved (length_overwrite ..)
        nowIndex := extra
        now_le := by
          have hle := ctx.now_le
          have hlength := length_overwrite ctx.buffer.getData 0
            ((ctx.buffer.getData.drop r.2).take extra)
          show ctx.nowIndex - r.2 ≤ moved.length
          rw [hlength, Cbuffer.getData]
          omega })
  else (r.1, ctx)

/-- Bytes that arrive, perhaps after `prepareBuffer` was called for them. -/
structure Push where
  prepare : Option (ℕ → UInt8)
  bytes : List UInt8

/-- The context in which the bytes of a push arrive. -/
def Push.prepared (r : Push) : Option CpeerContext :=
  match r.prepare with
  | none => some ctx
  | some garbage => (ctx.prepareBuffer garbage).map (·.1)

/-- `pushBuffer` and `getContent` for bytes that arrive; `none` when they do not fit. -/
def push (order : ByteOrder) (r : Push) : Option (List (List UInt8) × CpeerContext) :=
  (r.prepared ctx).bind fun ctx =>
    if ctx.nowIndex + r.bytes.length ≤ ctx.buffer.getLength then
      some (((ctx.fill r.bytes).pushBuffer r.bytes.length).getContent order)
    else none

/-- Pushes one after the other, with all the buffers. -/
def pushes (order : ByteOrder) : CpeerContext → List Push →
    Option (List (List UInt8) × CpeerContext)
  | ctx, [] => some ([], ctx)
  | ctx, r :: rs =>
    (ctx.push order r).bind fun (content, ctx) =>
      (pushes order ctx rs).map fun (content', ctx) => (content ++ content', ctx)

end CpeerContext

end NetworkPool
