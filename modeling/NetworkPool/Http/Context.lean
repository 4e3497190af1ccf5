import NetworkPool.Lib.CString
import NetworkPool.Buffer
import Mathlib.Data.Multiset.AddSub

/-!
# The HTTP context

`ChttpContext` of `http_context.h`: it receives the bytes of a connection, analyses them as they
come and keeps a complete message until it is moved out. Offsets and lengths are `size_t`; they
stay below `2 ^ 63` where the buffer bounds them, and are reduced modulo `2 ^ 64` where the peer
chooses them.
-/

namespace NetworkPool

open Lib.CString

/-- `(size_t)-1`: the length of a line that is not complete. -/
def npos : ℕ := 2 ^ 64 - 1

/-- `__http_state`. -/
inductive HttpState where
  | start
  | readHeader
  | readBody
  | readChunkHeader
  | readChunkBody
  | readChunkFooter
  | done
  | bad
  deriving DecidableEq, Repr

/-- The members `init` and `reinitForNext` reset, with the values they reset them to. `lines` and
`chunks` hold start indices and lengths. -/
structure Parser where
  analysisIndex : ℕ := 0
  state : HttpState := .start
  lines : List (ℕ × ℕ) := []
  headerSize : ℕ := 0
  bKeepAlive : Bool := false
  bChunked : Bool := false
  contentLength : ℕ := 0
  nowChunkSize : ℕ := 0
  bChunkSizeStart : Bool := false
  bChunkSizeDone : Bool := false
  chunks : List (ℕ × ℕ) := []
  deriving DecidableEq

/-! ## Header fields -/

/-- `kvDecoder`. `name` and `value` are pointers, `value` to a NUL-terminated string. -/
def kvDecoder (k : Parser) (name : List UInt8) (nameLength : ℕ) (value : List UInt8)
    (valueLength : ℕ) : Parser :=
  if nameLength == 10 && strncasecmp (lit "Connection") name 10 then
    { k with bKeepAlive := valueLength == 10 && strncasecmp (lit "Keep-Alive") value 10 }
  else if nameLength == 14 && strncasecmp (lit "Content-Length") name 14 then
    { k with contentLength := (atoi value % 2 ^ 64).toNat }
  else if nameLength == 17 && strncasecmp (lit "Transfer-Encoding") name 17 then
    { k with bChunked := valueLength == 7 && strncasecmp (lit "chunked") value 7 }
  else k

/-- Where the pointers into a header line stand, as offsets from its start. -/
structure LineSplit where
  nameHead : ℕ
  nameTail : ℕ
  valueHead : ℕ
  valueTail : ℕ
  deriving DecidableEq

/-- The part that `decoderHeaderAndUpdateState` and `getParameter` have in common: splits the
line of `length` bytes at `line` at its colon; `none` where they `continue`. -/
def splitLine (line : List UInt8) (length : ℕ) : Option LineSplit :=
  let nameHead := spaces line
  match strchr (line.drop nameHead) 58 with
  | none => none
  | some 0 => none
  | some (n + 1) =>
    let colon := nameHead + (n + 1)
    let nameTail := trimBack line colon
    let valueHead := colon + 1 + spaces (line.drop (colon + 1))
    let valueTail := length
    if valueTail = valueHead then none
    else some { nameHead, nameTail, valueHead, valueTail := trimBack line valueTail }

/-- The loop of `decoderHeaderAndUpdateState`. -/
def decoderHeader (ptr : List UInt8) : List (ℕ × ℕ) → Parser → Parser
  | [], k => k
  | lineInfo :: lines, k =>
    if lineInfo.1 > k.headerSize then k
    else if lineInfo.2 = npos then decoderHeader ptr lines k
    else
      let line := ptr.drop lineInfo.1
      match splitLine line lineInfo.2 with
      | none => decoderHeader ptr lines k
      | some f =>
        decoderHeader ptr lines
          (kvDecoder k (line.drop f.nameHead) (f.nameTail - f.nameHead)
            (line.drop f.valueHead) (f.valueTail - f.valueHead))

/-- `decoderHeaderAndUpdateState`. -/
def decoderHeaderAndUpdateState (ptr : List UInt8) (k : Parser) : Parser :=
  let k := decoderHeader ptr k.lines k
  if k.bChunked then
    { k with
      state := .readChunkHeader, nowChunkSize := 0, bChunkSizeStart := false,
      bChunkSizeDone := false }
  else if k.contentLength > 0 then { k with state := .readBody }
  else { k with state := .done }

/-! ## Analysis -/

/-- How a pass of `analysis` ends: `goto _again`, or `return`. -/
inductive Flow where
  | again
  | ret (answer : Bool)
  deriving DecidableEq

/-- `ptr[i - 1] = ptr[i] = 0`. -/
def terminate (ptr : List UInt8) (i : ℕ) : List UInt8 :=
  (ptr.set (i - 1) 0).set i 0

/-- One round of the loop that reads lines, which `state_read_header` and
`state_read_chunk_footer` share but for what they do at the empty line. -/
def scanLine (atEmptyLine : List UInt8 → Parser → Flow × Parser) (ptr : List UInt8)
    (k : Parser) : Flow × List UInt8 × Parser :=
  let i := k.analysisIndex
  if ptr.getD i 0 = 10 then
    if ptr.getD (i - 1) 0 ≠ 13 then (.ret true, ptr, { k with state := .bad })
    else
      let ptr := terminate ptr i
      let first := (k.lines.getLastD (0, npos)).1
      let length := i - 1 - first
      if length = 0 then
        let r := atEmptyLine ptr { k with lines := k.lines.dropLast }
        (r.1, ptr, r.2)
      else
        (.again, ptr,
          { k with
            lines := k.lines.dropLast ++ [(first, length), (i + 1, npos)]
            analysisIndex := i + 1 })
  else (.again, ptr, { k with analysisIndex := i + 1 })

/-- The end of the header. -/
def endHeader (ptr : List UInt8) (k : Parser) : Flow × Parser :=
  let i := k.analysisIndex
  (.again, decoderHeaderAndUpdateState ptr { k with headerSize := i + 1, analysisIndex := i + 1 })

/-- The end of the trailer. -/
def endFooter (_ptr : List UInt8) (k : Parser) : Flow × Parser :=
  (.ret true, { k with analysisIndex := k.analysisIndex + 1, state := .done })

/-- `case state_start`. -/
def startLine (ptr : List UInt8) (k : Parser) : Flow × List UInt8 × Parser :=
  if k.analysisIndex ≠ 0 ∨ ptr.getD 0 0 = 10 then (.ret true, ptr, { k with state := .bad })
  else (.again, ptr, { k with state := .readHeader, lines := k.lines ++ [(0, npos)] })

/-- `case state_read_header`. -/
def readHeader (ptr : List UInt8) (k : Parser) : Flow × List UInt8 × Parser :=
  scanLine endHeader ptr k

/-- `case state_read_body`. -/
def readBody (ptr : List UInt8) (nowIndex : ℕ) (k : Parser) : Flow × List UInt8 × Parser :=
  if nowIndex - k.analysisIndex ≥ k.contentLength then
    (.ret true, ptr,
      { k with
        chunks := k.chunks ++ [(k.analysisIndex, k.contentLength)]
        analysisIndex := k.analysisIndex + k.contentLength
        state := .done })
  else (.ret false, ptr, k)

/-- A character of the line that holds a chunk's size. -/
def chunkSizeChar (ch : UInt8) (k : Parser) : Parser :=
  if k.bChunkSizeDone then k
  else if 48 ≤ ch ∧ ch ≤ 57 then
    { k with
      nowChunkSize := (k.nowChunkSize * 16 + (ch.toNat - 48)) % 2 ^ 64, bChunkSizeStart := true }
  else if 97 ≤ ch ∧ ch ≤ 102 then
    { k with
      nowChunkSize := (k.nowChunkSize * 16 + (ch.toNat - 97 + 10)) % 2 ^ 64
      bChunkSizeStart := true }
  else if 65 ≤ ch ∧ ch ≤ 70 then
    { k with
      nowChunkSize := (k.nowChunkSize * 16 + (ch.toNat - 65 + 10)) % 2 ^ 64
      bChunkSizeStart := true }
  else if k.bChunkSizeStart || !isspace ch then { k with bChunkSizeDone := true }
  else k

/-- One round of the loop of `case state_read_chunk_header`. -/
def readChunkHeader (ptr : List UInt8) (k : Parser) : Flow × List UInt8 × Parser :=
  let i := k.analysisIndex
  let ch := ptr.getD i 0
  if ch = 10 then
    if ptr.getD (i - 1) 0 ≠ 13 then (.ret true, ptr, { k with state := .bad })
    else
      let ptr := terminate ptr i
      if k.nowChunkSize > 0 then
        (.again, ptr, { k with analysisIndex := i + 1, state := .readChunkBody })
      else
        (.again, ptr,
          { k with
            analysisIndex := i + 1
            state := .readChunkFooter
            lines := k.lines ++ [(i + 1, npos)] })
  else (.again, ptr, { chunkSizeChar ch k with analysisIndex := i + 1 })

/-- `case state_read_chunk_body`. The sum in the test wraps. -/
def readChunkBody (ptr : List UInt8) (nowIndex : ℕ) (k : Parser) : Flow × List UInt8 × Parser :=
  if nowIndex - k.analysisIndex ≥ (k.nowChunkSize + 2) % 2 ^ 64 then
    (.again, ptr,
      { k with
        chunks := k.chunks ++ [(k.analysisIndex, k.nowChunkSize)]
        analysisIndex := k.analysisIndex + (k.nowChunkSize + 2) % 2 ^ 64
        state := .readChunkHeader
        nowChunkSize := 0
        bChunkSizeStart := false
        bChunkSizeDone := false })
  else (.ret false, ptr, k)

/-- `case state_read_chunk_footer`. -/
def readChunkFooter (ptr : List UInt8) (k : Parser) : Flow × List UInt8 × Parser :=
  scanLine endFooter ptr k

/-- One pass of `analysis` from `_again` on, over the buffer `ptr` of which `nowIndex` bytes are
received. The loops `do .. while (++m_analysisIndex < m_nowIndex)` are cut after each round: the
tests at `_again` and the `switch` lead back into the loop exactly when its condition holds, and
to `return false`, which follows the loop, when it does not. -/
def pass (ptr : List UInt8) (nowIndex : ℕ) (k : Parser) : Flow × List UInt8 × Parser :=
  if k.state = .done ∨ k.state = .bad then (.ret true, ptr, k)
  else if nowIndex ≤ k.analysisIndex then (.ret false, ptr, k)
  else
    match k.state with
    | .start => startLine ptr k
    | .readHeader => readHeader ptr k
    | .readBody => readBody ptr nowIndex k
    | .readChunkHeader => readChunkHeader ptr k
    | .readChunkBody => readChunkBody ptr nowIndex k
    | .readChunkFooter => readChunkFooter ptr k
    | .done | .bad => (.ret true, ptr, k)

/-- The stores of a pass stay inside the buffer. -/
theorem length_pass (ptr : List UInt8) (nowIndex : ℕ) (k : Parser) :
    (pass ptr nowIndex k).2.1.length = ptr.length := by
  unfold pass startLine readHeader readBody readChunkHeader readChunkBody readChunkFooter scanLine
    terminate
  grind

/-- Where a state stands among those that can follow without a byte being read. -/
def HttpState.rank : HttpState → ℕ
  | .readBody => 4
  | .done => 3
  | .start | .readChunkBody => 2
  | .readHeader | .readChunkHeader | .readChunkFooter => 1
  | .bad => 0

/-- What bounds the number of passes: the unread bytes first, then the state. -/
def Parser.work (k : Parser) (nowIndex : ℕ) : ℕ :=
  4 * (nowIndex - k.analysisIndex) + k.state.rank

/-! ## The context -/

/-- `ChttpContext`. Before the first `prepareBuffer` only `maxBufferSize` and the empty buffer
mean something; the constructor leaves the others to `init`, whose values are used here. -/
structure ChttpContext extends Parser where
  maxBufferSize : ℕ
  buffer : Cbuffer
  nowIndex : ℕ

namespace ChttpContext

/-- The constructor. -/
def new (maxBufferSize : ℕ) : ChttpContext :=
  { maxBufferSize, buffer := Cbuffer.new, nowIndex := 0 }

/-- `init`. -/
def init (ctx : ChttpContext) (garbage : ℕ → UInt8) : Option ChttpContext :=
  if ctx.buffer.getMaxLength = 0 then
    (ctx.buffer.resize 0x1000 0 garbage).map fun buffer =>
      { maxBufferSize := if ctx.maxBufferSize < 0x1000 then 0x1000 else ctx.maxBufferSize
        buffer
        nowIndex := 0 }
  else some ctx

/-- The window `prepareBuffer` returns: `buffer` is null or an offset into the block. -/
structure Window where
  buffer : Option ℕ
  length : ℕ

/-- `prepareBuffer`. A block that is allocated on the way holds `garbage`. -/
def prepareBuffer (ctx : ChttpContext) (garbage : ℕ → UInt8) : Option (ChttpContext × Window) :=
  (ctx.init garbage).bind fun ctx =>
    let length := ctx.buffer.getLength
    let buffer :=
      if length - ctx.nowIndex < 0x800 then
        if length * 2 > ctx.maxBufferSize then
          ctx.buffer.resize ctx.maxBufferSize ctx.nowIndex garbage
        else ctx.buffer.resize (length * 2) ctx.nowIndex garbage
      else some ctx.buffer
    buffer.map fun buffer =>
      let length := buffer.getLength - ctx.nowIndex
      ({ ctx with buffer },
        { buffer := if length = 0 then none else some ctx.nowIndex, length })

/-- The bytes libuv puts into the window. -/
def fill (ctx : ChttpContext) (bytes : List UInt8) : ChttpContext :=
  { ctx with
    buffer := ctx.buffer.store (overwrite ctx.buffer.data ctx.nowIndex bytes) (by simp) }

/-- `recvPush`. -/
def recvPush (ctx : ChttpContext) (length : ℕ) : ChttpContext :=
  if ctx.nowIndex + length ≤ ctx.buffer.getLength then
    { ctx with nowIndex := ctx.nowIndex + length }
  else ctx

/-- A pass of `analysis`. -/
def pass (ctx : ChttpContext) : Flow × ChttpContext :=
  let r := NetworkPool.pass ctx.buffer.getData ctx.nowIndex ctx.toParser
  (r.1,
    { ctx with toParser := r.2.2, buffer := ctx.buffer.store r.2.1 (length_pass ..) })

/-- What bounds the number of passes that are still to come. -/
def work (ctx : ChttpContext) : ℕ :=
  ctx.toParser.work ctx.nowIndex

/-- Passes until one returns, `fuel` at most. -/
def analysisLoop : ℕ → ChttpContext → Bool × ChttpContext
  | 0, ctx => (false, ctx)
  | fuel + 1, ctx =>
    match ctx.pass with
    | (.again, ctx') => analysisLoop fuel ctx'
    | (.ret answer, ctx') => (answer, ctx')

/-- `analysis`. The fuel suffices (`analysis_eq`). -/
def analysis (ctx : ChttpContext) : Bool × ChttpContext :=
  analysisLoop (ctx.work + 1) ctx

/-- `isGood`. -/
def isGood (ctx : ChttpContext) : Bool :=
  ctx.state == .done

/-- `isKeepAlive`. -/
def isKeepAlive (ctx : ChttpContext) : Bool :=
  ctx.bKeepAlive

/-- What makes the behaviour of `getInfo` undefined. -/
inductive Fault where
  /-- `m_lines[0]` of an empty vector. -/
  | noLine
  /-- Pointer arithmetic on a null pointer. -/
  | nullPointer
  deriving DecidableEq

/-- `getInfo`: the three parts of the first line; `none` when it returns false. The second test
is on `b1` again: `b2` is used unchecked. -/
def getInfo (ctx : ChttpContext) :
    Except Fault (Option (List UInt8 × List UInt8 × List UInt8)) :=
  if ctx.state ≠ .done then .ok none
  else
    match ctx.lines with
    | [] => .error .noLine
    | lineInfo :: _ =>
      let line := ctx.buffer.getData.drop lineInfo.1
      match strchr line 32 with
      | none => .ok none
      | some b1 =>
        match strchr (line.drop (b1 + 1)) 32 with
        | none => .error .nullPointer
        | some b2 =>
          .ok (some (line.take b1, (line.drop (b1 + 1)).take b2,
            text (line.drop (b1 + 1 + b2 + 1))))

/-- The name and the value that `getParameter` takes from a line. -/
def parameter (ptr : List UInt8) (lineInfo : ℕ × ℕ) : Option (List UInt8 × List UInt8) :=
  if lineInfo.2 = npos then none
  else
    let line := ptr.drop lineInfo.1
    (splitLine line lineInfo.2).map fun f =>
      ((line.drop f.nameHead).take (f.nameTail - f.nameHead),
        (line.drop f.valueHead).take (f.valueTail - f.valueHead))

/-- `getParameter`: what it inserts into `parameters`, an unordered multimap; `none` when it
returns false. -/
def getParameter (ctx : ChttpContext) (parameters : Multiset (List UInt8 × List UInt8)) :
    Option (Multiset (List UInt8 × List UInt8)) :=
  if ctx.state ≠ .done then none
  else some (parameters + ctx.lines.filterMap (parameter ctx.buffer.getData))

/-- `getContent`: the length it resizes the buffer to, and the bytes it copies to its start one
after the other; `none` when it returns false. -/
def getContent (ctx : ChttpContext) : Option (ℕ × List UInt8) :=
  if ctx.state ≠ .done then none
  else
    some (ctx.chunks.foldl (fun total pair => (total + pair.2) % 2 ^ 64) 0,
      ctx.chunks.flatMap fun pair => (ctx.buffer.getData.drop pair.1).take pair.2)

/-- `reinitForNext`: the context made ready for the next message, and `former` with the message
that is complete; `none` when it returns false. -/
def reinitForNext (ctx former : ChttpContext) : Option (ChttpContext × ChttpContext) :=
  if ctx.state ≠ .done then none
  else
    let message := ctx.buffer.getData.take ctx.analysisIndex
    have hmessage : message.length < 2 ^ 63 :=
      lt_of_le_of_lt (List.length_take_le' ..) ctx.buffer.data_lt
    let former : ChttpContext :=
      { ctx with
        buffer := former.buffer.set message hmessage
        nowIndex := ctx.analysisIndex
        nowChunkSize := 0
        bChunkSizeStart := false
        bChunkSizeDone := false }
    let extra := ctx.nowIndex - ctx.analysisIndex
    let moved := overwrite ctx.buffer.getData 0
      ((ctx.buffer.getData.drop ctx.analysisIndex).take extra)
    some ({ maxBufferSize := ctx.maxBufferSize
            buffer := ctx.buffer.store moved (length_overwrite ..)
            nowIndex := extra },
          former)

end ChttpContext

end NetworkPool
