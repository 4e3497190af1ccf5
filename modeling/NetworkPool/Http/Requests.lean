import NetworkPool.Http.Stream

/-!
# Requests and reads

`message` runs the machine `server` until it is stuck (`message_spec`), and so do reads one
after the other (`serve_spec`). Hence the requests of a connection and its context depend on
the bytes of the stream only.
-/

namespace NetworkPool

open Lib (Incremental)
open Lib.CString

namespace ChttpContext

variable {ctx ctx' : ChttpContext}

/-- **`reinitForNext`** moves the complete message out and keeps the bytes behind it. -/
theorem reinitForNext_spec (h : ctx.Receiving) (hdone : ctx.state = .done)
    (former : ChttpContext) :
    ∃ ctx' former', ctx.reinitForNext former = some (ctx', former') ∧
      ctx'.view = (ctx.received.drop ctx.analysisIndex, {}) ∧ ctx'.Receiving ∧
      ctx.SameBuffer ctx' ∧ ctx'.nowIndex ≤ ctx.nowIndex ∧ ctx'.work < ctx.work ∧
      former'.request = ctx.toParser.request (ctx.received.take ctx.analysisIndex) := by
  have hindex := h.wf.index_le
  have hnow := h.wf.now_le
  have hdata := ctx.buffer.length_le
  have htail : ((ctx.buffer.data.drop ctx.analysisIndex).take
      (ctx.nowIndex - ctx.analysisIndex)).length = ctx.nowIndex - ctx.analysisIndex := by
    rw [List.length_take, List.length_drop]
    omega
  have hmoved : (overwrite ctx.buffer.data 0 ((ctx.buffer.data.drop ctx.analysisIndex).take
      (ctx.nowIndex - ctx.analysisIndex))).take (ctx.nowIndex - ctx.analysisIndex) =
        ctx.received.drop ctx.analysisIndex := by
    have hle : ((ctx.buffer.data.drop ctx.analysisIndex).take
        (ctx.nowIndex - ctx.analysisIndex)).length ≤ ctx.buffer.data.length := by omega
    have htake := Cbuffer.overwrite_zero_take hle
    rw [htail] at htake
    rw [htake, received, List.drop_take]
  have hmessage : (ctx.buffer.data.take ctx.analysisIndex).length = ctx.analysisIndex := by
    rw [List.length_take]
    omega
  have hreinit : ctx.reinitForNext former = some _ := if_neg (not_not.mpr hdone)
  refine ⟨_, _, hreinit, ?_, ⟨⟨?_, ?_, ?_⟩, ?_⟩, ⟨rfl, rfl, length_overwrite ..⟩, ?_, ?_, ?_⟩
  · exact Prod.ext hmoved rfl
  · exact Nat.zero_le _
  · exact (Nat.sub_le ..).trans hnow
  · intro hne
    apply h.wf.length_le
    intro hnil
    apply hne
    simp only [Cbuffer.store_data, Cbuffer.getData, hnil, overwrite]
    simp
  · exact .init _
  · exact Nat.sub_le ..
  · simp only [work, Parser.work, hdone, HttpState.rank]
    omega
  · have hset := Cbuffer.set_take (b := former.buffer) hmessage
      (lt_of_le_of_lt (List.length_take_le' ..) ctx.buffer.data_lt)
    have hkeep : ctx.received.take ctx.analysisIndex =
        ctx.buffer.data.take ctx.analysisIndex := by
      rw [received, List.take_take, min_eq_left hindex]
    simp only [request, Parser.request, received, Cbuffer.getData, hset] at hkeep ⊢
    rw [hkeep]

/-- What the rounds of `message` do to a context, and the requests they hand out. A complete
message is left only when no pool is set or a task cannot be allocated. -/
structure Passed (pool : Bool) (newTask : ℕ → Bool) (ctx : ChttpContext) (acts : List HttpAct)
    (ctx' : ChttpContext) : Prop where
  runs : server.Runs ctx.view (requests acts) ctx'.view
  waits : analyserStep ctx'.view = none
  left : ctx'.state = .done → pool = false ∨ ∃ n, newTask n = false
  receiving : ctx'.Receiving
  same : ctx.SameBuffer ctx'
  now_le : ctx'.nowIndex ≤ ctx.nowIndex

/-- The rounds of `message`. -/
theorem messageLoop_passed (pool : Bool) (newTask : ℕ → Bool) {fuel : ℕ} (n : ℕ)
    (h : ctx.Receiving) (hfuel : ctx.work < fuel) :
    let r := messageLoop pool newTask fuel n ctx
    Passed pool newTask ctx r.1 r.2 := by
  induction fuel generalizing ctx n with
  | zero => exact absurd hfuel (by omega)
  | succ fuel ih =>
    have hanalysed := analysis_spec h
    have hruns := server_runs hanalysed.halts.1
    have hwaits : analyserStep ctx.analysis.2.view = none :=
      Option.map_eq_none_iff.mp hanalysed.halts.2
    rw [messageLoop]
    generalize ctx.analysis = r at hanalysed hruns hwaits
    obtain ⟨answer, ctx₁⟩ := r
    simp only at hanalysed hruns hwaits
    -- the loop ends here
    have hlast : ∀ acts, requests acts = [] →
        (ctx₁.state = .done → pool = false ∨ ∃ n, newTask n = false) →
          Passed pool newTask ctx acts ctx₁ := by
      intro acts hacts hleft
      exact ⟨hacts ▸ hruns, hwaits, hleft, hanalysed.receiving, hanalysed.same,
        hanalysed.now_eq.le⟩
    cases answer with
    | false =>
      refine hlast [] rfl fun hdone => ?_
      exact absurd (hanalysed.answer_iff.mpr (.inl hdone)) (by simp)
    | true =>
      by_cases hgood : (ctx₁.isGood && pool) = true
      · by_cases hnew : newTask n = true
        · have hdone : ctx₁.state = .done := by
            have hand := (Bool.and_eq_true_iff.mp hgood).1
            simpa [isGood] using hand
          obtain ⟨ctx₂, former, hreinit, hview, hreceiving, hsame, hnow, hwork, hrequest⟩ :=
            reinitForNext_spec hanalysed.receiving hdone ofTask
          have hwork₁ := hanalysed.work_le
          have hrest := ih (n + 1) hreceiving (by omega)
          have hstep : server.step ctx₁.view = some (ctx₂.view, [former.request]) := by
            show serverStep ctx₁.view = _
            unfold serverStep
            rw [hwaits, hview, hrequest]
            exact if_pos hdone
          simp only [if_pos hgood, if_pos hnew, hreinit]
          exact ⟨hruns.trans (.head hstep hrest.runs), hrest.waits, hrest.left, hrest.receiving,
            hanalysed.same.trans (hsame.trans hrest.same),
            hrest.now_le.trans (hnow.trans hanalysed.now_eq.le)⟩
        · simp only [if_pos hgood, if_neg hnew]
          exact hlast [.close] rfl fun _ => .inr ⟨n, by simpa using hnew⟩
      · have hleft : ctx₁.state = .done → pool = false ∨ ∃ n, newTask n = false := by
          intro hdone
          simp only [isGood, hdone, BEq.rfl, Bool.true_and, Bool.not_eq_true] at hgood
          exact .inl hgood
        simp only [if_neg hgood]
        by_cases hpool : pool = true
        · rw [if_pos hpool]
          exact hlast [.close] rfl hleft
        · rw [if_neg hpool]
          exact hlast [] rfl hleft

/-- What `message` does to a context, when a pool is set and tasks can be allocated. -/
structure Messaged (ctx : ChttpContext) (acts : List HttpAct) (ctx' : ChttpContext) : Prop where
  halts : server.Halts ctx.view (requests acts) ctx'.view
  receiving : ctx'.Receiving
  same : ctx.SameBuffer ctx'
  now_le : ctx'.nowIndex ≤ ctx.nowIndex

/-- Then no complete message is left, and the server is stuck where the analyser is. -/
theorem messageLoop_spec {fuel : ℕ} (n : ℕ) (h : ctx.Receiving) (hfuel : ctx.work < fuel) :
    let r := messageLoop true (fun _ => true) fuel n ctx
    ctx.Messaged r.1 r.2 := by
  have hpassed := messageLoop_passed true (fun _ => true) n h hfuel
  refine ⟨⟨hpassed.runs, ?_⟩, hpassed.receiving, hpassed.same, hpassed.now_le⟩
  have hstate : (messageLoop true (fun _ => true) fuel n ctx).2.state ≠ .done := by
    intro hdone
    exact absurd (hpassed.left hdone) (by simp)
  show serverStep _ = none
  unfold serverStep
  rw [hpassed.waits]
  exact if_neg hstate

/-- **`message`** runs the server until it is stuck. -/
theorem message_spec {length : ℕ} (h : (ctx.recvPush length).Receiving) :
    let r := ctx.message true (fun _ => true) length
    (ctx.recvPush length).Messaged r.1 r.2 :=
  messageLoop_spec 0 h (Nat.lt_succ_self _)

/-! ## Reads -/

theorem receiving_receive (h : ctx.Receiving) (hfresh : ctx.Fresh) {r : Read}
    (hreceive : ctx.receive r = some ctx') :
    (ctx'.recvPush r.bytes.length).Receiving ∧
      (ctx'.recvPush r.bytes.length).buffer.data ≠ [] ∧
      (ctx'.recvPush r.bytes.length).view = analyser.feed ctx.view r.bytes := by
  obtain ⟨hwf, hdata, hreceived, hparser⟩ := receive_spec h.wf hfresh hreceive
  have hok := h.ok.append r.bytes
  rw [← hreceived, ← hparser] at hok
  exact ⟨⟨hwf, hok⟩, hdata, Prod.ext hreceived hparser⟩

/-- Reads served one after the other are reads of the server machine. -/
theorem serve_spec {reads : List Read} {acts : List HttpAct} (h : ctx.Receiving)
    (hfresh : ctx.Fresh) (hserve : ctx.serve reads = some (acts, ctx')) :
    server.Reads ctx.view (reads.map Read.bytes) (requests acts) ctx'.view := by
  induction reads generalizing ctx acts with
  | nil =>
    rw [serve, Option.some.injEq, Prod.mk.injEq] at hserve
    rw [← hserve.1, ← hserve.2]
    exact .nil _
  | cons r reads ih =>
    rw [serve] at hserve
    obtain ⟨ctx₁, hreceive, hserve⟩ := Option.bind_eq_some_iff.mp hserve
    obtain ⟨⟨acts₂, ctx₂⟩, hrest, heq⟩ := Option.map_eq_some_iff.mp hserve
    rw [Prod.mk.injEq] at heq
    obtain ⟨rfl, rfl⟩ := heq
    obtain ⟨hreceiving, hdata, hview⟩ := receiving_receive h hfresh hreceive
    have hmessage := message_spec hreceiving
    have hreads := ih hmessage.receiving (.of_data_ne (hmessage.same.data_ne hdata)) hrest
    have hhalts := hmessage.halts
    rw [hview] at hhalts
    rw [requests_append]
    exact .cons hhalts hreads

/-- Reads fed to one message are reads of the analyser. -/
theorem feed_spec {reads : List Read} (h : ctx.Receiving) (hfresh : ctx.Fresh)
    (hfeed : ctx.feed reads = some ctx') :
    analyser.Reads ctx.view (reads.map Read.bytes) [] ctx'.view ∧ ctx'.Receiving := by
  induction reads generalizing ctx with
  | nil =>
    rw [feed, Option.some.injEq] at hfeed
    rw [← hfeed]
    exact ⟨.nil _, h⟩
  | cons r reads ih =>
    rw [feed] at hfeed
    obtain ⟨ctx₁, hreceive, hfeed⟩ := Option.bind_eq_some_iff.mp hfeed
    obtain ⟨hreceiving, hdata, hview⟩ := receiving_receive h hfresh hreceive
    have hanalysed := analysis_spec hreceiving
    obtain ⟨hreads, hlast⟩ :=
      ih hanalysed.receiving (.of_data_ne (hanalysed.same.data_ne hdata)) hfeed
    have hhalts := hanalysed.halts
    rw [hview] at hhalts
    exact ⟨.cons hhalts hreads, hlast⟩

theorem flatten_bytes (reads : List Read) : (reads.map Read.bytes).flatten = stream reads :=
  (List.flatMap_def ..).symm

theorem server_stuck_new (maxBufferSize : ℕ) : server.step (new maxBufferSize).view = none := rfl

/-! ## Small reads fit -/

/-- What has come and will come leaves 2 KB of the limit free. -/
structure Roomy (ctx : ChttpContext) (coming : ℕ) : Prop where
  max_lt : ctx.maxBufferSize < 2 ^ 63
  length_ge : ctx.buffer.data ≠ [] → 0x1000 ≤ ctx.buffer.length
  now_le : ctx.nowIndex + coming + 0x800 ≤ max ctx.maxBufferSize 0x1000

theorem Roomy.receive {coming : ℕ} {r : Read} (h : ctx.Receiving) (hfresh : ctx.Fresh)
    (hroomy : ctx.Roomy (r.bytes.length + coming)) (hr : r.bytes.length ≤ 0x800) :
    ∃ ctx', ctx.receive r = some ctx' ∧ (ctx'.recvPush r.bytes.length).Roomy coming := by
  obtain ⟨hmax, hlength, hnow⟩ := hroomy
  obtain ⟨ctx', hreceive, hmax', hlength'⟩ :=
    exists_receive h.wf hmax hlength (by omega) r hr
  obtain ⟨hreceiving, -, hview⟩ := receiving_receive h hfresh hreceive
  have hcount := congrArg (fun s : View => s.1.length) hview
  have hsum : (analyser.feed ctx.view r.bytes).1.length = ctx.nowIndex + r.bytes.length := by
    show (ctx.received ++ r.bytes).length = _
    rw [List.length_append, h.wf.length_received]
  have hnow' : (ctx'.recvPush r.bytes.length).nowIndex = ctx.nowIndex + r.bytes.length := by
    rw [← hreceiving.wf.length_received, ← hsum]
    exact hcount
  refine ⟨ctx', hreceive, ?_, fun _ => hlength', ?_⟩
  · omega
  · omega

theorem Roomy.same {coming : ℕ} (hroomy : ctx.Roomy coming) (hsame : ctx.SameBuffer ctx')
    (hnow : ctx'.nowIndex ≤ ctx.nowIndex) : ctx'.Roomy coming where
  max_lt := hsame.max_eq ▸ hroomy.max_lt
  length_ge := by
    intro hne
    rw [hsame.length_eq]
    apply hroomy.length_ge
    apply List.ne_nil_of_length_pos
    rw [← hsame.data_eq]
    exact List.length_pos_of_ne_nil hne
  now_le := by
    have hle := hroomy.now_le
    rw [hsame.max_eq]
    omega

/-- Reads of up to 2 KB are served as long as they leave 2 KB of the limit free. -/
theorem exists_serve (reads : List Read) (h : ctx.Receiving) (hfresh : ctx.Fresh)
    (hroomy : ctx.Roomy (stream reads).length) (hsmall : ∀ r ∈ reads, r.bytes.length ≤ 0x800) :
    ∃ acts ctx', ctx.serve reads = some (acts, ctx') := by
  induction reads generalizing ctx with
  | nil => exact ⟨_, _, rfl⟩
  | cons r reads ih =>
    rw [stream, List.flatMap_cons, List.length_append] at hroomy
    obtain ⟨ctx₁, hreceive, hroomy₁⟩ :=
      hroomy.receive h hfresh (hsmall r List.mem_cons_self)
    obtain ⟨hreceiving, hdata, -⟩ := receiving_receive h hfresh hreceive
    have hmessage := message_spec hreceiving
    obtain ⟨acts, ctx₂, hrest⟩ := ih hmessage.receiving
      (.of_data_ne (hmessage.same.data_ne hdata)) (hroomy₁.same hmessage.same hmessage.now_le)
      fun r' hr' => hsmall r' (List.mem_cons_of_mem r hr')
    rw [serve, hreceive, Option.bind_some]
    simp only [hrest]
    exact ⟨_, _, rfl⟩

/-- Reads of up to 2 KB are fed as long as they leave 2 KB of the limit free. -/
theorem exists_feed (reads : List Read) (h : ctx.Receiving) (hfresh : ctx.Fresh)
    (hroomy : ctx.Roomy (stream reads).length) (hsmall : ∀ r ∈ reads, r.bytes.length ≤ 0x800) :
    ∃ ctx', ctx.feed reads = some ctx' := by
  induction reads generalizing ctx with
  | nil => exact ⟨_, rfl⟩
  | cons r reads ih =>
    rw [stream, List.flatMap_cons, List.length_append] at hroomy
    obtain ⟨ctx₁, hreceive, hroomy₁⟩ :=
      hroomy.receive h hfresh (hsmall r List.mem_cons_self)
    obtain ⟨hreceiving, hdata, -⟩ := receiving_receive h hfresh hreceive
    have hanalysed := analysis_spec hreceiving
    obtain ⟨ctx₂, hrest⟩ := ih hanalysed.receiving
      (.of_data_ne (hanalysed.same.data_ne hdata))
      (hroomy₁.same hanalysed.same hanalysed.now_eq.le)
      fun r' hr' => hsmall r' (List.mem_cons_of_mem r hr')
    rw [feed, hreceive, Option.bind_some, hrest]
    exact ⟨_, rfl⟩

theorem Roomy.new (maxBufferSize coming : ℕ) (hmax : maxBufferSize < 2 ^ 63)
    (hcoming : coming + 0x800 ≤ max maxBufferSize 0x1000) :
    (new maxBufferSize).Roomy coming where
  max_lt := hmax
  length_ge := fun hne => absurd rfl hne
  now_le := by
    show 0 + coming + 0x800 ≤ max maxBufferSize 0x1000
    omega

end ChttpContext

open ChttpContext

/-! ## The segmentation does not matter -/

/-- **Requests do not depend on the segmentation.** Whatever bytes a connection receives and
however they are cut into reads, the server hands out the same requests and ends with the same
parser and the same received bytes, of which those from `analysisIndex` on are not consumed. -/
theorem requests_independent_of_reads (maxBufferSize : ℕ) {reads₁ reads₂ : List Read}
    {acts₁ acts₂ : List HttpAct} {ctx₁ ctx₂ : ChttpContext}
    (h₁ : (ChttpContext.new maxBufferSize).serve reads₁ = some (acts₁, ctx₁))
    (h₂ : (ChttpContext.new maxBufferSize).serve reads₂ = some (acts₂, ctx₂))
    (hstream : stream reads₁ = stream reads₂) :
    requests acts₁ = requests acts₂ ∧ ctx₁.toParser = ctx₂.toParser ∧
      ctx₁.received = ctx₂.received := by
  have hreads₁ := serve_spec (.new maxBufferSize) (.new maxBufferSize) h₁
  have hreads₂ := serve_spec (.new maxBufferSize) (.new maxBufferSize) h₂
  have hflatten : (reads₁.map Read.bytes).flatten = (reads₂.map Read.bytes).flatten := by
    rw [flatten_bytes, flatten_bytes, hstream]
  have hunique := hreads₁.unique hreads₂ (Receiving.new maxBufferSize).ok
    (server_stuck_new maxBufferSize) hflatten
  obtain ⟨hrequests, hview⟩ := hunique
  rw [view, view, Prod.mk.injEq] at hview
  exact ⟨hrequests, hview.2, hview.1⟩

/-- A request cut between the bytes of its last but one line end. -/
theorem requests_independent_of_reads_cut :
    ∃ acts₁ ctx₁ acts₂ ctx₂,
      (ChttpContext.new 0x1000000).serve
        [⟨fun _ => 0, lit "GET / HTTP/1.1\r\n\r\n"⟩] = some (acts₁, ctx₁) ∧
      (ChttpContext.new 0x1000000).serve
        [⟨fun _ => 0, lit "GET / HTTP/1.1\r"⟩, ⟨fun _ => 1, lit "\n\r\n"⟩] =
          some (acts₂, ctx₂) ∧
      requests acts₁ = requests acts₂ ∧ ctx₁.toParser = ctx₂.toParser ∧
        ctx₁.received = ctx₂.received := by
  obtain ⟨acts₁, ctx₁, h₁⟩ := exists_serve
    [⟨fun _ => 0, lit "GET / HTTP/1.1\r\n\r\n"⟩] (.new 0x1000000) (.new 0x1000000)
    (.new _ _ (by decide) (by decide)) (by decide)
  obtain ⟨acts₂, ctx₂, h₂⟩ := exists_serve
    [⟨fun _ => 0, lit "GET / HTTP/1.1\r"⟩, ⟨fun _ => 1, lit "\n\r\n"⟩] (.new 0x1000000) (.new 0x1000000)
    (.new _ _ (by decide) (by decide)) (by decide)
  exact ⟨acts₁, ctx₁, acts₂, ctx₂, h₁, h₂,
    requests_independent_of_reads 0x1000000 h₁ h₂ (by decide)⟩

/-! ## Pipelining -/

/-- A complete message on its own: what a fresh context makes of the bytes of some reads, when
it consumes all of them. -/
structure Single where
  maxBufferSize : ℕ
  reads : List Read
  ctx : ChttpContext
  feed_eq : (ChttpContext.new maxBufferSize).feed reads = some ctx
  done : ctx.state = .done
  consumed : ctx.analysisIndex = (stream reads).length

/-- What a fresh context makes of reads is a run of the analyser on their bytes. -/
theorem halts_of_feed {maxBufferSize : ℕ} {reads : List Read} {ctx : ChttpContext}
    (h : (ChttpContext.new maxBufferSize).feed reads = some ctx) :
    analyser.Halts (stream reads, {}) [] ctx.view := by
  have hreads := (feed_spec (.new maxBufferSize) (.new maxBufferSize) h).1
  have hhalts := hreads.halts (Receiving.new maxBufferSize).ok rfl
  rw [flatten_bytes] at hhalts
  exact hhalts

/-- The received bytes of a fresh context are those of the reads, some overwritten. -/
theorem length_received_of_feed {maxBufferSize : ℕ} {reads : List Read} {ctx : ChttpContext}
    (h : (ChttpContext.new maxBufferSize).feed reads = some ctx) :
    ctx.received.length = (stream reads).length :=
  length_of_runs (halts_of_feed h).1

/-- The server takes a complete message and leaves what follows it. -/
theorem Single.runs (m : Single) (rest : List UInt8) :
    server.Runs (stream m.reads ++ rest, {}) [m.ctx.request] (rest, {}) := by
  have hhalts := halts_of_feed m.feed_eq
  have hlength := length_received_of_feed m.feed_eq
  have hall : m.ctx.received.length = m.ctx.analysisIndex := by rw [hlength, m.consumed]
  have hstuck : analyserStep m.ctx.view = none := Option.map_eq_none_iff.mp hhalts.2
  have hstep : server.step m.ctx.view = some (([], {}), [m.ctx.request]) := by
    show serverStep m.ctx.view = _
    unfold serverStep
    rw [hstuck]
    have hdrop : m.ctx.received.drop m.ctx.analysisIndex = [] := by
      rw [← hall, List.drop_length]
    have htake : m.ctx.received.take m.ctx.analysisIndex = m.ctx.received := by
      rw [← hall, List.take_length]
    simp only [view, m.done, if_true, hdrop, htake, request]
  have hruns := (server_runs hhalts.1).trans (.single hstep)
  exact hruns.feed (.init _) rest

/-- **Pipelining is separate parsing.** Messages that are complete on their own, sent one after
the other and followed by a tail that is not complete, are handed out as fresh contexts would
parse them, and the connection is left as a fresh context fed the tail. -/
theorem pipelining_eq_separate_parsing (maxBufferSize : ℕ) (messages : List Single)
    {tailSize : ℕ} {tail : List Read} {tailCtx : ChttpContext}
    (htail : (ChttpContext.new tailSize).feed tail = some tailCtx)
    (hnotDone : tailCtx.state ≠ .done) {reads : List Read} {acts : List HttpAct}
    {ctx : ChttpContext} (hserve : (ChttpContext.new maxBufferSize).serve reads = some (acts, ctx))
    (hstream : stream reads = messages.flatMap (fun m => stream m.reads) ++ stream tail) :
    requests acts = messages.map (fun m => m.ctx.request) ∧ ctx.received = tailCtx.received ∧
      ctx.toParser = tailCtx.toParser := by
  have hmessages : ∀ (messages : List Single) rest,
      server.Runs (messages.flatMap (fun m => stream m.reads) ++ rest, {})
        (messages.map fun m => m.ctx.request) (rest, {}) := by
    intro messages
    induction messages with
    | nil =>
      intro rest
      exact .refl _
    | cons m messages ih =>
      intro rest
      rw [List.flatMap_cons, List.append_assoc]
      exact (m.runs _).trans (ih rest)
  have hrest : server.Halts (stream tail, {}) [] tailCtx.view := by
    have hhalts := halts_of_feed htail
    have hstuck : analyserStep tailCtx.view = none := Option.map_eq_none_iff.mp hhalts.2
    refine ⟨server_runs hhalts.1, ?_⟩
    show serverStep tailCtx.view = none
    unfold serverStep
    rw [hstuck]
    exact if_neg hnotDone
  have hwhole := Incremental.Halts.of_runs (hmessages messages (stream tail)) hrest
  have hreads := serve_spec (.new maxBufferSize) (.new maxBufferSize) hserve
  have hhalts := hreads.halts (Receiving.new maxBufferSize).ok (server_stuck_new maxBufferSize)
  rw [flatten_bytes, hstream] at hhalts
  obtain ⟨hrequests, hview⟩ := hhalts.unique hwhole
  rw [view, view, Prod.mk.injEq] at hview
  rw [List.append_nil] at hrequests
  exact ⟨hrequests, hview.1, hview.2⟩

/-- What a fresh context makes of reads can be computed. -/
theorem view_of_feed {maxBufferSize : ℕ} {reads : List Read} {ctx : ChttpContext}
    (h : (ChttpContext.new maxBufferSize).feed reads = some ctx) (n : ℕ)
    (hstuck : analyserStep (analyser.exec n (stream reads, {})).2 = none) :
    ctx.view = (analyser.exec n (stream reads, {})).2 := by
  have hexec : analyser.Halts (stream reads, {}) (analyser.exec n (stream reads, {})).1
      (analyser.exec n (stream reads, {})).2 :=
    ⟨Incremental.runs_exec analyser n _, Option.map_eq_none_iff.mpr hstuck⟩
  exact ((halts_of_feed h).unique hexec).2

/-- A short message that is complete. -/
theorem exists_done (w : List UInt8) (n : ℕ) (hsmall : w.length ≤ 0x100)
    (hstuck : analyserStep (analyser.exec n (w, {})).2 = none)
    (hdone : (analyser.exec n (w, {})).2.2.state = .done) :
    ∃ ctx, (ChttpContext.new 0x1000000).feed [⟨fun _ => 0, w⟩] = some ctx ∧
      ctx.state = .done ∧ ctx.view = (analyser.exec n (w, {})).2 := by
  have hstream : stream [⟨fun _ => 0, w⟩] = w := by simp [stream]
  obtain ⟨ctx, hfeed⟩ := exists_feed [⟨fun _ => 0, w⟩] (.new 0x1000000) (.new 0x1000000)
    (.new _ _ (by decide) (by
      rw [hstream]
      omega))
    (by
      intro r hr
      rw [List.mem_singleton.mp hr]
      show w.length ≤ 0x800
      omega)
  have hview := view_of_feed hfeed n (by rw [hstream]; exact hstuck)
  rw [hstream] at hview
  refine ⟨ctx, hfeed, ?_, hview⟩
  show ctx.view.2.state = .done
  rw [hview]
  exact hdone

/-- Two requests and the beginning of a third, in one read. -/
theorem pipelining_eq_separate_parsing_two :
    ∃ (m : Single) (acts : List HttpAct) (ctx tailCtx : ChttpContext),
      stream m.reads = lit "GET / HTTP/1.1\r\n\r\n" ∧
      (ChttpContext.new 0x1000000).feed [⟨fun _ => 0, lit "GE"⟩] = some tailCtx ∧
      (ChttpContext.new 0x1000000).serve [⟨fun _ => 0, lit
        "GET / HTTP/1.1\r\n\r\nGET / HTTP/1.1\r\n\r\nGE"⟩] = some (acts, ctx) ∧
      requests acts = [m.ctx.request, m.ctx.request] ∧ ctx.received = tailCtx.received ∧
        ctx.toParser = tailCtx.toParser := by
  obtain ⟨getCtx, hget⟩ := exists_feed
    [⟨fun _ => 0, lit "GET / HTTP/1.1\r\n\r\n"⟩] (.new 0x1000000) (.new 0x1000000)
    (.new _ _ (by decide) (by decide)) (by decide)
  obtain ⟨tailCtx, htail⟩ := exists_feed
    [⟨fun _ => 0, lit "GE"⟩] (.new 0x1000000) (.new 0x1000000)
    (.new _ _ (by decide) (by decide)) (by decide)
  obtain ⟨acts, ctx, hserve⟩ := exists_serve
    [⟨fun _ => 0, lit "GET / HTTP/1.1\r\n\r\nGET / HTTP/1.1\r\n\r\nGE"⟩] (.new 0x1000000) (.new 0x1000000)
    (.new _ _ (by decide) (by decide)) (by decide)
  have hgetView := view_of_feed hget 20 (by decide)
  have htailView := view_of_feed htail 4 (by decide)
  have hnotDone : tailCtx.state ≠ .done := by
    have hstate : tailCtx.view.2.state ≠ .done := by
      rw [htailView]
      decide
    exact hstate
  let m : Single :=
    { maxBufferSize := 0x1000000
      reads := [⟨fun _ => 0, lit "GET / HTTP/1.1\r\n\r\n"⟩]
      ctx := getCtx
      feed_eq := hget
      done := by
        have hstate : getCtx.view.2.state = .done := by
          rw [hgetView]
          decide
        exact hstate
      consumed := by
        have hindex : getCtx.view.2.analysisIndex = 18 := by
          rw [hgetView]
          decide
        exact hindex }
  exact ⟨m, acts, ctx, tailCtx, rfl, htail, hserve,
    pipelining_eq_separate_parsing 0x1000000 [m, m] htail hnotDone hserve rfl⟩

end NetworkPool
