import NetworkPool.Http.Requests
import NetworkPool.Server.Registry

/-!
# The requests of a connection

The contexts of the server are fed by the callbacks of the pool, and what is moved out of them goes
to the work queue, while other connections are served and the threads run. What the server pushes
for a connection is what a fresh context makes of the bytes of the connection read by itself
(`requests_parsed`), so no request is lost, repeated, mixed with another connection's or cut
otherwise than the stream says.
-/

namespace NetworkPool

open Lib (Incremental)
open Lib.CString

namespace ChttpContext

variable {ctx ctx' : ChttpContext}

/-! ## A context and its bytes -/

/-- The context has been through `bytes`, and `made` was moved out of it. -/
structure Heard (ctx : ChttpContext) (bytes : List UInt8) (made : List Request) : Prop where
  receiving : ctx.Receiving
  fresh : ctx.Fresh
  runs : server.Runs (bytes, {}) made ctx.view
  waits : analyserStep ctx.view = none

variable {bytes : List UInt8} {made : List Request}

theorem Heard.new (maxBufferSize : ℕ) : (new maxBufferSize).Heard [] [] :=
  ⟨.new maxBufferSize, .new maxBufferSize, .refl _, rfl⟩

/-- The window is prepared. -/
theorem Heard.prepareBuffer {garbage : ℕ → UInt8} {w : Window} (h : ctx.Heard bytes made)
    (hprepare : ctx.prepareBuffer garbage = some (ctx', w)) : ctx'.Heard bytes made := by
  obtain ⟨hwf, hdata, -, hcase⟩ := prepareBuffer_spec h.receiving.wf hprepare
  have hview : ctx'.view = ctx.view := by
    rcases hcase with ⟨hnone, hparser, hnow⟩ | ⟨-, hparser, -, hreceived⟩
    · obtain ⟨hinit, hzero⟩ := h.fresh hnone
      unfold view received
      rw [hparser, hinit, hnow, hzero]
      rfl
    · exact Prod.ext hreceived hparser
  have hok : ctx'.view.2.Ok ctx'.view.1 := by
    rw [hview]
    exact h.receiving.ok
  refine ⟨⟨hwf, hok⟩, .of_data_ne hdata, ?_, ?_⟩
  · rw [hview]
    exact h.runs
  · rw [hview]
    exact h.waits

/-- Bytes are put into the window and counted. -/
theorem Receiving.fill {data : List UInt8} (h : ctx.Receiving)
    (hroom : ctx.nowIndex + data.length ≤ ctx.buffer.length) :
    ((ctx.fill data).recvPush data.length).Receiving ∧
      ((ctx.fill data).recvPush data.length).view = server.feed ctx.view data ∧
      ((ctx.fill data).recvPush data.length).buffer.data.length = ctx.buffer.data.length := by
  have hpush := recvPush_fill hroom
  have hreceived := fill_received h.wf hroom
  have hparser : ((ctx.fill data).recvPush data.length).toParser = ctx.toParser := by
    rw [hpush]
    rfl
  have hlength : ((ctx.fill data).recvPush data.length).buffer.data.length =
      ctx.buffer.data.length := by
    rw [hpush]
    simp only [ChttpContext.fill, Cbuffer.store_data, length_overwrite]
  have hok := h.ok.append data
  rw [← hreceived, ← hparser] at hok
  refine ⟨⟨⟨?_, ?_, ?_⟩, hok⟩, Prod.ext hreceived hparser, hlength⟩
  · rw [hpush]
    exact Nat.le_add_right_of_le h.wf.index_le
  · rw [hpush]
    exact hroom
  · intro hne
    have hpos := List.length_pos_of_ne_nil hne
    rw [hlength] at hpos
    rw [hpush]
    exact h.wf.length_le (List.ne_nil_of_length_pos hpos)

/-- From a stuck state there is only one run. -/
theorem runs_of_stuck {s s' : View} {o : List Request} (h : server.Runs s o s')
    (hstuck : server.step s = none) : o = [] ∧ s' = s := by
  cases h with
  | refl => exact ⟨rfl, rfl⟩
  | head hstep _ => exact absurd (hstuck.symm.trans hstep) (by simp)

/-- A message is analysed. -/
theorem Heard.message {data : List UInt8} (h : ctx.Heard bytes made) (pool : Bool)
    (newTask : ℕ → Bool) (hlen : data.length ≤ ctx.buffer.getLength - ctx.nowIndex) :
    let r := (ctx.fill data).message pool newTask data.length
    r.2.Heard (bytes ++ data) (made ++ requests r.1) := by
  have hroom : ctx.nowIndex + data.length ≤ ctx.buffer.length := by
    have hnow := h.receiving.wf.now_le
    have hget : ctx.buffer.getLength = ctx.buffer.length := rfl
    omega
  obtain ⟨hreceiving, hview, hlength⟩ := h.receiving.fill hroom
  have hpassed : Passed pool newTask _ ((ctx.fill data).message pool newTask data.length).1
      ((ctx.fill data).message pool newTask data.length).2 :=
    messageLoop_passed pool newTask 0 hreceiving (Nat.lt_succ_self _)
  have hfed : server.Runs (bytes ++ data, {}) made (server.feed ctx.view data) :=
    h.runs.feed (.init _) data
  rw [← hview] at hfed
  refine ⟨hpassed.receiving, ?_, hfed.trans hpassed.runs, hpassed.waits⟩
  -- without a buffer there is no room for data, and nothing happens
  intro hnil
  have hnone : ctx.buffer.data = [] := by
    apply List.eq_nil_of_length_eq_zero
    rw [← hlength, ← hpassed.same.data_eq, hnil]
    rfl
  obtain ⟨hinit, hzero⟩ := h.fresh hnone
  have hempty : data = [] := by
    apply List.eq_nil_of_length_eq_zero
    have hle := ctx.buffer.length_le
    rw [hnone, List.length_nil] at hle
    omega
  have hstart : ((ctx.fill data).recvPush data.length).view = ([], {}) := by
    rw [hview, hempty]
    show (ctx.received ++ [], ctx.toParser) = _
    rw [hinit, List.append_nil, received, hzero, List.take_zero]
  have hruns := hpassed.runs
  rw [hstart] at hruns
  obtain ⟨-, hlast⟩ := runs_of_stuck hruns rfl
  refine ⟨congrArg Prod.snd hlast, ?_⟩
  have hnone' : ((ctx.fill data).message pool newTask data.length).2.received = [] :=
    congrArg Prod.fst hlast
  rw [← hpassed.receiving.wf.length_received, hnone', List.length_nil]

/-- **A context against reads on their own.** -/
theorem Heard.serve {size : ℕ} {reads : List Read} {acts : List HttpAct} (h : ctx.Heard bytes made)
    (hserve : (ChttpContext.new size).serve reads = some (acts, ctx'))
    (hstream : stream reads = bytes) :
    made <+: requests acts ∧ (ctx.state ≠ .done →
      made = requests acts ∧ ctx.toParser = ctx'.toParser ∧ ctx.received = ctx'.received) := by
  have hreads := serve_spec (.new size) (.new size) hserve
  have hhalts : server.Halts (bytes, {}) (requests acts) ctx'.view := by
    have hall := hreads.halts (Receiving.new size).ok (server_stuck_new size)
    rw [flatten_bytes, hstream] at hall
    exact hall
  obtain ⟨rest, hrest⟩ := hhalts.of_prefix h.runs
  obtain ⟨heq, -⟩ := hhalts.unique (.of_runs h.runs hrest)
  refine ⟨⟨rest, heq.symm⟩, fun hstate => ?_⟩
  have hstuck : server.step ctx.view = none := by
    show serverStep ctx.view = none
    unfold serverStep
    rw [h.waits]
    exact if_neg hstate
  obtain ⟨hmade, hview⟩ := hhalts.unique ⟨h.runs, hstuck⟩
  exact ⟨hmade.symm, (congrArg Prod.snd hview).symm, (congrArg Prod.fst hview).symm⟩

end ChttpContext

/-! ## Conversations -/

/-- What a connection of the server has been through since its context was made: the bytes that
`message` was given, and the requests whose tasks were pushed. -/
structure Conversation where
  bytes : List UInt8 := []
  requests : List Request := []

namespace System

variable {n : ℕ} {σ σ' : System} {talk : CnetworkNode → Conversation}

/-- How the conversations go on with a step. -/
def converse (σ : System) (e : SystemEvent) (_σ' : System) (talk : CnetworkNode → Conversation) :
    CnetworkNode → Conversation :=
  match e with
  | .callback _ _ =>
    match σ.callbacks with
    | .message node data :: _ =>
      if node ∈ σ.server.context then
        Function.update talk node { talk node with bytes := (talk node).bytes ++ data }
      else talk
    | .connectionStatus node false :: _ => Function.update talk node {}
    | _ => talk
  | .act _ =>
    match σ.acts, σ.built with
    | (node, .pushTask _) :: _, some task =>
      Function.update talk node { talk node with
        requests := (talk node).requests ++ [(σ.server.heap task).context.request] }
    | _, _ => talk
  | _ => talk

/-- The server together with its conversations. -/
def conversations (n : ℕ) : Lib.Lts (System × (CnetworkNode → Conversation)) SystemEvent :=
  (serverSystem n).record (fun _ => {}) converse

/-- The requests of `node` the running `message` still has to push. -/
def toPush (σ : System) (node : CnetworkNode) : List Request :=
  NetworkPool.requests ((σ.acts.filter fun a => a.1 = node).map Prod.snd)

/-- The contexts have heard what was said. -/
structure Conversing (σ : System) (talk : CnetworkNode → Conversation) : Prop where
  absent : ∀ node, node ∉ σ.server.context → talk node = {}
  acts : ∀ a ∈ σ.acts, a.1 ∈ σ.server.context
  heard : ∀ node ctx, σ.server.context.lookup node = some ctx →
    ctx.Heard (talk node).bytes ((talk node).requests ++ σ.toPush node)
  built : ∀ task, σ.built = some task → ∃ node context acts,
    σ.acts = (node, .pushTask context) :: acts ∧ (σ.server.heap task).context = context

theorem toPush_nil {node : CnetworkNode} (hacts : σ.acts = []) : σ.toPush node = [] := by
  unfold toPush
  rw [hacts]
  rfl

theorem toPush_cons {node node' : CnetworkNode} {act : HttpAct}
    {acts : List (CnetworkNode × HttpAct)} (hacts : σ.acts = (node, act) :: acts)
    (hrest : σ'.acts = acts) :
    σ.toPush node' = (if node = node' then requests [act] else []) ++ σ'.toPush node' := by
  unfold toPush
  rw [hacts, hrest, List.filter_cons]
  by_cases heq : node = node'
  · rw [if_pos (by simpa using heq), if_pos heq, List.map_cons, ← requests_append]
    rfl
  · rw [if_neg (by simpa using heq), if_neg heq, List.nil_append]

/-- The calls of one `message` are all for its node. -/
theorem toPush_map {node node' : CnetworkNode} {acts : List HttpAct}
    (hacts : σ.acts = acts.map fun a => (node, a)) :
    σ.toPush node' = if node = node' then requests acts else [] := by
  unfold toPush
  rw [hacts, List.filter_map, List.map_map]
  by_cases heq : node = node'
  · rw [if_pos heq, List.filter_eq_self.mpr (by simp [heq])]
    congr 1
    exact List.map_id acts
  · rw [if_neg heq, List.filter_eq_nil_iff.mpr (by simp [heq])]
    rfl

theorem conversing_init : Conversing {} fun _ => {} := by
  refine ⟨fun _ _ => rfl, by simp, ?_, by simp⟩
  intro node ctx hctx
  exact absurd hctx (by simp)

/-- Steps of the other threads. -/
theorem Conversing.frame (h : Conversing σ talk) (hcontext : σ'.server.context = σ.server.context)
    (hheap : ∀ task, (σ'.server.heap task).context = (σ.server.heap task).context)
    (hacts : σ'.acts = σ.acts) (hbuilt : σ'.built = σ.built) : Conversing σ' talk := by
  have hpush : ∀ node, σ'.toPush node = σ.toPush node := by
    intro node
    unfold toPush
    rw [hacts]
  constructor
  · rw [hcontext]
    exact h.absent
  · rw [hacts, hcontext]
    exact h.acts
  · intro node ctx hctx
    rw [hpush]
    rw [hcontext] at hctx
    exact h.heard node ctx hctx
  · intro task htask
    rw [hacts, hheap]
    rw [hbuilt] at htask
    exact h.built task htask

/-! ## Callbacks -/

/-- What the callback of a step does. -/
theorem callback_of_step {garbage : ℕ → UInt8} {newTask : ℕ → Bool} {c : Callback}
    {callbacks : List Callback} (hacts : σ.acts = []) (hcallbacks : σ.callbacks = c :: callbacks)
    (h : σ.step n (.callback garbage newTask) = some σ') :
    σ.server.callback garbage newTask c = some (σ'.acts, σ'.server) ∧ σ'.built = σ.built := by
  obtain ⟨-, h⟩ := step_eq_some.mp h
  simp only [System.advance, hacts, hcallbacks] at h
  split at h
  · next acts server hcall =>
    rw [← Option.some.inj h]
    exact ⟨hcall, rfl⟩
  · exact absurd h (by simp)

/-- The context of one node changes, or none does. -/
theorem Conversing.replace {node : CnetworkNode} {ctx : ChttpContext} {t : Conversation}
    (h : Conversing σ talk) (hcontext : σ'.server.context = σ.server.context.insert node ctx)
    (hacts : ∀ a ∈ σ'.acts, a.1 = node)
    (hother : ∀ node', node' ≠ node → σ'.toPush node' = σ.toPush node')
    (hbuilt : σ'.built = none) (hheard : ctx.Heard t.bytes (t.requests ++ σ'.toPush node)) :
    Conversing σ' (Function.update talk node t) := by
  constructor
  · intro node' hnot
    rw [hcontext, AList.mem_insert, not_or] at hnot
    rw [Function.update_of_ne hnot.1]
    exact h.absent node' hnot.2
  · intro a ha
    rw [hcontext, hacts a ha]
    exact (AList.mem_insert _).mpr (.inl rfl)
  · intro node' ctx' hctx'
    rw [hcontext] at hctx'
    by_cases heq : node' = node
    · rw [heq, AList.lookup_insert, Option.some.injEq] at hctx'
      rw [heq, Function.update_self, ← hctx']
      exact hheard
    · rw [AList.lookup_insert_ne heq] at hctx'
      rw [Function.update_of_ne heq, hother node' heq]
      exact h.heard node' ctx' hctx'
  · intro task htask
    rw [hbuilt] at htask
    exact absurd htask (by simp)

/-- **Callbacks.** -/
theorem Conversing.callback {garbage : ℕ → UInt8} {newTask : ℕ → Bool} (h : Conversing σ talk)
    {c : Callback} {callbacks : List Callback} (hacts : σ.acts = [])
    (hcallbacks : σ.callbacks = c :: callbacks)
    (hstep : σ.step n (.callback garbage newTask) = some σ') :
    Conversing σ' (σ.converse (.callback garbage newTask) σ' talk) := by
  obtain ⟨hcall, hsame⟩ := callback_of_step hacts hcallbacks hstep
  have hbuilt : σ.built = none := by
    cases htask : σ.built with
    | none => rfl
    | some task =>
      obtain ⟨node, context, acts, heq, -⟩ := h.built task htask
      exact absurd (hacts.symm.trans heq) (by simp)
  have hbuilt' : σ'.built = none := hsame.trans hbuilt
  have hnone : ∀ node, σ.toPush node = [] := fun node => toPush_nil hacts
  have hkeep : σ'.acts = [] → σ'.server = σ.server → Conversing σ' talk := by
    intro hacts' hserver
    refine h.frame ?_ (fun task => ?_) (hacts'.trans hacts.symm) hsame
    · rw [hserver]
    · rw [hserver]
  unfold converse
  simp only [hcallbacks]
  cases c with
  | allocateMemoryForMessage node =>
    simp only [ChttpServer.callback, ChttpServer.allocateMemoryForMessage] at hcall
    cases hctx : σ.server.context.lookup node with
    | none =>
      rw [hctx] at hcall
      obtain ⟨hacts', hserver⟩ := Prod.mk.inj (Option.some.inj hcall)
      exact hkeep hacts'.symm hserver.symm
    | some ctx =>
      rw [hctx, Option.map_map] at hcall
      obtain ⟨⟨ctx', w⟩, hprepare, heq⟩ := Option.map_eq_some_iff.mp hcall
      obtain ⟨hacts', hserver⟩ := Prod.mk.inj heq
      have hold := (h.heard node ctx hctx).prepareBuffer hprepare
      have hreplaced : Conversing σ' (Function.update talk node (talk node)) := by
        apply h.replace 
        · rw [← hserver]
        · simp [← hacts']
        · exact fun node' _ => (toPush_nil hacts'.symm).trans (hnone node').symm
        · exact hbuilt'
        · rw [toPush_nil hacts'.symm, ← hnone node]
          exact hold
      rw [Function.update_eq_self] at hreplaced
      exact hreplaced
  | message node data =>
    simp only [ChttpServer.callback, ChttpServer.message] at hcall
    cases hctx : σ.server.context.lookup node with
    | none =>
      rw [hctx] at hcall
      obtain ⟨hacts', hserver⟩ := Prod.mk.inj (Option.some.inj hcall)
      have hnot : node ∉ σ.server.context := AList.lookup_eq_none.mp hctx
      simp only [if_neg hnot]
      exact hkeep hacts'.symm hserver.symm
    | some ctx =>
      rw [hctx] at hcall
      have hin : node ∈ σ.server.context := by
        rw [← AList.lookup_isSome, hctx]
        rfl
      by_cases hlen : data.length ≤ ctx.buffer.getLength - ctx.nowIndex
      case neg =>
        simp only [if_neg hlen] at hcall
        exact absurd hcall (by simp)
      simp only [if_pos hlen, Option.map_some, Option.some.injEq, Prod.mk.injEq] at hcall
      obtain ⟨hacts', hserver⟩ := hcall
      have hnew := (h.heard node ctx hctx).message σ.server.pool newTask hlen
      rw [hnone node, List.append_nil] at hnew
      simp only [if_pos hin]
      refine h.replace (by rw [← hserver]) ?_ ?_ hbuilt' ?_
      · intro a ha
        rw [← hacts'] at ha
        obtain ⟨act, -, rfl⟩ := List.mem_map.mp ha
        rfl
      · intro node' hne
        rw [toPush_map hacts'.symm, if_neg (Ne.symm hne), hnone node']
      · rw [toPush_map hacts'.symm, if_pos rfl]
        exact hnew
  | connectionStatus node b =>
    obtain ⟨hacts', hserver⟩ := Prod.mk.inj (Option.some.inj hcall)
    cases b with
    | true =>
      by_cases hin : node ∈ σ.server.context
      · apply hkeep hacts'.symm
        rw [← hserver]
        exact if_pos hin
      · have hcontext : σ'.server.context =
            σ.server.context.insert node (.new 0x1000000) := by
          rw [← hserver]
          show (σ.server.connectionStatus node true).context = _
          unfold ChttpServer.connectionStatus
          rw [if_pos rfl, if_neg hin]
        have hreplaced : Conversing σ' (Function.update talk node (talk node)) := by
          apply h.replace hcontext
          · simp [← hacts']
          · exact fun node' _ => (toPush_nil hacts'.symm).trans (hnone node').symm
          · exact hbuilt'
          · rw [toPush_nil hacts'.symm, h.absent node hin]
            exact .new _
        rw [Function.update_eq_self] at hreplaced
        exact hreplaced
    | false =>
      have hcontext : σ'.server.context = σ.server.context.erase node := by
        rw [← hserver]
        rfl
      show Conversing σ' (Function.update talk node {})
      constructor
      · intro node' hnot
        by_cases heq : node' = node
        · rw [heq, Function.update_self]
        · rw [Function.update_of_ne heq]
          apply h.absent
          intro hin
          apply hnot
          rw [hcontext]
          exact AList.mem_erase.mpr ⟨heq, hin⟩
      · rw [← hacts']
        exact fun a ha => absurd ha List.not_mem_nil
      · intro node' ctx hctx
        have hne : node' ≠ node := by
          intro heq
          rw [hcontext, heq, AList.lookup_erase] at hctx
          exact absurd hctx (by simp)
        rw [hcontext, AList.lookup_erase_ne hne] at hctx
        rw [Function.update_of_ne hne, toPush_nil hacts'.symm, ← hnone node']
        exact h.heard node' ctx hctx
      · intro task htask
        rw [hbuilt'] at htask
        exact absurd htask (by simp)
  | deallocateMemoryForMessage | drop | bindStatus | tcpListenError | udpSendError | udpRecvError =>
    obtain ⟨hacts', hserver⟩ := Prod.mk.inj (Option.some.inj hcall)
    exact hkeep hacts'.symm hserver.symm

/-! ## Runs -/

/-- **Every step goes on with the conversations.** -/
theorem conversing_step {e : SystemEvent} (h : Conversing σ talk) (hstep : σ.step n e = some σ') :
    Conversing σ' (σ.converse e σ' talk) := by
  cases step_cases hstep with
  | setNetworkPool | pool | start | skip | check | fault | send | noPool | replyClose | keepAlive
  | ran | finish | sweep =>
    exact h.frame rfl (fun _ => rfl) rfl rfl
  | idle e qe q hevent hq hsame =>
    have hsilent : σ.converse e { σ with workQueue := q } talk = talk := by
      rcases hevent with ⟨i, rfl⟩ | rfl
      · rfl
      · rfl
    rw [hsilent]
    exact h.frame rfl (fun _ => rfl) rfl rfl
  | callback garbage newTask c callbacks acts server hacts hcallbacks hcall =>
    exact h.callback hacts hcallbacks hstep
  | build woken node context acts hacts hbuilt =>
    have hsilent : ∀ τ, σ.converse (.act woken) τ talk = talk := by
      intro τ
      unfold converse
      simp only [hacts, hbuilt]
    rw [hsilent]
    refine ⟨h.absent, h.acts, h.heard, fun task htask => ⟨node, context, acts, hacts, ?_⟩⟩
    obtain rfl : σ.server.nextTask = task := Option.some.inj htask
    show (Function.update σ.server.heap _ _ _).context = context
    rw [Function.update_self]
  | push woken node context acts task q hacts hbuilt hq =>
    obtain ⟨node₁, context₁, acts₁, heq, hcontext⟩ := h.built task hbuilt
    have hsaid : ∀ τ, σ.converse (.act woken) τ talk = Function.update talk node { talk node with
        requests := (talk node).requests ++ [(σ.server.heap task).context.request] } := by
      intro τ
      unfold converse
      simp only [hacts, hbuilt]
    rw [hsaid]
    rw [hacts, List.cons.injEq, Prod.mk.injEq, HttpAct.pushTask.injEq] at heq
    rw [hcontext, ← heq.1.2]
    have hpush : ∀ node', σ.toPush node' = (if node = node' then requests [.pushTask context]
        else []) ++ toPush { σ with workQueue := q, built := none, acts := acts } node' :=
      fun node' => toPush_cons hacts rfl
    constructor
    · intro node' hnot
      have hne : node' ≠ node := by
        rintro rfl
        apply hnot
        apply h.acts (node', .pushTask context)
        rw [hacts]
        exact List.mem_cons_self
      rw [Function.update_of_ne hne]
      exact h.absent node' hnot
    · intro a ha
      apply h.acts
      rw [hacts]
      exact List.mem_cons_of_mem _ ha
    · intro node' ctx hctx
      have hold := h.heard node' ctx hctx
      rw [hpush] at hold
      by_cases hne : node' = node
      · rw [hne, if_pos rfl, ← List.append_assoc] at hold
        rw [hne, Function.update_self]
        exact hold
      · rw [if_neg (Ne.symm hne), List.nil_append] at hold
        rw [Function.update_of_ne hne]
        exact hold
    · simp
  | close woken node acts hacts =>
    have hsilent : ∀ τ, σ.converse (.act woken) τ talk = talk := by
      intro τ
      unfold converse
      simp only [hacts]
    rw [hsilent]
    have hpush : ∀ node', σ.toPush node' = (if node = node' then requests [.close] else []) ++
        toPush { σ with
          pool := { σ.pool with exchanged := σ.pool.exchanged.close node false }
          acts := acts } node' :=
      fun node' => toPush_cons hacts rfl
    refine ⟨h.absent, fun a ha => ?_, fun node' ctx hctx => ?_, fun task htask => ?_⟩
    · apply h.acts
      rw [hacts]
      exact List.mem_cons_of_mem _ ha
    · have hold := h.heard node' ctx hctx
      rw [hpush, show requests [HttpAct.close] = [] from rfl, ite_self, List.nil_append] at hold
      exact hold
    · obtain ⟨node₁, context₁, acts₁, heq, -⟩ := h.built task htask
      exact absurd (hacts.symm.trans heq) (by simp)

theorem conversing_of_reachable {s : System × (CnetworkNode → Conversation)}
    (h : (conversations n).Reachable s) : Conversing s.1 s.2 := by
  refine h.invariant (I := fun s => Conversing s.1 s.2) conversing_init fun s e s' _ hI hstep => ?_
  obtain ⟨hsystem, hsaid⟩ := Lib.Lts.step_of_record hstep
  rw [hsaid]
  exact conversing_step hI hsystem

/-- **No request is lost, repeated or mixed up.** In every state the server reaches, with any
number of threads, any interleaving and any other connections, the requests pushed for a connection
and those still to be pushed by the running `message` are the first ones a fresh context makes of
the bytes that came, however they are cut into reads. They are all of them, and the connection is
left as the fresh context is, unless a complete request was left where it is because no pool was
set or no task could be allocated. -/
theorem requests_parsed (n : ℕ) {s : System × (CnetworkNode → Conversation)}
    (h : (conversations n).Reachable s) {node : CnetworkNode} {ctx ctx' : ChttpContext}
    (hctx : s.1.server.context.lookup node = some ctx) {reads : List ChttpContext.Read}
    {acts : List HttpAct}
    (hserve : (ChttpContext.new 0x1000000).serve reads = some (acts, ctx'))
    (hstream : ChttpContext.stream reads = (s.2 node).bytes) :
    (s.2 node).requests ++ s.1.toPush node <+: requests acts ∧
      (ctx.state ≠ .done → (s.2 node).requests ++ s.1.toPush node = requests acts ∧
        ctx.toParser = ctx'.toParser ∧ ctx.received = ctx'.received) :=
  ((conversing_of_reachable h).heard node ctx hctx).serve hserve hstream

/-- One request and the beginning of another, in two reads; the thread responds in between. -/
def cutRun : List SystemEvent :=
  serveRun ++
  [.pool (.uv (.tcpRead 1 7 (lit "A B C\r\n") {})), .callback (fun _ => 0) (fun _ => true),
    .callback (fun _ => 0) (fun _ => true), .callback (fun _ => 0) (fun _ => true),
    .pool (.uv (.tcpRead 1 5 (lit "\r\nA B") {})), .callback (fun _ => 0) (fun _ => true),
    .callback (fun _ => 0) (fun _ => true), .act none, .act none, .worker 0, .worker 0, .worker 0,
    .callback (fun _ => 0) (fun _ => true), .worker 0]

theorem requests_parsed_cut :
    ∃ s ctx acts ctx', (conversations 1).run cutRun = some s ∧
      s.1.server.context.lookup sampleNode = some ctx ∧
      (ChttpContext.new 0x1000000).serve [⟨fun _ => 0, lit "A B C\r\n\r\nA B"⟩] =
        some (acts, ctx') ∧
      (s.2 sampleNode).requests.length = 1 ∧
      (s.2 sampleNode).requests ++ s.1.toPush sampleNode = requests acts ∧
      ctx.toParser = ctx'.toParser ∧ ctx.received = ctx'.received := by
  have hrun := (Option.some_get (x := (conversations 1).run cutRun) (by decide +kernel)).symm
  set s := ((conversations 1).run cutRun).get (by decide +kernel) with hs
  obtain ⟨hstate, hbytes, hcount⟩ :
      (s.1.server.context.lookup sampleNode).map (fun ctx => ctx.state) = some .readHeader ∧
      (s.2 sampleNode).bytes = lit "A B C\r\n\r\nA B" ∧
      (s.2 sampleNode).requests.length = 1 := by
    rw [hs]
    decide +kernel
  clear_value s
  obtain ⟨ctx, hctx, hheader⟩ := Option.map_eq_some_iff.mp hstate
  obtain ⟨acts, ctx', hserve⟩ := ChttpContext.exists_serve [⟨fun _ => 0, lit "A B C\r\n\r\nA B"⟩]
    (.new 0x1000000) (.new 0x1000000) (.new _ _ (by decide) (by decide)) (by decide)
  have hparsed := requests_parsed 1 (Lib.Lts.reachable_of_run hrun) hctx hserve
    (by rw [hbytes]; decide)
  exact ⟨s, ctx, acts, ctx', hrun, hctx, hserve, hcount, hparsed.2 (by rw [hheader]; decide)⟩

end System

end NetworkPool
