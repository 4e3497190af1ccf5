import NetworkPool.Lib.Incremental
import NetworkPool.Http.Locality
import NetworkPool.Http.Window

/-!
# The stream of requests

The analysis of a connection is an incremental machine over its received bytes (`analyser`), and
so is the loop of `message`, which moves complete requests out (`server`). What the contexts do
are runs of these machines until they are stuck, so it does not depend on how the stream is cut
into reads.
-/

namespace NetworkPool

open Lib (Incremental)

/-- The received bytes and the parser. -/
abbrev View := List UInt8 × Parser

/-! ## The analyser -/

/-- A pass that changes something. -/
def analyserStep (s : View) : Option View :=
  match pass s.1 s.1.length s.2 with
  | (.again, s') => some s'
  | (.ret answer, s') => if answer && s'.2.state != s.2.state then some s' else none

section Analyser

variable {s s' : View}

/-- A step is a pass that does not wait. -/
theorem pass_of_analyserStep (h : analyserStep s = some s') :
    (pass s.1 s.1.length s.2).2 = s' ∧ (pass s.1 s.1.length s.2).1 ≠ .ret false := by
  unfold analyserStep at h
  split at h
  · next heq =>
    rw [heq]
    exact ⟨Option.some.inj h, by simp⟩
  · next answer _ heq =>
    rw [heq]
    split at h
    · next hanswer =>
      refine ⟨Option.some.inj h, ?_⟩
      cases answer with
      | false => exact absurd hanswer (by simp)
      | true => simp
    · exact absurd h (by simp)

/-- When the analysis is over nothing changes any more. -/
theorem analyserStep_over (h : s.2.state = .done ∨ s.2.state = .bad) : analyserStep s = none := by
  have hpass : pass s.1 s.1.length s.2 = (.ret true, s) := if_pos h
  unfold analyserStep
  rw [hpass]
  simp

theorem analyserStep_append (bs : List UInt8) (hok : s.2.Ok s.1)
    (h : analyserStep s = some s') :
    analyserStep (s.1 ++ bs, s.2) = some (s'.1 ++ bs, s'.2) := by
  obtain ⟨hs', hflow⟩ := pass_of_analyserStep h
  have hmore : s.1.length ≤ (s.1 ++ bs).length := by
    rw [List.length_append]
    omega
  have hpass := pass_append bs hok (.inr ⟨hmore, hflow⟩)
  unfold analyserStep at h ⊢
  rw [hpass]
  generalize pass s.1 s.1.length s.2 = r at h
  obtain ⟨flow, ptr, k⟩ := r
  cases flow with
  | again =>
    rw [← Option.some.inj h]
  | ret answer =>
    simp only at h ⊢
    split at h
    · next hanswer => rw [if_pos hanswer, ← Option.some.inj h]
    · exact absurd h (by simp)

theorem analyserStep_ok (hok : s.2.Ok s.1) (h : analyserStep s = some s') : s'.2.Ok s'.1 := by
  rw [← (pass_of_analyserStep h).1]
  exact hok.pass

end Analyser

/-! ## Requests -/

/-- A complete request. -/
structure Request where
  lines : List (ℕ × ℕ)
  headerSize : ℕ
  chunks : List (ℕ × ℕ)
  bKeepAlive : Bool
  bChunked : Bool
  contentLength : ℕ
  bytes : List UInt8
  deriving DecidableEq

/-- The request a parser holds, of which `bytes` are the bytes. -/
def Parser.request (k : Parser) (bytes : List UInt8) : Request where
  lines := k.lines
  headerSize := k.headerSize
  chunks := k.chunks
  bKeepAlive := k.bKeepAlive
  bChunked := k.bChunked
  contentLength := k.contentLength
  bytes := bytes

/-- The request in the context of a task. -/
def ChttpContext.request (ctx : ChttpContext) : Request :=
  ctx.toParser.request ctx.received

/-- The requests among what `message` does. -/
def requests (acts : List HttpAct) : List Request :=
  acts.filterMap fun
    | .pushTask context => some context.request
    | .close => none

theorem requests_append (acts acts' : List HttpAct) :
    requests (acts ++ acts') = requests acts ++ requests acts' :=
  List.filterMap_append

/-- A step of the analyser; when it is stuck with a complete request, the move to the next. -/
def serverStep (s : View) : Option (View × List Request) :=
  match analyserStep s with
  | some s' => some (s', [])
  | none =>
    if s.2.state = .done then
      some ((s.1.drop s.2.analysisIndex, {}), [s.2.request (s.1.take s.2.analysisIndex)])
    else none

/-! ## The machines -/

/-- The analysis of one message. -/
def analyser : Incremental View UInt8 Request where
  step s := (analyserStep s).map fun s' => (s', [])
  feed s bs := (s.1 ++ bs, s.2)
  Ok s := s.2.Ok s.1
  ok_step := by
    intro s s' o hok h
    obtain ⟨s₁, hstep, heq⟩ := Option.map_eq_some_iff.mp h
    rw [Prod.mk.injEq] at heq
    rw [← heq.1]
    exact analyserStep_ok hok hstep
  ok_feed := fun bs hok => hok.append bs
  feed_nil := by simp
  feed_feed := by simp
  step_feed := by
    intro s s' o bs hok h
    obtain ⟨s₁, hstep, heq⟩ := Option.map_eq_some_iff.mp h
    rw [Prod.mk.injEq] at heq
    rw [analyserStep_append bs hok hstep, Option.map_some, heq.1, heq.2]

/-- The loop of `message`. -/
def server : Incremental View UInt8 Request where
  step := serverStep
  feed s bs := (s.1 ++ bs, s.2)
  Ok s := s.2.Ok s.1
  ok_step := by
    intro s s' o hok h
    unfold serverStep at h
    split at h
    · next hstep =>
      rw [Option.some.injEq, Prod.mk.injEq] at h
      rw [← h.1]
      exact analyserStep_ok hok hstep
    · split at h
      · rw [Option.some.injEq, Prod.mk.injEq] at h
        rw [← h.1]
        exact .init _
      · exact absurd h (by simp)
  ok_feed := fun bs hok => hok.append bs
  feed_nil := by simp
  feed_feed := by simp
  step_feed := by
    intro s s' o bs hok h
    unfold serverStep at h
    split at h
    · next s₁ hstep =>
      rw [Option.some.injEq, Prod.mk.injEq] at h
      unfold serverStep
      simp only [analyserStep_append bs hok hstep, h.1, h.2]
    · split at h
      · next hdone =>
        rw [Option.some.injEq, Prod.mk.injEq] at h
        have hindex := hok.index_le
        have hstuck : analyserStep (s.1 ++ bs, s.2) = none := analyserStep_over (.inl hdone)
        unfold serverStep
        simp only [hstuck, hdone, if_true, ← h.1, ← h.2, List.drop_append_of_le_length hindex,
          List.take_append_of_le_length hindex]
      · exact absurd h (by simp)

theorem analyser_step (s : View) : analyser.step s = (analyserStep s).map fun s' => (s', []) := rfl

/-- What every step of the analyser keeps, a run keeps. -/
theorem analyser_invariant {I : View → Prop} {s s' : View} {o : List Request}
    (h : analyser.Runs s o s') (hI : I s)
    (hkeep : ∀ s s', I s → analyserStep s = some s' → I s') : I s' := by
  apply h.invariant hI
  intro s s' o hI hstep
  obtain ⟨s₁, hstep, heq⟩ := Option.map_eq_some_iff.mp hstep
  rw [Prod.mk.injEq] at heq
  rw [← heq.1]
  exact hkeep s s₁ hI hstep

/-- Bytes are overwritten in place. -/
theorem length_of_runs {s s' : View} {o : List Request} (h : analyser.Runs s o s') :
    s'.1.length = s.1.length := by
  apply analyser_invariant (I := fun t => t.1.length = s.1.length) h rfl
  intro t t' ht hstep
  rw [← (pass_of_analyserStep hstep).1, length_pass, ht]

/-- Runs of the analyser are runs of the server. -/
theorem server_runs {s s' : View} {o : List Request} (h : analyser.Runs s o s') :
    server.Runs s [] s' := by
  induction h with
  | refl s => exact .refl s
  | @head s _ _ _ _ hstep _ ih =>
    obtain ⟨s₁, hstep, heq⟩ := Option.map_eq_some_iff.mp hstep
    rw [Prod.mk.injEq] at heq
    have hserver : server.step s = some (s₁, []) := by
      show serverStep s = some (s₁, [])
      unfold serverStep
      rw [hstep]
    rw [← heq.1] at ih
    exact .head hserver ih

/-! ## Contexts as states of the machines -/

namespace ChttpContext

variable {ctx ctx' : ChttpContext}

def view (ctx : ChttpContext) : View := (ctx.received, ctx.toParser)

/-- The invariant of the contexts that receive. -/
structure Receiving (ctx : ChttpContext) : Prop where
  wf : ctx.Wf
  ok : ctx.toParser.Ok ctx.received

/-- `ctx'` has the buffer of `ctx`, with other contents. -/
structure SameBuffer (ctx ctx' : ChttpContext) : Prop where
  max_eq : ctx'.maxBufferSize = ctx.maxBufferSize
  length_eq : ctx'.buffer.length = ctx.buffer.length
  data_eq : ctx'.buffer.data.length = ctx.buffer.data.length

theorem SameBuffer.trans {ctx'' : ChttpContext} (h : ctx.SameBuffer ctx')
    (h' : ctx'.SameBuffer ctx'') : ctx.SameBuffer ctx'' where
  max_eq := h'.max_eq.trans h.max_eq
  length_eq := h'.length_eq.trans h.length_eq
  data_eq := h'.data_eq.trans h.data_eq

theorem SameBuffer.data_ne (h : ctx.SameBuffer ctx') (hne : ctx.buffer.data ≠ []) :
    ctx'.buffer.data ≠ [] := by
  apply List.ne_nil_of_length_pos
  rw [h.data_eq]
  exact List.length_pos_of_ne_nil hne

theorem Receiving.new (maxBufferSize : ℕ) : (new maxBufferSize).Receiving :=
  ⟨.new maxBufferSize, .init _⟩

theorem sameBuffer_pass (ctx : ChttpContext) : ctx.SameBuffer ctx.pass.2 :=
  ⟨rfl, rfl, length_pass ..⟩

/-- A pass works on the view. -/
theorem pass_view (h : ctx.Receiving) :
    NetworkPool.pass ctx.received ctx.received.length ctx.toParser =
      (ctx.pass.1, ctx.pass.2.view) := by
  have hlength := h.wf.length_received
  have hdata : ctx.received ++ ctx.buffer.data.drop ctx.nowIndex = ctx.buffer.data :=
    List.take_append_drop ..
  have happend := pass_append (ctx.buffer.data.drop ctx.nowIndex) h.ok (.inl hlength.symm)
  rw [hdata] at happend
  have hflow : ctx.pass.1 =
      (NetworkPool.pass ctx.received ctx.received.length ctx.toParser).1 :=
    congrArg (·.1) happend
  have hreceived : ctx.pass.2.received =
      (NetworkPool.pass ctx.received ctx.received.length ctx.toParser).2.1 := by
    have hpassData : ctx.pass.2.buffer.data = _ := congrArg (·.2.1) happend
    have hpassLength := length_pass ctx.received ctx.received.length ctx.toParser
    rw [received, hpassData, List.take_left']
    rw [hpassLength, hlength]
    rfl
  have hparser : ctx.pass.2.toParser =
      (NetworkPool.pass ctx.received ctx.received.length ctx.toParser).2.2 :=
    congrArg (·.2.2) happend
  exact Prod.ext hflow.symm (Prod.ext hreceived.symm hparser.symm)

theorem Receiving.pass (h : ctx.Receiving) : ctx.pass.2.Receiving := by
  have hok := h.ok.pass
  rw [pass_view h] at hok
  exact ⟨h.wf.pass, hok⟩

/-- A pass takes a step of the analyser, if there is one. -/
theorem view_pass (h : ctx.Receiving) :
    ctx.pass.2.view = (analyserStep ctx.view).getD ctx.view := by
  have hview := pass_view h
  obtain ⟨hprogress, hnow, -⟩ := pass_spec ctx
  unfold analyserStep
  simp only [view] at hview ⊢
  rw [hview]
  generalize ctx.pass = r at hprogress hnow
  obtain ⟨flow, ctx'⟩ := r
  cases flow with
  | again => rfl
  | ret answer =>
    rcases hprogress.ret_cases with ⟨hdata, hparser, -⟩ | ⟨rfl, hne, -⟩
    · simp only at hdata hparser hnow
      simp [received, hdata, hparser, hnow]
    · simp only at hne
      simp [hne]

/-- What `analysis` does: passes until it is stuck. -/
structure Analysed (ctx : ChttpContext) (answer : Bool) (ctx' : ChttpContext) : Prop where
  halts : analyser.Halts ctx.view [] ctx'.view
  receiving : ctx'.Receiving
  same : ctx.SameBuffer ctx'
  now_eq : ctx'.nowIndex = ctx.nowIndex
  work_le : ctx'.work ≤ ctx.work
  answer_iff : answer = true ↔ ctx'.state = .done ∨ ctx'.state = .bad

/-- A pass that returns is the last one. -/
theorem analysed_ret {answer : Bool} (h : ctx.Receiving) (hpass : ctx.pass = (.ret answer, ctx')) :
    ctx.Analysed answer ctx' := by
  obtain ⟨hprogress, hnow, -⟩ := pass_spec ctx
  have hview := pass_view h
  have hreceiving := h.pass
  have hsame := sameBuffer_pass ctx
  rw [hpass] at hprogress hnow hview hreceiving hsame
  have hwork : ctx'.work ≤ ctx.work := by
    unfold work
    rw [hnow]
    exact hprogress.work_le
  have hstep : analyser.step ctx.view =
      if answer && ctx'.state != ctx.state then some (ctx'.view, []) else none := by
    rw [analyser_step]
    unfold analyserStep view
    rw [hview]
    exact apply_ite _ _ _ _
  rcases hprogress.ret_cases with ⟨hdata, hparser, hanswer⟩ | ⟨rfl, hne, hover⟩
  · have hsameView : ctx'.view = ctx.view := by
      unfold view received
      rw [hdata, hparser, hnow]
    have hstuck : analyser.step ctx'.view = none := by
      rw [hsameView, hstep, hparser]
      simp
    refine ⟨⟨?_, hstuck⟩, hreceiving, hsame, hnow, hwork, by rw [hparser]; exact hanswer⟩
    rw [hsameView]
    exact .refl _
  · have hstuck : analyser.step ctx'.view = none := by
      rw [analyser_step, analyserStep_over hover]
      rfl
    refine ⟨⟨.single ?_, hstuck⟩, hreceiving, hsame, hnow, hwork, by simp [hover]⟩
    rw [hstep, if_pos (by simpa using hne)]

/-- **`analysis`** runs the analyser until it is stuck. -/
theorem analysis_spec (h : ctx.Receiving) : ctx.Analysed ctx.analysis.1 ctx.analysis.2 := by
  revert h
  refine analysis_induction (P := fun ctx answer ctx' => ctx.Receiving → ctx.Analysed answer ctx')
    ?_ ?_ ctx
  · intro ctx ctx' answer last hpass ih h
    have hview := pass_view h
    have hreceiving := h.pass
    have hsame := sameBuffer_pass ctx
    obtain ⟨-, hnow, -⟩ := pass_spec ctx
    rw [hpass] at hview hreceiving hsame hnow
    have hlast := ih hreceiving
    have hstep : analyser.step ctx.view = some (ctx'.view, []) := by
      rw [analyser_step]
      unfold analyserStep view
      rw [hview]
      rfl
    exact {
      halts := ⟨.head hstep hlast.halts.1, hlast.halts.2⟩
      receiving := hlast.receiving
      same := hsame.trans hlast.same
      now_eq := hlast.now_eq.trans hnow
      work_le := hlast.work_le.trans (work_lt_of_pass hpass).le
      answer_iff := hlast.answer_iff }
  · intro ctx answer ctx' hpass h
    exact analysed_ret h hpass

end ChttpContext

end NetworkPool
