import NetworkPool.Pool.System

/-!
# Reading the trace

The questions asked of a trace: which connection notifications a node got, which connects were
started for it, which buffers were dropped, written or handed to `uv_write`, which messages were
reported, and which objects were registered. All of them look at the visible entries only
(`Obs.visible`), so the effect of a function on all of them is the list of the visible entries
it appends.
-/

namespace NetworkPool

/-! ## Observers -/

/-- A connection notification for `node`. -/
def statusOf (node : CnetworkNode) : Obs → Option Bool
  | .callback (.connectionStatus n bSuccess) => if n = node then some bSuccess else none
  | _ => none

/-- The connection notifications issued for `node`, oldest first. -/
def statuses (node : CnetworkNode) (tr : List Obs) : List Bool :=
  tr.filterMap (statusOf node)

/-- The most recent connection notification for `node`. -/
def lastStatus (node : CnetworkNode) (tr : List Obs) : Option Bool :=
  (statuses node tr).getLast?

/-- A connect started for `node`. -/
def attemptOf (node : CnetworkNode) : Obs → Option ℕ
  | .uvTcpConnect t n => if n = node then some t else none
  | _ => none

/-- The object of the most recent connect started for `node`. -/
def lastAttempt (node : CnetworkNode) (tr : List Obs) : Option ℕ :=
  (tr.filterMap (attemptOf node)).getLast?

/-- A drop notification. -/
def dropOf : Obs → Option (CnetworkNode × UvBuf)
  | .callback (.drop node buf) => some (node, buf)
  | _ => none

/-- The drop notifications issued. -/
def dropped (tr : List Obs) : List (CnetworkNode × UvBuf) :=
  tr.filterMap dropOf

/-- Buffers whose write completed successfully. -/
def writtenOf : Obs → List (CnetworkNode × UvBuf)
  | .written node buf => buf.map fun b => (node, b)
  | _ => []

/-- The buffers written successfully. -/
def written (tr : List Obs) : List (CnetworkNode × UvBuf) :=
  tr.flatMap writtenOf

/-- Buffers handed to `uv_write` on a connection to `node`. -/
def passedOf (node : CnetworkNode) : Obs → List UvBuf
  | .uvWrite _ n buf => if n = node then buf else []
  | _ => []

/-- The buffers handed to `uv_write` on connections to `node`, in order. -/
def passedToUvWrite (node : CnetworkNode) (tr : List Obs) : List UvBuf :=
  tr.flatMap (passedOf node)

/-- A message reported for a TCP node. -/
def messageOf : Obs → Option (CnetworkNode × List UInt8)
  | .callback (.message node data) => if node.IsTcp then some (node, data) else none
  | _ => none

/-- The messages reported for TCP nodes. -/
def messages (tr : List Obs) : List (CnetworkNode × List UInt8) :=
  tr.filterMap messageOf

/-- `t` has been entered in `m_node2stream`. -/
def IsRegistered (t : ℕ) (tr : List Obs) : Prop :=
  ∃ node, Obs.registered t node ∈ tr

/-! ## Calls of the callback interface -/

/-- The calls of the callback interface among entries of the trace. -/
def calls (obs : List Obs) : List Callback :=
  obs.filterMap fun o => match o with
    | .callback c => some c
    | _ => none

/-- A callback among the calls of some entries. -/
theorem mem_calls {c : Callback} {obs : List Obs} : c ∈ calls obs ↔ .callback c ∈ obs := by
  unfold calls
  rw [List.mem_filterMap]
  constructor
  · rintro ⟨o, ho, hc⟩
    cases o with
    | callback c' =>
      obtain rfl : c' = c := Option.some.inj hc
      exact ho
    | _ => exact absurd hc (by simp)
  · intro h
    exact ⟨.callback c, h, rfl⟩

theorem calls_append (a b : List Obs) : calls (a ++ b) = calls a ++ calls b :=
  List.filterMap_append

/-- The notifications of a trace are those of its calls. -/
theorem statuses_calls (node : CnetworkNode) (tr : List Obs) :
    statuses node ((calls tr).map Obs.callback) = statuses node tr := by
  unfold statuses calls
  rw [List.filterMap_map, List.filterMap_filterMap]
  congr 1
  funext o
  cases o with
  | callback c => rfl
  | _ => rfl

/-! ## Visible entries -/

/-- The entries some observer looks at. -/
def Obs.visible : Obs → Bool
  | .callback (.connectionStatus _ _) => true
  | .callback (.drop _ _) => true
  | .callback (.message node _) => node.IsTcp
  | .uvTcpConnect _ _ => true
  | .registered _ _ => true
  | .uvWrite _ _ _ => true
  | .written _ _ => true
  | _ => false

/-- The visible part of a trace. -/
def visible (tr : List Obs) : List Obs :=
  tr.filter Obs.visible

@[simp] theorem visible_nil : visible [] = [] := rfl

@[simp] theorem visible_append (a b : List Obs) : visible (a ++ b) = visible a ++ visible b :=
  List.filter_append ..

theorem visible_cons (o : Obs) (tr : List Obs) :
    visible (o :: tr) = if o.visible then o :: visible tr else visible tr :=
  List.filter_cons

/-- A list of visible entries. -/
theorem visible_map_self {α : Type} {f : α → Obs} (hf : ∀ a, (f a).visible = true) (l : List α) :
    visible (l.map f) = l.map f := by
  refine List.filter_eq_self.mpr fun o ho => ?_
  obtain ⟨a, -, rfl⟩ := List.mem_map.mp ho
  exact hf a

/-- A list of entries none of which is visible. -/
theorem visible_map_nil {α : Type} {f : α → Obs} (hf : ∀ a, (f a).visible = false) (l : List α) :
    visible (l.map f) = [] := by
  refine List.filter_eq_nil_iff.mpr fun o ho => ?_
  obtain ⟨a, -, rfl⟩ := List.mem_map.mp ho
  simp [hf a]

@[simp] theorem visible_freeBufs (buf : List UvBuf) :
    visible (buf.map fun b => .freeBuf b.base) = [] :=
  visible_map_nil (fun _ => rfl) buf

@[simp] theorem visible_freeReqs (reqs : List ℕ) : visible (reqs.map .freeReq) = [] :=
  visible_map_nil (fun _ => rfl) reqs

/-- An observer that answers nothing on the other entries may read the visible part only. -/
theorem filterMap_visible {α : Type} (f : Obs → Option α)
    (hf : ∀ o, o.visible = false → f o = none) (tr : List Obs) :
    (visible tr).filterMap f = tr.filterMap f := by
  induction tr with
  | nil => rfl
  | cons o tr ih =>
    rw [visible_cons]
    by_cases ho : o.visible
    · rw [if_pos ho, List.filterMap_cons, List.filterMap_cons, ih]
    · rw [if_neg ho, ih, List.filterMap_cons, hf o (by simpa using ho)]

theorem flatMap_visible {α : Type} (f : Obs → List α)
    (hf : ∀ o, o.visible = false → f o = []) (tr : List Obs) :
    (visible tr).flatMap f = tr.flatMap f := by
  induction tr with
  | nil => rfl
  | cons o tr ih =>
    rw [visible_cons]
    by_cases ho : o.visible
    · rw [if_pos ho, List.flatMap_cons, List.flatMap_cons, ih]
    · rw [if_neg ho, ih, List.flatMap_cons, hf o (by simpa using ho), List.nil_append]

theorem statuses_visible (node : CnetworkNode) (tr : List Obs) :
    statuses node (visible tr) = statuses node tr := by
  refine filterMap_visible _ (fun o ho => ?_) tr
  cases o with
  | callback c => cases c <;> simp_all [Obs.visible, statusOf]
  | _ => rfl

theorem lastAttempt_visible (node : CnetworkNode) (tr : List Obs) :
    lastAttempt node (visible tr) = lastAttempt node tr := by
  unfold lastAttempt
  rw [filterMap_visible]
  intro o ho
  cases o <;> simp_all [Obs.visible, attemptOf]

theorem dropped_visible (tr : List Obs) : dropped (visible tr) = dropped tr := by
  refine filterMap_visible _ (fun o ho => ?_) tr
  cases o with
  | callback c => cases c <;> simp_all [Obs.visible, dropOf]
  | _ => rfl

theorem written_visible (tr : List Obs) : written (visible tr) = written tr := by
  refine flatMap_visible _ (fun o ho => ?_) tr
  cases o <;> simp_all [Obs.visible, writtenOf]

theorem passedToUvWrite_visible (node : CnetworkNode) (tr : List Obs) :
    passedToUvWrite node (visible tr) = passedToUvWrite node tr := by
  refine flatMap_visible _ (fun o ho => ?_) tr
  cases o <;> simp_all [Obs.visible, passedOf]

theorem messages_visible (tr : List Obs) : messages (visible tr) = messages tr := by
  refine filterMap_visible _ (fun o ho => ?_) tr
  cases o with
  | callback c => cases c <;> simp_all [Obs.visible, messageOf]
  | _ => rfl

theorem isRegistered_visible (t : ℕ) (tr : List Obs) :
    IsRegistered t (visible tr) ↔ IsRegistered t tr := by
  simp [IsRegistered, visible, Obs.visible]

/-! ## Appending -/

@[simp] theorem statuses_append (node : CnetworkNode) (a b : List Obs) :
    statuses node (a ++ b) = statuses node a ++ statuses node b :=
  List.filterMap_append ..

@[simp] theorem dropped_append (a b : List Obs) : dropped (a ++ b) = dropped a ++ dropped b :=
  List.filterMap_append ..

@[simp] theorem written_append (a b : List Obs) : written (a ++ b) = written a ++ written b :=
  List.flatMap_append ..

@[simp] theorem passedToUvWrite_append (node : CnetworkNode) (a b : List Obs) :
    passedToUvWrite node (a ++ b) = passedToUvWrite node a ++ passedToUvWrite node b :=
  List.flatMap_append ..

@[simp] theorem messages_append (a b : List Obs) : messages (a ++ b) = messages a ++ messages b :=
  List.filterMap_append ..

@[simp] theorem not_isRegistered_nil (t : ℕ) : ¬ IsRegistered t [] := by
  simp [IsRegistered]

@[simp] theorem isRegistered_append (t : ℕ) (a b : List Obs) :
    IsRegistered t (a ++ b) ↔ IsRegistered t a ∨ IsRegistered t b := by
  simp [IsRegistered, exists_or]

theorem IsRegistered.mono {t : ℕ} {a b : List Obs} (h : IsRegistered t a) (hab : a <+: b) :
    IsRegistered t b :=
  h.imp fun _ hn => hab.subset hn

/-! ## Dropped buffers -/

/-- The drop notifications of `buf`. -/
def dropCalls (node : CnetworkNode) (buf : List UvBuf) : List Obs :=
  buf.map fun b => .callback (.drop node b)

@[simp] theorem visible_dropAll (node : CnetworkNode) (buf : List UvBuf) :
    visible (dropAll node buf) = dropCalls node buf := by
  induction buf with
  | nil => rfl
  | cons b buf ih =>
    have h : dropAll node (b :: buf) =
        [.callback (.drop node b), .freeBuf b.base] ++ dropAll node buf := rfl
    rw [h, visible_append, ih]
    rfl

@[simp] theorem visible_dropCalls (node : CnetworkNode) (buf : List UvBuf) :
    visible (dropCalls node buf) = dropCalls node buf :=
  visible_map_self (fun _ => rfl) buf

@[simp] theorem dropCalls_nil (node : CnetworkNode) : dropCalls node [] = [] := rfl

@[simp] theorem statuses_dropCalls (node n : CnetworkNode) (buf : List UvBuf) :
    statuses node (dropCalls n buf) = [] := by
  simp [statuses, dropCalls, statusOf]

@[simp] theorem dropped_dropCalls (node : CnetworkNode) (buf : List UvBuf) :
    dropped (dropCalls node buf) = buf.map fun b => (node, b) := by
  simp [dropped, dropCalls, List.filterMap_map, Function.comp_def, dropOf]

@[simp] theorem written_dropCalls (node : CnetworkNode) (buf : List UvBuf) :
    written (dropCalls node buf) = [] := by
  simp [written, dropCalls, writtenOf]

@[simp] theorem passedToUvWrite_dropCalls (node n : CnetworkNode) (buf : List UvBuf) :
    passedToUvWrite node (dropCalls n buf) = [] := by
  simp [passedToUvWrite, dropCalls, passedOf]

@[simp] theorem messages_dropCalls (node : CnetworkNode) (buf : List UvBuf) :
    messages (dropCalls node buf) = [] := by
  simp [messages, dropCalls, messageOf]

@[simp] theorem isRegistered_dropCalls (t : ℕ) (node : CnetworkNode) (buf : List UvBuf) :
    ¬ IsRegistered t (dropCalls node buf) := by
  simp [IsRegistered, dropCalls]

/-! ## Connect attempts -/

theorem lastAttempt_append (node : CnetworkNode) (a b : List Obs) :
    lastAttempt node (a ++ b) = (lastAttempt node b).or (lastAttempt node a) := by
  unfold lastAttempt
  rw [List.filterMap_append, List.getLast?_append]

/-- Entries other than a connect started for the node. -/
theorem lastAttempt_append_of_none {node : CnetworkNode} {a b : List Obs}
    (hb : ∀ o ∈ b, attemptOf node o = none) : lastAttempt node (a ++ b) = lastAttempt node a := by
  have hnil : b.filterMap (attemptOf node) = [] := List.filterMap_eq_nil_iff.mpr hb
  rw [lastAttempt_append]
  unfold lastAttempt
  rw [hnil]
  rfl

/-- Entries that start no connect. -/
def NoAttempt (obs : List Obs) : Prop :=
  ∀ o ∈ obs, ∀ t node, o ≠ .uvTcpConnect t node

theorem NoAttempt.lastAttempt {obs : List Obs} (h : NoAttempt obs) (node : CnetworkNode)
    (tr : List Obs) : lastAttempt node (tr ++ obs) = lastAttempt node tr := by
  refine lastAttempt_append_of_none fun o ho => ?_
  have hne := h o ho
  cases o with
  | uvTcpConnect t n => exact absurd rfl (hne t n)
  | _ => rfl

theorem NoAttempt.append {a b : List Obs} (ha : NoAttempt a) (hb : NoAttempt b) :
    NoAttempt (a ++ b) := by
  intro o ho
  rcases List.mem_append.mp ho with ho | ho
  · exact ha o ho
  · exact hb o ho

theorem noAttempt_dropCalls (node : CnetworkNode) (buf : List UvBuf) :
    NoAttempt (dropCalls node buf) := by
  intro o ho t n
  obtain ⟨b, -, rfl⟩ := List.mem_map.mp ho
  simp

end NetworkPool
