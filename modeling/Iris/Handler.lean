import Iris.IngressBound
import Iris.TpuSender

/-!
# Requests and streams on their way

The handlers of the two servers run at the same time. Each is a sequence of atomic operations:
updates of shared counters, and at most one offer to the TPU channel, whose answer is recorded in
a further counter.

* `Counter`, `Instr`, `program`: the operations; **`foldl_counters`**, `sendTransaction_eq`: they
  make up the functions of the statistics and of the sender;
* `Handler`: a handler, with a record of the counters it has updated and of the answer it got;
* `Stage`: the courses a handler can take; **`stage_start`**, `stage_add`, `stage_offer`: it keeps
  to them;
* `made_cases`, **`received_eq`**, `filter_isOutcome`, `count_enqueued`, `protectedAccepted_le`: what
  the record of a handler says.
-/

namespace Iris

/-- The counters that the servers and the sender update. -/
inductive Counter
  | quicReceived
  | quicInvalid
  | jsonRpcReceived
  | jsonRpcInvalid
  | mevProtectedReceived
  | tpuEnqueued
  | tpuDropped
deriving DecidableEq, Repr

namespace Counter

/-- One `fetch_add`. -/
def record (c : Counter) (stats : TransactionStats) : TransactionStats :=
  match c with
  | .quicReceived => stats.recordQuicReceived
  | .quicInvalid => stats.recordQuicInvalid
  | .jsonRpcReceived => stats.recordJsonRpcReceived false
  | .jsonRpcInvalid => stats.recordJsonRpcInvalid
  | .mevProtectedReceived => stats.recordMevProtected true
  | .tpuEnqueued => stats.recordTpuEnqueued
  | .tpuDropped => stats.recordTpuDropped

def read (c : Counter) (stats : TransactionStats) : UInt64 :=
  match c with
  | .quicReceived => stats.quicReceived
  | .quicInvalid => stats.quicInvalid
  | .jsonRpcReceived => stats.jsonRpcReceived
  | .jsonRpcInvalid => stats.jsonRpcInvalid
  | .mevProtectedReceived => stats.mevProtectedReceived
  | .tpuEnqueued => stats.tpuEnqueued
  | .tpuDropped => stats.tpuDropped

/-- The counter says that something has arrived. -/
def isReceived : Counter → Bool
  | .quicReceived | .jsonRpcReceived => true
  | _ => false

/-- The counter says that a transaction was rejected. -/
def isInvalid : Counter → Bool
  | .quicInvalid | .jsonRpcInvalid => true
  | _ => false

/-- The counter says what has become of a transaction. -/
def isOutcome : Counter → Bool
  | .quicInvalid | .jsonRpcInvalid | .tpuEnqueued | .tpuDropped => true
  | _ => false

theorem read_record (c d : Counter) (stats : TransactionStats) :
    d.read (c.record stats) = d.read stats + if d = c then 1 else 0 := by
  cases c <;> cases d <;> simp [read, record, TransactionStats.recordQuicReceived,
    TransactionStats.recordQuicInvalid, TransactionStats.recordJsonRpcReceived,
    TransactionStats.recordJsonRpcInvalid, TransactionStats.recordMevProtected,
    TransactionStats.recordTpuEnqueued, TransactionStats.recordTpuDropped]

end Counter

variable {ε τ : Type}

/-- The update that a flag causes. -/
def mevCounters (mevProtected : Bool) : List Counter :=
  if mevProtected then [.mevProtectedReceived] else []

namespace IngressAction

/-- The counters that an action updates, one after the other. -/
def counters : IngressAction τ → List Counter
  | .recordJsonRpcReceived m => .jsonRpcReceived :: mevCounters m
  | .recordJsonRpcInvalid => [.jsonRpcInvalid]
  | .recordQuicReceived => [.quicReceived]
  | .recordQuicInvalid => [.quicInvalid]
  | .recordQuicMevProtected m => mevCounters m
  | .sendTransaction _ => []

/-- The effect of an action on the counters, but for the answer to an offer. -/
def record (stats : TransactionStats) : IngressAction τ → TransactionStats
  | .recordJsonRpcReceived m => stats.recordJsonRpcReceived m
  | .recordJsonRpcInvalid => stats.recordJsonRpcInvalid
  | .recordQuicReceived => stats.recordQuicReceived
  | .recordQuicInvalid => stats.recordQuicInvalid
  | .recordQuicMevProtected m => stats.recordQuicMevProtected m
  | .sendTransaction _ => stats

/-- **The updates of an action make up its function.** -/
theorem foldl_counters (action : IngressAction τ) (stats : TransactionStats) :
    action.counters.foldl (fun stats c => c.record stats) stats = action.record stats := by
  cases action with
  | recordJsonRpcReceived m => cases m <;> rfl
  | recordQuicMevProtected m => cases m <;> rfl
  | _ => rfl

end IngressAction

/-- The counter that records the answer to an offer. -/
def answerCounter : TrySend → Counter
  | .sent => .tpuEnqueued
  | .full | .closed => .tpuDropped

theorem sendTransaction_eq (channel : List (Bytes τ)) (stats : TransactionStats)
    (p : TpuClientPayload τ) (outcome : TrySend) :
    TpuClientNextSender.sendTransaction channel stats p outcome =
      (trySendTransaction channel p.intoEncoded outcome,
        (answerCounter outcome).record stats) := by
  cases outcome <;> rfl

/-- An atomic operation of a handler. -/
inductive Instr (τ : Type)
  | add (c : Counter)
  | offer (payload : TpuClientPayload τ)

/-- The operations of an action. -/
def IngressAction.instrs : IngressAction τ → List (Instr τ)
  | .sendTransaction payload => [.offer payload]
  | action => action.counters.map .add

/-- The operations of some actions. -/
def program (actions : List (IngressAction τ)) : List (Instr τ) :=
  actions.flatMap IngressAction.instrs

/-- What the server does with an input. -/
def IngressInput.actions (wincode : Wincode) (a : τ) (env : RpcEnv ε) :
    IngressInput ε → List (IngressAction τ)
  | .json txn params mevProtect => (sendTransaction env a txn params mevProtect).1
  | .quic stream => handleUniStream wincode a stream

/-- The input is a request, or a stream that is completely read. -/
def IngressInput.Counted : IngressInput ε → Prop
  | .json _ _ _ => True
  | .quic stream => (stream.readToEnd QUIC_MAX_SIZE).isSome = true

/-- A handler: its input, the counters it has updated, the offer it has made with the answer to
it, and the operations to come. -/
structure Handler (ε τ : Type) where
  input : IngressInput ε
  made : List Counter
  answer : Option (TpuClientPayload τ × TrySend)
  rest : List (Instr τ)

namespace Handler

def start (wincode : Wincode) (env : RpcEnv ε) (a : τ) (input : IngressInput ε) : Handler ε τ :=
  ⟨input, [], none, program (input.actions wincode a env)⟩

/-- The handler updates a counter, `rest` being left. -/
def add (h : Handler ε τ) (c : Counter) (rest : List (Instr τ)) : Handler ε τ :=
  { h with made := h.made ++ [c], rest }

/-- The handler makes its offer, and then has to record the answer. -/
def offer (h : Handler ε τ) (p : TpuClientPayload τ) (outcome : TrySend)
    (rest : List (Instr τ)) : Handler ε τ :=
  { h with answer := some (p, outcome), rest := .add (answerCounter outcome) :: rest }

/-! ## The courses of a handler -/

/-- The last operation of a program: a rejection, or the offer of a payload with this flag. -/
def Closes (mevProtected : Bool) : Instr τ → Prop
  | .add c => c.isInvalid = true
  | .offer p => p.isMevProtected = mevProtected

theorem closes_invalid (c : Counter) {m : Bool} (h : c.isInvalid = true) :
    Closes m (.add c : Instr τ) := h

theorem closes_new (a : τ) (w : Octets) (m : Bool) :
    Closes m (.offer (TpuClientPayload.new a w m)) := TpuClientPayload.isMevProtected_new a w m

/-- The stages of a handler. It counts what it has received, and whether that is protected; then
it rejects it, or offers it and records the answer. -/
inductive Stage (h : Handler ε τ) : Prop
  | ignored (hinput : ¬ h.input.Counted) (hmade : h.made = []) (hanswer : h.answer = none)
      (hrest : h.rest = [])
  | underway (r : Counter) (m : Bool) (todo : List Counter) (last : Instr τ)
      (hr : r.isReceived = true) (hlast : Closes m last)
      (hmade : h.made ++ todo = r :: mevCounters m) (hanswer : h.answer = none)
      (hrest : h.rest = todo.map .add ++ [last])
  | answered (r : Counter) (p : TpuClientPayload τ) (outcome : TrySend) (hr : r.isReceived = true)
      (hmade : h.made = r :: mevCounters p.isMevProtected) (hanswer : h.answer = some (p, outcome))
      (hrest : h.rest = [.add (answerCounter outcome)])
  | rejected (r : Counter) (m : Bool) (c : Counter) (hr : r.isReceived = true)
      (hc : c.isInvalid = true) (hmade : h.made = r :: mevCounters m ++ [c])
      (hanswer : h.answer = none) (hrest : h.rest = [])
  | recorded (r : Counter) (p : TpuClientPayload τ) (outcome : TrySend) (hr : r.isReceived = true)
      (hmade : h.made = r :: mevCounters p.isMevProtected ++ [answerCounter outcome])
      (hanswer : h.answer = some (p, outcome)) (hrest : h.rest = [])

/-- A handler with a whole program before it. -/
theorem stage_of_rest {h : Handler ε τ} (hmade : h.made = []) (hanswer : h.answer = none)
    {r : Counter} {m : Bool} {last : Instr τ} (hr : r.isReceived = true) (hlast : Closes m last)
    (hrest : h.rest = (r :: mevCounters m).map .add ++ [last]) : Stage h :=
  .underway r m (r :: mevCounters m) last hr hlast (by rw [hmade]; rfl) hanswer hrest

/-- **Every program takes one of the courses.** -/
theorem stage_start (wincode : Wincode) (env : RpcEnv ε) (a : τ) (input : IngressInput ε) :
    Stage (start wincode env a input) := by
  cases input with
  | json txn params mevProtect =>
    rcases sendTransaction_cases env a txn params mevProtect with ⟨e, he⟩ | ⟨w, signature, -, hw⟩
    · refine stage_of_rest (r := .jsonRpcReceived) (m := mevProtect.getD false)
        rfl rfl rfl (closes_invalid .jsonRpcInvalid rfl) ?_
      simp [start, IngressInput.actions, he, program, IngressAction.instrs, IngressAction.counters]
    · refine stage_of_rest (r := .jsonRpcReceived) (m := mevProtect.getD false) rfl rfl rfl
        (closes_new a w (mevProtect.getD false)) ?_
      simp [start, IngressInput.actions, hw, program, IngressAction.instrs, IngressAction.counters]
  | quic stream =>
    cases hdata : stream.readToEnd QUIC_MAX_SIZE with
    | none =>
      refine .ignored ?_ rfl rfl ?_
      · simp [start, IngressInput.Counted, hdata]
      · simp [start, IngressInput.actions, handleUniStream, hdata, program]
    | some data =>
      cases hpacket : wincode.deserialize data with
      | none =>
        refine stage_of_rest (r := .quicReceived) (m := false) rfl rfl rfl
          (closes_invalid .quicInvalid rfl) ?_
        simp [start, IngressInput.actions, handleUniStream, hdata, hpacket, program,
          IngressAction.instrs, IngressAction.counters, mevCounters]
      | some packet =>
        refine stage_of_rest (r := .quicReceived) (m := packet.mevProtect) rfl rfl rfl
          (closes_new a packet.wireTransaction packet.mevProtect) ?_
        simp [start, IngressInput.actions, handleUniStream, hdata, hpacket, program,
          IngressAction.instrs, IngressAction.counters]

/-- **A handler that updates a counter** goes on in its course. -/
theorem stage_add {h : Handler ε τ} (hs : Stage h) {c : Counter} {rest : List (Instr τ)}
    (hrest : h.rest = .add c :: rest) : Stage (h.add c rest) := by
  cases hs with
  | ignored hinput hmade hanswer hnil => rw [hnil] at hrest; cases hrest
  | underway r m todo last hr hlast hmade hanswer hprogram =>
    rw [hprogram] at hrest
    cases todo with
    | nil =>
      obtain ⟨rfl, rfl⟩ := List.cons.inj hrest
      rw [List.append_nil] at hmade
      exact .rejected r m c hr hlast (by rw [← hmade]; rfl) hanswer rfl
    | cons d todo =>
      obtain ⟨hhead, htail⟩ := List.cons.inj hrest
      cases hhead
      exact .underway r m todo last hr hlast
        (by rw [← hmade]; exact List.append_assoc h.made [c] todo) hanswer htail.symm
  | answered r p outcome hr hmade hanswer hprogram =>
    rw [hprogram] at hrest
    cases hrest
    exact .recorded r p outcome hr (by rw [← hmade]; rfl) hanswer rfl
  | rejected r m d hr hd hmade hanswer hnil => rw [hnil] at hrest; cases hrest
  | recorded r p outcome hr hmade hanswer hnil => rw [hnil] at hrest; cases hrest

/-- **A handler that makes its offer** goes on in its course, and has had no answer before. -/
theorem stage_offer {h : Handler ε τ} (hs : Stage h) {p : TpuClientPayload τ}
    {rest : List (Instr τ)} (hrest : h.rest = .offer p :: rest) (outcome : TrySend) :
    h.answer = none ∧ Stage (h.offer p outcome rest) := by
  cases hs with
  | ignored hinput hmade hanswer hnil => rw [hnil] at hrest; cases hrest
  | underway r m todo last hr hlast hmade hanswer hprogram =>
    rw [hprogram] at hrest
    cases todo with
    | nil =>
      obtain ⟨rfl, rfl⟩ := List.cons.inj hrest
      rw [List.append_nil] at hmade
      refine ⟨hanswer, .answered r p outcome hr ?_ rfl rfl⟩
      rw [show p.isMevProtected = m from hlast]
      exact hmade
    | cons d todo => cases (List.cons.inj hrest).1
  | answered r p outcome hr hmade hanswer hprogram => rw [hprogram] at hrest; cases hrest
  | rejected r m d hr hd hmade hanswer hnil => rw [hnil] at hrest; cases hrest
  | recorded r p outcome hr hmade hanswer hnil => rw [hnil] at hrest; cases hrest

/-! ## The record of a handler -/

/-- The handler has counted what it received, and not yet what has become of it. -/
def inFlight (h : Handler ε τ) : Bool :=
  h.made.any Counter.isReceived && !h.made.any Counter.isOutcome

/-- The channel has accepted the payload. -/
def accepted (h : Handler ε τ) : Bool :=
  match h.answer with
  | some (_, .sent) => true
  | _ => false

/-- The handler has nothing left to do. -/
def finished (h : Handler ε τ) : Bool := h.rest.isEmpty

/-- The protected payloads, one at most, that the channel has accepted. -/
def protectedAccepted (h : Handler ε τ) : ℕ :=
  match h.answer with
  | some (p, .sent) => if p.isMevProtected then 1 else 0
  | _ => 0

theorem isOutcome_of_isReceived {r : Counter} (h : r.isReceived = true) : r.isOutcome = false := by
  cases r <;> first | rfl | cases h

theorem isReceived_of_isOutcome {c : Counter} (h : c.isOutcome = true) : c.isReceived = false := by
  cases c <;> first | rfl | cases h

theorem isOutcome_of_isInvalid {c : Counter} (h : c.isInvalid = true) : c.isOutcome = true := by
  cases c <;> first | rfl | cases h

theorem isOutcome_answerCounter (outcome : TrySend) : (answerCounter outcome).isOutcome = true := by
  cases outcome <;> rfl

/-- The part of a record before the outcome: what has been received, and whether it is
protected. -/
structure Opening (made : List Counter) : Prop where
  received : made.countP Counter.isReceived = 1
  outcome : ∀ c ∈ made, c.isOutcome = false

theorem opening_cons {r : Counter} (hr : r.isReceived = true) {done : List Counter}
    (hdone : ∀ c ∈ done, c = .mevProtectedReceived) : Opening (r :: done) where
  received := by
    have hnone : done.countP Counter.isReceived = 0 :=
      List.countP_eq_zero.mpr fun c hc => by rw [hdone c hc]; exact Bool.false_ne_true
    rw [List.countP_cons_of_pos hr, hnone]
  outcome := by
    intro c hc
    rcases List.mem_cons.mp hc with rfl | hc
    · exact isOutcome_of_isReceived hr
    · rw [hdone c hc]
      rfl

theorem Opening.countP_isOutcome {made : List Counter} (ho : Opening made) :
    made.countP Counter.isOutcome = 0 :=
  List.countP_eq_zero.mpr fun c hc => by rw [ho.outcome c hc]; exact Bool.false_ne_true

theorem Opening.filter_concat {made : List Counter} (ho : Opening made) {c : Counter}
    (hc : c.isOutcome = true) : (made ++ [c]).filter Counter.isOutcome = [c] := by
  have hnil : made.filter Counter.isOutcome = [] :=
    List.filter_eq_nil_iff.mpr fun d hd => by rw [ho.outcome d hd]; exact Bool.false_ne_true
  rw [List.filter_append, hnil, List.filter_singleton, hc]
  rfl

theorem Opening.count_tpuEnqueued {made : List Counter} (ho : Opening made) :
    made.count .tpuEnqueued = 0 :=
  List.count_eq_zero.mpr fun hmem => Bool.noConfusion (ho.outcome _ hmem)

theorem eq_of_mem_mevCounters {c : Counter} {m : Bool} (h : c ∈ mevCounters m) :
    c = .mevProtectedReceived := by
  cases m with
  | false => cases h
  | true => exact List.mem_singleton.mp h

theorem opening_mevCounters {r : Counter} (hr : r.isReceived = true) (m : Bool) :
    Opening (r :: mevCounters m) := opening_cons hr fun _ hc => eq_of_mem_mevCounters hc

/-- A handler that is underway has made a part of its opening. -/
theorem opening_of_append {r : Counter} (hr : r.isReceived = true) {m : Bool}
    {made todo : List Counter} (h : made ++ todo = r :: mevCounters m) :
    made = [] ∨ Opening made := by
  cases made with
  | nil => exact Or.inl rfl
  | cons c done =>
    obtain ⟨rfl, htail⟩ := List.cons.inj h
    refine Or.inr (opening_cons hr fun d hd => ?_)
    have hmem : d ∈ mevCounters m := htail ▸ List.mem_append_left todo hd
    exact eq_of_mem_mevCounters hmem

/-- The record of a handler: an opening, and the outcome if there is one already. -/
theorem made_cases {h : Handler ε τ} (hs : Stage h) :
    h.made = [] ∨ Opening h.made ∨
      ∃ opening c, Opening opening ∧ c.isOutcome = true ∧ h.made = opening ++ [c] := by
  cases hs with
  | ignored hinput hmade hanswer hrest => exact Or.inl hmade
  | underway r m todo last hr hlast hmade hanswer hrest =>
    exact (opening_of_append hr hmade).imp_right Or.inl
  | answered r p outcome hr hmade hanswer hrest =>
    rw [hmade]
    exact Or.inr (Or.inl (opening_mevCounters hr _))
  | rejected r m c hr hc hmade hanswer hrest =>
    exact Or.inr (Or.inr ⟨_, c, opening_mevCounters hr m, isOutcome_of_isInvalid hc, hmade⟩)
  | recorded r p outcome hr hmade hanswer hrest =>
    exact Or.inr (Or.inr ⟨_, _, opening_mevCounters hr _, isOutcome_answerCounter outcome, hmade⟩)

/-- **The balance of a handler.** It has counted as many arrivals as outcomes, or one more while
it is in flight. -/
theorem received_eq {h : Handler ε τ} (hs : Stage h) :
    h.made.countP Counter.isReceived =
      h.made.countP Counter.isOutcome + if h.inFlight then 1 else 0 := by
  unfold inFlight
  rcases made_cases hs with hmade | ho | ⟨opening, c, ho, hc, hmade⟩
  · rw [hmade]
    rfl
  · have hout : h.made.any Counter.isOutcome = false := List.any_eq_false.mpr fun c hc => by
      rw [ho.outcome c hc]
      exact Bool.false_ne_true
    have hrec : h.made.any Counter.isReceived = true :=
      List.any_eq_true.mpr (List.countP_pos_iff.mp (by rw [ho.received]; exact Nat.one_pos))
    rw [ho.received, ho.countP_isOutcome, hout, hrec]
    rfl
  · have hout : h.made.any Counter.isOutcome = true := by
      rw [hmade]
      simp [hc]
    rw [hout, Bool.not_true, Bool.and_false, hmade, List.countP_append, List.countP_append,
      ho.received, ho.countP_isOutcome, List.countP_singleton, List.countP_singleton,
      isReceived_of_isOutcome hc, hc]
    rfl

/-- **A finished handler has counted one outcome**, if its input counts at all. -/
theorem filter_isOutcome {h : Handler ε τ} (hs : Stage h) (hfinished : h.finished = true)
    (hcounted : h.input.Counted) : ∃ c, h.made.filter Counter.isOutcome = [c] := by
  have hrest : h.rest = [] := List.isEmpty_iff.mp hfinished
  cases hs with
  | ignored hinput => exact absurd hcounted hinput
  | underway r m todo last hr hlast hmade hanswer hprogram =>
    rw [hprogram] at hrest
    cases (List.append_eq_nil_iff.mp hrest).2
  | answered r p outcome hr hmade hanswer hprogram => rw [hprogram] at hrest; cases hrest
  | rejected r m c hr hc hmade =>
    rw [hmade]
    exact ⟨c, (opening_mevCounters hr m).filter_concat (isOutcome_of_isInvalid hc)⟩
  | recorded r p outcome hr hmade =>
    rw [hmade]
    exact ⟨_, (opening_mevCounters hr _).filter_concat (isOutcome_answerCounter outcome)⟩

/-- **A handler has counted an acceptance** when it is finished and the channel has accepted its
payload. -/
theorem count_enqueued {h : Handler ε τ} (hs : Stage h) :
    h.made.count .tpuEnqueued = if h.finished && h.accepted then 1 else 0 := by
  unfold accepted
  cases hs with
  | ignored hinput hmade hanswer hrest =>
    rw [hmade, hanswer, Bool.and_false]
    rfl
  | underway r m todo last hr hlast hmade hanswer hrest =>
    rw [hanswer, Bool.and_false]
    rcases opening_of_append hr hmade with hnil | ho
    · rw [hnil]
      rfl
    · exact ho.count_tpuEnqueued
  | answered r p outcome hr hmade hanswer hrest =>
    have hfinished : h.finished = false := by rw [finished, hrest]; rfl
    rw [hfinished, Bool.false_and, hmade]
    exact (opening_mevCounters hr _).count_tpuEnqueued
  | rejected r m c hr hc hmade hanswer hrest =>
    have hne : (c == .tpuEnqueued) = false := by cases c <;> first | rfl | cases hc
    rw [hanswer, Bool.and_false, hmade, List.count_append,
      (opening_mevCounters hr m).count_tpuEnqueued, List.count_singleton, hne]
    rfl
  | recorded r p outcome hr hmade hanswer hrest =>
    have hfinished : h.finished = true := by rw [finished, hrest]; rfl
    rw [hfinished, Bool.true_and, hanswer, hmade, List.count_append,
      (opening_mevCounters hr _).count_tpuEnqueued]
    cases outcome <;> rfl

/-- **A protected payload that was accepted has been counted as protected.** -/
theorem protectedAccepted_le {h : Handler ε τ} (hs : Stage h) :
    h.protectedAccepted ≤ h.made.count .mevProtectedReceived := by
  have hle : ∀ (r : Counter) (p : TpuClientPayload τ) (outcome : TrySend) (rest : List Counter),
      h.answer = some (p, outcome) → h.made = r :: mevCounters p.isMevProtected ++ rest →
        h.protectedAccepted ≤ h.made.count .mevProtectedReceived := by
    intro r p outcome rest hanswer hmade
    have hflag : (if p.isMevProtected then 1 else 0) ≤ h.made.count .mevProtectedReceived := by
      cases hm : p.isMevProtected with
      | false => exact Nat.zero_le _
      | true =>
        have hmem : Counter.mevProtectedReceived ∈ h.made := by
          rw [hmade, hm]
          simp [mevCounters]
        exact List.count_pos_iff.mpr hmem
    unfold protectedAccepted
    rw [hanswer]
    cases outcome with
    | sent => exact hflag
    | full | closed => exact Nat.zero_le _
  have hnone : h.answer = none → h.protectedAccepted ≤ h.made.count .mevProtectedReceived := by
    intro hanswer
    unfold protectedAccepted
    rw [hanswer]
    exact Nat.zero_le _
  cases hs with
  | ignored hinput hmade hanswer => exact hnone hanswer
  | underway r m todo last hr hlast hmade hanswer => exact hnone hanswer
  | rejected r m c hr hc hmade hanswer => exact hnone hanswer
  | answered r p outcome hr hmade hanswer =>
    exact hle r p outcome [] hanswer (by rw [hmade, List.append_nil])
  | recorded r p outcome hr hmade hanswer => exact hle r p outcome _ hanswer hmade

end Handler

end Iris
