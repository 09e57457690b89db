import Iris.Service

/-!
# The ingress ledger

* `ingress_balance`: over all handlers, what was received against what has become of it;
* `updates_tpuEnqueued`: the acceptances that were counted;
* `ingress_unchanged`: neither a tick nor a refresh nor a preparation touches these counters;
* **`ingress_ledger`**: the counters of any run of fewer than `2 ^ 64` events.
-/

namespace Iris

namespace Service

open Lts

variable {ε τ : Type}

theorem countP_isReceived (made : List Counter) :
    made.countP Counter.isReceived = made.count .quicReceived + made.count .jsonRpcReceived := by
  induction made with
  | nil => rfl
  | cons c made ih =>
    rw [List.countP_cons, List.count_cons, List.count_cons, ih]
    cases c <;> simp [Counter.isReceived] <;> omega

theorem countP_isOutcome (made : List Counter) :
    made.countP Counter.isOutcome = made.count .quicInvalid + made.count .jsonRpcInvalid +
      made.count .tpuEnqueued + made.count .tpuDropped := by
  induction made with
  | nil => rfl
  | cons c made ih =>
    rw [List.countP_cons, List.count_cons, List.count_cons, List.count_cons, List.count_cons, ih]
    cases c <;> simp [Counter.isOutcome] <;> omega

/-- **The balance over all handlers.** -/
theorem ingress_balance {s : Service ε τ} (hs : ∀ h ∈ s.handlers, h.Stage) :
    s.updates .quicReceived + s.updates .jsonRpcReceived =
      s.updates .quicInvalid + s.updates .jsonRpcInvalid + s.updates .tpuEnqueued +
        s.updates .tpuDropped + s.handlers.countP Handler.inFlight := by
  have hone : ∀ h ∈ s.handlers,
      h.made.count .quicReceived + h.made.count .jsonRpcReceived =
        h.made.count .quicInvalid + h.made.count .jsonRpcInvalid + h.made.count .tpuEnqueued +
          h.made.count .tpuDropped + if h.inFlight then 1 else 0 := by
    intro h hh
    rw [← countP_isReceived, ← countP_isOutcome]
    exact Handler.received_eq (hs h hh)
  have htotal := Total.total_congr hone
  rw [Total.total_add, Total.total_add, Total.total_add, Total.total_add, Total.total_add,
    ← Total.countP_eq_total] at htotal
  exact htotal

/-- **The acceptances that were counted** are those of the finished handlers. -/
theorem updates_tpuEnqueued {s : Service ε τ} (hs : ∀ h ∈ s.handlers, h.Stage) :
    s.updates .tpuEnqueued = s.handlers.countP fun h => h.finished && h.accepted := by
  rw [Total.countP_eq_total]
  exact Total.total_congr fun h hh => Handler.count_enqueued (hs h hh)

variable (wincode : Wincode) (env : RpcEnv ε)

/-- Neither a tick nor a refresh nor a preparation touches the counters of the handlers. -/
theorem ingress_unchanged {s s' : Service ε τ} {e : ServiceEvent ε τ}
    (he : ∀ i outcome, e ≠ .run i outcome) (h : step wincode env s e = some s') (c : Counter) :
    c.read s'.stats = c.read s.stats := by
  cases did_of_step wincode env h with
  | added outcome => exact absurd rfl (he _ outcome)
  | prepared isBlocked hchannel => exact read_prepareTransactions c _ _ _ _
  | _ => rfl

/-- **The ingress ledger.** In any run of fewer than `2 ^ 64` events: what was received is what
was rejected, accepted or dropped, and what is in flight. A finished handler, of a request or of a
stream that was completely read, has updated one of the four outcome counters, once; each counter
is the number of its updates over all handlers, and the one of the acceptances is the number of
finished handlers whose payload the channel accepted. A tick, and the preparation of any batch,
leave these counters as they are. -/
theorem ingress_ledger {es : List (ServiceEvent ε τ)} {s : Service ε τ}
    (hrun : runFrom (step wincode env) init es = some s) (hlen : es.length < 2 ^ 64) :
    s.stats.quicReceived.toNat + s.stats.jsonRpcReceived.toNat =
      s.stats.quicInvalid.toNat + s.stats.jsonRpcInvalid.toNat + s.stats.tpuEnqueued.toNat +
        s.stats.tpuDropped.toNat + s.handlers.countP Handler.inFlight ∧
    (∀ h ∈ s.handlers, h.finished = true → h.input.Counted →
      ∃ c, h.made.filter Counter.isOutcome = [c]) ∧
    (∀ c : Counter, (c.read s.stats).toNat = total (fun h => h.made.count c) s.handlers) ∧
    s.stats.tpuEnqueued.toNat = s.handlers.countP (fun h => h.finished && h.accepted) ∧
    ∀ e s', step wincode env s e = some s' →
      ((∃ outcome, e = .flush outcome) ∨ ∃ isBlocked, e = .prepare isBlocked) →
        ∀ c : Counter, c.read s'.stats = c.read s.stats := by
  have hs := tallied_run wincode env hrun
  have hread := hs.toNat_read hlen
  refine ⟨?_, fun h hh => Handler.filter_isOutcome (hs.stage h hh), hread, ?_, ?_⟩
  · have hbalance := ingress_balance hs.stage
    rw [← hread, ← hread, ← hread, ← hread, ← hread, ← hread] at hbalance
    exact hbalance
  · rw [← updates_tpuEnqueued hs.stage]
    exact hread .tpuEnqueued
  · rintro e s' hstep (⟨outcome, rfl⟩ | ⟨isBlocked, rfl⟩)
    · exact ingress_unchanged wincode env (by simp) hstep
    · exact ingress_unchanged wincode env (by simp) hstep

/-- A protected packet is accepted and held back, an empty stream is rejected, and a third stream
has only been counted. -/
def ingressRun : List (ServiceEvent TransactionBinaryEncoding Unit) :=
  [.arrive () (.quic (.finished (TransactionPacket.layout ⟨[7], true, none⟩))),
    .arrive () (.quic (.finished [])), .run 0 .sent, .run 1 .sent, .run 0 .sent, .run 0 .sent,
    .arrive () (.quic (.finished [])), .prepare true, .run 1 .sent, .flush .full, .run 2 .sent,
    .run 0 .sent]

theorem ingress_ledger_ingressRun :
    ∃ s, runFrom (step Wincode.standard sampleEnv) init ingressRun = some s ∧
      s.stats.quicReceived.toNat = 3 ∧ s.handlers.countP Handler.inFlight = 1 ∧
      s.stats.quicReceived.toNat + s.stats.jsonRpcReceived.toNat =
        s.stats.quicInvalid.toNat + s.stats.jsonRpcInvalid.toNat + s.stats.tpuEnqueued.toNat +
          s.stats.tpuDropped.toNat + s.handlers.countP Handler.inFlight :=
  ⟨_, rfl, rfl, rfl,
    (@ingress_ledger _ _ Wincode.standard sampleEnv ingressRun _ rfl (by decide)).1⟩

end Service

end Iris
