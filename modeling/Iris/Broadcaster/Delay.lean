import Iris.Broadcaster.Prepare

/-!
# The hold-back buffer is a delay queue

Runs of `prepare_transactions` calls from an empty buffer, each call being given a flush or an
encoded payload and the verdict on its slot.

* `Batch`: what a call can be given; `stateAfter`, `returned`: the run;
* `returnedOf`, `heldOf`: what becomes of the payload of call `i`;
* **`prepare_is_delay_queue`**: the closed form of every run.
-/

open scoped List

namespace Iris

variable {τ : Type}

/-- A batch on the TPU channel: the empty flush batch, or a payload allocated at `a`. -/
inductive Batch (τ : Type)
  | flush
  | payload (a : τ) (wireTransaction : Octets) (mevProtect : Bool)

/-- The batch as it travels. -/
def Batch.encode : Batch τ → Bytes τ
  | .flush => Bytes.new
  | .payload a w m => (TpuClientPayload.new a w m).intoEncoded

/-- The wire bytes of a payload; a flush has none. -/
def Batch.body : Batch τ → Option (Bytes τ)
  | .flush => none
  | .payload a w _ => some (Bytes.fromVec a w)

variable (stats : TransactionStats) (calls : ℕ → Batch τ × Bool)

/-- The buffer and the counters after the first `n` calls. -/
def stateAfter : ℕ → List (Bytes τ) × TransactionStats
  | 0 => ([], stats)
  | n + 1 =>
    let p := prepareTransactions (stateAfter n).1 (stateAfter n).2 (calls n).1.encode (calls n).2
    (p.buffered, p.stats)

/-- What call `j` returns. -/
def returned (j : ℕ) : List (Bytes τ) :=
  (prepareTransactions (stateAfter stats calls j).1 (stateAfter stats calls j).2
    (calls j).1.encode (calls j).2).ready

/-- What call `j` returns of the batch of call `i`: a protected payload when `j` is the first
unblocked call from `i` on, an unprotected one when it has just arrived. -/
def returnedOf (j i : ℕ) : Option (Bytes τ) :=
  match (calls i).1 with
  | .payload a w true =>
    if (calls j).2 = false ∧ ∀ k ∈ Finset.Ico i j, (calls k).2 = true then
      some (Bytes.fromVec a w)
    else none
  | .payload a w false => if i = j then some (Bytes.fromVec a w) else none
  | .flush => none

/-- What the buffer holds of the batch of call `i` after the first `n` calls: a protected payload
when all calls from `i` on were blocked. -/
def heldOf (n i : ℕ) : Option (Bytes τ) :=
  match (calls i).1 with
  | .payload a w true =>
    if ∀ k ∈ Finset.Ico i n, (calls k).2 = true then some (Bytes.fromVec a w) else none
  | _ => none

/-! ## The calls as rounds of the queue -/

/-- The rounds of the queue that the calls are. -/
def callRounds (n : ℕ) : HoldQueue.Round (Bytes τ) := callRound (calls n).1.encode (calls n).2

theorem arrival_callRound_payload (a : τ) (w : Octets) (m b : Bool) :
    (callRound (Batch.payload a w m).encode b).arrival = some (Bytes.fromVec a w, m) := by
  simp [callRound, Batch.encode]

theorem stateAfter_fst (n : ℕ) :
    (stateAfter stats calls n).1 = HoldQueue.heldAfter (callRounds calls) n := by
  induction n with
  | zero => rfl
  | succ n ih =>
    rw [HoldQueue.heldAfter, ← ih]
    exact buffered_prepareTransactions _ _ _ _

theorem returned_eq_releasedIn (j : ℕ) :
    returned stats calls j = HoldQueue.releasedIn (callRounds calls) j := by
  rw [HoldQueue.releasedIn, ← stateAfter_fst stats]
  exact ready_prepareTransactions _ _ _ _

theorem leaving_callRounds (j i : ℕ) :
    HoldQueue.leaving (callRounds calls) j i = returnedOf calls j i := by
  unfold HoldQueue.leaving returnedOf callRounds
  cases (calls i).1 with
  | flush => rfl
  | payload a w m =>
    rw [arrival_callRound_payload]
    cases m <;> rfl

theorem waiting_callRounds (n i : ℕ) :
    HoldQueue.waiting (callRounds calls) n i = heldOf calls n i := by
  unfold HoldQueue.waiting heldOf callRounds
  cases (calls i).1 with
  | flush => rfl
  | payload a w m =>
    rw [arrival_callRound_payload]
    cases m <;> rfl

theorem arrival_fst_callRounds (i : ℕ) :
    (callRounds calls i).arrival.map Prod.fst = (calls i).1.body := by
  unfold callRounds
  cases (calls i).1 with
  | flush => rfl
  | payload a w m =>
    rw [arrival_callRound_payload]
    rfl

/-- **The buffer is exactly a delay queue.** Call `j` returns, in the order of arrival, the
protected payloads whose first unblocked call it is and its own unprotected payload; after `n`
calls the buffer holds, in the order of arrival, the protected payloads that have met blocked
calls only; and together these are the payloads that arrived, each once. -/
theorem prepare_is_delay_queue :
    (∀ j, returned stats calls j = (List.range (j + 1)).filterMap (returnedOf calls j)) ∧
    (∀ n, (stateAfter stats calls n).1 = (List.range n).filterMap (heldOf calls n)) ∧
    (∀ n, (List.range n).flatMap (returned stats calls) ++ (stateAfter stats calls n).1 ~
      (List.range n).filterMap fun i => (calls i).1.body) := by
  refine ⟨fun j => ?_, fun n => ?_, fun n => ?_⟩
  · rw [returned_eq_releasedIn, HoldQueue.releasedIn_eq]
    exact List.filterMap_congr fun i _ => leaving_callRounds calls j i
  · rw [stateAfter_fst, HoldQueue.heldAfter_eq]
    exact List.filterMap_congr fun i _ => waiting_callRounds calls n i
  · have h := HoldQueue.released_append_held_perm (callRounds calls) n
    have hret : returned stats calls = HoldQueue.releasedIn (callRounds calls) :=
      funext (returned_eq_releasedIn stats calls)
    rw [hret, stateAfter_fst]
    rwa [List.filterMap_congr fun i _ => arrival_fst_callRounds calls i] at h

end Iris
