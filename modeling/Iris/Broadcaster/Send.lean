import Iris.Broadcaster.Prepare

/-!
# The MEV-protected broadcaster: sending

`send_to_workers` loads the block list, prepares the transactions of the call and offers each of
them to every leader. The cache of workers belongs to the TPU client and is a parameter.

* `WorkersCache`, `WorkersCacheError`: the interface of the cache;
* `sendToLeader`, `sendAll`, `sendToWorkers`: the code, with a record of every attempt;
* **`handed_sendAll`**: which attempts are made, whatever the workers answer;
* `sendToWorkers_result`, `buffered_sendToWorkers`, `handed_sendToWorkers`: the call as a whole.
-/

namespace Iris

/-- The errors of `try_send_transaction_to_address`; the code tells only two of them apart. -/
inductive WorkersCacheError
  | ShutdownError
  | ReceiverDropped
  | other (err : String)
deriving DecidableEq, Repr

variable {τ ω κ : Type}

/-- The cache of workers: its state `ω`, its workers `κ`, and the two operations used here. -/
structure WorkersCache (τ ω κ : Type) where
  trySendTransactionToAddress : ω → SocketAddr → Bytes τ → Except WorkersCacheError Unit × ω
  pop : ω → SocketAddr → Option κ × ω

/-- A cache whose workers take everything. -/
def WorkersCache.accepting : WorkersCache τ Unit Unit where
  trySendTransactionToAddress := fun _ _ _ => (.ok (), ())
  pop := fun _ _ => (none, ())

/-- The progress of the send loops: the cache, the attempts made so far, and the workers handed
to `shutdown_worker`. -/
structure Sending (τ ω κ : Type) where
  workers : ω
  attempts : List (Bytes τ × SocketAddr × Except WorkersCacheError Unit) := []
  shutdown : List κ := []

/-- What `send_to_workers` leaves behind, with the attempts it made. -/
structure Sent (τ ω κ : Type) where
  result : Except String Unit
  broadcaster : MevProtectedBroadcaster τ
  stats : TransactionStats
  sending : Sending τ ω κ

variable (cache : WorkersCache τ ω κ)

/-- The body of the inner loop: one attempt, and the eviction of a worker whose peer has gone. -/
def sendToLeader (transaction : Bytes τ) (st : Sending τ ω κ) (newLeader : SocketAddr) :
    Sending τ ω κ :=
  let (sendRes, workers) := cache.trySendTransactionToAddress st.workers newLeader transaction
  let st := { st with workers, attempts := st.attempts ++ [(transaction, newLeader, sendRes)] }
  match sendRes with
  | .ok () => st
  | .error .ShutdownError => st
  | .error .ReceiverDropped =>
    match cache.pop st.workers newLeader with
    | (some popWorker, workers) => { st with workers, shutdown := st.shutdown ++ [popWorker] }
    | (none, workers) => { st with workers }
  | .error (.other _) => st

/-- The two loops. -/
def sendAll (transactions : List (Bytes τ)) (leaders : List SocketAddr) (st : Sending τ ω κ) :
    Sending τ ω κ :=
  transactions.foldl (fun st transaction => leaders.foldl (sendToLeader cache transaction) st) st

/-- `send_to_workers`. -/
def sendToWorkers (self : MevProtectedBroadcaster τ) (stats : TransactionStats) (workers : ω)
    (leaders : List SocketAddr) (transaction : Bytes τ) : Sent τ ω κ :=
  let blockedLeaders := self.blockedLeaders
  -- a protected batch must not be released if any address it will be sent to is blocked
  let isBlockedLeaderSlot := hasBlockedSendTarget leaders blockedLeaders
  let prepared := prepareTransactions self.bufferedTransactions stats transaction isBlockedLeaderSlot
  let broadcaster := { self with bufferedTransactions := prepared.buffered }
  if prepared.ready.isEmpty then
    ⟨.ok (), broadcaster, prepared.stats, { workers }⟩
  else
    ⟨.ok (), broadcaster, prepared.stats, sendAll cache prepared.ready leaders { workers }⟩

/-- The pairs passed to `try_send_transaction_to_address`, in order. -/
def Sending.handed (st : Sending τ ω κ) : List (Bytes τ × SocketAddr) :=
  st.attempts.map fun a => (a.1, a.2.1)

/-! ## The attempts do not depend on the workers -/

theorem handed_sendToLeader (t : Bytes τ) (st : Sending τ ω κ) (a : SocketAddr) :
    (sendToLeader cache t st a).handed = st.handed ++ [(t, a)] := by
  unfold sendToLeader
  obtain ⟨res, workers⟩ := cache.trySendTransactionToAddress st.workers a t
  rcases res with (_ | _ | _) | ⟨⟩
  · simp [Sending.handed]
  · dsimp only
    rcases cache.pop workers a with ⟨_ | _, _⟩ <;> simp [Sending.handed]
  · simp [Sending.handed]
  · simp [Sending.handed]

theorem handed_foldl_sendToLeader (t : Bytes τ) (leaders : List SocketAddr) :
    ∀ st : Sending τ ω κ, (leaders.foldl (sendToLeader cache t) st).handed =
      st.handed ++ leaders.map fun a => (t, a) := by
  induction leaders with
  | nil => intro st; simp
  | cons a leaders ih =>
    intro st
    rw [List.foldl_cons, ih, handed_sendToLeader, List.map_cons, List.append_assoc]
    rfl

/-- **The attempts of the loops**: every transaction to every leader, in this order. -/
theorem handed_sendAll (transactions : List (Bytes τ)) (leaders : List SocketAddr) :
    ∀ st : Sending τ ω κ, (sendAll cache transactions leaders st).handed =
      st.handed ++ transactions.flatMap fun t => leaders.map fun a => (t, a) := by
  induction transactions with
  | nil => intro st; simp [sendAll]
  | cons t ts ih =>
    intro st
    rw [List.flatMap_cons, ← List.append_assoc, ← handed_foldl_sendToLeader cache]
    exact ih _

/-! ## The call as a whole -/

section Call

variable (self : MevProtectedBroadcaster τ) (stats : TransactionStats) (workers : ω)
  (leaders : List SocketAddr) (transaction : Bytes τ)

theorem sendToWorkers_result :
    (sendToWorkers cache self stats workers leaders transaction).result = .ok () := by
  simp only [sendToWorkers]
  split_ifs <;> rfl

/-- The round of the hold-back queue that a call is. -/
def sendRound : HoldQueue.Round (Bytes τ) :=
  callRound transaction (hasBlockedSendTarget leaders self.blockedLeaders)

theorem blocked_sendToWorkers :
    (sendToWorkers cache self stats workers leaders transaction).broadcaster.blockedLeaders =
      self.blockedLeaders := by
  simp only [sendToWorkers]
  split_ifs <;> rfl

theorem buffered_sendToWorkers :
    (sendToWorkers cache self stats workers leaders transaction).broadcaster.bufferedTransactions =
      (HoldQueue.step self.bufferedTransactions (sendRound self leaders transaction)).2 := by
  rw [sendRound, ← buffered_prepareTransactions _ stats]
  simp only [sendToWorkers]
  split_ifs <;> rfl

/-- **What a call hands over.** -/
theorem handed_sendToWorkers :
    (sendToWorkers cache self stats workers leaders transaction).sending.handed =
      (HoldQueue.step self.bufferedTransactions (sendRound self leaders transaction)).1.flatMap
        fun t => leaders.map fun a => (t, a) := by
  rw [sendRound, ← ready_prepareTransactions _ stats]
  simp only [sendToWorkers]
  split_ifs with h
  · rw [List.isEmpty_iff.mp h]
    rfl
  · rw [handed_sendAll]
    rfl

end Call

end Iris
