import Mathlib.Data.Finset.Basic
import Iris.Lib.HoldQueue
import Iris.Payload
import Iris.Stats

/-!
# The MEV-protected broadcaster: holding transactions back

* `hasBlockedSendTarget`, `MevProtectedBroadcaster`, `prepareTransactions`: the code;
* `callRound`: a call as a round of a hold-back queue;
* **`prepareTransactions_eq`**: the two lists of a call are that round of the queue;
* **`stats_prepareTransactions`**: and its counters those of the round.
-/

namespace Iris

/-- Does `leaders` contain a blocked address? -/
def hasBlockedSendTarget (leaders : List SocketAddr) (blockedLeaders : Finset SocketAddr) : Bool :=
  leaders.any fun leader => decide (leader ∈ blockedLeaders)

theorem hasBlockedSendTarget_iff {leaders : List SocketAddr} {blocked : Finset SocketAddr} :
    hasBlockedSendTarget leaders blocked = true ↔ ∃ a ∈ leaders, a ∈ blocked := by
  simp [hasBlockedSendTarget]

theorem hasBlockedSendTarget_nil (blocked : Finset SocketAddr) :
    hasBlockedSendTarget [] blocked = false := rfl

variable {τ : Type}

/-- The broadcaster: the block list, replaced as a whole by the refresh thread, and the
transactions held back. -/
structure MevProtectedBroadcaster (τ : Type) where
  blockedLeaders : Finset SocketAddr
  bufferedTransactions : List (Bytes τ)

/-- What `prepare_transactions` returns, with the buffer and the counters it leaves. -/
structure Prepared (τ : Type) where
  ready : List (Bytes τ)
  buffered : List (Bytes τ)
  stats : TransactionStats

/-- `prepare_transactions`, run under the lock of the buffer. -/
def prepareTransactions (buffered : List (Bytes τ)) (stats : TransactionStats) (encoded : Bytes τ)
    (isBlockedLeaderSlot : Bool) : Prepared τ :=
  let (buffered, ready, newlyBuffered) :=
    match TpuClientPayload.decode encoded with
    | some payload =>
      let wireTransaction := payload.wireTransaction
      if isBlockedLeaderSlot && payload.isMevProtected then
        (buffered ++ [wireTransaction], [], 1)
      else
        (buffered, [wireTransaction], 0)
    | none => (buffered, [], (0 : UInt64))
  let stats := if newlyBuffered > 0 then stats.recordMevBuffered newlyBuffered else stats
  let (ready, buffered, stats) :=
    if !isBlockedLeaderSlot && !buffered.isEmpty then
      let released := UInt64.ofNat buffered.length
      let pending := buffered
      (pending ++ ready, [], stats.recordMevReleased released)
    else
      (ready, buffered, stats)
  { ready, buffered, stats := stats.setMevBufferSize buffered.length }

/-! ## A call is a round of a hold-back queue -/

/-- A call as a round: its payload arrives, a protected one must wait, and a blocked slot shuts
the gate. -/
def callRound (encoded : Bytes τ) (isBlockedLeaderSlot : Bool) : HoldQueue.Round (Bytes τ) where
  arrival := (TpuClientPayload.decode encoded).map fun p => (p.wireTransaction, p.isMevProtected)
  shut := isBlockedLeaderSlot

/-- **`prepare_transactions` is one round of the queue.** -/
theorem prepareTransactions_eq (buffered : List (Bytes τ)) (stats : TransactionStats)
    (encoded : Bytes τ) (isBlocked : Bool) :
    ((prepareTransactions buffered stats encoded isBlocked).ready,
      (prepareTransactions buffered stats encoded isBlocked).buffered) =
        HoldQueue.step buffered (callRound encoded isBlocked) := by
  unfold prepareTransactions callRound
  cases hp : TpuClientPayload.decode encoded with
  | none => cases isBlocked <;> cases buffered <;> simp [HoldQueue.step]
  | some p =>
    cases hm : p.isMevProtected <;> cases isBlocked <;> cases buffered <;>
      simp [HoldQueue.step, hm]

theorem ready_prepareTransactions (buffered : List (Bytes τ)) (stats : TransactionStats)
    (encoded : Bytes τ) (isBlocked : Bool) :
    (prepareTransactions buffered stats encoded isBlocked).ready =
      (HoldQueue.step buffered (callRound encoded isBlocked)).1 :=
  congrArg Prod.fst (prepareTransactions_eq buffered stats encoded isBlocked)

theorem buffered_prepareTransactions (buffered : List (Bytes τ)) (stats : TransactionStats)
    (encoded : Bytes τ) (isBlocked : Bool) :
    (prepareTransactions buffered stats encoded isBlocked).buffered =
      (HoldQueue.step buffered (callRound encoded isBlocked)).2 :=
  congrArg Prod.snd (prepareTransactions_eq buffered stats encoded isBlocked)

/-- **The counters of a call**: what it buffers, what it releases of the buffer it finds, and the
size of the buffer it leaves. -/
theorem stats_prepareTransactions (buffered : List (Bytes τ)) (stats : TransactionStats)
    (encoded : Bytes τ) (isBlocked : Bool) :
    (prepareTransactions buffered stats encoded isBlocked).stats =
      { stats with
        mevBuffered := stats.mevBuffered + UInt64.ofNat (callRound encoded isBlocked).entering
        mevReleased :=
          stats.mevReleased + UInt64.ofNat ((callRound encoded isBlocked).letOut buffered)
        mevBufferSize :=
          UInt64.ofNat (HoldQueue.step buffered (callRound encoded isBlocked)).2.length } := by
  rw [← buffered_prepareTransactions buffered stats]
  unfold prepareTransactions callRound
  cases hp : TpuClientPayload.decode encoded with
  | none =>
    cases isBlocked <;> cases buffered <;> simp [HoldQueue.Round.entering, HoldQueue.Round.letOut,
      TransactionStats.recordMevReleased, TransactionStats.setMevBufferSize]
  | some p =>
    cases hm : p.isMevProtected <;> cases isBlocked <;> cases buffered <;>
      simp [HoldQueue.Round.entering, HoldQueue.Round.letOut, hm,
        TransactionStats.recordMevBuffered, TransactionStats.recordMevReleased,
        TransactionStats.setMevBufferSize]

end Iris
