import Iris.Payload
import Iris.Stats

/-!
# The sender of the TPU channel

`send_transaction` and the flush task offer batches to a bounded channel, which takes a batch or
refuses it; the refusal is not reported to the caller.
-/

namespace Iris

variable {τ : Type}

/-- The outcomes of `try_send_transaction`. -/
inductive TrySend
  | sent
  | full
  | closed
deriving DecidableEq, Repr

/-- Offer a batch to the channel. -/
def trySendTransaction (channel : List (Bytes τ)) (batch : Bytes τ) : TrySend → List (Bytes τ)
  | .sent => channel ++ [batch]
  | .full | .closed => channel

/-- `TpuClientNextSender::send_transaction`. -/
def TpuClientNextSender.sendTransaction (channel : List (Bytes τ)) (stats : TransactionStats)
    (transaction : TpuClientPayload τ) (outcome : TrySend) : List (Bytes τ) × TransactionStats :=
  (trySendTransaction channel transaction.intoEncoded outcome,
    match outcome with
    | .sent => stats.recordTpuEnqueued
    | .full | .closed => stats.recordTpuDropped)

/-- One tick of the flush task. -/
def flushTick (channel : List (Bytes τ)) (outcome : TrySend) : List (Bytes τ) :=
  trySendTransaction channel Bytes.new outcome

theorem mem_trySendTransaction {channel : List (Bytes τ)} {batch b : Bytes τ} {outcome : TrySend}
    (h : b ∈ trySendTransaction channel batch outcome) : b ∈ channel ∨ b = batch := by
  cases outcome with
  | sent => simpa [trySendTransaction] using h
  | full | closed => exact Or.inl h

end Iris
