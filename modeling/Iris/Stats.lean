import Iris.Basic

/-!
# Transaction statistics

The shared counters and the functions that update them. `fetch_add` wraps around.
-/

namespace Iris

/-- The atomics of `transaction_stats`. -/
structure TransactionStats where
  quicReceived : UInt64 := 0
  quicInvalid : UInt64 := 0
  jsonRpcReceived : UInt64 := 0
  jsonRpcInvalid : UInt64 := 0
  mevProtectedReceived : UInt64 := 0
  tpuEnqueued : UInt64 := 0
  tpuDropped : UInt64 := 0
  mevBuffered : UInt64 := 0
  mevReleased : UInt64 := 0
  mevBufferSize : UInt64 := 0
deriving DecidableEq, Repr

namespace TransactionStats

variable (s : TransactionStats)

def recordQuicReceived : TransactionStats := { s with quicReceived := s.quicReceived + 1 }

def recordQuicInvalid : TransactionStats := { s with quicInvalid := s.quicInvalid + 1 }

def recordMevProtected (mevProtected : Bool) : TransactionStats :=
  if mevProtected then { s with mevProtectedReceived := s.mevProtectedReceived + 1 } else s

def recordJsonRpcReceived (mevProtected : Bool) : TransactionStats :=
  recordMevProtected { s with jsonRpcReceived := s.jsonRpcReceived + 1 } mevProtected

def recordJsonRpcInvalid : TransactionStats := { s with jsonRpcInvalid := s.jsonRpcInvalid + 1 }

def recordQuicMevProtected (mevProtected : Bool) : TransactionStats :=
  s.recordMevProtected mevProtected

def recordTpuEnqueued : TransactionStats := { s with tpuEnqueued := s.tpuEnqueued + 1 }

def recordTpuDropped : TransactionStats := { s with tpuDropped := s.tpuDropped + 1 }

def recordMevBuffered (count : UInt64) : TransactionStats :=
  { s with mevBuffered := s.mevBuffered + count }

def recordMevReleased (count : UInt64) : TransactionStats :=
  { s with mevReleased := s.mevReleased + count }

def setMevBufferSize (size : ℕ) : TransactionStats :=
  { s with mevBufferSize := UInt64.ofNat size }

end TransactionStats

end Iris
