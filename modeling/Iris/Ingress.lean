import Iris.Payload

/-!
# What the servers do to the rest of the program

A request or stream is handled by a sequence of updates of the shared counters, with at most one
payload offered to the TPU channel among them.
-/

namespace Iris

/-- An effect of a handler. -/
inductive IngressAction (τ : Type)
  | recordJsonRpcReceived (mevProtected : Bool)
  | recordJsonRpcInvalid
  | recordQuicReceived
  | recordQuicInvalid
  | recordQuicMevProtected (mevProtected : Bool)
  | sendTransaction (transaction : TpuClientPayload τ)

/-- The payloads that a handler offers to the TPU channel. -/
def offered {τ : Type} (actions : List (IngressAction τ)) : List (TpuClientPayload τ) :=
  actions.filterMap fun
    | .sendTransaction transaction => some transaction
    | _ => none

end Iris
