import Iris.DecodeTransaction
import Iris.Ingress

/-!
# The JSON-RPC server

* `RpcEnv`: the encodings, the transaction parser and the error texts of the libraries in use;
* `sendTransaction`: the handler of `sendTransaction` requests;
* `sendTransaction_cases`: the two ways a request can end;
* **`json_ingress_exact`**: which texts are accepted, and that their bytes are forwarded.
-/

namespace Iris

/-- The libraries behind the server: the encodings `ε` a client can ask for, and the parser of
transactions, which finds the signatures. -/
structure RpcEnv (ε : Type) where
  base64 : ε
  intoBinaryEncoding : ε → Option TransactionBinaryEncoding
  display : ε → String
  tryNewUnsanitized : Octets → Option (List Octets)
  errors : CodecErrors

/-- The part of the request's configuration that is used. -/
structure RpcSendTransactionConfig (ε : Type) where
  encoding : Option ε

variable {ε τ : Type} (env : RpcEnv ε) (a : τ)

/-- The encoding a request asks for. -/
def requestEncoding (params : Option (RpcSendTransactionConfig ε)) : ε :=
  (params.bind fun params => params.encoding).getD env.base64

/-- `send_transaction`, the decoded vector being allocated at `a`: what the handler does, and its
reply. -/
def sendTransaction (txn : Text) (params : Option (RpcSendTransactionConfig ε))
    (mevProtect : Option Bool) : List (IngressAction τ) × Except ErrorObject Text :=
  let mevProtect := mevProtect.getD false
  let received := .recordJsonRpcReceived mevProtect
  let encoding := requestEncoding env params
  match env.intoBinaryEncoding encoding with
  | none =>
    ([received, .recordJsonRpcInvalid], .error (invalidRequest
      ("unsupported encoding: " ++ env.display encoding ++ ". Supported encodings: base58, base64")))
  | some binaryEncoding =>
    match decodeTransaction env.errors txn binaryEncoding with
    | .error e => ([received, .recordJsonRpcInvalid], .error e)
    | .ok wireTransaction =>
      match env.tryNewUnsanitized wireTransaction with
      | none =>
        ([received, .recordJsonRpcInvalid],
          .error (invalidRequest "cannot deserialize transaction"))
      | some signatures =>
        match signatures.head? with
        | none =>
          ([received, .recordJsonRpcInvalid],
            .error (invalidRequest "transaction has no signatures"))
        | some signature =>
          ([received, .sendTransaction (TpuClientPayload.new a wireTransaction mevProtect)],
            .ok (Base58.encode signature))

/-- The bytes a request stands for, if it is accepted. -/
def Accepted (env : RpcEnv ε) (txn : Text) (params : Option (RpcSendTransactionConfig ε))
    (w signature : Octets) : Prop :=
  ∃ encoding signatures, env.intoBinaryEncoding (requestEncoding env params) = some encoding ∧
    decodeTransaction env.errors txn encoding = .ok w ∧
    env.tryNewUnsanitized w = some signatures ∧ signatures.head? = some signature

/-- **The two ways a request can end.** -/
theorem sendTransaction_cases (env : RpcEnv ε) (a : τ) (txn : Text)
    (params : Option (RpcSendTransactionConfig ε)) (mevProtect : Option Bool) :
    (∃ e, sendTransaction env a txn params mevProtect =
      ([.recordJsonRpcReceived (mevProtect.getD false), .recordJsonRpcInvalid], .error e)) ∨
    ∃ w signature, Accepted env txn params w signature ∧
      sendTransaction env a txn params mevProtect =
        ([.recordJsonRpcReceived (mevProtect.getD false),
          .sendTransaction (TpuClientPayload.new a w (mevProtect.getD false))],
            .ok (Base58.encode signature)) := by
  simp only [sendTransaction]
  split
  · exact Or.inl ⟨_, rfl⟩
  · rename_i encoding henc
    split
    · exact Or.inl ⟨_, rfl⟩
    · rename_i w hdec
      split
      · exact Or.inl ⟨_, rfl⟩
      · rename_i signatures hparse
        split
        · exact Or.inl ⟨_, rfl⟩
        · rename_i signature hsig
          exact Or.inr ⟨w, signature, ⟨encoding, signatures, henc, hdec, hparse, hsig⟩, rfl⟩

/-- **JSON ingress.** A byte string that is empty, or begins with `V1_PREFIX` or a smaller byte,
is accepted in base64 exactly up to the length its first byte allows, and any string in base58
exactly up to `PACKET_DATA_SIZE`. A request that fails offers nothing to the channel; one that
succeeds offers one payload, with the decoded bytes and the flag of the request, and replies with
the first signature. -/
theorem json_ingress_exact (env : RpcEnv ε) :
    (∀ w : Octets, (∀ b ∈ w.head?, b = V1_PREFIX ∨ b ≤ 0x80) →
      ((w.length ≤ if w.head? = some V1_PREFIX then 4096 else 1232) →
        decodeTransaction env.errors (Base64.encode w) .Base64 = .ok w) ∧
      ((¬ w.length ≤ if w.head? = some V1_PREFIX then 4096 else 1232) →
        ∃ e, decodeTransaction env.errors (Base64.encode w) .Base64 = .error e)) ∧
    (∀ w : Octets,
      (w.length ≤ 1232 → decodeTransaction env.errors (Base58.encode w) .Base58 = .ok w) ∧
        (¬ w.length ≤ 1232 →
          ∃ e, decodeTransaction env.errors (Base58.encode w) .Base58 = .error e)) ∧
    ∀ (a : τ) (txn : Text) (params : Option (RpcSendTransactionConfig ε))
      (mevProtect : Option Bool),
      (∀ e, (sendTransaction env a txn params mevProtect).2 = .error e →
        offered (sendTransaction env a txn params mevProtect).1 = []) ∧
      ∀ reply, (sendTransaction env a txn params mevProtect).2 = .ok reply →
        ∃ encoding w signatures signature p,
          env.intoBinaryEncoding (requestEncoding env params) = some encoding ∧
          decodeTransaction env.errors txn encoding = .ok w ∧
          env.tryNewUnsanitized w = some signatures ∧ signatures.head? = some signature ∧
          offered (sendTransaction env a txn params mevProtect).1 = [p] ∧
          p.wireTransaction.data = w ∧ p.isMevProtected = mevProtect.getD false ∧
          reply = Base58.encode signature := by
  refine ⟨fun w hw => ?_, decodeTransaction_base58 env.errors, fun a txn params mevProtect => ?_⟩
  · have hle : ∀ b ∈ w.head?, b ≤ V1_PREFIX := by
      intro b hb
      rcases hw b hb with rfl | hb
      · exact UInt8.le_refl _
      · exact UInt8.le_trans hb (by decide)
    exact decodeTransaction_base64 env.errors hle
  · rcases sendTransaction_cases env a txn params mevProtect with ⟨e, he⟩ |
      ⟨w, signature, ⟨encoding, signatures, henc, hdec, hparse, hsig⟩, hw⟩
    · rw [he]
      exact ⟨fun _ _ => rfl, nofun⟩
    · rw [hw]
      refine ⟨nofun, fun reply h => ?_⟩
      cases h
      refine ⟨encoding, w, signatures, signature, _, henc, hdec, hparse, hsig, rfl, ?_, ?_, rfl⟩
      · exact TpuClientPayload.data_wireTransaction_new a w _
      · exact TpuClientPayload.isMevProtected_new a w _

/-- Libraries for an example: the parser takes the first byte for the signature. -/
def sampleEnv : RpcEnv TransactionBinaryEncoding where
  base64 := .Base64
  intoBinaryEncoding := some
  display := fun encoding => match encoding with
    | .Base58 => "base58"
    | .Base64 => "base64"
  tryNewUnsanitized := fun w => some [w.take 1]
  errors := ⟨fun _ => "InvalidCharacter", fun _ => "InvalidByte"⟩

theorem json_ingress_exact_sampleEnv :
    decodeTransaction sampleEnv.errors (Base64.encode [0x81, 7]) .Base64 = .ok [0x81, 7] ∧
      ∃ e, decodeTransaction sampleEnv.errors
        (Base58.encode (List.replicate 1233 0)) .Base58 = .error e := by
  have h := json_ingress_exact (τ := Unit) sampleEnv
  have hfirst : ∀ b ∈ ([0x81, 7] : Octets).head?, b = V1_PREFIX ∨ b ≤ 0x80 := by
    intro b hb
    cases hb
    exact Or.inl rfl
  have hlong : ¬ (List.replicate 1233 (0 : UInt8)).length ≤ 1232 := by
    rw [List.length_replicate]
    decide
  exact ⟨(h.1 [0x81, 7] hfirst).1 (by decide), (h.2.1 _).2 hlong⟩

end Iris
