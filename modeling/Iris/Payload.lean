import Iris.Basic

/-!
# The payload of the TPU channel

A transaction travels to the broadcaster as its wire bytes followed by one byte of flags. The
flush task sends an empty handle, which is no payload.

* `BatchFlags`, `TpuClientPayload` and their operations;
* **`decode_intoEncoded`**: decoding recovers the payload; `isMevProtected_new`,
  `wireTransaction_new`: and a payload recovers what it was made of;
* `decode_eq_none`: only the empty handle is no payload.
-/

namespace Iris

/-- The flags of a transaction, a `u8` of the `bitflags` crate. -/
structure BatchFlags where
  bits : UInt8
deriving DecidableEq, Repr

namespace BatchFlags

def MEV_PROTECTED : BatchFlags := ⟨0b00000001⟩

def empty : BatchFlags := ⟨0⟩

/-- `from_bits_truncate`: bits that name no flag are dropped. -/
def fromBitsTruncate (bits : UInt8) : BatchFlags := ⟨bits &&& MEV_PROTECTED.bits⟩

def contains (self other : BatchFlags) : Bool := self.bits &&& other.bits == other.bits

end BatchFlags

/-- Wire bytes with their flag byte. The two ways to build one, `new` and `decode`, keep it
non-empty. -/
structure TpuClientPayload (τ : Type) where
  encoded : Bytes τ
  encoded_ne_nil : encoded.data ≠ []

namespace TpuClientPayload

variable {τ : Type}

/-- `TpuClientPayload::new`, the vector being allocated at `a`. -/
def new (a : τ) (wireTransaction : Octets) (mevProtect : Bool) : TpuClientPayload τ :=
  let flags := if mevProtect then BatchFlags.MEV_PROTECTED else BatchFlags.empty
  ⟨Bytes.fromVec a (wireTransaction ++ [flags.bits]), by simp [Bytes.fromVec]⟩

def isMevProtected (self : TpuClientPayload τ) : Bool :=
  match self.encoded.data.getLast? with
  | some byte => (BatchFlags.fromBitsTruncate byte).contains BatchFlags.MEV_PROTECTED
  | none => false

def wireTransaction (self : TpuClientPayload τ) : Bytes τ :=
  self.encoded.sliceTo (self.encoded.data.length - 1)

def intoEncoded (self : TpuClientPayload τ) : Bytes τ := self.encoded

def decode (encoded : Bytes τ) : Option (TpuClientPayload τ) :=
  if h : encoded.data = [] then none else some ⟨encoded, h⟩

@[simp] theorem data_intoEncoded_new (a : τ) (w : Octets) (m : Bool) :
    (new a w m).intoEncoded.data =
      w ++ [if m then BatchFlags.MEV_PROTECTED.bits else BatchFlags.empty.bits] := by
  cases m <;> rfl

@[simp] theorem isMevProtected_new (a : τ) (w : Octets) (m : Bool) :
    (new a w m).isMevProtected = m := by
  cases m <;> simp [isMevProtected, new, Bytes.fromVec] <;> decide

@[simp] theorem wireTransaction_new (a : τ) (w : Octets) (m : Bool) :
    (new a w m).wireTransaction = Bytes.fromVec a w := by
  simp [wireTransaction, new, Bytes.fromVec, Bytes.sliceTo]

theorem data_wireTransaction_new (a : τ) (w : Octets) (m : Bool) :
    (new a w m).wireTransaction.data = w := by
  rw [wireTransaction_new]
  rfl

/-- **Decoding what was encoded.** -/
@[simp] theorem decode_intoEncoded (p : TpuClientPayload τ) : decode p.intoEncoded = some p :=
  dif_neg p.encoded_ne_nil

@[simp] theorem decode_empty : decode (Bytes.new : Bytes τ) = none := rfl

theorem decode_eq_none {encoded : Bytes τ} : decode encoded = none ↔ encoded.data = [] := by
  unfold decode
  split_ifs with h <;> simp [h]

/-- **The encoding loses nothing.** -/
theorem new_injective {a b : τ} {w w' : Octets} {m m' : Bool}
    (h : (new a w m).intoEncoded.data = (new b w' m').intoEncoded.data) : w = w' ∧ m = m' := by
  rw [data_intoEncoded_new, data_intoEncoded_new] at h
  obtain ⟨hw, hm⟩ := List.append_inj' h rfl
  refine ⟨hw, ?_⟩
  cases m <;> cases m' <;> simp_all [BatchFlags.MEV_PROTECTED, BatchFlags.empty]

end TpuClientPayload

end Iris
