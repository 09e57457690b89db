import Mathlib.Data.List.Basic

/-!
# Errors, bytes, text and socket addresses

* `AnyhowError`;
* `Octets`, `Text`: a `Vec<u8>` and a `String`;
* `Bytes`: a handle of the `bytes` crate, with the allocation it views;
* `IpAddr`, `SocketAddr`.
-/

namespace Iris

/-- An `anyhow::Error`: its messages, the outermost context first. -/
abbrev AnyhowError : Type := List String

/-- A `Vec<u8>` or a `&[u8]`. -/
abbrev Octets : Type := List UInt8

/-- A `String`, by its UTF-8 bytes: the code measures and compares strings byte by byte. -/
abbrev Text : Type := List UInt8

/-- A `bytes::Bytes`: the bytes it shows and the allocation they are a view of. Moving, cloning
and slicing a handle keep its allocation. The type `τ` of allocations is a parameter that no
function of the model looks into, so it follows one transaction through the program. -/
structure Bytes (τ : Type) where
  alloc : Option τ
  data : Octets
deriving DecidableEq, Repr

namespace Bytes

variable {τ : Type}

/-- `Bytes::new()`: an empty handle, which views no allocation. -/
def new : Bytes τ := ⟨none, []⟩

/-- `Bytes::from(vec)`, for a vector allocated at `a`. -/
def fromVec (a : τ) (vec : Octets) : Bytes τ := ⟨some a, vec⟩

/-- `self.slice(..n)`. -/
def sliceTo (b : Bytes τ) (n : ℕ) : Bytes τ := ⟨b.alloc, b.data.take n⟩

end Bytes

/-- A `std::net::IpAddr`, as a number. -/
inductive IpAddr
  | v4 (bits : BitVec 32)
  | v6 (bits : BitVec 128)
deriving DecidableEq, Repr

/-- A `std::net::SocketAddr`. -/
structure SocketAddr where
  ip : IpAddr
  port : UInt16
deriving DecidableEq, Repr

end Iris
