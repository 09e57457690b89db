import Iris.Broadcaster.Prepare
import Iris.Shield

/-!
# The block list and the addresses of leaders

The block list holds the QUIC addresses that the listed validators publish. The leader updater of
the TPU client resolves a validator to the address it publishes, and to none if there is none.

* `blockList`: the addresses that the refresh thread stores;
* `Covered`: every listed node is blocked at the address it resolves to;
* **`covered_iff`**: for which resolvers this is so, whatever the nodes and the policy;
* **`covered`**: it is so for the updater, and for the list that a fetch returns;
* `resolveWithOffset`, `uncovered`: a resolver with one more rule leaves a node uncovered.
-/

namespace Iris

/-- The addresses that the refresh thread stores after fetching `clusterNodes`. -/
def blockList (clusterNodes : List RpcContactInfo) (blockedIdentities : List Text) :
    Finset SocketAddr :=
  (tpuQuicsAddrs clusterNodes blockedIdentities).toFinset

theorem mem_blockList {nodes : List RpcContactInfo} {blocked : List Text} {a : SocketAddr} :
    a ∈ blockList nodes blocked ↔ ∃ node ∈ nodes, node.pubkey ∈ blocked ∧ node.tpuQuic = some a := by
  rw [blockList, List.mem_toFinset, mem_tpuQuicsAddrs]

/-- What a fetch returns is the block list of the nodes and of a policy that was read. -/
theorem toFinset_of_getBlockedIps {key : Pubkey} {nodes : List RpcContactInfo} {data : Octets}
    {addrs : List SocketAddr} (h : getBlockedIps key (.ok nodes) (.ok data) = .ok addrs) :
    ∃ ids, DenyPolicy data ids ∧ addrs.toFinset = blockList nodes (ids.map Pubkey.toText) := by
  obtain ⟨ns, data', ids, hnodes, hdata, hpolicy, rfl⟩ := getBlockedIps_eq_ok.mp h
  cases hnodes
  cases hdata
  exact ⟨ids, hpolicy, rfl⟩

/-- Every listed node is blocked at the address that it resolves to. -/
def Covered (resolve : RpcContactInfo → Option SocketAddr) (nodes : List RpcContactInfo)
    (blocked : List Text) : Prop :=
  ∀ node ∈ nodes, node.pubkey ∈ blocked → ∀ a, resolve node = some a →
    a ∈ blockList nodes blocked ∧
      ∀ leaders, a ∈ leaders → hasBlockedSendTarget leaders (blockList nodes blocked) = true

/-- **Which resolvers agree with the block list**, for every list of nodes and every policy: those
that resolve a node to the QUIC address it publishes or to none. -/
theorem covered_iff (resolve : RpcContactInfo → Option SocketAddr) :
    (∀ nodes blocked, Covered resolve nodes blocked) ↔
      ∀ node a, resolve node = some a → node.tpuQuic = some a := by
  constructor
  · intro h node a ha
    -- the node alone, and listed
    have hnode := List.mem_singleton_self node
    have hmem := (h [node] [node.pubkey] node hnode (List.mem_singleton_self _) a ha).1
    obtain ⟨other, hother, -, hquic⟩ := mem_blockList.mp hmem
    rw [List.mem_singleton.mp hother] at hquic
    exact hquic
  · intro h nodes blocked node hnode hblocked a ha
    have hmem : a ∈ blockList nodes blocked :=
      mem_blockList.mpr ⟨node, hnode, hblocked, h node a ha⟩
    exact ⟨hmem, fun leaders hl => hasBlockedSendTarget_iff.mpr ⟨a, hl, hmem⟩⟩

/-- **The updater agrees with the block list.** It resolves a node to the QUIC address that the
node publishes. Then every listed node is blocked at the address it resolves to, and the list is
the one that a fetch of the same nodes returns, by the policy it has read. -/
theorem covered (resolve : RpcContactInfo → Option SocketAddr)
    (hresolve : ∀ node, resolve node = node.tpuQuic) (nodes : List RpcContactInfo) :
    (∀ blocked, Covered resolve nodes blocked) ∧
      ∀ key data addrs, getBlockedIps key (.ok nodes) (.ok data) = .ok addrs →
        ∃ ids, DenyPolicy data ids ∧ addrs.toFinset = blockList nodes (ids.map Pubkey.toText) ∧
          Covered resolve nodes (ids.map Pubkey.toText) := by
  have hcovered : ∀ blocked, Covered resolve nodes blocked := by
    refine (covered_iff resolve).mpr (fun node a ha => ?_) nodes
    rw [← hresolve]
    exact ha
  refine ⟨hcovered, fun key data addrs hfetch => ?_⟩
  obtain ⟨ids, hpolicy, haddrs⟩ := toFinset_of_getBlockedIps hfetch
  exact ⟨ids, hpolicy, haddrs, hcovered _⟩

/-- A node with the identity of 32 zero bytes that publishes only its TPU address. -/
def tpuOnlyNode : RpcContactInfo where
  pubkey := List.replicate 32 49
  tpu := some ⟨.v4 0x7F000001#32, 8003⟩
  tpuQuic := none

/-- The same identity again, with a QUIC address. -/
def tpuQuicNode : RpcContactInfo :=
  { tpuOnlyNode with tpuQuic := some ⟨.v4 0x7F000001#32, 8009⟩ }

theorem covered_tpuQuicNode :
    hasBlockedSendTarget [⟨.v4 0x7F000001#32, 8001⟩, ⟨.v4 0x7F000001#32, 8009⟩]
      (blockList [tpuOnlyNode, tpuQuicNode] [tpuOnlyNode.pubkey]) = true :=
  ((covered RpcContactInfo.tpuQuic (fun _ => rfl) [tpuOnlyNode, tpuQuicNode]).1
    [tpuOnlyNode.pubkey] tpuQuicNode (by decide) (by decide) _ rfl).2 _ (by decide)

/-! ## A resolver that does not agree -/

/-- The QUIC address derived from a TPU address, unless the port overflows. -/
def offsetAddr (offset : ℕ) (tpu : SocketAddr) : Option SocketAddr :=
  if tpu.port.toNat + offset < 65536 then
    some { tpu with port := UInt16.ofNat (tpu.port.toNat + offset) }
  else none

/-- A resolver that falls back on the TPU address for a node without a QUIC address. The updater
does not. -/
def resolveWithOffset (quicPortOffset : ℕ) (node : RpcContactInfo) : Option SocketAddr :=
  node.tpuQuic.or (node.tpu.bind (offsetAddr quicPortOffset))

/-- **A listed node that such a resolver leaves uncovered.** -/
theorem uncovered : ¬ Covered (resolveWithOffset 6) [tpuOnlyNode] [tpuOnlyNode.pubkey] := by
  intro h
  have hmem := (h _ (List.mem_singleton_self _) (by decide) ⟨.v4 0x7F000001#32, 8009⟩ (by decide)).1
  revert hmem
  decide

end Iris
