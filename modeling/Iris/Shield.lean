import Iris.Basic
import Iris.Lib.Base58
import Iris.Lib.Outcome
import Iris.Lib.Reader

/-!
# The shield provider

A policy account lists validator identities, as 32-byte records after a header. The provider
reads the account over RPC, and blocks the QUIC addresses that the listed validators publish.

* `Policy`, `PolicyV2`, `getBlockedIdentities`, `getBlockedIps`: the code;
* `PolicyAccount`, `DenyPolicy`: what a policy account looks like, by its encoded header;
* **`strategyAndIdentities_eq_ok`**, `getBlockedIdentities_eq_ok`: the accounts that are read;
* **`getBlockedIps_eq_ok`**: the addresses a successful fetch returns;
* `getBlockedIdentities_ne_panicked`: only an empty account can cause a panic.
-/

namespace Iris

/-- `.context(message)`. -/
def Outcome.context {α : Type} (message : String) (x : Outcome AnyhowError α) :
    Outcome AnyhowError α :=
  x.mapErr (message :: ·)

/-- `Self::deserialize` of borsh, whose readers fail on a short input only. -/
def borshDeserialize {α : Type} (read : Reader α) (data : Octets) : Outcome AnyhowError α :=
  match read data with
  | some (a, _) => .ok a
  | none => .err ["Unexpected length of input"]

/-- `data[0]`. -/
def firstByte : Octets → Outcome AnyhowError UInt8
  | [] => .panicked
  | b :: _ => .ok b

/-- `&data[n..]`. -/
def sliceFrom (n : ℕ) (data : Octets) : Outcome AnyhowError Octets :=
  if n ≤ data.length then .ok (data.drop n) else .panicked

/-- A `Pubkey`. -/
abbrev Pubkey : Type := Reader.Fixed 32

/-- `Pubkey::to_string`. -/
def Pubkey.toText (key : Pubkey) : Text := Base58.encode key.val

/-- `Pubkey::try_from_slice`, which reads the whole slice. -/
def Pubkey.tryFromSlice (data : Octets) : Option Pubkey :=
  match Reader.fixed 32 data with
  | some (key, []) => some key
  | _ => none

inductive PermissionStrategy
  | Deny
  | Allow
deriving DecidableEq, Repr

/-- `TryFrom<u8> for PermissionStrategy`. -/
def PermissionStrategy.tryFrom (value : UInt8) : Outcome AnyhowError PermissionStrategy :=
  match value with
  | 0 => .ok .Deny
  | 1 => .ok .Allow
  | _ => .err ["Invalid permission strategy"]

/-- The identities behind a header of `len` bytes. -/
def identitiesAfter (len : ℕ) (data : Octets) : Outcome AnyhowError (List Pubkey) := do
  let identitiesData ← sliceFrom len data
  pure ((Reader.chunksExact 32 identitiesData).filterMap Pubkey.tryFromSlice)

/-- The header of a policy of kind 0. -/
structure Policy where
  kind : UInt8
  strategy : UInt8
  nonce : UInt8
  identitiesLen : Reader.Fixed 4
deriving DecidableEq

namespace Policy

def LEN : ℕ := 7

/-- The derived reader: the fields in order. -/
def deserialize : Reader Policy := fun data => do
  let (kind, data) ← Reader.byte data
  let (strategy, data) ← Reader.byte data
  let (nonce, data) ← Reader.byte data
  let (identitiesLen, data) ← Reader.fixed 4 data
  some ({ kind, strategy, nonce, identitiesLen }, data)

/-- The derived writer. -/
def serialize (p : Policy) : Octets := [p.kind, p.strategy, p.nonce] ++ p.identitiesLen.val

def fromSlice (data : Octets) : Outcome AnyhowError Policy := borshDeserialize deserialize data

def tryStrategy (p : Policy) : Outcome AnyhowError PermissionStrategy :=
  PermissionStrategy.tryFrom p.strategy

def tryDeserializeIdentities (data : Octets) : Outcome AnyhowError (List Pubkey) :=
  identitiesAfter LEN data

theorem inverts : Reader.Inverts deserialize serialize := by
  intro data p rest
  simp only [deserialize, Option.bind_eq_bind, Option.bind_eq_some_iff, Prod.exists,
    Reader.inverts_byte _ _ _, Reader.inverts_fixed 4 _ _ _, Option.some.injEq, Prod.mk.injEq]
  constructor
  · rintro ⟨k, d, rfl, s, d, rfl, n, d, rfl, l, d, rfl, rfl, rfl⟩
    rfl
  · rintro rfl
    exact ⟨_, _, rfl, _, _, rfl, _, _, rfl, _, _, rfl, rfl, rfl⟩

theorem length_serialize (p : Policy) : p.serialize.length = LEN := by
  simp [serialize, p.identitiesLen.property, LEN]

end Policy

/-- The header of a policy of kind 1. -/
structure PolicyV2 where
  kind : UInt8
  strategy : UInt8
  nonce : UInt8
  mint : Pubkey
  identitiesLen : Reader.Fixed 4
deriving DecidableEq

namespace PolicyV2

def LEN : ℕ := 39

/-- The derived reader: the fields in order. -/
def deserialize : Reader PolicyV2 := fun data => do
  let (kind, data) ← Reader.byte data
  let (strategy, data) ← Reader.byte data
  let (nonce, data) ← Reader.byte data
  let (mint, data) ← Reader.fixed 32 data
  let (identitiesLen, data) ← Reader.fixed 4 data
  some ({ kind, strategy, nonce, mint, identitiesLen }, data)

/-- The derived writer. -/
def serialize (p : PolicyV2) : Octets :=
  [p.kind, p.strategy, p.nonce] ++ p.mint.val ++ p.identitiesLen.val

def fromSlice (data : Octets) : Outcome AnyhowError PolicyV2 := borshDeserialize deserialize data

def tryStrategy (p : PolicyV2) : Outcome AnyhowError PermissionStrategy :=
  PermissionStrategy.tryFrom p.strategy

def tryDeserializeIdentities (data : Octets) : Outcome AnyhowError (List Pubkey) :=
  identitiesAfter LEN data

theorem inverts : Reader.Inverts deserialize serialize := by
  intro data p rest
  simp only [deserialize, Option.bind_eq_bind, Option.bind_eq_some_iff, Prod.exists,
    Reader.inverts_byte _ _ _, Reader.inverts_fixed _ _ _ _, Option.some.injEq, Prod.mk.injEq]
  constructor
  · rintro ⟨k, d, rfl, s, d, rfl, n, d, rfl, m, d, rfl, l, d, rfl, rfl, rfl⟩
    simp [serialize]
  · rintro rfl
    refine ⟨_, _, rfl, _, _, rfl, _, _, rfl, p.mint, p.identitiesLen.val ++ rest, ?_, _, _, rfl,
      rfl, rfl⟩
    simp

theorem length_serialize (p : PolicyV2) : p.serialize.length = LEN := by
  simp [serialize, p.mint.property, p.identitiesLen.property, LEN]

end PolicyV2

/-! ## The provider -/

/-- A node of `getClusterNodes`, with the fields used here. -/
structure RpcContactInfo where
  pubkey : Text
  tpu : Option SocketAddr
  tpuQuic : Option SocketAddr
deriving DecidableEq, Repr

/-- A text as a string. -/
def Text.display (text : Text) : String := String.ofList (text.map fun b => Char.ofNat b.toNat)

/-- The strategy and the identities of an account, read as its first byte says. -/
def strategyAndIdentities (data : Octets) :
    Outcome AnyhowError (PermissionStrategy × List Pubkey) := do
  match ← firstByte data with
  | 0 =>
    let policy ← Outcome.context "cannot deserialize policy" (Policy.fromSlice data)
    let strategy ← Outcome.context "invalid permission strategy" policy.tryStrategy
    let identities ← Policy.tryDeserializeIdentities data
    pure (strategy, identities)
  | 1 =>
    let policy ← Outcome.context "cannot deserialize policy_v2" (PolicyV2.fromSlice data)
    let strategy ← policy.tryStrategy
    let identities ← PolicyV2.tryDeserializeIdentities data
    pure (strategy, identities)
  | _ => .err ["Unknown policy type"]

/-- `get_blocked_identities`, given the reply to `get_account_data`. -/
def getBlockedIdentities (key : Pubkey) (accountData : Except AnyhowError Octets) :
    Outcome AnyhowError (List Text) := do
  let data ← Outcome.context "cannot fetch" (.ofExcept accountData)
  let (strategy, identities) ← strategyAndIdentities data
  match strategy with
  | .Allow => .err ["Shield policy for key " ++ Text.display key.toText ++
      " is set to Allow, which is not supported"]
  | .Deny => pure (identities.map Pubkey.toText)

/-- The QUIC addresses of the nodes with a blocked identity. -/
def tpuQuicsAddrs (clusterNodes : List RpcContactInfo) (blockedIdentities : List Text) :
    List SocketAddr :=
  clusterNodes.filterMap fun node =>
    if node.pubkey ∈ blockedIdentities then node.tpuQuic else none

/-- `get_blocked_ips`, given the replies to the two requests; the second is made only if the
first succeeds. -/
def getBlockedIps (key : Pubkey) (clusterNodes : Except AnyhowError (List RpcContactInfo))
    (accountData : Except AnyhowError Octets) : Outcome AnyhowError (List SocketAddr) := do
  let clusterNodes ← Outcome.ofExcept clusterNodes
  let blockedIdentities ← getBlockedIdentities key accountData
  pure (tpuQuicsAddrs clusterNodes blockedIdentities)

theorem mem_tpuQuicsAddrs {nodes : List RpcContactInfo} {blocked : List Text} {a : SocketAddr} :
    a ∈ tpuQuicsAddrs nodes blocked ↔
      ∃ node ∈ nodes, node.pubkey ∈ blocked ∧ node.tpuQuic = some a := by
  simp only [tpuQuicsAddrs, List.mem_filterMap, Option.ite_none_right_eq_some]

/-! ## What an account says -/

/-- The identities in the body of an account. -/
def identitiesOf (body : Octets) : List Pubkey :=
  (Reader.chunksExact 32 body).filterMap Pubkey.tryFromSlice

/-- The account holds the header of a policy of kind 0 or 1 with the given strategy, and behind
it the identities `ids`. -/
inductive PolicyAccount : Octets → UInt8 → List Pubkey → Prop
  | policy (p : Policy) (body : Octets) (hkind : p.kind = 0) :
      PolicyAccount (p.serialize ++ body) p.strategy (identitiesOf body)
  | policyV2 (p : PolicyV2) (body : Octets) (hkind : p.kind = 1) :
      PolicyAccount (p.serialize ++ body) p.strategy (identitiesOf body)

/-- The account holds a policy with the strategy `Deny`. -/
def DenyPolicy (data : Octets) (ids : List Pubkey) : Prop := PolicyAccount data 0 ids

theorem firstByte_eq_ok {b : UInt8} {data : Octets} :
    firstByte data = .ok b ↔ data.head? = some b := by
  cases data <;> simp [firstByte]

theorem firstByte_ne_panicked {data : Octets} (h : data ≠ []) : firstByte data ≠ .panicked := by
  cases data with
  | nil => exact absurd rfl h
  | cons b data => simp [firstByte]

theorem borshDeserialize_eq_ok {α : Type} {read : Reader α} {write : α → Octets}
    (hread : Reader.Inverts read write) {p : α} {data : Octets} :
    borshDeserialize read data = .ok p ↔ ∃ body, data = write p ++ body := by
  have hiff := hread data p
  unfold borshDeserialize
  cases hr : read data with
  | none => simp_all
  | some q =>
    obtain ⟨b, rest⟩ := q
    simp only [hr, Option.some.injEq, Prod.mk.injEq] at hiff
    simp only [Outcome.ok.injEq, ← hiff]
    exact ⟨fun hb => ⟨rest, hb, rfl⟩, fun ⟨_, hb, _⟩ => hb⟩

theorem borshDeserialize_ne_panicked {α : Type} (read : Reader α) (data : Octets) :
    borshDeserialize read data ≠ .panicked := by
  unfold borshDeserialize
  split <;> simp

/-- Behind a header of `len` bytes there is the body. -/
theorem identitiesAfter_append {len : ℕ} {header : Octets} (h : header.length = len)
    (body : Octets) : identitiesAfter len (header ++ body) = .ok (identitiesOf body) := by
  have hslice : sliceFrom len (header ++ body) = .ok body := by
    rw [sliceFrom, if_pos (by rw [List.length_append]; omega), List.drop_left' h]
  rw [identitiesAfter, hslice]
  rfl

/-- **A header and its body**, for either layout: where the header is read, the slice behind it is
in bounds. -/
theorem header_eq_ok {α : Type} {read : Reader α} {write : α → Octets} {len : ℕ}
    (hread : Reader.Inverts read write) (hlen : ∀ p, (write p).length = len) {p : α}
    {data : Octets} {ids : List Pubkey} :
    borshDeserialize read data = .ok p ∧ identitiesAfter len data = .ok ids ↔
      ∃ body, data = write p ++ body ∧ ids = identitiesOf body := by
  rw [borshDeserialize_eq_ok hread]
  constructor
  · rintro ⟨⟨body, rfl⟩, hids⟩
    rw [identitiesAfter_append (hlen p)] at hids
    cases hids
    exact ⟨body, rfl, rfl⟩
  · rintro ⟨body, rfl, rfl⟩
    exact ⟨⟨body, rfl⟩, identitiesAfter_append (hlen p) body⟩

theorem PermissionStrategy.tryFrom_eq_Deny {value : UInt8} : tryFrom value = .ok .Deny ↔ value = 0 := by
  unfold tryFrom
  split <;> simp_all

theorem PermissionStrategy.tryFrom_ne_panicked (value : UInt8) : tryFrom value ≠ .panicked := by
  unfold tryFrom
  split <;> simp

theorem policy_eq_ok {p : Policy} {data : Octets} {ids : List Pubkey} :
    Policy.fromSlice data = .ok p ∧ Policy.tryDeserializeIdentities data = .ok ids ↔
      ∃ body, data = p.serialize ++ body ∧ ids = identitiesOf body :=
  header_eq_ok Policy.inverts Policy.length_serialize

theorem policyV2_eq_ok {p : PolicyV2} {data : Octets} {ids : List Pubkey} :
    PolicyV2.fromSlice data = .ok p ∧ PolicyV2.tryDeserializeIdentities data = .ok ids ↔
      ∃ body, data = p.serialize ++ body ∧ ids = identitiesOf body :=
  header_eq_ok PolicyV2.inverts PolicyV2.length_serialize

/-- **The two layouts.** -/
theorem strategyAndIdentities_eq_ok {data : Octets} {strategy : PermissionStrategy}
    {ids : List Pubkey} :
    strategyAndIdentities data = .ok (strategy, ids) ↔
      ∃ value, PolicyAccount data value ids ∧ PermissionStrategy.tryFrom value = .ok strategy := by
  constructor
  · intro h
    simp only [strategyAndIdentities, Outcome.bind_eq_ok, firstByte_eq_ok] at h
    obtain ⟨kind, hkind, h⟩ := h
    split at h
    · simp only [Outcome.bind_eq_ok, Outcome.context, Outcome.mapErr_eq_ok] at h
      obtain ⟨p, hp, strategy', hstrategy, identities, hids, hpure⟩ := h
      obtain ⟨body, rfl, rfl⟩ := policy_eq_ok.mp ⟨hp, hids⟩
      cases hpure
      exact ⟨p.strategy, .policy p body (Option.some.inj hkind), hstrategy⟩
    · simp only [Outcome.bind_eq_ok, Outcome.context, Outcome.mapErr_eq_ok] at h
      obtain ⟨p, hp, strategy', hstrategy, identities, hids, hpure⟩ := h
      obtain ⟨body, rfl, rfl⟩ := policyV2_eq_ok.mp ⟨hp, hids⟩
      cases hpure
      exact ⟨p.strategy, .policyV2 p body (Option.some.inj hkind), hstrategy⟩
    · cases h
  · rintro ⟨value, haccount, hstrategy⟩
    cases haccount with
    | policy p body hkind =>
      have hfirst : firstByte (p.serialize ++ body) = .ok 0 := by rw [← hkind]; rfl
      obtain ⟨hheader, hids⟩ := (policy_eq_ok (p := p)).mpr ⟨body, rfl, rfl⟩
      have htry : p.tryStrategy = .ok strategy := hstrategy
      simp [strategyAndIdentities, hfirst, hheader, htry, hids, Outcome.context, Outcome.mapErr]
    | policyV2 p body hkind =>
      have hfirst : firstByte (p.serialize ++ body) = .ok 1 := by rw [← hkind]; rfl
      obtain ⟨hheader, hids⟩ := (policyV2_eq_ok (p := p)).mpr ⟨body, rfl, rfl⟩
      have htry : p.tryStrategy = .ok strategy := hstrategy
      simp [strategyAndIdentities, hfirst, hheader, htry, hids, Outcome.context, Outcome.mapErr]

/-- **The identities are read from deny policies only.** -/
theorem getBlockedIdentities_eq_ok {key : Pubkey} {data : Octets} {texts : List Text} :
    getBlockedIdentities key (.ok data) = .ok texts ↔
      ∃ ids, DenyPolicy data ids ∧ texts = ids.map Pubkey.toText := by
  have hread : getBlockedIdentities key (.ok data) = .ok texts ↔
      ∃ ids, strategyAndIdentities data = .ok (.Deny, ids) ∧ texts = ids.map Pubkey.toText := by
    simp only [getBlockedIdentities, Outcome.context, Outcome.ofExcept, Outcome.mapErr,
      Outcome.ok_bind, Outcome.bind_eq_ok, Prod.exists]
    constructor
    · rintro ⟨strategy, ids, hids, h⟩
      cases strategy with
      | Allow => cases h
      | Deny => cases h; exact ⟨ids, hids, rfl⟩
    · rintro ⟨ids, hids, rfl⟩
      exact ⟨.Deny, ids, hids, rfl⟩
  rw [hread]
  refine exists_congr fun ids => and_congr_left' ?_
  rw [strategyAndIdentities_eq_ok]
  constructor
  · rintro ⟨value, haccount, hvalue⟩
    rw [PermissionStrategy.tryFrom_eq_Deny] at hvalue
    rw [hvalue] at haccount
    exact haccount
  · intro haccount
    exact ⟨0, haccount, rfl⟩

/-- **A successful fetch** returns the QUIC addresses of the nodes that the policy lists. -/
theorem getBlockedIps_eq_ok {key : Pubkey} {nodes : Except AnyhowError (List RpcContactInfo)}
    {accountData : Except AnyhowError Octets} {addrs : List SocketAddr} :
    getBlockedIps key nodes accountData = .ok addrs ↔
      ∃ ns data ids, nodes = .ok ns ∧ accountData = .ok data ∧ DenyPolicy data ids ∧
        addrs = tpuQuicsAddrs ns (ids.map Pubkey.toText) := by
  cases accountData with
  | error e => simp [getBlockedIps, getBlockedIdentities, Outcome.bind_eq_ok, Outcome.context,
      Outcome.ofExcept, Outcome.mapErr]
  | ok data =>
    simp only [getBlockedIps, Outcome.bind_eq_ok, Outcome.ofExcept_eq_ok,
      getBlockedIdentities_eq_ok, Outcome.pure_eq_ok, Outcome.ok.injEq, Except.ok.injEq]
    constructor
    · rintro ⟨ns, hns, _, ⟨ids, hpolicy, rfl⟩, rfl⟩
      exact ⟨ns, data, ids, hns, rfl, hpolicy, rfl⟩
    · rintro ⟨ns, _, ids, hns, rfl, hpolicy, rfl⟩
      exact ⟨ns, hns, _, ⟨ids, hpolicy, rfl⟩, rfl⟩

/-! ## Panics -/

/-- Behind a header that was read, the slice is in bounds. -/
theorem identitiesAfter_ne_panicked {α : Type} {read : Reader α} {write : α → Octets} {len : ℕ}
    (hread : Reader.Inverts read write) (hlen : ∀ p, (write p).length = len) {p : α}
    {data : Octets} (hp : borshDeserialize read data = .ok p) :
    identitiesAfter len data ≠ .panicked := by
  obtain ⟨body, rfl⟩ := (borshDeserialize_eq_ok hread).mp hp
  rw [identitiesAfter_append (hlen p)]
  simp

theorem strategyAndIdentities_ne_panicked {data : Octets} (h : data ≠ []) :
    strategyAndIdentities data ≠ .panicked := by
  refine Outcome.bind_ne_panicked (firstByte_ne_panicked h) fun kind _ => ?_
  split
  · refine Outcome.bind_ne_panicked
      (Outcome.mapErr_ne_panicked (borshDeserialize_ne_panicked _ data)) fun p hp => ?_
    refine Outcome.bind_ne_panicked
      (Outcome.mapErr_ne_panicked (PermissionStrategy.tryFrom_ne_panicked _)) fun s _ => ?_
    exact Outcome.bind_ne_panicked (identitiesAfter_ne_panicked Policy.inverts
      Policy.length_serialize (Outcome.mapErr_eq_ok.mp hp)) fun _ _ => by simp
  · refine Outcome.bind_ne_panicked
      (Outcome.mapErr_ne_panicked (borshDeserialize_ne_panicked _ data)) fun p hp => ?_
    refine Outcome.bind_ne_panicked (PermissionStrategy.tryFrom_ne_panicked _) fun s _ => ?_
    exact Outcome.bind_ne_panicked (identitiesAfter_ne_panicked PolicyV2.inverts
      PolicyV2.length_serialize (Outcome.mapErr_eq_ok.mp hp)) fun _ _ => by simp
  · simp

/-- **Only an empty account can cause a panic.** -/
theorem getBlockedIdentities_ne_panicked (key : Pubkey) {accountData : Except AnyhowError Octets}
    (h : accountData ≠ .ok []) : getBlockedIdentities key accountData ≠ .panicked := by
  refine Outcome.bind_ne_panicked
    (Outcome.mapErr_ne_panicked (Outcome.ofExcept_ne_panicked accountData)) fun data hdata => ?_
  have hne : data ≠ [] := by
    rintro rfl
    exact h (Outcome.ofExcept_eq_ok.mp (Outcome.mapErr_eq_ok.mp hdata))
  refine Outcome.bind_ne_panicked (strategyAndIdentities_ne_panicked hne) fun p _ => ?_
  obtain ⟨strategy, ids⟩ := p
  cases strategy <;> simp

theorem getBlockedIps_ne_panicked (key : Pubkey)
    (nodes : Except AnyhowError (List RpcContactInfo)) {accountData : Except AnyhowError Octets}
    (h : accountData ≠ .ok []) : getBlockedIps key nodes accountData ≠ .panicked := by
  refine Outcome.bind_ne_panicked (Outcome.ofExcept_ne_panicked nodes) fun ns _ => ?_
  exact Outcome.bind_ne_panicked (getBlockedIdentities_ne_panicked key h) fun texts _ => by simp

end Iris
