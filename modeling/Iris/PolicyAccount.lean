import Iris.Lib.LittleEndian
import Iris.Shield

/-!
# What is read from a policy account

The provider takes the kind and the strategy from the header, and every whole record behind it
for an identity. The header's own count of the identities is decoded and not looked at.

* `map_val_identitiesOf`, `identitiesOf_flatten`: the identities are the whole records;
* `strategy_of_policyAccount`, `exists_err`: the accounts that are rejected;
* **`never_panics_iff`**: the accounts that are read without a panic; `empty_account_panics`;
* `Declares`, `identitiesLen`: the count in the header;
* **`identities_are_whole_records`**: the identities, against the count; `declared_ignored`;
* **`identities_decode_encode`**: an account that was written is read back.
-/

namespace Iris

/-! ## Records -/

theorem tryFromSlice_eq_some {chunk : Octets} {id : Pubkey} :
    Pubkey.tryFromSlice chunk = some id ↔ chunk = id.val := by
  have hiff := Reader.inverts_fixed 32 chunk id []
  rw [List.append_nil] at hiff
  rw [← hiff]
  unfold Pubkey.tryFromSlice
  split
  · rename_i key hkey
    rw [hkey]
    simp
  · rename_i hkey
    exact iff_of_false (by simp) (hkey id)

/-- Chunks of the length of a key are all keys. -/
theorem map_val_filterMap_tryFromSlice {chunks : List Octets} (h : ∀ c ∈ chunks, c.length = 32) :
    (chunks.filterMap Pubkey.tryFromSlice).map Subtype.val = chunks := by
  induction chunks with
  | nil => rfl
  | cons c chunks ih =>
    have hc : Pubkey.tryFromSlice c = some ⟨c, h c List.mem_cons_self⟩ :=
      tryFromSlice_eq_some.mpr rfl
    rw [List.filterMap_cons_some hc, List.map_cons, ih fun c hc => h c (List.mem_cons_of_mem _ hc)]

/-- **The identities are the whole records of the body.** -/
theorem map_val_identitiesOf (body : Octets) :
    (identitiesOf body).map Subtype.val = Reader.chunksExact 32 body :=
  map_val_filterMap_tryFromSlice fun _ hc => Reader.length_of_mem_chunksExact hc

theorem map_toText_identitiesOf (body : Octets) :
    (identitiesOf body).map Pubkey.toText = (Reader.chunksExact 32 body).map Base58.encode := by
  rw [← map_val_identitiesOf, List.map_map]
  rfl

theorem length_identitiesOf (body : Octets) : (identitiesOf body).length = body.length / 32 := by
  rw [← Reader.length_chunksExact, ← map_val_identitiesOf, List.length_map]

/-- Records behind each other, and a fragment. -/
theorem identitiesOf_flatten (ids : List Pubkey) {fragment : Octets} (h : fragment.length < 32) :
    identitiesOf ((ids.map Subtype.val).flatten ++ fragment) = ids := by
  apply List.map_injective_iff.mpr Subtype.val_injective
  rw [map_val_identitiesOf]
  apply Reader.chunksExact_flatten _ h
  intro r hr
  obtain ⟨id, -, rfl⟩ := List.mem_map.mp hr
  exact id.property

/-! ## Accounts that are rejected -/

/-- The first two bytes of a policy account. -/
theorem strategy_of_policyAccount {kind strategy value : UInt8} {rest : Octets} {ids : List Pubkey}
    (h : PolicyAccount (kind :: strategy :: rest) value ids) :
    (kind = 0 ∨ kind = 1) ∧ strategy = value := by
  generalize hdata : kind :: strategy :: rest = data at h
  cases h with
  | policy p body hkind =>
    rw [Policy.serialize] at hdata
    obtain ⟨hfirst, hrest⟩ := List.cons.inj hdata
    exact ⟨Or.inl (hfirst.trans hkind), (List.cons.inj hrest).1⟩
  | policyV2 p body hkind =>
    rw [PolicyV2.serialize] at hdata
    obtain ⟨hfirst, hrest⟩ := List.cons.inj hdata
    exact ⟨Or.inr (hfirst.trans hkind), (List.cons.inj hrest).1⟩

/-- What is neither read nor panics is an error. -/
theorem exists_err_of_forall {key : Pubkey} {data : Octets} (hne : data ≠ [])
    (h : ∀ ids, ¬ DenyPolicy data ids) : ∃ e, getBlockedIdentities key (.ok data) = .err e := by
  have hpanic : getBlockedIdentities key (.ok data) ≠ .panicked :=
    getBlockedIdentities_ne_panicked key (by simpa using hne)
  cases hres : getBlockedIdentities key (.ok data) with
  | ok texts =>
    obtain ⟨ids, hids, -⟩ := getBlockedIdentities_eq_ok.mp hres
    exact absurd hids (h ids)
  | err e => exact ⟨e, rfl⟩
  | panicked => exact absurd hres hpanic

/-- **A strategy other than `Deny`, or an unknown kind**, is an error. -/
theorem exists_err (key : Pubkey) {kind strategy : UInt8} (rest : Octets)
    (h : strategy ≠ 0 ∨ 1 < kind) :
    ∃ e, getBlockedIdentities key (.ok (kind :: strategy :: rest)) = .err e := by
  apply exists_err_of_forall (by simp)
  intro ids hids
  obtain ⟨hkind, hstrategy⟩ := strategy_of_policyAccount hids
  rcases h with h | h
  · exact h hstrategy
  · rcases hkind with rfl | rfl
    · exact absurd h (by decide)
    · exact absurd h (by decide)

/-! ## Panics -/

/-- **Only the empty account makes the code panic**: every index and slice is in bounds for any
other data. -/
theorem never_panics_iff (key : Pubkey) (data : Octets) :
    getBlockedIdentities key (.ok data) ≠ .panicked ↔ data ≠ [] := by
  constructor
  · rintro h rfl
    exact h rfl
  · intro h
    exact getBlockedIdentities_ne_panicked key (by simpa using h)

/-- A key to run examples with. -/
def sampleKey : Pubkey := ⟨List.replicate 32 9, List.length_replicate⟩

/-- **An empty account makes the code panic.** -/
theorem empty_account_panics :
    ¬ ∀ (key : Pubkey) (data : Octets), getBlockedIdentities key (.ok data) ≠ .panicked := by
  intro h
  exact h sampleKey [] rfl

/-! ## The count in the header -/

/-- The header of the account declares `declared` identities, and `body` is behind it. -/
inductive Declares (data : Octets) : ℕ → Octets → Prop
  | policy (p : Policy) (body : Octets) (hkind : p.kind = 0)
      (hread : Policy.deserialize data = some (p, body)) :
      Declares data (LittleEndian.decode p.identitiesLen.val) body
  | policyV2 (p : PolicyV2) (body : Octets) (hkind : p.kind = 1)
      (hread : PolicyV2.deserialize data = some (p, body)) :
      Declares data (LittleEndian.decode p.identitiesLen.val) body

/-- The two layouts do not overlap. -/
theorem not_both_layouts {data body body' : Octets} {p : Policy} {q : PolicyV2} (hp : p.kind = 0)
    (hq : q.kind = 1) (hread : Policy.deserialize data = some (p, body)) :
    PolicyV2.deserialize data ≠ some (q, body') := by
  intro hread'
  have hdata := (Policy.inverts _ _ _).mp hread
  rw [(PolicyV2.inverts _ _ _).mp hread', Policy.serialize, PolicyV2.serialize] at hdata
  have hfirst : q.kind = p.kind := (List.cons.inj hdata).1
  rw [hp, hq] at hfirst
  cases hfirst

/-- An account has one header. -/
theorem Declares.unique {data body body' : Octets} {n n' : ℕ} (h : Declares data n body)
    (h' : Declares data n' body') : n = n' ∧ body = body' := by
  cases h with
  | policy p body hkind hread =>
    cases h' with
    | policy p' body' hkind' hread' =>
      rw [hread] at hread'
      cases hread'
      exact ⟨rfl, rfl⟩
    | policyV2 q body' hkind' hread' => exact absurd hread' (not_both_layouts hkind hkind' hread)
  | policyV2 q body hkind hread =>
    cases h' with
    | policy p' body' hkind' hread' => exact absurd hread (not_both_layouts hkind' hkind hread')
    | policyV2 q' body' hkind' hread' =>
      rw [hread] at hread'
      cases hread'
      exact ⟨rfl, rfl⟩

theorem exists_declares {data : Octets} {value : UInt8} {ids : List Pubkey}
    (h : PolicyAccount data value ids) : ∃ n body, Declares data n body ∧ ids = identitiesOf body := by
  cases h with
  | policy p body hkind =>
    exact ⟨_, body, .policy p body hkind ((Policy.inverts _ _ _).mpr rfl), rfl⟩
  | policyV2 p body hkind =>
    exact ⟨_, body, .policyV2 p body hkind ((PolicyV2.inverts _ _ _).mpr rfl), rfl⟩

/-- **The identities are the whole records**, whatever the header declares: none of them is left
out, and a fragment at the end is. They are the declared ones exactly when the account holds as
many whole records as its header declares. -/
theorem identities_are_whole_records {key : Pubkey} {data : Octets} {texts : List Text}
    (h : getBlockedIdentities key (.ok data) = .ok texts) :
    (∃ declared body, Declares data declared body) ∧
    ∀ declared body, Declares data declared body →
      texts = (Reader.chunksExact 32 body).map Base58.encode ∧
      texts.length = body.length / 32 ∧
      ((texts.length = declared ∧
          texts = ((Reader.chunksExact 32 body).take declared).map Base58.encode) ↔
        body.length / 32 = declared) := by
  obtain ⟨ids, hpolicy, rfl⟩ := getBlockedIdentities_eq_ok.mp h
  obtain ⟨n, body, hdeclares, rfl⟩ := exists_declares hpolicy
  refine ⟨⟨n, body, hdeclares⟩, fun declared body' hdeclares' => ?_⟩
  obtain ⟨rfl, rfl⟩ := hdeclares.unique hdeclares'
  have hlength : ((identitiesOf body).map Pubkey.toText).length = body.length / 32 := by
    rw [List.length_map, length_identitiesOf]
  refine ⟨map_toText_identitiesOf body, hlength, ?_⟩
  rw [hlength, map_toText_identitiesOf]
  constructor
  · exact fun hboth => hboth.1
  · intro hcount
    refine ⟨hcount, ?_⟩
    rw [List.take_of_length_le]
    rw [Reader.length_chunksExact]
    exact hcount.le

/-- A header that declares `n` identities. -/
def identitiesLen (n : ℕ) : Reader.Fixed 4 :=
  ⟨LittleEndian.encode 4 n, LittleEndian.length_encode 4 n⟩

/-- An account that declares `n` identities and holds one. -/
def oneRecord (n : ℕ) : Octets := (Policy.mk 0 0 7 (identitiesLen n)).serialize ++ sampleKey.val

theorem declares_oneRecord {n : ℕ} (h : n < 2 ^ 32) : Declares (oneRecord n) n sampleKey.val := by
  have hcount : LittleEndian.decode (identitiesLen n).val = n :=
    LittleEndian.decode_encode (by omega)
  have hdeclares : Declares (oneRecord n) (LittleEndian.decode (identitiesLen n).val)
      sampleKey.val := .policy ⟨0, 0, 7, identitiesLen n⟩ _ rfl ((Policy.inverts _ _ _).mpr rfl)
  rwa [hcount] at hdeclares

theorem getBlockedIdentities_oneRecord (n : ℕ) :
    getBlockedIdentities sampleKey (.ok (oneRecord n)) = .ok [sampleKey.toText] := by
  rw [getBlockedIdentities_eq_ok]
  refine ⟨identitiesOf sampleKey.val, .policy ⟨0, 0, 7, identitiesLen n⟩ _ rfl, ?_⟩
  have hone : identitiesOf (([sampleKey].map Subtype.val).flatten ++ []) = [sampleKey] :=
    identitiesOf_flatten [sampleKey] (by decide)
  simp only [List.map_cons, List.map_nil, List.flatten_cons, List.flatten_nil,
    List.append_nil] at hone
  rw [hone]
  rfl

theorem identities_are_whole_records_oneRecord :
    [sampleKey.toText] = (Reader.chunksExact 32 sampleKey.val).map Base58.encode :=
  ((identities_are_whole_records (getBlockedIdentities_oneRecord 2)).2 2 _
    (declares_oneRecord (by decide))).1

/-- **The count is not looked at.** A record past the declared ones is reported, and an account
that holds fewer records than it declares is read without an error. -/
theorem declared_ignored :
    (¬ ∀ (data : Octets) (texts : List Text), getBlockedIdentities sampleKey (.ok data) = .ok texts →
      ∀ declared body, Declares data declared body → texts.length ≤ declared) ∧
    ¬ ∀ (data : Octets) (texts : List Text), getBlockedIdentities sampleKey (.ok data) = .ok texts →
      ∀ declared body, Declares data declared body → declared ≤ texts.length := by
  constructor
  · intro hall
    have hcount := hall _ _ (getBlockedIdentities_oneRecord 0) 0 _ (declares_oneRecord (by decide))
    rw [List.length_singleton] at hcount
    omega
  · intro hall
    have hcount := hall _ _ (getBlockedIdentities_oneRecord 2) 2 _ (declares_oneRecord (by decide))
    rw [List.length_singleton] at hcount
    omega

/-! ## Writing and reading back -/

/-- The records of some identities and a fragment behind them. -/
def recordsOf (ids : List Pubkey) (fragment : Octets) : Octets :=
  (ids.map Subtype.val).flatten ++ fragment

/-- **Reading undoes writing**, for both layouts: a deny policy with its identities and a fragment
shorter than a record gives the texts of exactly these identities. An account with another
strategy, or of an unknown kind, is an error whatever its body. -/
theorem identities_decode_encode (key : Pubkey) :
    (∀ (nonce : UInt8) (ids : List Pubkey) (fragment : Octets), fragment.length < 32 →
      getBlockedIdentities key (.ok ((Policy.mk 0 0 nonce (identitiesLen ids.length)).serialize ++
        recordsOf ids fragment)) = .ok (ids.map Pubkey.toText)) ∧
    (∀ (nonce : UInt8) (mint : Pubkey) (ids : List Pubkey) (fragment : Octets),
      fragment.length < 32 → getBlockedIdentities key
        (.ok ((PolicyV2.mk 1 0 nonce mint (identitiesLen ids.length)).serialize ++
          recordsOf ids fragment)) = .ok (ids.map Pubkey.toText)) ∧
    (∀ (p : Policy) (body : Octets), p.strategy ≠ 0 ∨ 1 < p.kind →
      ∃ e, getBlockedIdentities key (.ok (p.serialize ++ body)) = .err e) ∧
    (∀ (p : PolicyV2) (body : Octets), p.strategy ≠ 0 ∨ 1 < p.kind →
      ∃ e, getBlockedIdentities key (.ok (p.serialize ++ body)) = .err e) := by
  refine ⟨fun nonce ids fragment hfragment => ?_, fun nonce mint ids fragment hfragment => ?_,
    fun p body h => exists_err key _ h, fun p body h => exists_err key _ h⟩
  · rw [getBlockedIdentities_eq_ok]
    refine ⟨identitiesOf (recordsOf ids fragment), .policy ⟨0, 0, nonce, _⟩ _ rfl, ?_⟩
    rw [recordsOf, identitiesOf_flatten ids hfragment]
  · rw [getBlockedIdentities_eq_ok]
    refine ⟨identitiesOf (recordsOf ids fragment), .policyV2 ⟨1, 0, nonce, mint, _⟩ _ rfl, ?_⟩
    rw [recordsOf, identitiesOf_flatten ids hfragment]

theorem identities_decode_encode_repeated :
    getBlockedIdentities sampleKey (.ok ((Policy.mk 0 0 7 (identitiesLen 2)).serialize ++
      recordsOf [sampleKey, sampleKey] [1, 2, 3])) = .ok [sampleKey.toText, sampleKey.toText] :=
  (identities_decode_encode sampleKey).1 7 [sampleKey, sampleKey] [1, 2, 3] (by decide)

end Iris
