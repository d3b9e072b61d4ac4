import ExternalSignature.Proofs.Session

/-!
# The arithmetic of a refresh

A refresh adds the requested duration to the clock and compares the sum with the clock plus the
limit, both with wrapping arithmetic. A duration beyond the limit is refused as long as the sum
stays below `2 ^ 64`; from there on the sum wraps to a time in the past and the comparison accepts
it (`refresh_exact`).
-/

namespace ExternalSignature

open Lib Lib.Borsh

variable {host : Host} {rt : Runtime} {accounts : List AccountInfo} {data : Bytes}

/-- A refresh up to the verified signature: its arguments, and the account with the new counter. -/
def refreshVerified (host : Host) (rt : Runtime) (accounts : List AccountInfo) (data : Bytes) :
    Outcome (RefreshSessionKeyArgs × ExternallySignedAccount) := do
  let args ← mapErr (.err .invalidArgument) (tryFromSlice RefreshSessionKeyArgs data)
  let .p256Webauthn ← okOr (.custom .invalidSignatureScheme)
    (SignatureScheme.tryFromPrimitive args.signatureScheme)
  let context ← RefreshSessionKeyContext.load host rt accounts args
  let payloadHash ← context.getRefreshSessionKeyPayloadHash host
  let externallySignedAccount ← context.externallySignedAccount.verifyPayload host
    context.instructionsSysvar context.verificationData payloadHash.val
  return (args, externallySignedAccount)

/-- What the refresh does then. -/
def refreshUpdate (rt : Runtime) (args : RefreshSessionKeyArgs)
    (externallySignedAccount : ExternallySignedAccount) : Outcome AccountInfo := do
  let sessionKey := { args.sessionKey with
    expiration := sessionKeyExpiration rt args.sessionKey.expiration }
  let externallySignedAccount ← externallySignedAccount.updateSessionKey rt sessionKey
  return externallySignedAccount.finish

theorem processRefreshSessionKey_eq : processRefreshSessionKey host rt accounts data =
    refreshVerified host rt accounts data >>= fun (args, account) => refreshUpdate rt args account := by
  simp only [processRefreshSessionKey, refreshVerified, refreshUpdate, bind_assoc, pure_bind]

/-- The verified account has data, whose session key alone the refresh replaces. -/
theorem refreshVerified_ok {args : RefreshSessionKeyArgs} {account : ExternallySignedAccount}
    (h : refreshVerified host rt accounts data = .ok (args, account)) :
    ∃ verified, Initialized account.data verified := by
  simp only [refreshVerified, bind_eq_ok, pure_eq_ok, Prod.mk.injEq] at h
  obtain ⟨_, -, ⟨⟩, -, context, hload, hash, -, _, hverify, rfl, rfl⟩ := h
  obtain ⟨before, verified, hbefore, rfl, ⟨v⟩⟩ := ExternallySignedAccount.verifyPayload_ok hverify
  have hi := ExternallySignedAccount.dataRef_ok.mp hbefore
  exact ⟨verified, hi.write v.after_fields.1⟩

theorem refreshUpdate_eq_ok {args : RefreshSessionKeyArgs} {account : ExternallySignedAccount}
    {verified : P256WebauthnAccountData} (h : Initialized account.data verified)
    {left : AccountInfo} : refreshUpdate rt args account = .ok left ↔
      sessionKeyExpiration rt args.sessionKey.expiration ≤
        P256WebauthnAccountData.expirationBound rt ∧
      (account.setData { verified with sessionKey := ⟨args.sessionKey.key,
        sessionKeyExpiration rt args.sessionKey.expiration⟩ }).finish = left := by
  have hdata := ExternallySignedAccount.dataRef_ok.mpr h
  simp only [refreshUpdate, ExternallySignedAccount.updateSessionKey,
    P256WebauthnAccountData.updateSessionKey, bind_eq_ok, ensure_eq_ok, exists_unit, pure_eq_ok,
    hdata, Except.ok.injEq, exists_eq_left', exists_and_left]
  constructor
  · rintro ⟨_, ⟨_, ⟨hle, rfl⟩, rfl⟩, rfl⟩
    exact ⟨hle, rfl⟩
  · rintro ⟨hle, rfl⟩
    exact ⟨_, ⟨_, ⟨hle, rfl⟩, rfl⟩, rfl⟩

/-! ## The duration -/

/-- The refresh succeeds exactly for a duration within the limit, and then stores the time at which
it ends. -/
structure RefreshExact (rt : Runtime) (args : RefreshSessionKeyArgs)
    (result : Outcome AccountInfo) : Prop where
  accepts : (∃ left, result = .ok left) ↔ args.sessionKey.expiration ≤ sessionKeyExpirationLimit
  stores : ∀ left, result = .ok left → ∃ stored, Initialized left.data stored ∧
    stored.sessionKey.key = args.sessionKey.key ∧
    (stored.sessionKey.expiration.toNat : Int) =
      rt.unixTimestamp.toInt + args.sessionKey.expiration.toNat

/-- The sum with the clock as a machine word. -/
theorem toNat_sessionKeyExpiration (d : UInt64) : (sessionKeyExpiration rt d).toNat =
    (rt.unixTimestamp.toUInt64.toNat + d.toNat) % 2 ^ 64 := by
  show (rt.unixTimestamp.toUInt64 + d).toNat = _
  rw [UInt64.toNat_add]

/-- The comparison is right as long as the sum does not wrap, and accepts every sum that does. -/
theorem sessionKeyExpiration_le_bound (d : UInt64) (h : rt.unixTimestamp.toUInt64.toNat < 2 ^ 62) :
    sessionKeyExpiration rt d ≤ P256WebauthnAccountData.expirationBound rt ↔
      d ≤ sessionKeyExpirationLimit ∨ 2 ^ 64 ≤ rt.unixTimestamp.toUInt64.toNat + d.toNat := by
  have hbound := toNat_add_duration h (UInt64.le_refl sessionKeyExpirationLimit)
  have hlimit : sessionKeyExpirationLimit.toNat = 7776000 := rfl
  have hd := d.toNat_lt
  rw [UInt64.le_iff_toNat_le, UInt64.le_iff_toNat_le, toNat_sessionKeyExpiration,
    P256WebauthnAccountData.expirationBound, hbound]
  omega

/-- After a verified refresh at a time below `2 ^ 62`, the duration is handled exactly if and only
if the end of the session is a `u64`. -/
theorem refresh_exact {args : RefreshSessionKeyArgs} {account : ExternallySignedAccount}
    (hverified : refreshVerified host rt accounts data = .ok (args, account))
    (hnonneg : 0 ≤ rt.unixTimestamp.toInt) (hlt : rt.unixTimestamp.toInt < 2 ^ 62) :
    RefreshExact rt args (processRefreshSessionKey host rt accounts data) ↔
      rt.unixTimestamp.toInt + args.sessionKey.expiration.toNat < 2 ^ 64 := by
  obtain ⟨verified, hinit⟩ := refreshVerified_ok hverified
  have hprocess : processRefreshSessionKey host rt accounts data = refreshUpdate rt args account := by
    rw [processRefreshSessionKey_eq, hverified]
    rfl
  have htime := toNat_toUInt64_of_nonneg hnonneg
  have hle := sessionKeyExpiration_le_bound args.sessionKey.expiration
    (show rt.unixTimestamp.toUInt64.toNat < 2 ^ 62 by omega)
  have hlimit : sessionKeyExpirationLimit.toNat = 7776000 := rfl
  have hok (left : AccountInfo) : refreshUpdate rt args account = .ok left ↔ _ :=
    refreshUpdate_eq_ok hinit
  rw [hprocess]
  constructor
  · intro h
    by_contra hwrap
    have hd := h.accepts.mp ⟨_, (hok _).mpr ⟨hle.mpr (.inr (by omega)), rfl⟩⟩
    have hd := UInt64.le_iff_toNat_le.mp hd
    omega
  · intro hsum
    constructor
    · constructor
      · rintro ⟨left, hleft⟩
        exact (hle.mp ((hok _).mp hleft).1).resolve_right (by omega)
      · exact fun hd => ⟨_, (hok _).mpr ⟨hle.mpr (.inl hd), rfl⟩⟩
    · intro left hleft
      obtain ⟨-, rfl⟩ := (hok _).mp hleft
      refine ⟨_, hinit.write rfl, rfl, ?_⟩
      rw [toNat_sessionKeyExpiration, Nat.mod_eq_of_lt (by omega)]
      omega

namespace Sample

/-- The passkey asks for the longest session that can be asked for. -/
def endlessCall : Call where
  rt := runtime 1700000000 [slot] [precompile passkey
    0xfd61b046184b827544aad620802a01a9488ac8fe9079460403b942b6cb08556a
    0x23a884a31f7ea59ac1a02dd84b44e4735e3bdd6d132171631a781b7a09ec3539
    0 0xadfb6d05556aaa4ad78f1af026afef5109cdd81878a228292105a488de7af9c2]
  accounts := refreshCall.accounts
  data := 2 :: encoded (RefreshSessionKeyArgs.mk ⟨1⟩ 0
    (smallVec (encoded (verificationData passkey))) ⟨sessionSigner, 0xffffffffffffffff⟩)

def endlessDigests : List (Bytes × ByteArr 32) := [
  (slot.hash.val ++ payer.val ++ ascii "refresh_session_key" ++ (sessionSigner.val ++
      leBytes 8 0xffffffffffffffff),
    .ofNat 32 0x12acbe6c6a5fbb60cb47010ef7079b2a725df500b88d7541c3167fa029b542a7),
  (clientDataJson "get" "Eqy-bGpfu2DLRwEO9webKnJd9QC4jXVBwxZ_oCm1Qqc",
    .ofNat 32 0xadfb6d05556aaa4ad78f1af026afef5109cdd81878a228292105a488de7af9c2)]

theorem endlessDigests_eq : ∀ p ∈ endlessDigests, Sha256.hash p.1 = p.2 := by
  unfold endlessDigests
  simp only [List.forall_mem_cons, List.not_mem_nil, false_imp_iff, implies_true, and_true]
  refine ⟨?_, ?_⟩ <;> decide +kernel

/-- What is hashed and derived for this refresh. -/
def endlessRecorded : Recorded :=
  recorded.append (.ofDigests endlessDigests endlessDigests_eq)

def endlessArgs : RefreshSessionKeyArgs :=
  ⟨⟨1⟩, 0, smallVec (encoded (verificationData passkey)), ⟨sessionSigner, 0xffffffffffffffff⟩⟩

/-- The account of the sample ledger; no counter was signed. -/
def verifiedAccount : ExternallySignedAccount :=
  ⟨⟨external, false, true, ID, (Pod.bytes stored).val⟩, (Pod.bytes stored).val⟩

/-- What the refresh stores. -/
def expired : P256WebauthnAccountData :=
  { stored with sessionKey := ⟨sessionSigner, 1699999999⟩ }

theorem expired_initialized : Initialized (Pod.bytes expired).val expired := by
  refine ⟨?_, rfl, rfl⟩
  decide +kernel

theorem endlessCall_ok : processRefreshSessionKey .solana endlessCall.rt (endlessCall.infos ledger)
    endlessCall.data.tail = .ok ⟨external, false, true, ID, (Pod.bytes expired).val⟩ := by
  rw [← endlessRecorded.host_eq]
  decide +kernel

def refreshArgs : RefreshSessionKeyArgs :=
  ⟨⟨1⟩, 0, smallVec (encoded (verificationData passkey)), ⟨sessionSigner, 3600⟩⟩

theorem refreshCall_verified : refreshVerified .solana refreshCall.rt (refreshCall.infos ledger)
    refreshCall.data.tail = .ok (refreshArgs, verifiedAccount) := by
  rw [← refreshRecorded.host_eq]
  decide +kernel

end Sample

/-- A session that has ended a second before it begins is installed. -/
theorem refresh_exact_endless : ∃ left,
    processRefreshSessionKey .solana Sample.endlessCall.rt
      (Sample.endlessCall.infos Sample.ledger) Sample.endlessCall.data.tail = .ok left ∧
    Sample.endlessCall.rt.unixTimestamp = 1700000000 ∧ Initialized left.data Sample.expired ∧
    Sample.expired.sessionKey.expiration = 1699999999 ∧
    ¬RefreshExact Sample.endlessCall.rt Sample.endlessArgs
      (processRefreshSessionKey .solana Sample.endlessCall.rt
        (Sample.endlessCall.infos Sample.ledger) Sample.endlessCall.data.tail) := by
  refine ⟨_, Sample.endlessCall_ok, rfl, Sample.expired_initialized, rfl, fun h => ?_⟩
  exact absurd (h.accepts.mp ⟨_, Sample.endlessCall_ok⟩) (by decide)

theorem refresh_exact_hour : RefreshExact Sample.refreshCall.rt Sample.refreshArgs
    (processRefreshSessionKey .solana Sample.refreshCall.rt
      (Sample.refreshCall.infos Sample.ledger) Sample.refreshCall.data.tail) := by
  have h := refresh_exact Sample.refreshCall_verified (by decide) (by decide)
  exact h.mpr (by decide)

end ExternalSignature
