import ExternalSignature.Proofs.Challenge

/-!
# Accepted challenges

What a successful `verify_payload` has checked (`Verification`), and with the nonce, what it means
that the program has accepted a challenge (`Acceptance`). A signed message is accepted for at most
one challenge, unless two of the strings hashed on the way collide (`Acceptance.challenge_unique`).
-/

namespace ExternalSignature

open Lib Lib.Borsh

variable {host : Host} {rt : Runtime}

/-- The message of `ixs` is signed by the passkey of `before` and its challenge is `payload`. -/
structure Verification (host : Host) (before : P256WebauthnAccountData) (ixs : Instructions)
    (params : ClientDataJsonReconstructionParams) (payload : Bytes)
    (after : P256WebauthnAccountData) where
  signed : SignaturePayload
  rpId : Bytes
  json : Bytes
  count : UInt32
  presented : ixs.signaturePayload = .ok signed
  publicKey : signed.publicKey = before.publicKey.toBytes.val
  present : (AuthDataParser.mk signed.authData).isUserPresent = .ok true
  rpIdHash : (AuthDataParser.mk signed.authData).rpIdHash = .ok before.rpIdInfo.rpIdHash.val
  rpIdSlice : before.rpIdInfo.rpIdSlice = .ok rpId
  reconstructed : reconstructClientDataJson params rpId payload = .ok json
  clientDataHash : (host.sha256 json).val = signed.clientDataHash
  signCount : (AuthDataParser.mk signed.authData).getCounter = .ok count
  fresh : count ≠ 0 → before.counter < count.toUInt64
  after_eq : after = if count = 0 then before else { before with counter := count.toUInt64 }

theorem verifyPayload_ok {before after : P256WebauthnAccountData} {ixs : Instructions}
    {extra : P256ParsedVerificationData} {payload : Bytes}
    (h : before.verifyPayload host ixs extra payload = .ok after) :
    Nonempty (Verification host before ixs extra.clientDataJsonReconstructionParams payload
      after) := by
  simp only [P256WebauthnAccountData.verifyPayload, bind_eq_ok, ensure_eq_ok, exists_unit] at h
  obtain ⟨signed, hp, hk, -, present, hpresent, rfl, rpIdHash, hrpIdHash, rpId, hr, rfl, json, hj, hh,
    count, hc, h⟩ := h
  split at h
  · rename_i hne
    simp only [bind_eq_ok, ensure_eq_ok, exists_unit, pure_eq_ok] at h
    obtain ⟨hlt, rfl⟩ := h
    exact ⟨signed, rpId, json, count, hp, hk, hpresent, hrpIdHash, hr, hj, hh, hc, fun _ => hlt,
      by rw [if_neg hne]⟩
  · rename_i heq
    obtain rfl := pure_eq_ok.mp h
    have heq := Decidable.not_not.mp heq
    exact ⟨signed, rpId, json, count, hp, hk, hpresent, hrpIdHash, hr, hj, hh, hc,
      fun h => absurd heq h, by rw [if_pos heq]⟩

namespace Verification

variable {before after : P256WebauthnAccountData} {ixs : Instructions}
  {params : ClientDataJsonReconstructionParams} {payload : Bytes}

/-- Only the counter changes. -/
theorem after_fields (v : Verification host before ixs params payload after) :
    after.header = before.header ∧ after.rpIdInfo = before.rpIdInfo ∧
      after.publicKey = before.publicKey ∧ after.sessionKey = before.sessionKey := by
  rw [v.after_eq]
  split <;> exact ⟨rfl, rfl, rfl, rfl⟩

/-- The slice and the `unwrap` of the verification have not panicked. -/
theorem rpId_valid (v : Verification host before ixs params payload after) :
    before.rpIdInfo.rpIdLen.toNat ≤ 32 ∧
      isUtf8 (before.rpIdInfo.rpId.val.take before.rpIdInfo.rpIdLen.toNat) := by
  have h := v.rpIdSlice
  simp only [RpIdInformation.rpIdSlice, slice, before.rpIdInfo.rpId.property,
    List.drop_zero] at h
  split at h
  · rename_i hle
    have hu := (reconstructClientDataJson_ok v.reconstructed).1
    rw [← Except.ok.inj h] at hu
    exact ⟨hle, hu⟩
  · cases h

/-- A counter that is not zero is recorded. -/
theorem counter_eq (v : Verification host before ixs params payload after) (h : v.count ≠ 0) :
    after.counter = v.count.toUInt64 := by
  have ha := v.after_eq
  rw [if_neg h] at ha
  exact congrArg P256WebauthnAccountData.counter ha

/-- The counter never decreases. -/
theorem counter_le (v : Verification host before ixs params payload after) :
    before.counter ≤ after.counter := by
  rw [v.after_eq]
  split
  · exact UInt64.le_refl _
  · exact UInt64.le_of_lt (v.fresh ‹_›)

end Verification

/-- The program accepts a challenge for the account data `before` and leaves `after`. -/
structure Acceptance (host : Host) (rt : Runtime) (nonceSigner : AccountInfo)
    (challenge : Challenge) (before after : P256WebauthnAccountData) where
  payload : Bytes
  encoded : challenge.encode = .ok payload
  params : ClientDataJsonReconstructionParams
  verification : Verification host before rt.instructions params (host.sha256 payload).val after
  nonce : ValidNonce rt rt.slotHashes nonceSigner ⟨challenge.signer, challenge.slothash⟩

namespace Acceptance

variable {rt' : Runtime} {n n' : AccountInfo} {c c' : Challenge}
  {before after before' after' : P256WebauthnAccountData}

/-- The strings hashed to compare the message with the challenge. -/
def hashed (a : Acceptance host rt n c before after) : List Bytes :=
  [a.payload, a.verification.json]

/-- Two acceptances of one client data hash are of one challenge. -/
theorem challenge_unique (a : Acceptance host rt n c before after)
    (b : Acceptance host rt' n' c' before' after') (hc : c.Bounded) (hc' : c'.Bounded)
    (hm : a.verification.signed.clientDataHash = b.verification.signed.clientDataHash)
    (hfree : host.CollisionFreeOn (a.hashed ++ b.hashed)) : c = c' := by
  have hj : a.verification.json = b.verification.json := by
    refine hfree _ (by simp [hashed]) _ (by simp [hashed]) (Subtype.ext ?_)
    rw [a.verification.clientDataHash, b.verification.clientDataHash, hm]
  have hh := reconstructClientDataJson_challenge_inj
    ((host.sha256 a.payload).property.trans (host.sha256 b.payload).property.symm)
    a.verification.reconstructed (hj ▸ b.verification.reconstructed)
  have hp : a.payload = b.payload :=
    hfree _ (by simp [hashed]) _ (by simp [hashed]) (Subtype.ext hh)
  exact Challenge.encode_inj hc hc' a.encoded (hp ▸ b.encoded)

end Acceptance

/-! ## Addresses -/

theorem findProgramAddress_ok {seeds : List Bytes} {found : Pubkey × UInt8} :
    findProgramAddress host seeds = .ok found ↔ host.tryFindProgramAddress seeds ID = some found :=
  okOr_eq_ok

/-- What `derive_account` returns for a public key. -/
structure Derived (host : Host) (publicKey : CompressedP256PublicKey) (s : AccountSeeds) : Prop where
  found : host.tryFindProgramAddress (passkeySeeds host publicKey) ID = some (s.key, s.bump)
  seedsOwned : s.seedsOwned = (ascii "passkey", (host.sha256 publicKey.toBytes.val).val)

theorem deriveAccount_ok {publicKey : CompressedP256PublicKey} {s : AccountSeeds}
    (h : P256WebauthnAccountData.deriveAccount host ⟨publicKey.toBytes⟩ = .ok s) :
    Derived host publicKey s := by
  simp only [P256WebauthnAccountData.deriveAccount, bind_eq_ok, findProgramAddress_ok,
    pure_eq_ok, Prod.exists] at h
  obtain ⟨key, bump, hf, rfl⟩ := h
  exact ⟨hf, rfl⟩

theorem Derived.seeds_eq {publicKey : CompressedP256PublicKey} {s : AccountSeeds}
    (h : Derived host publicKey s) : s.seeds = passkeySeeds host publicKey ++ [[s.bump]] := by
  have hpasskey : s.seedPasskey = ascii "passkey" := congrArg Prod.fst h.seedsOwned
  have hhash : s.seedPublicKeyHash.val = (host.sha256 publicKey.toBytes.val).val :=
    congrArg Prod.snd h.seedsOwned
  rw [AccountSeeds.seeds, hpasskey, hhash]
  rfl

/-- The address of the external account of a public key. -/
def DerivesTo (host : Host) (publicKey : CompressedP256PublicKey) (key : Pubkey) : Prop :=
  ∃ bump, host.tryFindProgramAddress (passkeySeeds host publicKey) ID = some (key, bump)

theorem DerivesTo.unique {publicKey : CompressedP256PublicKey} {key key' : Pubkey}
    (h : DerivesTo host publicKey key) (h' : DerivesTo host publicKey key') : key = key' := by
  obtain ⟨_, h⟩ := h
  obtain ⟨_, h'⟩ := h'
  cases h.symm.trans h'
  rfl

end ExternalSignature
