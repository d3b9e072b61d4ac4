import ExternalSignature.Proofs.Authority
import ExternalSignature.Proofs.NonceScan

/-!
# What the program accepts

The records of successful calls say what the checks have established; here each check is shown to
pass where it should. A message that the account's passkey has signed for a payload is verified
(`Presents.verifyPayload`), a slot that is less than 150 slots old is a nonce
(`validateNonce_recent`), and with them each of the three instructions that a passkey signs goes
through (`processRefreshSessionKey_signed`, `processInitializeExternalAccount_signed`,
`processExecuteInstructions_signed`).
-/

namespace ExternalSignature

open Lib Lib.Borsh

variable {host : Host} {rt : Runtime}

/-! ## Authenticator data -/

structure AuthenticatorData where
  rpIdHash : ByteArr 32
  flags : UInt8
  signCount : UInt32
  /-- Attested credential data and extensions, where there are any. -/
  rest : Bytes

namespace AuthenticatorData

variable (d : AuthenticatorData)

def encode : Bytes :=
  d.rpIdHash.val ++ d.flags :: ((ByteArr.ofNat 4 d.signCount.toNat).val ++ d.rest)

theorem slice_append (before bytes rest : Bytes) {lo hi : Nat} (hlo : before.length = lo)
    (hhi : lo + bytes.length = hi) : slice (before ++ (bytes ++ rest)) lo hi = .ok bytes := by
  subst hlo hhi
  rw [slice, if_pos (by simp), ← List.append_assoc, ← List.length_append, List.take_left,
    List.drop_left]

theorem rpIdHash_encode : (AuthDataParser.mk d.encode).rpIdHash = .ok d.rpIdHash.val :=
  slice_append [] d.rpIdHash.val _ rfl (by rw [d.rpIdHash.property])

theorem isUserPresent_encode :
    (AuthDataParser.mk d.encode).isUserPresent = .ok (d.flags &&& 0x01 != 0) := by
  have hflags : d.encode[32]? = some d.flags := by
    rw [encode, List.getElem?_append_right (Nat.le_of_eq d.rpIdHash.property), d.rpIdHash.property]
    rfl
  rw [AuthDataParser.isUserPresent, hflags]
  rfl

theorem getCounter_encode : (AuthDataParser.mk d.encode).getCounter = .ok d.signCount := by
  have hslice : slice d.encode 33 37 = .ok (ByteArr.ofNat 4 d.signCount.toNat).val := by
    rw [encode, ← List.singleton_append, ← List.append_assoc]
    refine slice_append _ _ _ ?_ ?_
    · rw [List.length_append, d.rpIdHash.property]
      rfl
    · rw [(ByteArr.ofNat 4 d.signCount.toNat).property]
  have hnat : beNat (ByteArr.ofNat 4 d.signCount.toNat).val = d.signCount.toNat := by
    show leNat (leBytes 4 d.signCount.toNat).reverse.reverse = _
    rw [List.reverse_reverse, leNat_leBytes d.signCount.toNat_lt]
  rw [AuthDataParser.getCounter, hslice, ok_bind, hnat, UInt32.ofNat_toNat]
  rfl

end AuthenticatorData

/-! ## Payloads -/

/-- The data after a sign count, which is not counted if it is zero. -/
def P256WebauthnAccountData.counted (data : P256WebauthnAccountData) (count : UInt32) :
    P256WebauthnAccountData :=
  if count = 0 then data else { data with counter := count.toUInt64 }

theorem P256WebauthnAccountData.counted_header (data : P256WebauthnAccountData) (count : UInt32) :
    (data.counted count).header = data.header := by
  unfold counted
  split <;> rfl

/-- The transaction presents a message that the passkey of the account has signed for a payload. -/
structure Presents (host : Host) (ixs : Instructions) (data : P256WebauthnAccountData)
    (params : ClientDataJsonReconstructionParams) (payload : Bytes) (d : AuthenticatorData) :
    Prop where
  signed : ∃ signature rpId json, ixs.signaturePayload = .ok
      ⟨signature, data.publicKey.toBytes.val, d.encode ++ (host.sha256 json).val⟩ ∧
    data.rpIdInfo.rpIdSlice = .ok rpId ∧ reconstructClientDataJson params rpId payload = .ok json
  present : d.flags &&& 0x01 ≠ 0
  rpIdHash : d.rpIdHash = data.rpIdInfo.rpIdHash
  fresh : d.signCount ≠ 0 → data.counter < d.signCount.toUInt64

theorem authData_append (signature publicKey authData : Bytes) (hash : ByteArr 32) :
    (SignaturePayload.mk signature publicKey (authData ++ hash.val)).authData = authData := by
  rw [SignaturePayload.authData, List.length_append, hash.property, Nat.add_sub_cancel,
    List.take_left]

theorem clientDataHash_append (signature publicKey authData : Bytes) (hash : ByteArr 32) :
    (SignaturePayload.mk signature publicKey (authData ++ hash.val)).clientDataHash = hash.val := by
  rw [SignaturePayload.clientDataHash, List.length_append, hash.property, Nat.add_sub_cancel,
    List.drop_left]

theorem Presents.verifyPayload {ixs : Instructions} {data : P256WebauthnAccountData}
    {extra : P256ParsedVerificationData} {payload : Bytes} {d : AuthenticatorData}
    (h : Presents host ixs data extra.clientDataJsonReconstructionParams payload d) :
    data.verifyPayload host ixs extra payload = .ok (data.counted d.signCount) := by
  obtain ⟨signature, rpId, json, hsigned, hrpId, hjson⟩ := h.signed
  have hlength : 32 ≤ (d.encode ++ (host.sha256 json).val).length := by
    rw [List.length_append, (host.sha256 json).property]
    omega
  have hpresent : (d.flags &&& 0x01 != 0) = true := bne_iff_ne.mpr h.present
  simp only [P256WebauthnAccountData.verifyPayload, hsigned, ok_bind, ensure_pos hlength,
    authData_append, clientDataHash_append, d.isUserPresent_encode, d.rpIdHash_encode,
    d.getCounter_encode, hpresent, hrpId, hjson, h.rpIdHash, ensure_pos]
  by_cases hzero : d.signCount = 0
  · simp only [hzero, P256WebauthnAccountData.counted]
    rfl
  · simp only [P256WebauthnAccountData.counted, if_neg hzero, if_pos hzero,
      ensure_pos (h.fresh hzero), ok_bind]
    rfl

/-! ## Nonces -/

/-- A slot of the sysvar that is less than 150 slots old. -/
structure Recent (slothashes : SlotHashes) (entry : SlotHash) : Prop where
  decreasing : StrictlyDecreasing slothashes
  mem : entry ∈ slothashes
  recent : ∀ newest, slothashes[0]? = some newest →
    newest.height.toNat < entry.height.toNat + 150

theorem validateNonce_recent {slothashes : SlotHashes} {entry : SlotHash} {slot : TruncatedSlot}
    {nonceSigner : AccountInfo} (h : Recent slothashes entry)
    (hslot : slot.slot.toNat = entry.height.toNat % 1000) (htop : rt.stackHeight ≤ 1)
    (hsigned : nonceSigner.isSigner) :
    validateNonce rt slothashes slot nonceSigner = .ok ⟨nonceSigner.key, entry.hash⟩ := by
  obtain ⟨i, hi⟩ := List.mem_iff_getElem?.mp h.mem
  have hlength := (List.getElem?_eq_some_iff.mp hi).1
  have h0 := List.getElem?_eq_getElem (Nat.zero_lt_of_lt hlength)
  generalize slothashes[0] = newest at h0
  have hrecent := h.recent newest h0
  have hle := h.decreasing.index_le h0 hi
  -- how far the entry is behind the newest one
  have hdn := UInt16.toNat_ofNat_of_lt' (n := newest.height.toNat - entry.height.toNat) (by
    show _ < 65536
    omega)
  generalize UInt16.ofNat (newest.height.toNat - entry.height.toNat) = d at hdn
  have hsub : d.toUInt64 ≤ newest.height := by
    rw [UInt64.le_iff_toNat_le, UInt16.toNat_toUInt64]
    omega
  have hexpected : newest.height - d.toUInt64 = entry.height := by
    apply UInt64.toNat_inj.mp
    rw [UInt64.toNat_sub_of_le _ _ hsub, UInt16.toNat_toUInt64]
    omega
  have hdistance : (TruncatedSlot.new newest.height).getIndexDifference slot = .ok d := by
    rw [getIndexDifference_iff (by omega)]
    omega
  have h1000 : slot.slot < 1000 := UInt16.lt_iff_toNat_lt.mpr (by show _ < 1000; omega)
  have h150 : d < 150 := UInt16.lt_iff_toNat_lt.mpr (by show _ < 150; omega)
  have hfind : findSlotHashWithFallback slothashes entry.height d.toNat = .ok entry :=
    (findSlotHashWithFallback_iff h.decreasing h0 (by omega)).mpr ⟨h.mem, rfl⟩
  simp only [validateNonce, ensure_pos h1000, ensure_pos htop, ensure_pos hsigned, ok_bind,
    getSlotHash_ok.mpr h0, hdistance, ensure_pos h150, ensure_pos hsub, hexpected, hfind]
  rfl

/-- The sysvars and the signer of a call that is made in time. -/
structure Timely (rt : Runtime) (instructionsSysvar slothashesSysvar nonceSigner : AccountInfo)
    (entry : SlotHash) : Prop where
  instructionsSysvar : instructionsSysvar.key = instructionsId
  slothashesSysvar : slothashesSysvar.key = slotHashesId
  topLevel : rt.stackHeight ≤ 1
  signed : nonceSigner.isSigner
  recent : Recent rt.slotHashes entry

/-! ## The external account -/

/-- The external account of a passkey, as an instruction receives it. -/
structure Usable (host : Host) (external : AccountInfo) (data : P256WebauthnAccountData) :
    Prop where
  owner : external.owner = ID
  initialized : Initialized external.data data
  writable : external.isWritable
  derived : DerivesTo host data.publicKey external.key

theorem deriveAccount_eq {publicKey : CompressedP256PublicKey} {key : Pubkey} {bump : UInt8}
    (h : host.tryFindProgramAddress (passkeySeeds host publicKey) ID = some (key, bump)) :
    P256WebauthnAccountData.deriveAccount host ⟨publicKey.toBytes⟩ =
      .ok ⟨key, bump, ascii "passkey", host.sha256 publicKey.toBytes.val⟩ :=
  bind_eq_ok.mpr ⟨(key, bump), findProgramAddress_ok.mpr h, rfl⟩

namespace Usable

variable {external : AccountInfo} {data : P256WebauthnAccountData}

theorem load_eq (h : Usable host external data) :
    ExternallySignedAccount.load external = .ok ⟨external, external.data⟩ := by
  have hne : external.data ≠ [] := by
    intro hempty
    have hread := h.initialized.1
    rw [hempty] at hread
    cases hread
  rw [ExternallySignedAccount.load, if_neg hne, ensure_pos h.owner]
  rfl

theorem dataRef_eq (h : Usable host external data) :
    (ExternallySignedAccount.mk external external.data).dataRef = .ok data :=
  ExternallySignedAccount.dataRef_ok.mpr h.initialized

theorem checkAccount_eq (h : Usable host external data)
    (params : ClientDataJsonReconstructionParams) : ∃ seeds,
      (ExternallySignedAccount.mk external external.data).checkAccount host
        ⟨data.publicKey, params⟩ = .ok seeds := by
  obtain ⟨bump, hfind⟩ := h.derived
  refine ⟨⟨external.key, bump, ascii "passkey", host.sha256 data.publicKey.toBytes.val⟩, ?_⟩
  rw [ExternallySignedAccount.checkAccount, h.dataRef_eq, ok_bind,
    P256WebauthnAccountData.checkAccount, ensure_pos h.writable, ok_bind, deriveAccount_eq hfind,
    ok_bind, ensure_pos rfl]
  rfl

end Usable

theorem ExternallySignedAccount.verifyPayload_eq {self : ExternallySignedAccount}
    {data : P256WebauthnAccountData} {ixs : Instructions} {extra : P256ParsedVerificationData}
    {payload : Bytes} {d : AuthenticatorData} (hdata : self.dataRef = .ok data)
    (h : Presents host ixs data extra.clientDataJsonReconstructionParams payload d) :
    self.verifyPayload host ixs extra payload = .ok (self.setData (data.counted d.signCount)) := by
  rw [ExternallySignedAccount.verifyPayload, hdata, ok_bind, h.verifyPayload]
  rfl

theorem ExternallySignedAccount.updateSessionKey_eq {self : ExternallySignedAccount}
    {data : P256WebauthnAccountData} {sessionKey : SessionKey} (h : Initialized self.data data)
    (hbound : sessionKey.expiration ≤ P256WebauthnAccountData.expirationBound rt) :
    self.updateSessionKey rt sessionKey =
      .ok (self.setData { data with sessionKey := sessionKey }) := by
  rw [updateSessionKey, dataRef_ok.mpr h, ok_bind, P256WebauthnAccountData.updateSessionKey,
    ensure_pos hbound]
  rfl

/-! ## Refresh -/

section

variable {external instructionsSysvar slothashesSysvar nonceSigner : AccountInfo}
  {rest : List AccountInfo} {data : Bytes} {before : P256WebauthnAccountData} {entry : SlotHash}
  {params : ClientDataJsonReconstructionParams} {payload : Bytes} {d : AuthenticatorData}

theorem RefreshSessionKeyContext.load_eq {args : RefreshSessionKeyArgs}
    (hslot : args.slothash.slot.toNat = entry.height.toNat % 1000)
    (hverification : tryFromSlice P256RawVerificationData args.verificationData.toList =
      .ok ⟨before.publicKey.toBytes, params⟩)
    (haccount : Usable host external before)
    (htimely : Timely rt instructionsSysvar slothashesSysvar nonceSigner entry) :
    RefreshSessionKeyContext.load host rt
        (external :: instructionsSysvar :: slothashesSysvar :: nonceSigner :: rest) args =
      .ok ⟨⟨nonceSigner.key, entry.hash⟩, ⟨before.publicKey, params⟩, ⟨external, external.data⟩,
        rt.instructions, args.sessionKey⟩ := by
  obtain ⟨seeds, hcheck⟩ := haccount.checkAccount_eq params
  have hnonce := validateNonce_recent htimely.recent hslot htimely.topLevel htimely.signed
  simp only [load, bind_eq_ok, mapErr_eq_ok, instructionsSysvar_ok, slotHashesSysvar_ok, pure_eq_ok]
  exact ⟨_, hverification, _, rfl, _, haccount.load_eq, seeds, hcheck, _,
    ⟨htimely.instructionsSysvar, rfl⟩, _, ⟨htimely.slothashesSysvar, rfl⟩, _, hnonce, rfl⟩

/-- A refresh that the passkey has signed goes through. -/
theorem processRefreshSessionKey_signed {args : RefreshSessionKeyArgs}
    (hargs : tryFromSlice RefreshSessionKeyArgs data = .ok args)
    (hscheme : args.signatureScheme = SignatureScheme.p256Webauthn.toU8)
    (hslot : args.slothash.slot.toNat = entry.height.toNat % 1000)
    (hverification : tryFromSlice P256RawVerificationData args.verificationData.toList =
      .ok ⟨before.publicKey.toBytes, params⟩)
    (haccount : Usable host external before)
    (htimely : Timely rt instructionsSysvar slothashesSysvar nonceSigner entry)
    (hpayload : (Challenge.refresh entry.hash nonceSigner.key args.sessionKey).encode = .ok payload)
    (hpresents : Presents host rt.instructions before params (host.sha256 payload).val d)
    (hbound : sessionKeyExpiration rt args.sessionKey.expiration ≤
      P256WebauthnAccountData.expirationBound rt) :
    processRefreshSessionKey host rt
        (external :: instructionsSysvar :: slothashesSysvar :: nonceSigner :: rest) data =
      .ok { external with data := Pod.write ({ before.counted d.signCount with sessionKey :=
        ⟨args.sessionKey.key, sessionKeyExpiration rt args.sessionKey.expiration⟩ } :
          P256WebauthnAccountData) external.data } := by
  have hload := @RefreshSessionKeyContext.load_eq host rt _ _ _ _ rest _ _ _ _ hslot hverification
    haccount htimely
  have hpreimage : refreshSessionKeyPayload ⟨nonceSigner.key, entry.hash⟩ args.sessionKey =
      .ok payload := (PayloadCall.preimage_eq (.refresh ⟨_, _⟩ args.sessionKey)).mpr hpayload
  have hverify := ExternallySignedAccount.verifyPayload_eq haccount.dataRef_eq
    (show Presents host rt.instructions before (P256ParsedVerificationData.mk before.publicKey
      params).clientDataJsonReconstructionParams _ d from hpresents)
  have hcounted : Initialized (ExternallySignedAccount.setData ⟨external, external.data⟩
      (before.counted d.signCount)).data (before.counted d.signCount) :=
    haccount.initialized.write (before.counted_header d.signCount)
  have hupdate := ExternallySignedAccount.updateSessionKey_eq hcounted
    (show (SessionKey.mk args.sessionKey.key
      (sessionKeyExpiration rt args.sessionKey.expiration)).expiration ≤ _ from hbound)
  simp only [processRefreshSessionKey, bind_eq_ok, mapErr_eq_ok, pure_eq_ok,
    RefreshSessionKeyContext.getRefreshSessionKeyPayloadHash]
  refine ⟨args, hargs, .p256Webauthn, by rw [hscheme]; rfl, _, hload, _, ⟨payload, hpreimage, rfl⟩,
    _, hverify, _, hupdate, ?_⟩
  simp [ExternallySignedAccount.setData, ExternallySignedAccount.finish]

/-! ## Execute -/

/-- The account that signs the calls, found at an address. -/
def executionAccountAt (host : Host) (scheme : SignerExecutionScheme) (key : Pubkey)
    (data : P256WebauthnAccountData) (address : Pubkey × UInt8) : ExecutionAccount where
  key := address.1
  bump := address.2
  seeds := match scheme with
    | .executionAccount => (key.val, ascii "execution_account")
    | .externalAccount => (ascii "passkey", (host.sha256 data.publicKey.toBytes.val).val)

theorem ExternallySignedAccount.getExecutionAccount_eq (h : Usable host external before)
    {scheme : SignerExecutionScheme} {address : Pubkey × UInt8}
    (hfind : host.tryFindProgramAddress (executionSeeds host scheme external.key before) ID =
      some address) :
    (ExternallySignedAccount.mk external external.data).getExecutionAccount host scheme =
      .ok (executionAccountAt host scheme external.key before address) := by
  cases scheme with
  | executionAccount => exact bind_eq_ok.mpr ⟨_, findProgramAddress_ok.mpr hfind, rfl⟩
  | externalAccount =>
    have hderive : (ExternallySignedAccount.mk external external.data).deriveExistingAccount host =
        .ok ⟨address.1, address.2, ascii "passkey", host.sha256 before.publicKey.toBytes.val⟩ :=
      bind_eq_ok.mpr ⟨before, h.dataRef_eq, deriveAccount_eq hfind⟩
    exact bind_eq_ok.mpr ⟨_, hderive, rfl⟩

section

variable {args : ExecutableInstructionArgs} {scheme : SignerExecutionScheme}
  {executionAccount : ExecutionAccount}

theorem ExecuteInstructionsContext.load_eq
    (hslot : args.slothash.slot.toNat = entry.height.toNat % 1000)
    (hverification : tryFromSlice P256RawVerificationData args.extraVerificationData.toList =
      .ok ⟨before.publicKey.toBytes, params⟩)
    (haccount : Usable host external before)
    (hscheme : args.signerExecutionScheme = scheme.toU8)
    (hexecuting : (ExternallySignedAccount.mk external external.data).getExecutionAccount host
      scheme = .ok executionAccount)
    (htimely : Timely rt instructionsSysvar slothashesSysvar nonceSigner entry) :
    ExecuteInstructionsContext.load host rt
        (external :: instructionsSysvar :: slothashesSysvar :: nonceSigner :: rest) args =
      .ok ⟨⟨nonceSigner.key, entry.hash⟩, executionAccount, ⟨before.publicKey, params⟩,
        ⟨external, external.data⟩, rt.instructions, rest, args.instructions.toList,
        createInstructionExecutionAccountMetas rest executionAccount scheme⟩ := by
  obtain ⟨seeds, hcheck⟩ := haccount.checkAccount_eq params
  have hnonce := validateNonce_recent htimely.recent hslot htimely.topLevel htimely.signed
  simp only [load, bind_eq_ok, mapErr_eq_ok, okOr_eq_ok, instructionsSysvar_ok, slotHashesSysvar_ok,
    pure_eq_ok]
  exact ⟨_, hverification, _, rfl, _, haccount.load_eq, seeds, hcheck, _,
    ⟨htimely.instructionsSysvar, rfl⟩, _, ⟨htimely.slothashesSysvar, rfl⟩, _, hnonce, scheme,
    SignerExecutionScheme.tryFromPrimitive_eq_some.mpr hscheme, _, hexecuting, rfl⟩

/-- An execution that the passkey has signed gets to its calls. -/
theorem processExecuteInstructions_signed
    (hargs : tryFromSlice ExecutableInstructionArgs data = .ok args)
    (hsignature : args.signatureScheme = SignatureScheme.p256Webauthn.toU8)
    (hslot : args.slothash.slot.toNat = entry.height.toNat % 1000)
    (hverification : tryFromSlice P256RawVerificationData args.extraVerificationData.toList =
      .ok ⟨before.publicKey.toBytes, params⟩)
    (haccount : Usable host external before)
    (hscheme : args.signerExecutionScheme = scheme.toU8)
    (hexecuting : (ExternallySignedAccount.mk external external.data).getExecutionAccount host
      scheme = .ok executionAccount)
    (htimely : Timely rt instructionsSysvar slothashesSysvar nonceSigner entry)
    (hpayload : (Challenge.execute entry.hash nonceSigner.key (rest.map (·.toMeta))
      args.instructions).encode = .ok payload)
    (hpresents : Presents host rt.instructions before params (host.sha256 payload).val d) :
    processExecuteInstructions host rt
        (external :: instructionsSysvar :: slothashesSysvar :: nonceSigner :: rest) data =
      .invoke rt rest (createInstructionExecutionAccountMetas rest executionAccount scheme)
        executionAccount args.instructions.toList
        ⟨external, Pod.write (before.counted d.signCount) external.data⟩ := by
  have hload := @ExecuteInstructionsContext.load_eq host rt _ _ _ _ rest _ _ _ _ _ _ hslot
    hverification haccount hscheme hexecuting htimely
  have hpreimage : instructionPayload ⟨nonceSigner.key, entry.hash⟩ rest args.instructions.toList =
      .ok payload :=
    (PayloadCall.preimage_eq (.execute ⟨_, _⟩ rest args.instructions)).mpr hpayload
  have hverify := ExternallySignedAccount.verifyPayload_eq haccount.dataRef_eq
    (show Presents host rt.instructions before (P256ParsedVerificationData.mk before.publicKey
      params).clientDataJsonReconstructionParams _ d from hpresents)
  have hsignature : okOr (Fault.custom .invalidSignatureScheme)
      (SignatureScheme.tryFromPrimitive args.signatureScheme) = .ok .p256Webauthn := by
    rw [hsignature]
    rfl
  simp only [processExecuteInstructions, verifyExecuteInstructions, hargs, mapErr, ok_bind,
    hsignature, hload, ExecuteInstructionsContext.getInstructionPayloadHash, hpreimage]
  simp only [pure, Except.pure, ok_bind, hverify]
  rfl

end

/-! ## Execute in a session -/

/-- An execution by the key of a session that has not run out gets to its calls. -/
theorem processExecuteInstructionsSessioned_inSession {sessionSigner : AccountInfo}
    {args : ExecutableInstructionSessionedArgs} {scheme : SignerExecutionScheme}
    {executionAccount : ExecutionAccount}
    (hargs : tryFromSlice ExecutableInstructionSessionedArgs data = .ok args)
    (hsignature : args.signatureScheme = SignatureScheme.p256Webauthn.toU8)
    (haccount : Usable host external before) (hsigned : sessionSigner.isSigner)
    (hkey : before.sessionKey.key = sessionSigner.key)
    (hlive : rt.unixTimestamp.toUInt64 ≤ before.sessionKey.expiration)
    (hscheme : args.signerExecutionScheme = scheme.toU8)
    (hexecuting : (ExternallySignedAccount.mk external external.data).getExecutionAccount host
      scheme = .ok executionAccount) :
    processExecuteInstructionsSessioned host rt (external :: sessionSigner :: rest) data =
      .invoke rt rest (createInstructionExecutionAccountMetas rest executionAccount scheme)
        executionAccount args.instructions.toList ⟨external, external.data⟩ := by
  have hvalid : (ExternallySignedAccount.mk external external.data).isValidSessionKey rt
      sessionSigner = .ok () := by
    rw [ExternallySignedAccount.isValidSessionKey, haccount.dataRef_eq, ok_bind,
      P256WebauthnAccountData.isValidSessionKey, ensure_pos hsigned, ok_bind, ensure_pos hkey,
      ok_bind, ensure_pos hlive]
  have hload : ExecuteInstructionsSessionedContext.load host rt (external :: sessionSigner :: rest)
      args = .ok ⟨⟨external, external.data⟩, sessionSigner, rest, executionAccount,
        args.instructions.toList,
        createInstructionExecutionAccountMetas rest executionAccount scheme⟩ := by
    simp only [ExecuteInstructionsSessionedContext.load, bind_eq_ok, okOr_eq_ok, pure_eq_ok,
      exists_unit]
    exact ⟨_, haccount.load_eq, hvalid, scheme,
      SignerExecutionScheme.tryFromPrimitive_eq_some.mpr hscheme, _, hexecuting, rfl⟩
  have hsignature : okOr (Fault.custom .invalidSignatureScheme)
      (SignatureScheme.tryFromPrimitive args.signatureScheme) = .ok .p256Webauthn := by
    rw [hsignature]
    rfl
  simp only [processExecuteInstructionsSessioned, checkExecuteInstructionsSessioned, hargs, mapErr,
    ok_bind, hsignature, hload]

end

/-! ## Initialize -/

/-- The data of an account that has been initialized, before the payload is verified. -/
def initialData (rpIdInfo : RpIdInformation) (publicKey : CompressedP256PublicKey)
    (sessionKey : Option SessionKey) : P256WebauthnAccountData :=
  { freshAccountData with
    rpIdInfo, publicKey, sessionKey := sessionKey.getD freshAccountData.sessionKey }

theorem tryFromInitializationData_eq {rpId : SmallVec UInt8 UInt8} (publicKey : ByteArr 33)
    (params : ClientDataJsonReconstructionParams) (hlength : rpId.toList.length ≤ 32)
    (hquote : 0x22 ∉ rpId.toList) :
    ∃ info, P256ParsedInitializationData.tryFrom host ⟨rpId, publicKey, params⟩ =
        .ok ⟨info, .new publicKey, 0, params⟩ ∧
      info.rpIdSlice = .ok rpId.toList ∧ info.rpIdHash = host.sha256 rpId.toList := by
  have hlen : (UInt8.ofNat rpId.toList.length).toNat = rpId.toList.length :=
    UInt8.toNat_ofNat_of_lt' (Nat.lt_of_le_of_lt hlength (by decide))
  refine ⟨_, bind_eq_ok.mpr ⟨(), ensure_pos hlength, bind_eq_ok.mpr ⟨(), ensure_pos hquote,
    bind_eq_ok.mpr ⟨_, dif_pos hlength, rfl⟩⟩⟩, ?_, rfl⟩
  simp [RpIdInformation.rpIdSlice, hlen, slice, hlength]

theorem P256WebauthnAccountData.initializeAccount_eq (data : P256WebauthnAccountData)
    (parsed : P256ParsedInitializationData) {sessionKey : Option SessionKey}
    (hbound : ∀ k ∈ sessionKey, k.expiration ≤ expirationBound rt) :
    data.initializeAccount rt parsed sessionKey = .ok { data with
      rpIdInfo := parsed.rpIdInfo, publicKey := parsed.publicKey, counter := parsed.counter
      sessionKey := sessionKey.getD data.sessionKey } := by
  cases sessionKey with
  | none => rfl
  | some k => exact bind_eq_ok.mpr ⟨(), ensure_pos (hbound k rfl), rfl⟩

theorem ExternallySignedAccount.initializeAccount_eq (info : AccountInfo)
    {parsed : P256ParsedInitializationData} {sessionKey : Option SessionKey}
    (hcounter : parsed.counter = 0)
    (hbound : ∀ k ∈ sessionKey, k.expiration ≤ P256WebauthnAccountData.expirationBound rt) :
    ∃ self, (ExternallySignedAccount.mk info
        (List.replicate P256WebauthnAccountData.size 0)).initializeAccount rt parsed sessionKey =
          .ok self ∧
      self.accountInfo = info ∧ self.data.length = P256WebauthnAccountData.size ∧
      self.dataRef = .ok (initialData parsed.rpIdInfo parsed.publicKey sessionKey) := by
  have hread : Pod.read AccountHeader (List.replicate P256WebauthnAccountData.size 0) =
      some ⟨0, 0, .zero 2⟩ := by decide +kernel
  have hheader : (ExternallySignedAccount.mk info
      (List.replicate P256WebauthnAccountData.size 0)).initializeHeader = .ok ⟨info, _⟩ :=
    bind_eq_ok.mpr ⟨_, okOr_eq_ok.mpr hread, rfl⟩
  have hi := (initializeHeader_ok hheader).2
  have hdata := P256WebauthnAccountData.initializeAccount_eq freshAccountData parsed hbound
  have hlength : (Pod.write (AccountHeader.mk P256WebauthnAccountData.version
      P256WebauthnAccountData.scheme (.zero 2))
        (List.replicate P256WebauthnAccountData.size 0)).length = P256WebauthnAccountData.size := by
    rw [Pod.length_write _ (by rw [List.length_replicate]; decide), List.length_replicate]
  refine ⟨_, bind_eq_ok.mpr ⟨_, hheader, bind_eq_ok.mpr ⟨_, dataRef_ok.mpr hi,
    bind_eq_ok.mpr ⟨_, hdata, rfl⟩⟩⟩, rfl, ?_, ?_⟩
  · exact (Pod.length_write _ (Nat.le_of_eq hlength.symm)).trans hlength
  · rw [hcounter]
    exact dataRef_ok.mpr (hi.write rfl)

theorem InitializeExternalAccountContext.load_eq {external rentPayer instructionsSysvar
      slothashesSysvar systemProgram : AccountInfo} {rest : List AccountInfo} {entry : SlotHash}
    {args : InitializeAccountArgs} {raw : P256RawInitializationData}
    {parsed : P256ParsedInitializationData} {seeds : AccountSeeds}
    (hslot : args.slothash.slot.toNat = entry.height.toNat % 1000)
    (hraw : tryFromSlice P256RawInitializationData args.initializationData.toList = .ok raw)
    (hparsed : P256ParsedInitializationData.tryFrom host raw = .ok parsed)
    (howner : external.owner = ExternalSignature.systemProgramId) (hempty : external.data = [])
    (hseeds : P256WebauthnAccountData.deriveAccount host ⟨parsed.publicKey.toBytes⟩ = .ok seeds)
    (hkey : external.key = seeds.key)
    (htimely : Timely rt instructionsSysvar slothashesSysvar rentPayer entry)
    (hsystem : systemProgram.key = ExternalSignature.systemProgramId) :
    load host rt (external :: rentPayer :: instructionsSysvar :: slothashesSysvar ::
        systemProgram :: rest) args =
      .ok ⟨entry.hash, ⟨external, external.data⟩, rentPayer, rt.instructions, seeds, parsed,
        args.sessionKey⟩ := by
  have hnonce := validateNonce_recent htimely.recent hslot htimely.topLevel htimely.signed
  have hload : ExternallySignedAccount.load external = .ok ⟨external, external.data⟩ :=
    bind_eq_ok.mpr ⟨(), ensure_pos (howner.trans (if_pos hempty).symm), rfl⟩
  simp only [load, bind_eq_ok, mapErr_eq_ok, ensure_eq_ok, exists_unit, instructionsSysvar_ok,
    slotHashesSysvar_ok, pure_eq_ok, checkAccountUninitialized]
  exact ⟨⟨howner, hempty⟩, _, hload, _, ⟨htimely.instructionsSysvar, rfl⟩, _,
    ⟨htimely.slothashesSysvar, rfl⟩, hsystem, _, hnonce, raw, hraw, parsed, hparsed, seeds, hseeds,
    hkey, rfl⟩

theorem loadInitializeExternalAccount_eq {accounts : List AccountInfo} {data : Bytes}
    {args : InitializeAccountArgs} {context : InitializeExternalAccountContext}
    (hargs : tryFromSlice InitializeAccountArgs data = .ok args)
    (hscheme : args.signatureScheme = SignatureScheme.p256Webauthn.toU8)
    (hload : InitializeExternalAccountContext.load host rt accounts args = .ok context) :
    loadInitializeExternalAccount host rt accounts data = .ok context := by
  simp only [loadInitializeExternalAccount, bind_eq_ok, mapErr_eq_ok]
  exact ⟨args, hargs, .p256Webauthn, by rw [hscheme]; rfl, hload⟩

/-- An initialization that the passkey has signed creates its account. -/
theorem processInitializeExternalAccount_signed {external rentPayer instructionsSysvar slothashesSysvar
      systemProgram : AccountInfo} {rest : List AccountInfo} {data : Bytes} {entry : SlotHash}
    {args : InitializeAccountArgs} {publicKey : CompressedP256PublicKey}
    {rpId : SmallVec UInt8 UInt8} {rpIdInfo : RpIdInformation}
    {params : ClientDataJsonReconstructionParams} {payload : Bytes} {d : AuthenticatorData}
    (hargs : tryFromSlice InitializeAccountArgs data = .ok args)
    (hscheme : args.signatureScheme = SignatureScheme.p256Webauthn.toU8)
    (hslot : args.slothash.slot.toNat = entry.height.toNat % 1000)
    (hraw : tryFromSlice P256RawInitializationData args.initializationData.toList =
      .ok ⟨rpId, publicKey.toBytes, params⟩)
    (hparsed : P256ParsedInitializationData.tryFrom host ⟨rpId, publicKey.toBytes, params⟩ =
      .ok ⟨rpIdInfo, publicKey, 0, params⟩)
    (howner : external.owner = systemProgramId) (hempty : external.data = [])
    (hderived : DerivesTo host publicKey external.key)
    (htimely : Timely rt instructionsSysvar slothashesSysvar rentPayer entry)
    (hsystem : systemProgram.key = systemProgramId)
    (hcreate : ∀ calls, rt.system calls = .ok ())
    (hbound : ∀ k ∈ args.sessionKey, k.expiration ≤ P256WebauthnAccountData.expirationBound rt)
    (hpayload : (Challenge.init entry.hash rentPayer.key args.sessionKey).encode = .ok payload)
    (hpresents : Presents host rt.instructions (initialData rpIdInfo publicKey args.sessionKey)
      params (host.sha256 payload).val d) :
    (processInitializeExternalAccount host rt (external :: rentPayer :: instructionsSysvar ::
        slothashesSysvar :: systemProgram :: rest) data).result =
      .ok { external with
        owner := ID
        data := (Pod.bytes ((initialData rpIdInfo publicKey args.sessionKey).counted
          d.signCount)).val } := by
  obtain ⟨bump, hfind⟩ := hderived
  have hload := @InitializeExternalAccountContext.load_eq host rt _ _ _ _ _ rest _ _ _ _ _ hslot hraw
    hparsed howner hempty (deriveAccount_eq hfind) rfl htimely hsystem
  have hpreimage : initializationPayload entry.hash rentPayer.key
      P256WebauthnAccountData.getInitializationPayload args.sessionKey = payload :=
    pure_eq_ok.mp ((PayloadCall.preimage_eq (.init _ _ args.sessionKey)).mpr hpayload)
  subst payload
  obtain ⟨self, hinit, hinfo, hlength, hdata⟩ := ExternallySignedAccount.initializeAccount_eq
    { external with owner := ID, data := List.replicate P256WebauthnAccountData.size 0 }
    (show (P256ParsedInitializationData.mk rpIdInfo publicKey 0 params).counter = 0 from rfl) hbound
  have hverify := ExternallySignedAccount.verifyPayload_eq hdata
    (show Presents host rt.instructions _ (P256ParsedVerificationData.mk publicKey
      params).clientDataJsonReconstructionParams _ d from hpresents)
  simp only [processInitializeExternalAccount,
    loadInitializeExternalAccount_eq hargs hscheme hload, bind_eq_ok, pure_eq_ok,
    InitializeExternalAccountContext.createAndAllocateExternallySignedAccount,
    invokeSystem_eq hcreate, InitializeExternalAccountContext.getInitializationPayloadHash]
  refine ⟨_, ⟨(), trivial, rfl⟩, self, hinit, _, hverify, ?_⟩
  rw [ExternallySignedAccount.finish_setData, hinfo, Pod.write_eq_bytes _ hlength]

end ExternalSignature
