import ExternalSignature.Proofs.SdkChallenge
import ExternalSignature.Proofs.Wrapping
import Mathlib.Logic.Relator

/-!
# What the builders build

The serializers of the TypeScript SDK throw on inputs out of range only. On the inputs that stand
for a value of the program they write it (`Writes.reads`), and the builders of the instructions
that a passkey signs succeed: the program reads what was asked for, and the challenge is the hash of
the challenge that it will compare (`buildRefreshSessionKey_eq`,
`buildInitializePasskeyAccount_eq`).
-/

namespace ExternalSignature

open Lib Lib.Borsh

/-! ## Constants -/

theorem slotHashesSysvarId_eq : Sdk.slotHashesSysvarId = slotHashesId := by decide +kernel

theorem systemProgramId_eq : Sdk.systemProgramId = systemProgramId := by decide +kernel

section

variable {α ι : Type} [BorshSerialize α] {write : ι → Except String Bytes} {rel : ι → α → Prop}
  {i : ι} {a : α}

/-- A serializer writes the one value that its input stands for. -/
theorem Writes.serialize_eq (h : Writes write rel) (hunique : Relator.RightUnique rel)
    (ha : rel i a) {bs : Bytes} (hw : write i = .ok bs) : serialize a = .ok bs := by
  obtain ⟨b, hb, hs⟩ := h hw
  obtain rfl := hunique ha hb
  exact hs

/-- A serializer that writes every value throws on the inputs that stand for none. -/
theorem Writes.exists_iff (h : Writes write rel)
    (htotal : ∀ i a, rel i a → ∃ bs, write i = .ok bs) :
    (∃ bs, write i = .ok bs) ↔ ∃ a, rel i a := by
  constructor
  · rintro ⟨bs, hbs⟩
    obtain ⟨a, ha, -⟩ := h hbs
    exact ⟨a, ha⟩
  · rintro ⟨a, ha⟩
    exact htotal i a ha

/-- What a serializer that does not throw writes is read back. -/
theorem Writes.reads [BorshDeserialize α] [LawfulBorsh α] (h : Writes write rel)
    (hunique : Relator.RightUnique rel) (ha : rel i a) (htotal : ∃ bs, write i = .ok bs) :
    ∃ bs, write i = .ok bs ∧ serialize a = .ok bs ∧ tryFromSlice α bs = .ok a := by
  obtain ⟨bs, hw⟩ := htotal
  have hs := h.serialize_eq hunique ha hw
  exact ⟨bs, hw, hs, tryFromSlice_serialize hs⟩

end

namespace Sdk

/-! ## One value for each input -/

theorem params_rightUnique : Relator.RightUnique ClientDataJsonReconstructionParams.Matches := by
  rintro input ⟨flags, port⟩ ⟨flags', port'⟩ ⟨hf, hp⟩ ⟨hf', hp'⟩
  obtain rfl : flags = flags' := hf.trans hf'.symm
  have hinj : Function.Injective fun port : UInt16 => (port.toNat : Int) :=
    fun _ _ h => UInt16.toNat_inj.mp (Int.ofNat.inj h)
  obtain rfl : port = port' := Option.map_injective hinj (hp.trans hp'.symm)
  rfl

theorem sessionKey_rightUnique : Relator.RightUnique SessionKey.Matches := by
  rintro input ⟨key, expiration⟩ ⟨key', expiration'⟩ ⟨hk, he⟩ ⟨hk', he'⟩
  obtain rfl : key = key' := Subtype.ext (hk.trans hk'.symm)
  obtain rfl : expiration = expiration' := UInt64.toNat_inj.mp (Int.ofNat.inj (he.trans he'.symm))
  rfl

theorem optionSessionKey_rightUnique : Relator.RightUnique (Option.Rel SessionKey.Matches) := by
  rintro input k k' (h | _) (h' | _)
  · exact congrArg some (sessionKey_rightUnique h h')
  · rfl

theorem verification_rightUnique : Relator.RightUnique WebAuthnData.MatchesVerification := by
  rintro input ⟨key, params⟩ ⟨key', params'⟩ ⟨hk, hp⟩ ⟨hk', hp'⟩
  obtain rfl : key = key' := Subtype.ext (hk.trans hk'.symm)
  obtain rfl := params_rightUnique hp hp'
  rfl

theorem initialization_rightUnique : Relator.RightUnique WebAuthnData.MatchesInitialization := by
  rintro input ⟨rpId, key, params⟩ ⟨rpId', key', params'⟩ ⟨hr, hk, hp⟩ ⟨hr', hk', hp'⟩
  obtain rfl : rpId = rpId' := SmallVec.ext (hr.trans hr'.symm)
  obtain rfl : key = key' := Subtype.ext (hk.trans hk'.symm)
  obtain rfl := params_rightUnique hp hp'
  rfl

/-! ## Inputs in range -/

theorem toLittleEndianU16_eq (v : UInt16) :
    toLittleEndianU16 v.toNat = .ok (leBytes 2 v.toNat) := by
  have hlt := v.toNat_lt
  rw [toLittleEndianU16, ensure_pos (by omega)]
  rfl

theorem serializeParams_total {params : ClientDataJsonReconstructionParams}
    {v : ExternalSignature.ClientDataJsonReconstructionParams} (h : params.Matches v) :
    ∃ bs, serializeClientDataJsonReconstructionParams params = .ok bs := by
  obtain ⟨flags, port⟩ := params
  obtain ⟨-, rfl⟩ := h
  cases hport : v.port with
  | none => exact ⟨_, rfl⟩
  | some port =>
    exact ⟨_, bind_eq_ok.mpr ⟨_, bind_eq_ok.mpr ⟨_, toLittleEndianU16_eq port, rfl⟩, rfl⟩⟩

theorem expectLength_eq {value : Bytes} {length : Nat} (h : value.length = length)
    (label : String) : expectLength value length label = .ok value :=
  expectLength_ok.mpr ⟨h, rfl⟩

theorem expectMaxLength_eq {value : Bytes} {length : Nat} (h : value.length ≤ length)
    (label : String) : expectMaxLength value length label = .ok value :=
  expectMaxLength_ok.mpr ⟨h, rfl⟩

theorem serializeSmallVecU8_total {bytes : Bytes} (h : bytes.length ≤ 255) (label : String) :
    ∃ bs, serializeSmallVecU8 bytes label = .ok bs :=
  ⟨_, bind_eq_ok.mpr ⟨bytes, expectMaxLength_eq h label, rfl⟩⟩

/-- A session key is written as it is signed at initialization. -/
theorem serializeSessionKey_eq {sessionKey : SessionKey} {k : ExternalSignature.SessionKey}
    (h : sessionKey.Matches k) (hsafe : sessionKey.expiration.isSafe) :
    serializeSessionKey sessionKey = .ok (k.key.val ++ (Pod.bytes k.expiration).val) := by
  obtain ⟨hkey, hexpiration⟩ := h
  have hlt := k.expiration.toNat_lt
  have hwrite : toLittleEndianU64 sessionKey.expiration = .ok (leBytes 8 k.expiration.toNat) := by
    rw [toLittleEndianU64, ensure_pos hsafe, ← hexpiration, ok_bind, ensure_pos (by omega)]
    rfl
  rw [serializeSessionKey, ← hkey, expectLength_eq k.key.property, ok_bind, hwrite, ok_bind]
  simp [concatBytes, pure, Except.pure]
  rfl

theorem serializeVerification_total {input : WebAuthnData} {data : P256RawVerificationData}
    (h : input.MatchesVerification data) :
    ∃ bs, serializeP256RawVerificationData input = .ok bs := by
  obtain ⟨bs, hbs⟩ := serializeParams_total h.2
  exact ⟨_, bind_eq_ok.mpr ⟨_, expectLength_eq (h.1 ▸ data.publicKey.property) _,
    bind_eq_ok.mpr ⟨bs, hbs, rfl⟩⟩⟩

/-- The verification data of a builder's arguments. -/
theorem serializeVerification_eq {input : WebAuthnData} {data : P256RawVerificationData}
    (h : input.MatchesVerification data) :
    ∃ bs, serializeP256RawVerificationData input = .ok bs ∧ bs.length ≤ 255 ∧
      tryFromSlice P256RawVerificationData bs = .ok data := by
  obtain ⟨bs, hw, hs, hread⟩ := Writes.reads serializeP256RawVerificationData_ok
    verification_rightUnique h (serializeVerification_total h)
  exact ⟨bs, hw, (RustSdk.length_serialize_verificationData hs).trans (by decide), hread⟩

theorem serializeCompiledInstruction_total {wire : CompiledInstructionWire}
    (hindices : wire.accountsIndices.length ≤ 255) (hdata : wire.data.length ≤ 65535) :
    ∃ bs, serializeCompiledInstruction wire = .ok bs := by
  obtain ⟨x, hx⟩ := serializeSmallVecU8_total hindices "compiled instruction accounts"
  have hlength : ((UInt16.ofNat wire.data.length).toNat : Int) = wire.data.length :=
    congrArg Int.ofNat (UInt16.toNat_ofNat_of_lt' (show _ < 65536 by omega))
  have hy := toLittleEndianU16_eq (.ofNat wire.data.length)
  rw [hlength] at hy
  simp only [serializeCompiledInstruction, serializeSmallVecU16, expectMaxLength_eq hindices,
    expectMaxLength_eq hdata, ok_bind, hx, hy]
  exact ⟨_, rfl⟩

theorem serializeCompiledInstructions_total {wires : List CompiledInstructionWire}
    {vs : SmallVec UInt8 CompiledInstruction}
    (h : List.Forall₂ CompiledInstructionWire.Matches wires vs.toList) :
    ∃ bs, serializeCompiledInstructions wires = .ok bs := by
  have hall := (List.forall₂_and_left _ _).mp (h.imp fun wire c hc =>
    ⟨serializeCompiledInstruction_total (hc.2.1 ▸ c.accountsIndices.length_u8)
      (hc.2.2 ▸ c.data.length_u16), hc⟩)
  obtain ⟨parts, hparts⟩ := mapM_total hall.1
  exact ⟨_, bind_eq_ok.mpr ⟨(), ensure_pos (h.length_eq ▸ vs.length_u8),
    bind_eq_ok.mpr ⟨parts, hparts, rfl⟩⟩⟩

/-! ## Slots -/

/-- The number stands for the slot, in full or truncated. -/
structure Numeric.Names (slot : Numeric) (entry : SlotHash) : Prop where
  safe : slot.isSafe
  nonneg : 0 ≤ slot.value
  digits : slot.value % 1000 = entry.height.toNat % 1000

theorem toNat_truncated (entry : SlotHash) :
    (UInt16.ofNat (entry.height.toNat % 1000)).toNat = entry.height.toNat % 1000 :=
  UInt16.toNat_ofNat_of_lt' (by show _ < 65536; omega)

theorem truncateSlot_eq {slot : Numeric} {entry : SlotHash} (h : slot.Names entry) :
    truncateSlot slot = .ok ((UInt16.ofNat (entry.height.toNat % 1000)).toNat : Int) := by
  rw [truncateSlot, ensure_pos h.safe, ok_bind, ensure_pos h.nonneg, h.digits, toNat_truncated]
  rfl

/-! ## Challenges -/

section

variable {sha256 : Bytes → ByteArr 32} {entry : SlotHash} {payer : Pubkey} {payload : Bytes}

theorem refreshSessionKeyPreimage_eq {sessionKey : SessionKey} {k : ExternalSignature.SessionKey}
    (h : sessionKey.Matches k) (hsafe : sessionKey.expiration.isSafe)
    (hpayload : (Challenge.refresh entry.hash payer k).encode = .ok payload) :
    refreshSessionKeyPreimage payer entry.hash.val sessionKey = .ok payload := by
  obtain rfl := Except.ok.inj hpayload
  rw [refreshSessionKeyPreimage, expectLength_eq entry.hash.property, ok_bind,
    serializeSessionKey_eq h hsafe, ok_bind]
  simp only [concatBytes, List.flatten_cons, List.flatten_nil, List.append_nil]
  rfl

theorem initializePasskeyPreimage_eq {sessionKey : Option SessionKey}
    {k : Option ExternalSignature.SessionKey} (h : Option.Rel SessionKey.Matches sessionKey k)
    (hsafe : ∀ s ∈ sessionKey, s.expiration.isSafe)
    (hpayload : (Challenge.init entry.hash payer k).encode = .ok payload) :
    initializePasskeyPreimage payer entry.hash.val sessionKey = .ok payload := by
  obtain rfl := Except.ok.inj hpayload
  rw [initializePasskeyPreimage, expectLength_eq entry.hash.property, ok_bind]
  cases h with
  | none => simp [concatBytes, pure, Except.pure, bind, Except.bind, Challenge.slothash,
      Challenge.signer]
  | some h =>
    simp only [serializeSessionKey_eq h (hsafe _ rfl), ok_bind]
    simp [concatBytes, pure, Except.pure, Challenge.slothash, Challenge.signer]

end

/-! ## Refresh -/

section

variable {sha256 : Bytes → ByteArr 32} {webauthnData : WebAuthnData} {slot : Numeric}
  {entry : SlotHash} {payload : Bytes}

/-- What the program reads of the arguments of a refresh. -/
structure RefreshArguments (bs : Bytes) (entry : SlotHash) (data : P256RawVerificationData)
    (args : RefreshSessionKeyArgs) : Prop where
  decoded : tryFromSlice RefreshSessionKeyArgs bs = .ok args
  scheme : args.signatureScheme = ExternalSignature.SignatureScheme.p256Webauthn.toU8
  slot : args.slothash.slot.toNat = entry.height.toNat % 1000
  verification : tryFromSlice P256RawVerificationData args.verificationData.toList = .ok data

theorem buildRefreshSessionKey_eq {data : P256RawVerificationData}
    (hdata : webauthnData.MatchesVerification data) (hslot : slot.Names entry)
    {sessionKey : SessionKey} {k : ExternalSignature.SessionKey} (hk : sessionKey.Matches k)
    (hsafe : sessionKey.expiration.isSafe) (passkeyAccount : Pubkey) {nonceSigner : Pubkey}
    (hpayload : (Challenge.refresh entry.hash nonceSigner k).encode = .ok payload) :
    ∃ bs args, RefreshArguments bs entry data args ∧ args.sessionKey = k ∧
      buildRefreshSessionKey sha256 ⟨webauthnData, passkeyAccount, nonceSigner, slot,
          entry.hash.val, sessionKey⟩ =
        .ok ⟨⟨programId, outerMetas passkeyAccount nonceSigner, 2 :: bs⟩, sha256 payload,
          Base64Url.encode (sha256 payload).val,
          buildPrecompileMessage sha256 webauthnData.clientDataJson webauthnData.authData⟩ := by
  obtain ⟨verificationData, hv, hlength, hread⟩ := serializeVerification_eq hdata
  obtain ⟨vec, hvec⟩ := serializeSmallVecU8_total hlength "verification data"
  obtain ⟨bs, hbs⟩ : ∃ bs, serializeRefreshSessionKeyArgs
      ⟨(UInt16.ofNat (entry.height.toNat % 1000)).toNat, SignatureScheme.p256Webauthn.toU8,
        verificationData, sessionKey⟩ = .ok bs :=
    ⟨_, bind_eq_ok.mpr ⟨_, toLittleEndianU16_eq _, bind_eq_ok.mpr ⟨vec, hvec, bind_eq_ok.mpr
      ⟨_, serializeSessionKey_eq hk hsafe, rfl⟩⟩⟩⟩
  obtain ⟨args, hargs, hs, hscheme, hbytes, hkey⟩ := serializeRefreshSessionKeyArgs_ok.decodes hbs
  refine ⟨bs, args, ⟨hargs, hscheme, ?_, ?_⟩, sessionKey_rightUnique hkey hk, ?_⟩
  · rw [← toNat_truncated entry]
    exact Int.ofNat.inj hs
  · rw [hbytes]
    exact hread
  · have hpreimage := refreshSessionKeyPreimage_eq hk hsafe hpayload
    simp only [buildRefreshSessionKey, hv, ok_bind, truncateSlot_eq hslot, hbs,
      createRefreshSessionKeyChallenge, hpreimage]
    simp [concatBytes, outerMetas, pure, Except.pure, ok_bind]

end

/-! ## Initialize -/

section

variable {sha256 : Bytes → ByteArr 32} {find : FindProgramAddress} {webauthnData : WebAuthnData}
  {slot : Numeric} {entry : SlotHash} {payload : Bytes}

theorem serializeInitialization_write {rpId params : Bytes} {data : P256RawInitializationData}
    (h : WebAuthnData.MatchesInitialization (rpId, webauthnData) data)
    (hparams : serializeClientDataJsonReconstructionParams
      webauthnData.clientDataJsonReconstructionParams = .ok params) :
    serializeP256RawInitializationData rpId webauthnData =
      .ok (.ofNat rpId.length :: (rpId ++ (webauthnData.publicKey ++ params))) := by
  have hrpId : rpId.length ≤ 255 := (congrArg List.length h.1).symm.trans_le data.rpId.length_u8
  have hkey : webauthnData.publicKey.length = 33 := h.2.1 ▸ data.publicKey.property
  have hvec : serializeSmallVecU8 rpId "rp id" = .ok (.ofNat rpId.length :: rpId) := by
    rw [serializeSmallVecU8, expectMaxLength_eq hrpId, ok_bind]
    simp [concatBytes, pure, Except.pure]
  rw [serializeP256RawInitializationData, expectMaxLength_eq hrpId, ok_bind, hvec, ok_bind,
    expectLength_eq hkey, ok_bind, hparams, ok_bind]
  simp [concatBytes, pure, Except.pure]

/-- The initialization data of a builder's arguments. -/
theorem serializeInitialization_eq {rpId : Bytes} {data : P256RawInitializationData}
    (h : WebAuthnData.MatchesInitialization (rpId, webauthnData) data) (hrpId : rpId.length ≤ 32) :
    ∃ bs, serializeP256RawInitializationData rpId webauthnData = .ok bs ∧ bs.length ≤ 255 ∧
      tryFromSlice P256RawInitializationData bs = .ok data := by
  obtain ⟨params, hparams⟩ := serializeParams_total h.2.2
  have hwrite := serializeInitialization_write h hparams
  obtain ⟨bs, hbs, hs, hread⟩ := Writes.reads serializeP256RawInitializationData_ok
    initialization_rightUnique h ⟨_, hwrite⟩
  obtain rfl := Except.ok.inj (hwrite.symm.trans hbs)
  refine ⟨_, hwrite, ?_, hread⟩
  -- the key and the parameters are verification data
  have hverification : serialize (P256RawVerificationData.mk data.publicKey
      data.clientDataJsonReconstructionParams) = .ok (webauthnData.publicKey ++ params) := by
    obtain ⟨v, hv, hvs⟩ := serializeParams_ok hparams
    obtain rfl := params_rightUnique hv h.2.2
    exact serialize_pair_ok.mpr ⟨_, params, congrArg Except.ok h.2.1, hvs, rfl⟩
  have hlength := RustSdk.length_serialize_verificationData hverification
  rw [List.length_cons, List.length_append]
  omega

theorem serializeInitializeAccountArgs_total {initializationData : Bytes} (slot : UInt16)
    (scheme : UInt8) (hlength : initializationData.length ≤ 255) {sessionKey : Option SessionKey}
    {k : Option ExternalSignature.SessionKey} (hk : Option.Rel SessionKey.Matches sessionKey k)
    (hsafe : ∀ s ∈ sessionKey, s.expiration.isSafe) :
    ∃ bs, serializeInitializeAccountArgs ⟨slot.toNat, scheme, initializationData, sessionKey⟩ =
      .ok bs := by
  obtain ⟨vec, hvec⟩ := serializeSmallVecU8_total hlength "initialization data"
  simp only [serializeInitializeAccountArgs, toLittleEndianU16_eq, ok_bind, hvec]
  cases hk with
  | none => exact ⟨_, rfl⟩
  | some h =>
    simp only [serializeSessionKey_eq h (hsafe _ rfl)]
    exact ⟨_, rfl⟩

/-- What the program reads of the arguments of an initialization. -/
structure InitializeArguments (bs : Bytes) (entry : SlotHash) (data : P256RawInitializationData)
    (args : InitializeAccountArgs) : Prop where
  decoded : tryFromSlice InitializeAccountArgs bs = .ok args
  scheme : args.signatureScheme = ExternalSignature.SignatureScheme.p256Webauthn.toU8
  slot : args.slothash.slot.toNat = entry.height.toNat % 1000
  initialization :
    tryFromSlice P256RawInitializationData args.initializationData.toList = .ok data

/-- The accounts of an initialization. -/
def initializeMetas (passkeyAccount payer : Pubkey) : List AccountMeta :=
  [⟨passkeyAccount, true, false⟩, ⟨payer, true, true⟩, ⟨instructionsSysvarId, false, false⟩,
    ⟨slotHashesSysvarId, false, false⟩, ⟨systemProgramId, false, false⟩]

theorem buildInitializePasskeyAccount_eq {rpId : Bytes} {data : P256RawInitializationData}
    (hdata : WebAuthnData.MatchesInitialization (rpId, webauthnData) data)
    (hrpId : rpId.length ≤ 32) (hslot : slot.Names entry) {passkeyAccount : Pubkey} {bump : UInt8}
    (hfind : find [ascii "passkey", (sha256 data.publicKey.val).val] programId =
      .ok (passkeyAccount, bump))
    {sessionKey : Option SessionKey} {k : Option ExternalSignature.SessionKey}
    (hk : Option.Rel SessionKey.Matches sessionKey k)
    (hsafe : ∀ s ∈ sessionKey, s.expiration.isSafe) {payer : Pubkey}
    (hpayload : (Challenge.init entry.hash payer k).encode = .ok payload) :
    ∃ bs args, InitializeArguments bs entry data args ∧ args.sessionKey = k ∧
      buildInitializePasskeyAccount sha256 find ⟨webauthnData, rpId, payer, slot, entry.hash.val,
          sessionKey⟩ =
        .ok ⟨⟨⟨programId, initializeMetas passkeyAccount payer, 0 :: bs⟩, sha256 payload,
          Base64Url.encode (sha256 payload).val,
          buildPrecompileMessage sha256 webauthnData.clientDataJson webauthnData.authData⟩,
          passkeyAccount⟩ := by
  have hkey : webauthnData.publicKey.length = 33 := hdata.2.1 ▸ data.publicKey.property
  have hderive : derivePasskeyAccount sha256 find webauthnData.publicKey =
      .ok (passkeyAccount, bump) := by
    rw [derivePasskeyAccount, expectLength_eq hkey, ok_bind, ← hdata.2.1, hfind]
  obtain ⟨initializationData, hi, hlength, hread⟩ := serializeInitialization_eq hdata hrpId
  obtain ⟨bs, hbs⟩ := serializeInitializeAccountArgs_total
    (UInt16.ofNat (entry.height.toNat % 1000)) SignatureScheme.p256Webauthn.toU8 hlength hk hsafe
  obtain ⟨args, hargs, hs, hscheme, hbytes, hkeys⟩ := serializeInitializeAccountArgs_ok.decodes hbs
  refine ⟨bs, args, ⟨hargs, hscheme, ?_, ?_⟩, optionSessionKey_rightUnique hkeys hk, ?_⟩
  · rw [← toNat_truncated entry]
    exact Int.ofNat.inj hs
  · rw [hbytes]
    exact hread
  · have hpreimage := initializePasskeyPreimage_eq hk hsafe hpayload
    simp only [buildInitializePasskeyAccount, hderive, hi, ok_bind, truncateSlot_eq hslot, hbs,
      createInitializePasskeyChallenge, hpreimage]
    simp [concatBytes, initializeMetas, pure, Except.pure, ok_bind]

end

/-! ## What the serializers accept -/

theorem serializeSessionKey_isSafe {sessionKey : SessionKey} {bs : Bytes}
    (h : serializeSessionKey sessionKey = .ok bs) : sessionKey.expiration.isSafe := by
  simp only [serializeSessionKey, toLittleEndianU64, bind_eq_ok, exists_unit, ensure_eq_ok] at h
  obtain ⟨_, -, _, ⟨hsafe, -⟩, -⟩ := h
  exact hsafe

theorem serializeExecuteInstructionArgs_total (input : ExecuteInstructionArgsInput)
    (args : ExecutableInstructionArgs) (h : input.Matches args) :
    ∃ bs, serializeExecuteInstructionArgs input = .ok bs := by
  obtain ⟨-, -, hslot, hdata, hinstructions⟩ := h
  obtain ⟨vec, hvec⟩ := serializeSmallVecU8_total (hdata ▸ args.extraVerificationData.length_u8)
    "verification data"
  obtain ⟨items, hitems⟩ := serializeCompiledInstructions_total hinstructions
  exact ⟨_, bind_eq_ok.mpr ⟨_, hslot ▸ toLittleEndianU16_eq _, bind_eq_ok.mpr ⟨vec, hvec,
    bind_eq_ok.mpr ⟨items, hitems, rfl⟩⟩⟩⟩

theorem serializeExecuteInstructionsSessionedArgs_total
    (input : ExecuteInstructionsSessionedArgsInput) (args : ExecutableInstructionSessionedArgs)
    (h : input.Matches args) : ∃ bs, serializeExecuteInstructionsSessionedArgs input = .ok bs := by
  obtain ⟨items, hitems⟩ := serializeCompiledInstructions_total h.2.2
  exact ⟨_, bind_eq_ok.mpr ⟨items, hitems, rfl⟩⟩

theorem serializeRefreshSessionKeyArgs_total {input : RefreshSessionKeyArgsInput}
    {args : RefreshSessionKeyArgs} (h : input.Matches args)
    (hsafe : input.sessionKey.expiration.isSafe) :
    ∃ bs, serializeRefreshSessionKeyArgs input = .ok bs := by
  obtain ⟨hslot, -, hdata, hkey⟩ := h
  obtain ⟨vec, hvec⟩ := serializeSmallVecU8_total (hdata ▸ args.verificationData.length_u8)
    "verification data"
  exact ⟨_, bind_eq_ok.mpr ⟨_, hslot ▸ toLittleEndianU16_eq _, bind_eq_ok.mpr ⟨vec, hvec,
    bind_eq_ok.mpr ⟨_, serializeSessionKey_eq hkey hsafe, rfl⟩⟩⟩⟩

/-- The serializers throw on no input that stands for a value of the program, but where the
expiration of a session key is a number that is not safe. -/
theorem serializers_accept :
    (∀ input, (∃ bs, serializeExecuteInstructionArgs input = .ok bs) ↔ ∃ args, input.Matches args) ∧
    (∀ input, (∃ bs, serializeExecuteInstructionsSessionedArgs input = .ok bs) ↔
      ∃ args, input.Matches args) ∧
    (∀ input, (∃ bs, serializeP256RawVerificationData input = .ok bs) ↔
      ∃ data, input.MatchesVerification data) ∧
    (∀ rpId input, (∃ bs, serializeP256RawInitializationData rpId input = .ok bs) ↔
      ∃ data, WebAuthnData.MatchesInitialization (rpId, input) data) ∧
    (∀ input, (∃ bs, serializeRefreshSessionKeyArgs input = .ok bs) ↔
      (∃ args, input.Matches args) ∧ input.sessionKey.expiration.isSafe) ∧
    ∀ input, (∃ bs, serializeInitializeAccountArgs input = .ok bs) ↔
      (∃ args, input.Matches args) ∧ ∀ s ∈ input.sessionKey, s.expiration.isSafe := by
  refine ⟨fun _ => serializeExecuteInstructionArgs_ok.exists_iff
      serializeExecuteInstructionArgs_total,
    fun _ => serializeExecuteInstructionsSessionedArgs_ok.exists_iff
      serializeExecuteInstructionsSessionedArgs_total,
    fun _ => serializeP256RawVerificationData_ok.exists_iff fun _ _ => serializeVerification_total,
    fun rpId input => ?_, fun input => ⟨?_, ?_⟩, fun input => ⟨?_, ?_⟩⟩
  · refine serializeP256RawInitializationData_ok.exists_iff (i := (rpId, input)) fun i data h => ?_
    obtain ⟨params, hparams⟩ := serializeParams_total h.2.2
    exact ⟨_, serializeInitialization_write h hparams⟩
  · rintro ⟨bs, hbs⟩
    obtain ⟨args, hargs, -⟩ := serializeRefreshSessionKeyArgs_ok hbs
    obtain ⟨_, -, h⟩ := bind_eq_ok.mp hbs
    obtain ⟨_, -, h⟩ := bind_eq_ok.mp h
    obtain ⟨_, hkey, -⟩ := bind_eq_ok.mp h
    exact ⟨⟨args, hargs⟩, serializeSessionKey_isSafe hkey⟩
  · rintro ⟨⟨args, hargs⟩, hsafe⟩
    exact serializeRefreshSessionKeyArgs_total hargs hsafe
  · rintro ⟨bs, hbs⟩
    obtain ⟨args, hargs, -⟩ := serializeInitializeAccountArgs_ok hbs
    refine ⟨⟨args, hargs⟩, fun s hs => ?_⟩
    obtain ⟨_, -, h⟩ := bind_eq_ok.mp hbs
    obtain ⟨_, -, h⟩ := bind_eq_ok.mp h
    rw [Option.mem_def.mp hs] at h
    obtain ⟨_, hwrite, -⟩ := bind_eq_ok.mp h
    obtain ⟨_, hkey, -⟩ := bind_eq_ok.mp hwrite
    exact serializeSessionKey_isSafe hkey
  · rintro ⟨⟨args, hslot, -, hdata, hkey⟩, hsafe⟩
    have htotal := serializeInitializeAccountArgs_total args.slothash.slot input.signatureScheme
      (hdata ▸ args.initializationData.length_u8) hkey hsafe
    rwa [hslot] at htotal

end Sdk

end ExternalSignature
