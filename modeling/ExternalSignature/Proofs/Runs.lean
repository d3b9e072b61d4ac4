import ExternalSignature.Proofs.Accept

/-!
# What a successful call has done

One record for each instruction of the program, with everything its checks have established, and
a lemma that a call that gets past its checks has such a record. Later proofs use the records and
never unfold the process functions.
-/

namespace ExternalSignature

open Lib Lib.Borsh

variable {host : Host} {rt : Runtime} {accounts : List AccountInfo} {data : Bytes}

/-! ## What a call presents -/

/-- A challenge, and what else the client data of its message depends on. -/
structure Presented where
  challenge : Challenge
  rpIdInfo : RpIdInformation
  params : ClientDataJsonReconstructionParams

/-- The two strings that are hashed to compare the message with the challenge. -/
def Presented.strings (host : Host) (p : Presented) : Outcome (List Bytes) := do
  let payload ← mapErr .panic p.challenge.encode
  let rpId ← p.rpIdInfo.rpIdSlice
  return [payload, ← reconstructClientDataJson p.params rpId (host.sha256 payload).val]

section

variable (host : Host) (rt : Runtime) (accounts : List AccountInfo) (data : Bytes)

def executePresented : Outcome Presented := do
  let args ← mapErr (.custom .invalidExecutionArgs) (tryFromSlice ExecutableInstructionArgs data)
  let context ← ExecuteInstructionsContext.load host rt accounts args
  let account ← context.externallySignedAccount.dataRef
  return {
    challenge := .execute context.nonceData.slothash context.nonceData.signerKey
      (context.instructionExecutionAccounts.map (·.toMeta)) args.instructions
    rpIdInfo := account.rpIdInfo
    params := context.verificationData.clientDataJsonReconstructionParams }

def refreshPresented : Outcome Presented := do
  let args ← mapErr (.err .invalidArgument) (tryFromSlice RefreshSessionKeyArgs data)
  let context ← RefreshSessionKeyContext.load host rt accounts args
  let account ← context.externallySignedAccount.dataRef
  return {
    challenge := .refresh context.nonceData.slothash context.nonceData.signerKey context.sessionKey
    rpIdInfo := account.rpIdInfo
    params := context.verificationData.clientDataJsonReconstructionParams }

def initializePresented : Outcome Presented := do
  let args ← mapErr (.err .invalidArgument) (tryFromSlice InitializeAccountArgs data)
  let context ← InitializeExternalAccountContext.load host rt accounts args
  return {
    challenge := .init context.slothash context.rentPayer.key context.sessionKey
    rpIdInfo := context.initializationData.rpIdInfo
    params := context.initializationData.clientDataJsonReconstructionParams }

end

theorem Acceptance.strings_eq {nonceSigner : AccountInfo} {challenge : Challenge}
    {before after : P256WebauthnAccountData}
    (a : Acceptance host rt nonceSigner challenge before after) :
    Presented.strings host ⟨challenge, before.rpIdInfo, a.params⟩ = .ok a.hashed := by
  simp only [Presented.strings, bind_eq_ok, mapErr_eq_ok, pure_eq_ok]
  exact ⟨a.payload, a.encoded, a.verification.rpId, a.verification.rpIdSlice, a.verification.json,
    a.verification.reconstructed, rfl⟩

/-! ## The checks that the instructions share -/

theorem instructionsSysvar_ok {info : AccountInfo} {ixs : Instructions} :
    rt.instructionsSysvar info = .ok ixs ↔ info.key = instructionsId ∧ rt.instructions = ixs := by
  simp only [Runtime.instructionsSysvar, bind_eq_ok, ensure_eq_ok, exists_unit, pure_eq_ok]

theorem slotHashesSysvar_ok {info : AccountInfo} {slothashes : SlotHashes} :
    rt.slotHashesSysvar info = .ok slothashes ↔
      info.key = slotHashesId ∧ rt.slotHashes = slothashes := by
  simp only [Runtime.slotHashesSysvar, bind_eq_ok, ensure_eq_ok, exists_unit, pure_eq_ok]

theorem checkAccount_ok {account : ExternallySignedAccount} {args : P256ParsedVerificationData}
    {seeds : AccountSeeds} (h : account.checkAccount host args = .ok seeds) :
    (∃ data, account.dataRef = .ok data) ∧ account.accountInfo.isWritable ∧
      DerivesTo host args.publicKey account.accountInfo.key := by
  simp only [ExternallySignedAccount.checkAccount, P256WebauthnAccountData.checkAccount,
    bind_eq_ok, ensure_eq_ok, exists_unit, pure_eq_ok] at h
  obtain ⟨d, hd, hw, s, hs, hk, rfl⟩ := h
  exact ⟨⟨d, hd⟩, hw, s.bump, hk ▸ (deriveAccount_ok hs).found⟩

theorem ExternallySignedAccount.verifyPayload_ok {self self' : ExternallySignedAccount}
    {ixs : Instructions} {extra : P256ParsedVerificationData} {payload : Bytes}
    (h : self.verifyPayload host ixs extra payload = .ok self') :
    ∃ before after, self.dataRef = .ok before ∧ self' = self.setData after ∧
      Nonempty (Verification host before ixs extra.clientDataJsonReconstructionParams payload
        after) := by
  obtain ⟨before, hb, h⟩ := bind_eq_ok.mp h
  obtain ⟨after, ha, h⟩ := bind_eq_ok.mp h
  exact ⟨before, after, hb, (pure_eq_ok.mp h).symm, ExternalSignature.verifyPayload_ok ha⟩

/-- An initialization is verified like a later payload. -/
theorem ExternallySignedAccount.verifyInitializationPayload_eq (self : ExternallySignedAccount)
    (ixs : Instructions) (data : P256ParsedInitializationData) (payload : Bytes) :
    self.verifyInitializationPayload host ixs data payload =
      self.verifyPayload host ixs ⟨data.publicKey, data.clientDataJsonReconstructionParams⟩
        payload := rfl

/-! ## Execute -/

structure ExecuteRun (host : Host) (rt : Runtime) (accounts : List AccountInfo) (data : Bytes) where
  args : ExecutableInstructionArgs
  external : AccountInfo
  instructionsSysvar : AccountInfo
  slothashesSysvar : AccountInfo
  nonceSigner : AccountInfo
  rest : List AccountInfo
  scheme : SignerExecutionScheme
  executionAccount : ExecutionAccount
  presentedKey : CompressedP256PublicKey
  slothash : ByteArr 32
  before : P256WebauthnAccountData
  after : P256WebauthnAccountData
  decoded : tryFromSlice ExecutableInstructionArgs data = .ok args
  accounts_eq :
    accounts = external :: instructionsSysvar :: slothashesSysvar :: nonceSigner :: rest
  writable : external.isWritable
  owner : external.owner = ID
  initialized : Initialized external.data before
  derived : DerivesTo host presentedKey external.key
  scheme_eq : args.signerExecutionScheme = scheme.toU8
  executing : (ExternallySignedAccount.mk external external.data).getExecutionAccount host scheme =
    .ok executionAccount
  acceptance : Acceptance host rt nonceSigner
    (.execute slothash nonceSigner.key (rest.map (·.toMeta)) args.instructions) before after
  presented : executePresented host rt accounts data = .ok
    ⟨.execute slothash nonceSigner.key (rest.map (·.toMeta)) args.instructions, before.rpIdInfo,
      acceptance.params⟩

namespace ExecuteRun

variable (run : ExecuteRun host rt accounts data)

/-- The account metas that the invocations index into. -/
def metas : List AccountMeta :=
  createInstructionExecutionAccountMetas run.rest run.executionAccount run.scheme

/-- The external account with the counter updated. -/
def account : ExternallySignedAccount := ⟨run.external, Pod.write run.after run.external.data⟩

end ExecuteRun

theorem verifyExecuteInstructions_ok {context : ExecuteInstructionsContext}
    {account : ExternallySignedAccount}
    (h : verifyExecuteInstructions host rt accounts data = .ok (context, account)) :
    ∃ run : ExecuteRun host rt accounts data,
      context.instructionExecutionAccounts = run.rest ∧
      context.instructionExecutionAccountMetas = run.metas ∧
      context.executionAccount = run.executionAccount ∧
      context.instructions = run.args.instructions.toList ∧ account = run.account := by
  simp only [verifyExecuteInstructions, bind_eq_ok, mapErr_eq_ok, okOr_eq_ok] at h
  obtain ⟨args, hargs, ⟨⟩, -, context', hload, hash, hhash, account', hverify, h⟩ := h
  cases h
  have hcontext := hload
  unfold ExecuteInstructionsContext.load at hload
  split at hload
  · rename_i external instructionsSysvar slothashesSysvar nonceSigner rest
    simp only [bind_eq_ok, mapErr_eq_ok, okOr_eq_ok, pure_eq_ok, instructionsSysvar_ok,
      slotHashesSysvar_ok] at hload
    obtain ⟨raw, -, parsed, -, loaded, hl, seeds, hcheck, _, ⟨-, rfl⟩, _, ⟨-, rfl⟩, nonceData,
      hnonce, scheme, hscheme, executing, hexec, rfl⟩ := hload
    obtain ⟨⟨before, hbefore⟩, hwritable, hderived⟩ := checkAccount_ok hcheck
    obtain ⟨rfl, howner, hinit⟩ := ExternallySignedAccount.owner_of_load hl hbefore
    obtain ⟨before', after, hbefore', rfl, ⟨v⟩⟩ := ExternallySignedAccount.verifyPayload_ok hverify
    obtain rfl := Except.ok.inj (hbefore.symm.trans hbefore')
    obtain ⟨payload, hpayload, hhash⟩ := bind_eq_ok.mp hhash
    obtain rfl := pure_eq_ok.mp hhash
    obtain ⟨n⟩ := validateNonce_ok hnonce
    obtain ⟨signerKey, slothash⟩ := nonceData
    obtain rfl : signerKey = nonceSigner.key := n.signerKey
    refine ⟨{
      args, external, instructionsSysvar, slothashesSysvar, nonceSigner, rest, scheme, before, after
      executionAccount := executing, presentedKey := parsed.publicKey, slothash := slothash
      decoded := hargs, accounts_eq := rfl, writable := hwritable, owner := howner
      initialized := hinit, derived := hderived
      scheme_eq := SignerExecutionScheme.tryFromPrimitive_eq_some.mp hscheme
      executing := hexec
      acceptance := {
        payload
        encoded := (PayloadCall.preimage_eq (.execute ⟨_, _⟩ rest args.instructions)).mp hpayload
        params := _, verification := v, nonce := n }
      presented := ?_ }, rfl, rfl, rfl, rfl, rfl⟩
    simp only [executePresented, bind_eq_ok, mapErr_eq_ok, pure_eq_ok]
    exact ⟨args, hargs, _, hcontext, before, hbefore, rfl⟩
  · cases hload

theorem processExecuteInstructions_cases (host : Host) (rt : Runtime) (accounts : List AccountInfo)
    (data : Bytes) :
    (∃ fault, processExecuteInstructions host rt accounts data = .ofResult (.error fault)) ∨
    ∃ run : ExecuteRun host rt accounts data, processExecuteInstructions host rt accounts data =
      .invoke rt run.rest run.metas run.executionAccount run.args.instructions.toList
        run.account := by
  unfold processExecuteInstructions
  split
  · exact .inl ⟨_, rfl⟩
  · obtain ⟨run, h₁, h₂, h₃, h₄, rfl⟩ := verifyExecuteInstructions_ok ‹_›
    exact .inr ⟨run, by rw [h₁, h₂, h₃, h₄]⟩

/-! ## Execute with a session key -/

structure SessionedRun (host : Host) (rt : Runtime) (accounts : List AccountInfo)
    (data : Bytes) where
  args : ExecutableInstructionSessionedArgs
  external : AccountInfo
  sessionSigner : AccountInfo
  rest : List AccountInfo
  scheme : SignerExecutionScheme
  executionAccount : ExecutionAccount
  stored : P256WebauthnAccountData
  decoded : tryFromSlice ExecutableInstructionSessionedArgs data = .ok args
  accounts_eq : accounts = external :: sessionSigner :: rest
  owner : external.owner = ID
  initialized : Initialized external.data stored
  signed : sessionSigner.isSigner
  sessionKey : stored.sessionKey.key = sessionSigner.key
  not_expired : rt.unixTimestamp.toUInt64 ≤ stored.sessionKey.expiration
  scheme_eq : args.signerExecutionScheme = scheme.toU8
  executing : (ExternallySignedAccount.mk external external.data).getExecutionAccount host scheme =
    .ok executionAccount

namespace SessionedRun

variable (run : SessionedRun host rt accounts data)

def metas : List AccountMeta :=
  createInstructionExecutionAccountMetas run.rest run.executionAccount run.scheme

/-- The external account, which a session leaves as it is. -/
def account : ExternallySignedAccount := ⟨run.external, run.external.data⟩

end SessionedRun

theorem isValidSessionKey_ok {account : ExternallySignedAccount} {signer : AccountInfo}
    (h : account.isValidSessionKey rt signer = .ok ()) :
    ∃ stored, account.dataRef = .ok stored ∧ signer.isSigner ∧
      stored.sessionKey.key = signer.key ∧
      rt.unixTimestamp.toUInt64 ≤ stored.sessionKey.expiration := by
  simp only [ExternallySignedAccount.isValidSessionKey, P256WebauthnAccountData.isValidSessionKey,
    bind_eq_ok, ensure_eq_ok, exists_unit] at h
  exact h

theorem checkExecuteInstructionsSessioned_ok {context : ExecuteInstructionsSessionedContext}
    (h : checkExecuteInstructionsSessioned host rt accounts data = .ok context) :
    ∃ run : SessionedRun host rt accounts data,
      context.instructionExecutionAccounts = run.rest ∧
      context.instructionExecutionAccountMetas = run.metas ∧
      context.executionAccount = run.executionAccount ∧
      context.instructions = run.args.instructions.toList ∧
      context.externallySignedAccount = run.account := by
  simp only [checkExecuteInstructionsSessioned, bind_eq_ok, mapErr_eq_ok, okOr_eq_ok] at h
  obtain ⟨args, hargs, ⟨⟩, -, hload⟩ := h
  simp only [ExecuteInstructionsSessionedContext.load] at hload
  split at hload
  · rename_i external sessionSigner rest
    simp only [bind_eq_ok, okOr_eq_ok, pure_eq_ok, exists_unit] at hload
    obtain ⟨loaded, hl, hvalid, scheme, hscheme, executing, hexec, rfl⟩ := hload
    obtain ⟨stored, hstored, hsigned, hkey, hexp⟩ := isValidSessionKey_ok hvalid
    obtain ⟨rfl, howner, hinit⟩ := ExternallySignedAccount.owner_of_load hl hstored
    exact ⟨{
      args, external, sessionSigner, rest, scheme, stored
      executionAccount := executing
      decoded := hargs, accounts_eq := rfl, owner := howner, initialized := hinit
      signed := hsigned, sessionKey := hkey, not_expired := hexp
      scheme_eq := SignerExecutionScheme.tryFromPrimitive_eq_some.mp hscheme
      executing := hexec }, rfl, rfl, rfl, rfl, rfl⟩
  · cases hload

theorem processExecuteInstructionsSessioned_cases (host : Host) (rt : Runtime)
    (accounts : List AccountInfo) (data : Bytes) :
    (∃ fault, processExecuteInstructionsSessioned host rt accounts data =
      .ofResult (.error fault)) ∨
    ∃ run : SessionedRun host rt accounts data,
      processExecuteInstructionsSessioned host rt accounts data =
        .invoke rt run.rest run.metas run.executionAccount run.args.instructions.toList
          run.account := by
  unfold processExecuteInstructionsSessioned
  split
  · exact .inl ⟨_, rfl⟩
  · obtain ⟨run, h₁, h₂, h₃, h₄, h₅⟩ := checkExecuteInstructionsSessioned_ok ‹_›
    exact .inr ⟨run, by rw [h₁, h₂, h₃, h₄, h₅]⟩

/-! ## Refresh -/

structure RefreshRun (host : Host) (rt : Runtime) (accounts : List AccountInfo) (data : Bytes)
    (left : AccountInfo) where
  args : RefreshSessionKeyArgs
  external : AccountInfo
  instructionsSysvar : AccountInfo
  slothashesSysvar : AccountInfo
  nonceSigner : AccountInfo
  rest : List AccountInfo
  presentedKey : CompressedP256PublicKey
  slothash : ByteArr 32
  before : P256WebauthnAccountData
  verified : P256WebauthnAccountData
  after : P256WebauthnAccountData
  decoded : tryFromSlice RefreshSessionKeyArgs data = .ok args
  accounts_eq :
    accounts = external :: instructionsSysvar :: slothashesSysvar :: nonceSigner :: rest
  writable : external.isWritable
  owner : external.owner = ID
  initialized : Initialized external.data before
  derived : DerivesTo host presentedKey external.key
  acceptance : Acceptance host rt nonceSigner
    (.refresh slothash nonceSigner.key args.sessionKey) before verified
  bounded : sessionKeyExpiration rt args.sessionKey.expiration ≤
    P256WebauthnAccountData.expirationBound rt
  after_eq : after = { verified with
    sessionKey := ⟨args.sessionKey.key, sessionKeyExpiration rt args.sessionKey.expiration⟩ }
  left_eq : left = { external with data := Pod.write after external.data }
  presented : refreshPresented host rt accounts data =
    .ok ⟨.refresh slothash nonceSigner.key args.sessionKey, before.rpIdInfo, acceptance.params⟩

theorem processRefreshSessionKey_ok {left : AccountInfo}
    (h : processRefreshSessionKey host rt accounts data = .ok left) :
    Nonempty (RefreshRun host rt accounts data left) := by
  simp only [processRefreshSessionKey, bind_eq_ok, mapErr_eq_ok, okOr_eq_ok, pure_eq_ok] at h
  obtain ⟨args, hargs, ⟨⟩, -, context, hload, hash, hhash, account, hverify, account', hupdate,
    rfl⟩ := h
  have hcontext := hload
  unfold RefreshSessionKeyContext.load at hload
  split at hload
  · rename_i external instructionsSysvar slothashesSysvar nonceSigner rest
    simp only [bind_eq_ok, mapErr_eq_ok, pure_eq_ok, instructionsSysvar_ok,
      slotHashesSysvar_ok] at hload
    obtain ⟨raw, -, parsed, -, loaded, hl, seeds, hcheck, _, ⟨-, rfl⟩, _, ⟨-, rfl⟩, nonceData,
      hnonce, rfl⟩ := hload
    obtain ⟨⟨before, hbefore⟩, hwritable, hderived⟩ := checkAccount_ok hcheck
    obtain ⟨rfl, howner, hinit⟩ := ExternallySignedAccount.owner_of_load hl hbefore
    obtain ⟨before', verified, hbefore', rfl, ⟨v⟩⟩ :=
      ExternallySignedAccount.verifyPayload_ok hverify
    obtain rfl := Except.ok.inj (hbefore.symm.trans hbefore')
    obtain ⟨payload, hpayload, hhash⟩ := bind_eq_ok.mp hhash
    obtain rfl := pure_eq_ok.mp hhash
    obtain ⟨n⟩ := validateNonce_ok hnonce
    obtain ⟨signerKey, slothash⟩ := nonceData
    obtain rfl : signerKey = nonceSigner.key := n.signerKey
    -- the session key is written over the verified data
    simp only [ExternallySignedAccount.updateSessionKey, P256WebauthnAccountData.updateSessionKey,
      bind_eq_ok, ensure_eq_ok, exists_unit, pure_eq_ok] at hupdate
    obtain ⟨verified', hverified', _, ⟨hbound, rfl⟩, rfl⟩ := hupdate
    have hi := hinit.write v.after_fields.1
    obtain rfl := (ExternallySignedAccount.dataRef_ok.mp hverified').unique hi
    refine ⟨{
      args, external, instructionsSysvar, slothashesSysvar, nonceSigner, rest, before
      verified := verified', after := _, presentedKey := parsed.publicKey, slothash := slothash
      decoded := hargs, accounts_eq := rfl, writable := hwritable, owner := howner
      initialized := hinit, derived := hderived
      acceptance := {
        payload
        encoded := (PayloadCall.preimage_eq (.refresh ⟨_, _⟩ args.sessionKey)).mp hpayload
        params := _, verification := v, nonce := n }
      bounded := hbound, after_eq := rfl
      left_eq := by simp [ExternallySignedAccount.finish, ExternallySignedAccount.setData]
      presented := ?_ }⟩
    simp only [refreshPresented, bind_eq_ok, mapErr_eq_ok, pure_eq_ok]
    exact ⟨args, hargs, _, hcontext, before, hbefore, rfl⟩
  · cases hload

/-! ## Initialize -/

/-- The length fits, the prefix has no quote, and its hash is the one stored. -/
structure RpIdInformation.Valid (host : Host) (info : RpIdInformation) : Prop where
  len_le : info.rpIdLen.toNat ≤ 32
  no_quote : 0x22 ∉ info.rpId.val.take info.rpIdLen.toNat
  hash_eq : info.rpIdHash = host.sha256 (info.rpId.val.take info.rpIdLen.toNat)

theorem tryFromInitializationData_ok {raw : P256RawInitializationData}
    {parsed : P256ParsedInitializationData}
    (h : P256ParsedInitializationData.tryFrom host raw = .ok parsed) :
    parsed.rpIdInfo.Valid host ∧ parsed.counter = 0 := by
  simp only [P256ParsedInitializationData.tryFrom, bind_eq_ok, ensure_eq_ok, exists_unit,
    pure_eq_ok] at h
  obtain ⟨hlen, hquote, info, hinfo, rfl⟩ := h
  simp only [RpIdInformation.new, dif_pos hlen, Except.ok.injEq] at hinfo
  subst hinfo
  have hn : (UInt8.ofNat raw.rpId.toList.length).toNat = raw.rpId.toList.length := by
    rw [UInt8.toNat_ofNat']
    omega
  refine ⟨⟨?_, ?_, ?_⟩, rfl⟩
  · exact hn.symm ▸ hlen
  · simpa [hn] using hquote
  · simp [hn]

/-- The data of an account that has been allocated and given its header. -/
def freshAccountData : P256WebauthnAccountData where
  header := ⟨P256WebauthnAccountData.version, P256WebauthnAccountData.scheme, .zero 2⟩
  rpIdInfo := ⟨0, .zero 32, .zero 32⟩
  publicKey := ⟨.zero 32, 0⟩
  padding := .zero 2
  sessionKey := ⟨.zero 32, 0⟩
  counter := 0

theorem initializeHeader_ok {info : AccountInfo} {self : ExternallySignedAccount}
    (h : (ExternallySignedAccount.mk info
      (List.replicate P256WebauthnAccountData.size 0)).initializeHeader = .ok self) :
    self.accountInfo = info ∧ Initialized self.data freshAccountData := by
  obtain ⟨header, hh, h⟩ := bind_eq_ok.mp h
  obtain rfl := pure_eq_ok.mp h
  have hz : Pod.read AccountHeader (List.replicate P256WebauthnAccountData.size 0) =
      some ⟨0, 0, .zero 2⟩ := by decide +kernel
  have hf : Pod.read P256WebauthnAccountData (Pod.write freshAccountData.header
      (List.replicate P256WebauthnAccountData.size 0)) = some freshAccountData := by
    decide +kernel
  obtain rfl := Option.some.inj (hz.symm.trans (okOr_eq_ok.mp hh))
  exact ⟨rfl, hf, rfl, rfl⟩

structure InitializeRun (host : Host) (rt : Runtime) (accounts : List AccountInfo) (data : Bytes)
    (left : AccountInfo) where
  args : InitializeAccountArgs
  external : AccountInfo
  rentPayer : AccountInfo
  instructionsSysvar : AccountInfo
  slothashesSysvar : AccountInfo
  systemProgram : AccountInfo
  rest : List AccountInfo
  slothash : ByteArr 32
  buf : Bytes
  before : P256WebauthnAccountData
  after : P256WebauthnAccountData
  decoded : tryFromSlice InitializeAccountArgs data = .ok args
  accounts_eq : accounts = external :: rentPayer :: instructionsSysvar :: slothashesSysvar ::
    systemProgram :: rest
  uninitialized : external.owner = systemProgramId ∧ external.data = []
  initialized : Initialized buf before
  rpId_valid : before.rpIdInfo.Valid host
  derived : DerivesTo host before.publicKey external.key
  sessionKey : before.sessionKey = args.sessionKey.getD freshAccountData.sessionKey
  counter : before.counter = 0
  bounded : ∀ k ∈ args.sessionKey, k.expiration ≤ P256WebauthnAccountData.expirationBound rt
  acceptance : Acceptance host rt rentPayer (.init slothash rentPayer.key args.sessionKey)
    before after
  left_eq : left = { external with owner := ID, data := Pod.write after buf }
  presented : initializePresented host rt accounts data =
    .ok ⟨.init slothash rentPayer.key args.sessionKey, before.rpIdInfo, acceptance.params⟩

theorem initializeAccount_ok {before after : P256WebauthnAccountData}
    {args : P256ParsedInitializationData} {sessionKey : Option SessionKey}
    (h : before.initializeAccount rt args sessionKey = .ok after) :
    after = { before with
      rpIdInfo := args.rpIdInfo, publicKey := args.publicKey, counter := args.counter
      sessionKey := sessionKey.getD before.sessionKey } ∧
    ∀ k ∈ sessionKey, k.expiration ≤ P256WebauthnAccountData.expirationBound rt := by
  unfold P256WebauthnAccountData.initializeAccount at h
  cases sessionKey with
  | none => exact ⟨(pure_eq_ok.mp h).symm, by simp⟩
  | some k =>
    simp only [bind_eq_ok, ensure_eq_ok, exists_unit, pure_eq_ok] at h
    exact ⟨h.2.symm, fun _ hk => Option.mem_some_iff.mp hk ▸ h.1⟩

/-- What is checked before the account is created. -/
structure InitializeLoad (host : Host) (rt : Runtime) (accounts : List AccountInfo) (data : Bytes)
    (context : InitializeExternalAccountContext) where
  args : InitializeAccountArgs
  external : AccountInfo
  rentPayer : AccountInfo
  instructionsSysvar : AccountInfo
  slothashesSysvar : AccountInfo
  systemProgram : AccountInfo
  rest : List AccountInfo
  decoded : tryFromSlice InitializeAccountArgs data = .ok args
  accounts_eq : accounts = external :: rentPayer :: instructionsSysvar :: slothashesSysvar ::
    systemProgram :: rest
  loaded : InitializeExternalAccountContext.load host rt accounts args = .ok context
  uninitialized : external.owner = systemProgramId ∧ external.data = []
  account : context.externallySignedAccount.accountInfo = external
  payer : context.rentPayer = rentPayer
  instructions : context.instructionsSysvar = rt.instructions
  sessionKey : context.sessionKey = args.sessionKey
  rpId_valid : context.initializationData.rpIdInfo.Valid host
  counter : context.initializationData.counter = 0
  derived : Derived host context.initializationData.publicKey context.externallySignedAccountSeeds
  key : external.key = context.externallySignedAccountSeeds.key
  nonce : ValidNonce rt rt.slotHashes rentPayer ⟨rentPayer.key, context.slothash⟩

theorem loadInitializeExternalAccount_ok {context : InitializeExternalAccountContext}
    (h : loadInitializeExternalAccount host rt accounts data = .ok context) :
    Nonempty (InitializeLoad host rt accounts data context) := by
  simp only [loadInitializeExternalAccount, bind_eq_ok, mapErr_eq_ok, okOr_eq_ok] at h
  obtain ⟨args, hargs, ⟨⟩, -, hload⟩ := h
  have hcontext := hload
  unfold InitializeExternalAccountContext.load at hload
  split at hload
  · rename_i external rentPayer instructionsSysvar slothashesSysvar systemProgram rest
    simp only [bind_eq_ok, mapErr_eq_ok, pure_eq_ok, ensure_eq_ok, exists_unit,
      instructionsSysvar_ok, slotHashesSysvar_ok, checkAccountUninitialized] at hload
    obtain ⟨⟨howner, hempty⟩, loaded, hl, _, ⟨-, rfl⟩, _, ⟨-, rfl⟩, -, nonceData, hnonce, raw, -,
      parsed, hparsed, seeds, hseeds, hkey, rfl⟩ := hload
    obtain ⟨rfl, -⟩ := ExternallySignedAccount.load_ok hl
    obtain ⟨hvalid, hcounter⟩ := tryFromInitializationData_ok hparsed
    obtain ⟨n⟩ := validateNonce_ok hnonce
    obtain ⟨signerKey, slothash⟩ := nonceData
    obtain rfl : signerKey = rentPayer.key := n.signerKey
    exact ⟨{
      args, external, rentPayer, instructionsSysvar, slothashesSysvar, systemProgram, rest
      decoded := hargs, accounts_eq := rfl, loaded := hcontext, uninitialized := ⟨howner, hempty⟩
      account := rfl, payer := rfl, instructions := rfl, sessionKey := rfl, rpId_valid := hvalid
      counter := hcounter, derived := deriveAccount_ok hseeds, key := hkey, nonce := n }⟩
  · cases hload

theorem processInitializeExternalAccount_ok {left : AccountInfo}
    (h : (processInitializeExternalAccount host rt accounts data).result = .ok left) :
    Nonempty (InitializeRun host rt accounts data left) := by
  unfold processInitializeExternalAccount at h
  split at h
  · cases h
  · rename_i context hload
    obtain ⟨r⟩ := loadInitializeExternalAccount_ok hload
    simp only [InitializeExternalAccountContext.createAndAllocateExternallySignedAccount,
      bind_eq_ok, exists_unit, pure_eq_ok] at h
    -- the account is created zero-filled and then written
    obtain ⟨_, ⟨-, rfl⟩, account', hinit, account'', hverify, rfl⟩ := h
    simp only [ExternallySignedAccount.initializeAccount, bind_eq_ok, pure_eq_ok] at hinit
    obtain ⟨headed, hheader, fresh, hfresh, before, hbefore, rfl⟩ := hinit
    obtain ⟨hinfo, hi⟩ := initializeHeader_ok hheader
    obtain rfl := (ExternallySignedAccount.dataRef_ok.mp hfresh).unique hi
    obtain ⟨rfl, hbound⟩ := initializeAccount_ok hbefore
    have hi := hi.write (e := { freshAccountData with
      rpIdInfo := context.initializationData.rpIdInfo
      publicKey := context.initializationData.publicKey
      counter := context.initializationData.counter
      sessionKey := context.sessionKey.getD freshAccountData.sessionKey }) rfl
    rw [ExternallySignedAccount.verifyInitializationPayload_eq] at hverify
    obtain ⟨before', after, hbefore', rfl, ⟨v⟩⟩ := ExternallySignedAccount.verifyPayload_ok hverify
    obtain rfl := (ExternallySignedAccount.dataRef_ok.mp hbefore').unique hi
    obtain ⟨args, external, rentPayer, instructionsSysvar, slothashesSysvar, systemProgram, rest,
      hargs, haccounts, hcontext, huninitialized, rfl, rfl, hsysvar, hsession, hvalid, hcounter,
      hderived, hkey, n⟩ := r
    simp only [InitializeExternalAccountContext.getInitializationPayloadHash, hsysvar, hsession] at v
    refine ⟨{
      args, rentPayer := context.rentPayer, instructionsSysvar, slothashesSysvar, systemProgram, rest
      external := context.externallySignedAccount.accountInfo, slothash := context.slothash, after
      before := _, buf := _
      decoded := hargs, accounts_eq := haccounts, uninitialized := huninitialized
      initialized := hsession ▸ hi, rpId_valid := hvalid
      derived := ⟨_, hkey ▸ hderived.found⟩
      sessionKey := rfl
      counter := hcounter, bounded := hsession ▸ hbound
      acceptance := {
        payload := _
        encoded := (PayloadCall.preimage_eq (.init _ _ args.sessionKey)).mp rfl
        params := _, verification := v, nonce := n }
      left_eq := ?_
      presented := ?_ }⟩
    · simp [ExternallySignedAccount.finish, ExternallySignedAccount.setData, hinfo]
    · simp only [initializePresented, bind_eq_ok, mapErr_eq_ok, pure_eq_ok]
      exact ⟨args, hargs, _, hcontext, by rw [hsession]⟩

end ExternalSignature
