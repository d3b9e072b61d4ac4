import ExternalSignature.Proofs.BrowserData
import ExternalSignature.Proofs.Build
import ExternalSignature.Proofs.Cbor
import ExternalSignature.Proofs.Complete
import ExternalSignature.Proofs.RoundTrip
import ExternalSignature.Sdk.Credential

/-!
# From a challenge to the ledger

An application asks the SDK for a challenge, a passkey answers it (`Assertion.Answers`), and the SDK
makes a transaction of the answer, which the runtime runs (`Runs`). The transaction goes through as
long as its slot is recent, whatever else has happened on the ledger since the challenge was made
(`refresh_flow`, `initialize_flow`).
-/

namespace ExternalSignature

open Lib Lib.Borsh
open Sdk (derSignature scalarBytes p256Order)

variable {host : Host} {rt : Runtime}

/-! ## Transactions -/

namespace Sdk

/-- The length of an instruction in the instructions sysvar up to its data: the count of its
accounts, each with a byte of flags, its program and the length of its data. -/
def TransactionInstruction.headLength (instruction : TransactionInstruction) : Nat :=
  2 + 33 * instruction.keys.length + 32 + 2

/-- The offset of the data of an instruction in the instructions sysvar, which starts with the count
of the instructions and the offset of each. -/
def Transaction.dataOffset (transaction : Transaction) (index : Nat) : Nat :=
  2 + 2 * transaction.instructions.length +
    ((transaction.instructions.take index).map fun i => i.headLength + i.data.length).sum +
    (transaction.instructions[index]?.map (·.headLength)).getD 0

/-- The instructions sysvar holds the instructions of the transaction. -/
structure Transaction.Introspected (transaction : Transaction) (ixs : Instructions) : Prop where
  instructions : List.Forall₂ (fun instruction ix =>
    ix.programId = instruction.programId ∧ ix.data = instruction.data) transaction.instructions ixs
  address : ∃ base, base % 8 = 0 ∧ ∀ index ix, ixs[index]? = some ix →
    ix.address = base + transaction.dataOffset index

/-- The instructions sysvar of the transaction, at address zero. -/
def Transaction.introspect (transaction : Transaction) : Instructions :=
  transaction.instructions.mapIdx fun index instruction =>
    ⟨instruction.programId, instruction.data, transaction.dataOffset index, []⟩

theorem Transaction.introspected (transaction : Transaction) :
    transaction.Introspected transaction.introspect where
  instructions := by
    rw [introspect, List.forall₂_iff_get]
    simp
  address := by
    refine ⟨0, rfl, fun index ix h => ?_⟩
    obtain ⟨instruction, -, rfl⟩ := by simpa [introspect] using h
    exact (Nat.zero_add _).symm

/-- A precompile instruction has no accounts, so its data is aligned. -/
theorem Transaction.Introspected.precompile {payer : Pubkey} {data : Bytes}
    {rest : List TransactionInstruction} {ixs : Instructions}
    (h : Introspected ⟨payer, secp256r1Instruction data :: rest⟩ ixs) :
    ∃ ix, ixs[0]? = some ix ∧ ix.programId = secp256r1PrecompileId ∧ ix.data = data ∧
      ix.address % 2 = 0 := by
  obtain ⟨hinstructions, base, hbase, haddress⟩ := h
  obtain _ | ⟨hix, -⟩ := hinstructions
  rename_i ix ixs
  refine ⟨ix, rfl, hix.1, hix.2, ?_⟩
  have h0 := haddress 0 ix rfl
  simp only [dataOffset, List.take_zero, List.map_nil, List.sum_nil, List.length_cons,
    List.getElem?_cons_zero, Option.map_some, Option.getD_some,
    TransactionInstruction.headLength, secp256r1Instruction, List.length_nil] at h0
  omega

end Sdk

/-- The runtime runs the transaction, at the top level and before the slot is 150 slots old. -/
structure Runs (rt : Runtime) (transaction : Sdk.Transaction) (entry : SlotHash) : Prop where
  topLevel : rt.stackHeight ≤ 1
  introspected : transaction.Introspected rt.instructions
  recent : Recent rt.slotHashes entry

/-! ## Assertions -/

/-- What a browser returns of a passkey: the client data, what the authenticator adds to it, and the
scalars of the signature. -/
structure Assertion where
  clientData : Sdk.BrowserClientData
  authenticatorData : AuthenticatorData
  r : Nat
  s : Nat

namespace Assertion

variable (a : Assertion)

def response : Sdk.AuthenticatorAssertionResponse :=
  ⟨derSignature a.r a.s, a.authenticatorData.encode, a.clientData.json⟩

/-- What the passkey signs. -/
def message (host : Host) : Bytes :=
  a.authenticatorData.encode ++ (host.sha256 a.clientData.json).val

/-- What the SDK keeps of the answer. -/
def webauthnData (publicKey : ByteArr 33) : Sdk.SignedWebAuthnData where
  publicKey := publicKey.val
  authData := a.authenticatorData.encode
  clientDataJson := a.clientData.json
  clientDataJsonReconstructionParams :=
    Sdk.createClientDataJsonReconstructionParams a.clientData.input
  signature := derSignature a.r a.s

/-- The precompile instruction with the signature, whose `s` is the low one. -/
def precompile (host : Host) (publicKey : ByteArr 33) : Sdk.TransactionInstruction :=
  Sdk.secp256r1Instruction (precompileData (inlineOffsets (a.message host))
    (publicKey.val ++ (scalarBytes a.r ++ scalarBytes (min a.s (p256Order - a.s))) ++
      a.message host))

/-- A registration with the answer: the attestation has the authenticator data, with the passkey in
it, and the signature, and the browser exposes no other key. -/
structure Registers (decodeCbor : Sdk.DecodeCbor)
    (decodeAttestationObject : Sdk.DecodeAttestationObject) (publicKey : ByteArr 33)
    (response : Sdk.AuthenticatorAttestationResponse) : Prop where
  clientDataJson : response.clientDataJson = a.clientData.json
  attestation : decodeAttestationObject response.attestationObject =
    .ok ⟨some a.authenticatorData.encode, some (derSignature a.r a.s)⟩
  attested : ∃ (d : Sdk.AttestedCredentialData) (key : Sdk.CoseKey),
    a.authenticatorData.encode = d.encode ∧ d.flags &&& Sdk.flagAttestedCredentialData ≠ 0 ∧
    (d.flags &&& Sdk.flagExtensionData = 0 → d.extensions = []) ∧
    Sdk.decodeCoseP256PublicKey decodeCbor d.key = .ok key ∧ key.compressed = publicKey.val ∧
    ∀ spki ∈ response.publicKey,
      Sdk.decodeSpkiP256PublicKey spki = .ok ⟨key.compressed, key.uncompressed⟩

/-- A user of the relying party was present and has agreed to the challenge, on a page of the
relying party's host or of a subdomain of it. -/
structure Answers (host : Host) (a : Assertion) (rpId : Bytes) (challenge : ByteArr 32) : Prop where
  challenge_eq : a.clientData.challenge = challenge.val
  origin : a.clientData.rpId = rpId ∨ ∃ sub, a.clientData.rpId = sub ++ 0x2e :: rpId
  hostname : Sdk.Hostname a.clientData.rpId
  port : ∀ port ∈ a.clientData.port, port ≠ 0 ∧ port ≠ Sdk.defaultPort a.clientData.isHttp
  present : a.authenticatorData.flags &&& 0x01 ≠ 0
  rpIdHash : a.authenticatorData.rpIdHash = host.sha256 rpId
  r_range : 1 ≤ a.r ∧ a.r < p256Order
  s_range : 1 ≤ a.s ∧ a.s < p256Order
  length_le : (a.message host).length ≤ 0xffff

theorem buildPrecompileMessage_eq (host : Host) :
    Sdk.buildPrecompileMessage host.sha256 a.clientData.json a.authenticatorData.encode =
      a.message host := by
  simp [Sdk.buildPrecompileMessage, Sdk.concatBytes, message]

theorem matchesVerification (publicKey : ByteArr 33) :
    (a.webauthnData publicKey).toWebAuthnData.MatchesVerification
      ⟨publicKey, a.clientData.packed⟩ :=
  ⟨rfl, a.clientData.matches_packed⟩

variable {a} {rpId : Bytes} {challenge : ByteArr 32}

namespace Answers

theorem parseAuthenticationCredential_eq (h : a.Answers host rpId challenge)
    {platform : Sdk.Platform} (hreads : platform.Reads a.clientData) (publicKey : ByteArr 33) :
    Sdk.parseAuthenticationCredential platform a.response publicKey.val =
      .ok (a.webauthnData publicKey) := by
  have hparams := Sdk.parseClientDataJsonReconstructionParams_eq hreads h.hostname h.port
  rw [Sdk.parseAuthenticationCredential, Sdk.expectLength_eq publicKey.property, ok_bind, response,
    hparams]
  rfl

theorem parseRegistrationCredential_eq (h : a.Answers host rpId challenge)
    {platform : Sdk.Platform} (hreads : platform.Reads a.clientData) {decodeCbor : Sdk.DecodeCbor}
    {decodeAttestationObject : Sdk.DecodeAttestationObject} {publicKey : ByteArr 33}
    {response : Sdk.AuthenticatorAttestationResponse}
    (hr : a.Registers decodeCbor decodeAttestationObject publicKey response) :
    ∃ registration, Sdk.parseRegistrationCredential platform decodeCbor decodeAttestationObject
        response = .ok registration ∧
      registration.toSignedWebAuthnData = a.webauthnData publicKey := by
  obtain ⟨d, key, hencode, hflag, hext, hkey, hcompressed, hspki⟩ := hr.attested
  have hattested := (Sdk.parseAttestedCredentialData_iff decodeCbor a.authenticatorData.encode
    (d.parsed key)).mpr ⟨d, key, hencode, hflag, hext, hkey, rfl⟩
  have hexposed : Sdk.exposedPublicKey (d.parsed key) response.publicKey =
      .ok ⟨key.compressed, key.uncompressed⟩ := by
    cases hexposed : response.publicKey with
    | none => rfl
    | some spki =>
      simp only [Sdk.exposedPublicKey, hspki spki hexposed, ok_bind,
        Sdk.AttestedCredentialData.parsed]
      rfl
  have hparams := Sdk.parseClientDataJsonReconstructionParams_eq hreads h.hostname h.port
  have hpos : 0 < (derSignature a.r a.s).length := Nat.succ_pos _
  simp only [Sdk.parseRegistrationCredential, hr.attestation, hr.clientDataJson, ok_bind,
    Option.getD_some, ensure_pos hpos, hattested, hexposed, hparams, pure_eq_ok, exists_eq_left']
  rw [webauthnData, hcompressed]

theorem createSecp256r1Instruction_eq (h : a.Answers host rpId challenge)
    (publicKey : ByteArr 33) :
    Sdk.createSecp256r1Instruction ⟨derSignature a.r a.s, a.message host, publicKey.val⟩ =
      .ok (a.precompile host publicKey) :=
  Sdk.createSecp256r1Instruction_eq h.r_range h.s_range publicKey h.length_le

/-- The program takes the relying party for the host of the page. -/
theorem reconstructClientDataJson_eq (h : a.Answers host rpId challenge)
    (horigin : a.clientData.rpId = rpId) :
    reconstructClientDataJson a.clientData.packed rpId challenge.val = .ok a.clientData.json := by
  have hjson := a.clientData.json_eq_spell
  rw [horigin, h.challenge_eq] at hjson
  exact reconstructClientDataJson_eq_ok.mpr ⟨horigin ▸ h.hostname.isUtf8, hjson⟩

/-- The program finds the message in a transaction with the precompile instruction. -/
theorem signaturePayload_eq (h : a.Answers host rpId challenge) {publicKey : ByteArr 33}
    {payer : Pubkey} {rest : List Sdk.TransactionInstruction} {ixs : Instructions}
    (hixs : Sdk.Transaction.Introspected ⟨payer, a.precompile host publicKey :: rest⟩ ixs) :
    ixs.signaturePayload = .ok ⟨scalarBytes a.r ++ scalarBytes (min a.s (p256Order - a.s)),
      publicKey.val, a.message host⟩ := by
  obtain ⟨ix, h0, hid, hdata, heven⟩ := hixs.precompile
  have hone := @oneSignature_inline _ _ ixs publicKey
    (length_compact a.r (min a.s (p256Order - a.s))) h.length_le
  rw [← hdata] at hone
  rw [ExternalSignature.signaturePayload_eq h0 hid hone.count,
    PrecompileParser.getSignaturePayload_eq hone, if_pos heven]

theorem presents (h : a.Answers host rpId challenge) (horigin : a.clientData.rpId = rpId)
    {data : P256WebauthnAccountData}
    (hrpId : data.rpIdInfo.rpIdSlice = .ok rpId) (hhash : data.rpIdInfo.rpIdHash = host.sha256 rpId)
    {payer : Pubkey} {rest : List Sdk.TransactionInstruction} {ixs : Instructions}
    (hixs : Sdk.Transaction.Introspected
      ⟨payer, a.precompile host data.publicKey.toBytes :: rest⟩ ixs)
    (hfresh : a.authenticatorData.signCount ≠ 0 →
      data.counter < a.authenticatorData.signCount.toUInt64) :
    Presents host ixs data a.clientData.packed challenge.val a.authenticatorData where
  signed := ⟨_, rpId, _, h.signaturePayload_eq hixs, hrpId,
    h.reconstructClientDataJson_eq horigin⟩
  present := h.present
  rpIdHash := h.rpIdHash.trans hhash.symm
  fresh := hfresh

end Answers

end Assertion

/-! ## The wrapper -/

/-- The account at `key` holds `data` now, and nothing else has changed. -/
structure Ledger.Updates (l l' : Ledger) (key : Pubkey) (data : P256WebauthnAccountData) :
    Prop where
  holds : l'.Holds key data
  frame : ∀ other ≠ key, l' other = l other

theorem Ledger.updates_step {l : Ledger} {c : Call} {left : AccountInfo}
    {data : P256WebauthnAccountData} (h : (c.process host l).result = .ok left)
    (howner : left.owner = ID) (hi : Initialized left.data data) :
    l.Updates (l.step host (.call c)) left.key data := by
  rw [step_call_ok h]
  exact ⟨holds_update_self.mpr ⟨howner, hi⟩, fun _ hne => Function.update_of_ne hne _ l⟩

section

variable {c : Call} {data : Bytes} (host : Host) (l : Ledger)

theorem Call.process_initialize (h : c.data = 0 :: data) :
    c.process host l = processInitializeExternalAccount host c.rt (c.infos l) data := by
  rw [process, h]
  rfl

theorem Call.process_execute (h : c.data = 1 :: data) :
    c.process host l = processExecuteInstructions host c.rt (c.infos l) data := by
  rw [process, h]
  rfl

theorem Call.process_refresh (h : c.data = 2 :: data) :
    c.process host l = .ofResult (processRefreshSessionKey host c.rt (c.infos l) data) := by
  rw [process, h]
  rfl

end

theorem Ledger.Holds.usable {l : Ledger} {data : P256WebauthnAccountData} {m : AccountMeta}
    (h : l.Holds m.pubkey data) (hl : l.Sound host) (hwritable : m.isWritable) :
    Usable host (l.info m) data :=
  ⟨h.1, h.2, hwritable, (hl _ _ h).derived⟩

namespace Sdk

/-- The call of a wrapper, in a transaction of the precompile instruction and the wrapper. -/
def wrapperCall (payer : Pubkey) (precompile wrapper : TransactionInstruction) (rt : Runtime) :
    Call :=
  Transaction.call ⟨payer, [precompile, wrapper]⟩ wrapper rt

variable {payer passkeyAccount : Pubkey} {metas : List AccountMeta}
  {wrapper : TransactionInstruction}

/-- The accounts of an execute or refresh wrapper. -/
theorem wrapperCall_infos (l : Ledger) (rt : Runtime) (data : Bytes)
    (h : wrapper.keys = outerMetas passkeyAccount payer ++ metas) :
    (wrapperCall payer (secp256r1Instruction data) wrapper rt).infos l =
      l.info (unionOf (transactionUses passkeyAccount payer metas) passkeyAccount) ::
      l.info (unionOf (transactionUses passkeyAccount payer metas) instructionsSysvarId) ::
      l.info (unionOf (transactionUses passkeyAccount payer metas) slotHashesSysvarId) ::
      l.info (unionOf (transactionUses passkeyAccount payer metas) payer) ::
      ((metas.map fun m => unionOf (transactionUses passkeyAccount payer metas) m.pubkey).take
        (maxTxAccounts - 4)).map l.info := by
  simp only [wrapperCall, Call.infos, Transaction.call, Transaction.grant, transaction_uses data h, h]
  simp only [outerMetas, List.map_cons, List.cons_append, List.nil_append, maxTxAccounts,
    List.take_succ_cons, List.map_take]

theorem transactionUses_passkeyAccount (passkeyAccount payer : Pubkey) (metas : List AccountMeta) :
    (unionOf (transactionUses passkeyAccount payer metas) passkeyAccount).isWritable :=
  unionOf_isWritable.mpr ⟨⟨passkeyAccount, true, false⟩, by simp [transactionUses, outerMetas], rfl,
    rfl⟩

theorem transactionUses_payer (passkeyAccount payer : Pubkey) (metas : List AccountMeta) :
    (unionOf (transactionUses passkeyAccount payer metas) payer).isSigner :=
  unionOf_isSigner.mpr ⟨⟨payer, true, true⟩, by simp [transactionUses], rfl, rfl⟩

end Sdk

theorem Runs.timely {transaction : Sdk.Transaction} {entry : SlotHash}
    (h : Runs rt transaction entry) {ixs slots signer : AccountInfo}
    (hixs : ixs.key = Sdk.instructionsSysvarId) (hslots : slots.key = Sdk.slotHashesSysvarId)
    (hsigner : signer.isSigner) : Timely rt ixs slots signer entry :=
  ⟨hixs, hslots.trans slotHashesSysvarId_eq, h.topLevel, hsigner, h.recent⟩

namespace Sample

/-- The client data of `example.com` in answer to a challenge. -/
def clientDataFor (challenge : Bytes) : Sdk.BrowserClientData where
  authType := .get
  challenge
  isHttp := false
  rpId := rpId
  port := none
  crossOrigin := some false
  googleExtra := false

/-- A platform that can read one client data. -/
def platformFor (b : Sdk.BrowserClientData) : Sdk.Platform where
  parseJson bytes := if bytes = b.json then .ok b.members.toJson else .error "SyntaxError"
  url value := match value with
    | some (.string origin) =>
      if origin = b.origin then .ok ⟨b.scheme ++ ascii ":", b.rpId, b.urlPort⟩
      else .error "TypeError: Invalid URL"
    | _ => .error "TypeError: Invalid URL"

theorem platformFor_reads (b : Sdk.BrowserClientData) : (platformFor b).Reads b :=
  ⟨if_pos rfl, if_pos rfl⟩

/-- An answer with sign count 7. -/
def answer (challenge : ByteArr 32) : Assertion :=
  ⟨clientDataFor challenge.val, ⟨rpIdHash, 5, 7, []⟩, 1, 1⟩

theorem rpId_hostname : Sdk.Hostname rpId := ⟨by decide, by decide +kernel⟩

theorem answer_answers (challenge : ByteArr 32) :
    (answer challenge).Answers .solana rpId challenge where
  challenge_eq := rfl
  origin := .inl rfl
  hostname := rpId_hostname
  port := by rintro _ ⟨⟩
  present := show (5 : UInt8) &&& 0x01 ≠ 0 by decide
  rpIdHash := (recorded.digests_eq (rpId, rpIdHash) List.mem_cons_self).symm
  r_range := show 1 ≤ 1 ∧ 1 < p256Order by decide +kernel
  s_range := show 1 ≤ 1 ∧ 1 < p256Order by decide +kernel
  length_le := by
    rw [Assertion.message, List.length_append, (Host.solana.sha256 _).property]
    show rpIdHash.val.length + 5 + 32 ≤ _
    rw [rpIdHash.property]
    decide

def oneHour : SessionKey := ⟨sessionSigner, 3600⟩

/-- A runtime right after the challenge was made. -/
def runtimeOf (transaction : Sdk.Transaction) : Runtime :=
  runtime 1700000000 [slot] transaction.introspect

theorem runs_runtimeOf (transaction : Sdk.Transaction) :
    Runs (runtimeOf transaction) transaction slot where
  topLevel := Nat.le_refl 1
  introspected := transaction.introspected
  recent := by
    refine ⟨List.pairwise_singleton _ _, List.mem_cons_self, ?_⟩
    rintro _ ⟨⟩
    decide

theorem runtimeOf_expiration (transaction : Sdk.Transaction) :
    sessionKeyExpiration (runtimeOf transaction) oneHour.expiration = 1700003600 :=
  show sessionKeyExpiration (runtime 1700000000 [] []) 3600 = 1700003600 by decide

theorem runtimeOf_bound (transaction : Sdk.Transaction) :
    sessionKeyExpiration (runtimeOf transaction) oneHour.expiration ≤
      P256WebauthnAccountData.expirationBound (runtimeOf transaction) :=
  show sessionKeyExpiration (runtime 1700000000 [] []) 3600 ≤
    P256WebauthnAccountData.expirationBound (runtime 1700000000 [] []) by decide

/-- What other parties do before the runtime gets to the transaction. -/
def between : List Event := [.assign sessionSigner 97, .foreign payer ⟨target, [1]⟩]

theorem run_between (l : Ledger) : run (Ledger.step .solana) l between external = l external := by
  have hassigned : external ≠ sessionSigner := by decide +kernel
  have hforeign : external ≠ payer := by decide +kernel
  simp only [between, run_cons, run_nil, Ledger.step]
  split <;> split <;> simp only [Function.update_of_ne hassigned, Function.update_of_ne hforeign]

theorem between_holds {l : Ledger} {data : P256WebauthnAccountData} (h : l.Holds external data) :
    (run (Ledger.step .solana) l between).Holds external data := by
  unfold Ledger.Holds
  rwa [run_between]

theorem slot_names : (Sdk.Numeric.number 349863001).Names slot := ⟨by decide, by decide, by decide⟩

end Sample

/-! ## Initialize -/

/-- The accounts of an initialization. -/
theorem Sdk.wrapperCall_initialize_infos (l : Ledger) (rt : Runtime) (data : Bytes)
    {payer passkeyAccount : Pubkey} {wrapper : TransactionInstruction}
    (h : wrapper.keys = initializeMetas passkeyAccount payer) :
    (wrapperCall payer (secp256r1Instruction data) wrapper rt).infos l =
      (initializeMetas passkeyAccount payer).map fun m =>
        l.info (unionOf (⟨payer, true, true⟩ :: initializeMetas passkeyAccount payer) m.pubkey) := by
  have huses : uses payer [secp256r1Instruction data, wrapper] =
      ⟨payer, true, true⟩ :: initializeMetas passkeyAccount payer := by
    simp [uses, secp256r1Instruction, h]
  simp only [wrapperCall, Call.infos, Transaction.call, Transaction.grant, huses, h, List.map_map]
  rfl

theorem initialized_bytes {data : P256WebauthnAccountData}
    (hversion : data.header.version = P256WebauthnAccountData.version)
    (hscheme : data.header.scheme = P256WebauthnAccountData.scheme) :
    Initialized (Pod.bytes data).val data := by
  refine ⟨?_, hversion, hscheme⟩
  rw [← Pod.write_eq_bytes data (List.length_replicate (n := P256WebauthnAccountData.size) (a := 0))]
  exact Pod.read_write _ _

theorem initialize_step (l : Ledger) {key payer : Pubkey} {publicKey : CompressedP256PublicKey}
    (hvacant : l key = ⟨systemProgramId, []⟩) (hderived : DerivesTo host publicKey key)
    {wrapper : Sdk.TransactionInstruction} {bs payload : Bytes} {entry : SlotHash}
    {rpId : SmallVec UInt8 UInt8} {args : InitializeAccountArgs} {a : Assertion}
    (hkeys : wrapper.keys = Sdk.initializeMetas key payer) (hwrapper : wrapper.data = 0 :: bs)
    (hargs : Sdk.InitializeArguments bs entry ⟨rpId, publicKey.toBytes, a.clientData.packed⟩ args)
    (hpayload : (Challenge.init entry.hash payer args.sessionKey).encode = .ok payload)
    (hlength : rpId.toList.length ≤ 32)
    (ha : a.Answers host rpId.toList (host.sha256 payload))
    (horigin : a.clientData.rpId = rpId.toList)
    (hruns : Runs rt ⟨payer, [a.precompile host publicKey.toBytes, wrapper]⟩ entry)
    (hcreate : ∀ calls, rt.system calls = .ok ())
    (hbound : ∀ k ∈ args.sessionKey, k.expiration ≤ P256WebauthnAccountData.expirationBound rt) :
    ∃ rpIdInfo, rpIdInfo.rpIdSlice = .ok rpId.toList ∧
      rpIdInfo.rpIdHash = host.sha256 rpId.toList ∧
      l.Updates (l.step host
        (.call (Sdk.wrapperCall payer (a.precompile host publicKey.toBytes) wrapper rt))) key
        ((initialData rpIdInfo publicKey args.sessionKey).counted
          a.authenticatorData.signCount) := by
  have hquote : 0x22 ∉ rpId.toList := fun hmem => by
    have := ha.hostname.chars _ (horigin ▸ hmem)
    revert this
    decide
  obtain ⟨info, hparsed, hslice, hhash⟩ := @tryFromInitializationData_eq host rpId publicKey.toBytes
    a.clientData.packed hlength hquote
  have hfresh (hne : a.authenticatorData.signCount ≠ 0) :
      0 < a.authenticatorData.signCount.toUInt64 := by
    rw [UInt64.lt_iff_toNat_lt, UInt32.toNat_toUInt64]
    exact Nat.pos_of_ne_zero fun hzero => hne (UInt32.toNat_inj.mp hzero)
  have hpresents := @Assertion.Answers.presents host a _ _ ha horigin
    (initialData info publicKey args.sessionKey) hslice hhash payer [wrapper] rt.instructions
    hruns.introspected hfresh
  generalize huses : (⟨payer, true, true⟩ :: Sdk.initializeMetas key payer : List AccountMeta) = uses
  have hsigner : (Sdk.unionOf uses payer).isSigner :=
    Sdk.unionOf_isSigner.mpr ⟨⟨payer, true, true⟩, huses ▸ List.mem_cons_self, rfl, rfl⟩
  have htimely : Timely rt (l.info (Sdk.unionOf uses Sdk.instructionsSysvarId))
      (l.info (Sdk.unionOf uses Sdk.slotHashesSysvarId)) (l.info (Sdk.unionOf uses payer)) entry :=
    hruns.timely rfl rfl hsigner
  have hinfos := Sdk.wrapperCall_initialize_infos l rt (a.precompile host publicKey.toBytes).data hkeys
  rw [huses] at hinfos
  have hprocess := (congrArg (fun infos =>
    (processInitializeExternalAccount host rt infos bs).result) hinfos).trans
    (@processInitializeExternalAccount_signed host rt (l.info (Sdk.unionOf uses key)) _ _ _
      (l.info (Sdk.unionOf uses Sdk.systemProgramId)) [] _ _ _ _ _ _ _ _ _ hargs.decoded hargs.scheme
      hargs.slot hargs.initialization hparsed (congrArg Account.owner hvacant)
      (congrArg Account.data hvacant) hderived htimely systemProgramId_eq hcreate hbound hpayload
      hpresents)
  have hresult := congrArg Processed.result (Call.process_initialize host l
    (show (Sdk.wrapperCall payer (a.precompile host publicKey.toBytes) wrapper rt).data =
      0 :: bs from hwrapper))
  refine ⟨info, hslice, hhash, Ledger.updates_step (hresult.trans hprocess) rfl ?_⟩
  have hheader := (initialData info publicKey args.sessionKey).counted_header
    a.authenticatorData.signCount
  exact initialized_bytes (congrArg AccountHeader.version hheader)
    (congrArg AccountHeader.scheme hheader)

/-- The SDK finds the address that the program finds. -/
def Sdk.FindProgramAddress.Agrees (find : FindProgramAddress) (host : Host) : Prop :=
  ∀ {seeds programId address},
    host.tryFindProgramAddress seeds programId = some address → find seeds programId = .ok address

/-- An account that a passkey agrees to in answer to the SDK's challenge, at its registration or
after it, is created by the transaction that the SDK makes of the answer. The relying party's
identifier has at most 32 bytes, and the answer was given on a page of its own host. The runtime runs
the transaction at the top level before the slot is 150 slots old, when the address is vacant and the
session is not too long, and the system program accepts the calls that create the account. -/
theorem initialize_flow {find : Sdk.FindProgramAddress} (hfind : find.Agrees host)
    {publicKey : CompressedP256PublicKey} {key : Pubkey} (hderived : DerivesTo host publicKey key)
    {rpId : Bytes} (hlength : rpId.length ≤ 32) {slot : Sdk.Numeric} {entry : SlotHash}
    (hslot : slot.Names entry) {sessionKey : Option Sdk.SessionKey} {k : Option SessionKey}
    (hk : Option.Rel Sdk.SessionKey.Matches sessionKey k)
    (hsafe : ∀ s ∈ sessionKey, s.expiration.isSafe) (payer : Pubkey) :
    ∃ request, Sdk.createInitializePasskeyChallenge host.sha256 payer entry.hash.val sessionKey =
        .ok request ∧
      ∀ (platform : Sdk.Platform) (a : Assertion), platform.Reads a.clientData →
        a.Answers host rpId request.challenge →
      ∃ signed wrapped precompile,
        Sdk.parseAuthenticationCredential platform a.response publicKey.toBytes.val = .ok signed ∧
        (∀ decodeCbor decodeAttestationObject response,
          a.Registers decodeCbor decodeAttestationObject publicKey.toBytes response →
          ∃ registration, Sdk.parseRegistrationCredential platform decodeCbor
              decodeAttestationObject response = .ok registration ∧
            registration.toSignedWebAuthnData = signed) ∧
        Sdk.buildInitializePasskeyAccount host.sha256 find ⟨signed.toWebAuthnData, rpId, payer, slot,
          entry.hash.val, sessionKey⟩ = .ok wrapped ∧
        wrapped.challenge = request.challenge ∧ wrapped.passkeyAccount = key ∧
        Sdk.createSecp256r1Instruction
          ⟨signed.signature, wrapped.precompileMessage, signed.publicKey⟩ = .ok precompile ∧
      ∀ (l : Ledger) (rt : Runtime), l key = ⟨systemProgramId, []⟩ →
        Runs rt ⟨payer, [precompile, wrapped.instruction]⟩ entry →
        a.clientData.rpId = rpId → (∀ calls, rt.system calls = .ok ()) →
        (∀ s ∈ k, s.expiration ≤ P256WebauthnAccountData.expirationBound rt) →
        ∃ data, l.Updates (l.step host
            (.call (Sdk.wrapperCall payer precompile wrapped.instruction rt))) key data ∧
          data.publicKey = publicKey ∧ data.rpIdInfo.rpIdSlice = .ok rpId ∧
          data.rpIdInfo.rpIdHash = host.sha256 rpId ∧
          data.sessionKey = k.getD ⟨.zero 32, 0⟩ ∧
          data.counter = a.authenticatorData.signCount.toUInt64 := by
  obtain ⟨payload, hpayload⟩ := (Challenge.init entry.hash payer k).encode_total
  have hpreimage := Sdk.initializePasskeyPreimage_eq hk hsafe hpayload
  refine ⟨⟨host.sha256 payload, Base64Url.encode (host.sha256 payload).val⟩,
    bind_eq_ok.mpr ⟨payload, hpreimage, rfl⟩, fun platform a hreads ha => ?_⟩
  obtain ⟨bump, hkey⟩ := hderived
  have hvec : (LenPrefix.tryFromUsize (L := UInt8) rpId.length).isSome := by
    show (if rpId.length < 256 then some (UInt8.ofNat rpId.length) else none).isSome
    rw [if_pos (by omega)]
    rfl
  obtain ⟨bs, args, hargs, rfl, hbuild⟩ := @Sdk.buildInitializePasskeyAccount_eq host.sha256 find
    (a.webauthnData publicKey.toBytes).toWebAuthnData slot entry payload rpId
    ⟨⟨rpId, hvec⟩, publicKey.toBytes, a.clientData.packed⟩
    ⟨rfl, rfl, a.clientData.matches_packed⟩ hlength hslot key bump (hfind hkey) sessionKey k hk hsafe
    payer hpayload
  refine ⟨_, _, a.precompile host publicKey.toBytes,
    ha.parseAuthenticationCredential_eq hreads publicKey.toBytes, fun _ _ _ hr =>
      ha.parseRegistrationCredential_eq hreads hr, hbuild, rfl, rfl, ?_, ?_⟩
  · simpa only [Assertion.webauthnData, Sdk.SignedWebAuthnData.toWebAuthnData,
      a.buildPrecompileMessage_eq host] using ha.createSecp256r1Instruction_eq publicKey.toBytes
  · intro l rt hvacant hruns horigin hcreate hbound
    obtain ⟨info, hslice, hhash, hupdates⟩ := initialize_step l hvacant ⟨bump, hkey⟩ rfl rfl hargs
      hpayload hlength ha horigin hruns hcreate hbound
    refine ⟨_, hupdates, ?_⟩
    unfold P256WebauthnAccountData.counted
    split
    · rename_i hzero
      exact ⟨rfl, hslice, hhash, rfl, congrArg UInt32.toUInt64 hzero.symm⟩
    · exact ⟨rfl, hslice, hhash, rfl, rfl⟩

/-- The search of the host, as the SDK calls it. -/
def Host.findProgramAddressSync (host : Host) : Sdk.FindProgramAddress := fun seeds programId =>
  match host.tryFindProgramAddress seeds programId with
  | some address => .ok address
  | none => .error "Unable to find a viable program address nonce"

theorem Host.findProgramAddressSync_agrees (host : Host) :
    host.findProgramAddressSync.Agrees host := by
  intro seeds programId address h
  rw [findProgramAddressSync, h]

/-- The first account of a ledger, with a session of one hour. -/
theorem initialize_flow_genesis : ∃ precompile wrapper rt data,
    Sample.genesis.Updates (Sample.genesis.step .solana
      (.call (Sdk.wrapperCall Sample.payer precompile wrapper rt))) Sample.external data ∧
    data.publicKey = .new Sample.passkey ∧ data.rpIdInfo.rpIdSlice = .ok Sample.rpId ∧
    data.sessionKey = ⟨Sample.sessionSigner, 1700003600⟩ ∧ data.counter = 7 := by
  have hderived : DerivesTo .solana (.new Sample.passkey) Sample.external :=
    (Sample.ledger_reachable.sound _ _ Sample.ledger_holds).derived
  obtain ⟨request, -, hanswer⟩ := initialize_flow Host.solana.findProgramAddressSync_agrees hderived
    (show Sample.rpId.length ≤ 32 by decide) Sample.slot_names
    (show Option.Rel Sdk.SessionKey.Matches (some ⟨Sample.sessionSigner.val, .number 1700003600⟩)
      (some ⟨Sample.sessionSigner, 1700003600⟩) from .some ⟨rfl, rfl⟩)
    (by rintro _ ⟨⟩; decide) Sample.payer
  obtain ⟨signed, wrapped, precompile, -, -, -, -, -, -, hrun⟩ := hanswer _
    (Sample.answer request.challenge) (Sample.platformFor_reads _)
    (Sample.answer_answers request.challenge)
  obtain ⟨data, hupdates, hkey, hrpId, -, hsession, hcounter⟩ := hrun Sample.genesis _ rfl
    (Sample.runs_runtimeOf _) rfl (fun _ => rfl) (by rintro _ ⟨⟩; exact Sample.runtimeOf_bound _)
  exact ⟨precompile, wrapped.instruction, _, data, hupdates, hkey, hrpId, hsession, hcounter⟩

/-! ## Refresh -/

theorem refresh_step {l : Ledger} (hl : l.Sound host) {key payer : Pubkey}
    {data : P256WebauthnAccountData} (hdata : l.Holds key data)
    {wrapper : Sdk.TransactionInstruction} {bs payload : Bytes} {entry : SlotHash}
    {args : RefreshSessionKeyArgs} {a : Assertion} {rpId : Bytes}
    (hkeys : wrapper.keys = Sdk.outerMetas key payer) (hwrapper : wrapper.data = 2 :: bs)
    (hargs : Sdk.RefreshArguments bs entry ⟨data.publicKey.toBytes, a.clientData.packed⟩ args)
    (hpayload : (Challenge.refresh entry.hash payer args.sessionKey).encode = .ok payload)
    (hrpId : data.rpIdInfo.rpIdSlice = .ok rpId)
    (ha : a.Answers host rpId (host.sha256 payload)) (horigin : a.clientData.rpId = rpId)
    (hruns : Runs rt ⟨payer, [a.precompile host data.publicKey.toBytes, wrapper]⟩ entry)
    (hbound : sessionKeyExpiration rt args.sessionKey.expiration ≤
      P256WebauthnAccountData.expirationBound rt)
    (hfresh : a.authenticatorData.signCount ≠ 0 →
      data.counter < a.authenticatorData.signCount.toUInt64) :
    l.Updates (l.step host
        (.call (Sdk.wrapperCall payer (a.precompile host data.publicKey.toBytes) wrapper rt))) key
      { data.counted a.authenticatorData.signCount with sessionKey :=
        ⟨args.sessionKey.key, sessionKeyExpiration rt args.sessionKey.expiration⟩ } := by
  have hw := hl _ _ hdata
  have hslice := Except.ok.inj (hrpId.symm.trans hw.rpId.rpIdSlice_eq)
  have hpresents := ha.presents horigin hrpId (hslice ▸ hw.rpId.hash_eq) hruns.introspected hfresh
  have haccount : Usable host
      (l.info (Sdk.unionOf (Sdk.transactionUses key payer []) key)) data :=
    Ledger.Holds.usable hdata hl (Sdk.transactionUses_passkeyAccount key payer [])
  have htimely : Timely rt
      (l.info (Sdk.unionOf (Sdk.transactionUses key payer []) Sdk.instructionsSysvarId))
      (l.info (Sdk.unionOf (Sdk.transactionUses key payer []) Sdk.slotHashesSysvarId))
      (l.info (Sdk.unionOf (Sdk.transactionUses key payer []) payer)) entry :=
    hruns.timely rfl rfl (Sdk.transactionUses_payer key payer [])
  have hinfos := Sdk.wrapperCall_infos l rt (a.precompile host data.publicKey.toBytes).data
    (hkeys.trans (List.append_nil _).symm)
  have hprocess := (congrArg (processRefreshSessionKey host rt · bs) hinfos).trans
    (processRefreshSessionKey_signed hargs.decoded hargs.scheme hargs.slot hargs.verification haccount
      htimely hpayload hpresents hbound)
  have hresult := congrArg Processed.result (Call.process_refresh host l
    (show (Sdk.wrapperCall payer (a.precompile host data.publicKey.toBytes) wrapper rt).data =
      2 :: bs from hwrapper))
  exact Ledger.updates_step (hresult.trans hprocess) haccount.owner
    (haccount.initialized.write (data.counted_header _))

/-- A session key that a passkey agrees to in answer to the SDK's challenge is installed by the
transaction that the SDK makes of the answer, whatever happens in between, if the answer was given on
a page of the relying party's own host, and the runtime runs the transaction at the top level before
the slot is 150 slots old, with a session that is not too long and a sign count that is new. The end
of the session is a safe integer, as it is in `initialize_flow`. -/
theorem refresh_flow {l : Ledger} (hl : l.Reachable host) {key : Pubkey}
    {data : P256WebauthnAccountData} (hdata : l.Holds key data) {rpId : Bytes}
    (hrpId : data.rpIdInfo.rpIdSlice = .ok rpId) {slot : Sdk.Numeric} {entry : SlotHash}
    (hslot : slot.Names entry) {sessionKey : Sdk.SessionKey} {k : SessionKey}
    (hk : sessionKey.Matches k) (hsafe : sessionKey.expiration.isSafe) (payer : Pubkey) :
    ∃ request, Sdk.createRefreshSessionKeyChallenge host.sha256 payer entry.hash.val sessionKey =
        .ok request ∧
      ∀ (platform : Sdk.Platform) (a : Assertion), platform.Reads a.clientData →
        a.Answers host rpId request.challenge →
      ∃ signed wrapped precompile,
        Sdk.parseAuthenticationCredential platform a.response data.publicKey.toBytes.val =
          .ok signed ∧
        Sdk.buildRefreshSessionKey host.sha256 ⟨signed.toWebAuthnData, key, payer, slot,
          entry.hash.val, sessionKey⟩ = .ok wrapped ∧ wrapped.challenge = request.challenge ∧
        Sdk.createSecp256r1Instruction
          ⟨signed.signature, wrapped.precompileMessage, signed.publicKey⟩ = .ok precompile ∧
      ∀ (es : List Event) (rt : Runtime) (now : P256WebauthnAccountData),
        (run (Ledger.step host) l es).Holds key now → a.clientData.rpId = rpId →
        Runs rt ⟨payer, [precompile, wrapped.instruction]⟩ entry →
        sessionKeyExpiration rt k.expiration ≤ P256WebauthnAccountData.expirationBound rt →
        (a.authenticatorData.signCount ≠ 0 →
          now.counter < a.authenticatorData.signCount.toUInt64) →
        (run (Ledger.step host) l es).Updates
          (run (Ledger.step host) l
            (es ++ [.call (Sdk.wrapperCall payer precompile wrapped.instruction rt)])) key
          { now.counted a.authenticatorData.signCount with
            sessionKey := ⟨k.key, sessionKeyExpiration rt k.expiration⟩ } := by
  obtain ⟨payload, hpayload⟩ := (Challenge.refresh entry.hash payer k).encode_total
  have hpreimage := Sdk.refreshSessionKeyPreimage_eq hk hsafe hpayload
  refine ⟨⟨host.sha256 payload, Base64Url.encode (host.sha256 payload).val⟩,
    bind_eq_ok.mpr ⟨payload, hpreimage, rfl⟩, fun platform a hreads ha => ?_⟩
  obtain ⟨bs, args, hargs, rfl, hbuild⟩ := Sdk.buildRefreshSessionKey_eq
    (a.matchesVerification data.publicKey.toBytes) hslot hk hsafe key hpayload
  refine ⟨_, _, a.precompile host data.publicKey.toBytes,
    ha.parseAuthenticationCredential_eq hreads data.publicKey.toBytes, hbuild, rfl, ?_, ?_⟩
  · simpa only [Assertion.webauthnData, Sdk.SignedWebAuthnData.toWebAuthnData,
      a.buildPrecompileMessage_eq host] using ha.createSecp256r1Instruction_eq data.publicKey.toBytes
  · intro es rt now hnow horigin hruns hbound hfresh
    obtain ⟨now', hnow', hc⟩ := Ledger.run_continues host l es key data hdata
    obtain rfl := hnow'.unique hnow
    rw [← hc.publicKey] at hargs hruns
    rw [← hc.publicKey, run_snoc]
    exact refresh_step (Ledger.run_sound hl.sound es) hnow rfl rfl hargs hpayload
      (hc.rpIdInfo ▸ hrpId) ha horigin hruns hbound hfresh

/-- A session of one hour, with a new sign count, after other parties have changed the ledger. -/
theorem refresh_flow_hour : ∃ precompile wrapper rt,
    (run (Ledger.step .solana) Sample.ledger Sample.between).Updates
      (run (Ledger.step .solana) Sample.ledger (Sample.between ++
        [.call (Sdk.wrapperCall Sample.payer precompile wrapper rt)])) Sample.external
      { Sample.stored with
        sessionKey := ⟨Sample.sessionSigner, 1700003600⟩
        counter := 7 } := by
  obtain ⟨request, -, hanswer⟩ := refresh_flow Sample.ledger_reachable Sample.ledger_holds
    (show Sample.stored.rpIdInfo.rpIdSlice = .ok Sample.rpId by decide) Sample.slot_names
    (show (Sdk.SessionKey.mk Sample.sessionSigner.val (.number 3600)).Matches Sample.oneHour from
      ⟨rfl, rfl⟩) (by decide) Sample.payer
  obtain ⟨signed, wrapped, precompile, -, -, -, -, hrun⟩ := hanswer _ (Sample.answer request.challenge)
    (Sample.platformFor_reads _) (Sample.answer_answers request.challenge)
  have hstep := hrun Sample.between _ Sample.stored (Sample.between_holds Sample.ledger_holds) rfl
    (Sample.runs_runtimeOf _) (Sample.runtimeOf_bound _)
    (fun _ => show Sample.stored.counter < 7 by decide)
  rw [Sample.runtimeOf_expiration] at hstep
  exact ⟨precompile, wrapped.instruction, _, hstep⟩

end ExternalSignature
