import ExternalSignature.Proofs.ExecuteFlow
import ExternalSignature.RustSdk.Builders

/-!
# Two SDKs

The TypeScript SDK writes the wire format by hand, the Rust SDK has the types of the program write
it. Where the TypeScript SDK builds an instruction, the Rust SDK builds one of the same arguments
(`sdks_agree`). An initialization and a refresh are the same byte for byte. To wrap instructions each
SDK relies on the message compiler of its own library, and these two agree on the keys of a message
but not on their order: `@solana/web3.js` keeps the order of first use and `solana-message` sorts. So
the two wrappers have the program read the same arguments and the same instructions of the same
accounts, in two orders (`SamePayload`).
-/

namespace ExternalSignature

open Lib Lib.Borsh
open RustSdk (transactionInstruction)

/-- The discriminator in front of the arguments. -/
theorem Sdk.concatBytes_pair (discriminator : UInt8) (args : Bytes) :
    concatBytes [[discriminator], args] = discriminator :: args := by
  simp [concatBytes]

theorem TruncatedSlot.eq_of_toNat {s t : TruncatedSlot} (h : (s.slot.toNat : Int) = t.slot.toNat) :
    s = t := by
  obtain ⟨s⟩ := s
  obtain ⟨t⟩ := t
  obtain rfl : s = t := UInt16.toNat_inj.mp (Int.ofNat.inj h)
  rfl

namespace RustSdk

variable {sha256 : Bytes → ByteArr 32} {find : FindProgramAddress} {web3 : Sdk.Web3}
  {compile : MessageCompiler} {data : WebAuthnData} {webauthnData : Sdk.WebAuthnData}
  {slot : Sdk.Numeric} {slotHash : TruncatedSlot} {passkeyAccount payer : Pubkey}
  {recentSlotHash : Bytes}

/-! ## The same arguments -/

/-- The credential of the TypeScript SDK has the fields that the Rust builders read. -/
def WebAuthnData.StandsFor (data : WebAuthnData) (webauthnData : Sdk.WebAuthnData) : Prop :=
  webauthnData.MatchesVerification ⟨data.publicKey, data.clientDataJsonReconstructionParams⟩

/-- Both searches find the same addresses. -/
def FindProgramAddress.Mirrors (find : FindProgramAddress) (findSync : Sdk.FindProgramAddress) :
    Prop :=
  ∀ seeds programId, find seeds programId = (findSync seeds programId).toOption

/-- The instruction carries `args` behind its discriminator, and the accounts `metas` behind those
that it uses itself. -/
structure Wraps (α : Type) [BorshDeserialize α] (discriminator : UInt8)
    (outer metas : List AccountMeta) (args : α) (instruction : Sdk.TransactionInstruction) :
    Prop where
  programId : instruction.programId = ID
  keys : instruction.keys = outer ++ metas
  data : ∃ bs, instruction.data = discriminator :: bs ∧ tryFromSlice α bs = .ok args

/-- The payload holds each account once, and the instructions as indices into them. -/
structure CompiledExecutionPayload.Holds (payload : CompiledExecutionPayload)
    (instructions : List Instruction) : Prop where
  nodup : (payload.accountMetas.map (·.pubkey)).Nodup
  indexes : List.Forall₂ (fun instruction c =>
      Indexes (payload.accountMetas.map (·.pubkey)) instruction (messageInstruction c))
    instructions payload.instructions.toList

/-- The same accounts with the same flags, in whatever order, and the same instructions. -/
structure SamePayload (instructions : List Instruction) (ours theirs : CompiledExecutionPayload) :
    Prop where
  accounts : ours.accountMetas.Perm theirs.accountMetas
  ours : ours.Holds instructions
  theirs : theirs.Holds instructions

/-! ## Refresh -/

theorem refreshSessionKey_eq (hdata : data.StandsFor webauthnData)
    (hslot : Sdk.truncateSlot slot = .ok slotHash.slot.toNat)
    {sessionKey : Sdk.SessionKey} {k : SessionKey} (hk : sessionKey.Matches k)
    {wrapped : Sdk.WrappedInstructionResult}
    (h : Sdk.buildRefreshSessionKey sha256 ⟨webauthnData, passkeyAccount, payer, slot,
      recentSlotHash, sessionKey⟩ = .ok wrapped) :
    ∃ instruction, refreshSessionKey data passkeyAccount payer slotHash k = .ok instruction ∧
      transactionInstruction instruction = wrapped.instruction := by
  simp only [Sdk.buildRefreshSessionKey, hslot, ok_bind, bind_eq_ok, pure_eq_ok] at h
  obtain ⟨bytes, hbytes, args, hargs, challenge, -, rfl⟩ := h
  have hverification := Writes.serialize_eq Sdk.serializeP256RawVerificationData_ok
    Sdk.verification_rightUnique hdata hbytes
  obtain ⟨⟨slothash, _, vec, k'⟩, ⟨hs, rfl, hvec, hk'⟩, hserialize⟩ :=
    Sdk.serializeRefreshSessionKeyArgs_ok hargs
  obtain rfl : slothash = slotHash := TruncatedSlot.eq_of_toNat hs
  obtain rfl : k = k' := Sdk.sessionKey_rightUnique hk hk'
  refine ⟨⟨ID, 2 :: args, [⟨passkeyAccount, true, false⟩, ⟨instructionsId, false, false⟩,
    ⟨slotHashesId, false, false⟩, ⟨payer, true, true⟩]⟩, ?_, ?_⟩
  · simp only [refreshSessionKey, bind_eq_ok, ofIo_eq_ok, mapErr_eq_ok, SmallVec.tryFrom_eq_ok]
    exact ⟨bytes, hverification, vec, hvec, args, hserialize, rfl⟩
  · rw [transactionInstruction, ← slotHashesSysvarId_eq, Sdk.concatBytes_pair]
    rfl

/-! ## Initialize -/

theorem initializeAccount_eq {findSync : Sdk.FindProgramAddress} (hfind : find.Mirrors findSync)
    (hdata : data.StandsFor webauthnData)
    (hslot : Sdk.truncateSlot slot = .ok slotHash.slot.toNat) {rpId : Bytes}
    {sessionKey : Option Sdk.SessionKey} {k : Option SessionKey}
    (hk : Option.Rel Sdk.SessionKey.Matches sessionKey k) {wrapped : Sdk.InitializePasskeyResult}
    (h : Sdk.buildInitializePasskeyAccount sha256 findSync ⟨webauthnData, rpId, payer, slot,
      recentSlotHash, sessionKey⟩ = .ok wrapped) :
    ∃ instruction, initializeAccount sha256 find data rpId payer slotHash k =
        .ok (wrapped.passkeyAccount, instruction) ∧
      transactionInstruction instruction = wrapped.instruction := by
  simp only [Sdk.buildInitializePasskeyAccount, hslot, ok_bind, bind_eq_ok, pure_eq_ok] at h
  obtain ⟨⟨key, bump⟩, hderive, bytes, hbytes, args, hargs, challenge, -, rfl⟩ := h
  simp only [Sdk.derivePasskeyAccount, bind_eq_ok, Sdk.expectLength_ok] at hderive
  obtain ⟨_, ⟨-, rfl⟩, hderive⟩ := hderive
  obtain ⟨⟨vec, publicKey, params⟩, ⟨hvec, hkey, hparams⟩, hinitialization⟩ :=
    @Sdk.serializeP256RawInitializationData_ok (rpId, webauthnData) bytes hbytes
  obtain rfl : publicKey = data.publicKey := Subtype.ext (hkey.trans hdata.1.symm)
  obtain rfl := Sdk.params_rightUnique hparams hdata.2
  obtain ⟨⟨slothash, _, raw, k'⟩, ⟨hs, rfl, hraw, hk'⟩, hserialize⟩ :=
    Sdk.serializeInitializeAccountArgs_ok hargs
  obtain rfl : slothash = slotHash := TruncatedSlot.eq_of_toNat hs
  obtain rfl : k = k' := Sdk.optionSessionKey_rightUnique hk hk'
  have haddress : find [ascii "passkey", (sha256 data.publicKey.val).val] ID = some (key, bump) := by
    rw [hfind, toOption_eq_some, ← hderive, hdata.1]
    rfl
  refine ⟨⟨ID, 0 :: args, [⟨key, true, false⟩, ⟨payer, true, true⟩,
    ⟨instructionsId, false, false⟩, ⟨slotHashesId, false, false⟩,
    ⟨systemProgramId, false, false⟩]⟩, ?_, ?_⟩
  · simp only [initializeAccount, derivePasskeyAccount, bind_eq_ok, okOr_eq_ok, mapError_eq_ok,
      ofIo_eq_ok, mapErr_eq_ok, SmallVec.tryFrom_eq_ok]
    exact ⟨(key, bump), haddress, vec, hvec, bytes, hinitialization, raw, hraw, args, hserialize, rfl⟩
  · rw [transactionInstruction, ← slotHashesSysvarId_eq, ← systemProgramId_eq,
      Sdk.concatBytes_pair]
    rfl

/-! ## Execute -/

theorem Indexes.lookup {keys : List Pubkey} {instruction : Instruction}
    {compiled : MessageInstruction} (h : Indexes keys instruction compiled) :
    ∀ key ∈ instruction.programId :: instruction.accounts.map (·.pubkey),
      ∃ index < 256, keys[index]? = some key := by
  intro key hkey
  obtain rfl | hkey := List.mem_cons.mp hkey
  · exact ⟨_, compiled.programIdIndex.toNat_lt, h.programId⟩
  · have hsome : some key ∈ compiled.accounts.map (keys[·.toNat]?) :=
      h.accounts ▸ List.mem_map_of_mem hkey
    obtain ⟨index, -, hget⟩ := List.mem_map.mp hsome
    exact ⟨_, index.toNat_lt, hget⟩

/-- A byte is the index of every key but the first, and of the first it is 0. -/
theorem Compiled.length_le_256 {instructions : List Instruction} {message : Message}
    (h : Compiled instructions payer message) : message.accountKeys.length ≤ 256 := by
  have hindex : ∀ key ∈ message.accountKeys, ∃ index < 256, message.accountKeys[index]? = some key := by
    intro key hkey
    obtain rfl | hused := List.mem_cons.mp (h.layout.mem_iff.mp hkey)
    · exact ⟨0, by decide, List.head?_eq_getElem? ▸ h.layout.payer_first⟩
    · obtain ⟨_, hi, hkey⟩ := List.mem_flatMap.mp hused
      obtain ⟨instruction, hmem, rfl⟩ := List.mem_map.mp hi
      have hall := (List.forall₂_and_left _ _).mp
        (h.instructions.imp fun _ _ hindexes => ⟨hindexes.lookup, hindexes⟩)
      exact hall.1 instruction hmem key hkey
  by_contra hlength
  have hlt : 256 < message.accountKeys.length := by omega
  obtain ⟨index, hindex, hget⟩ := hindex _ (List.getElem_mem hlt)
  obtain ⟨_, heq⟩ := List.getElem?_eq_some_iff.mp hget
  have := (List.Nodup.getElem_inj_iff h.layout.nodup).mp heq
  omega

/-- Both messages have the same keys, and their headers give them the same flags. -/
theorem accountMetas_perm {instructions : List Sdk.TransactionInstruction}
    {legacy legacy' : Sdk.LegacyMessage} (h : Sdk.Compiled payer instructions legacy)
    (h' : Sdk.Compiled payer instructions legacy') :
    legacy.accountMetas.Perm legacy'.accountMetas := by
  have hkeys : legacy.accountKeys.Perm legacy'.accountKeys :=
    (List.perm_ext_iff_of_nodup h.nodup h'.nodup).mpr fun _ => h.mem_iff.trans h'.mem_iff.symm
  rw [h.accountMetas_eq, h'.accountMetas_eq]
  exact hkeys.map _

/-- What the TypeScript SDK has the program read of the instructions of a message. -/
theorem indexes_of_wires {keys : List Pubkey} (hkeys : keys.length ≤ 256)
    {instructions : List Instruction} {messages : List Sdk.MessageInstruction}
    (h : List.Forall₂ (Sdk.Indexes web3 keys) (instructions.map transactionInstruction) messages)
    {wires : List Sdk.CompiledInstructionWire} (hwires : messages.mapM (Sdk.wireOf web3) = .ok wires)
    {cs : List CompiledInstruction} (hcs : List.Forall₂ Sdk.CompiledInstructionWire.Matches wires cs) :
    List.Forall₂ (fun instruction c => Indexes keys instruction (messageInstruction c))
      instructions cs := by
  rw [List.forall₂_map_left_iff] at h
  rw [mapM_eq_ok] at hwires
  induction h generalizing wires cs with
  | nil =>
    cases hwires
    cases hcs
    exact .nil
  | cons hi _ ih =>
    obtain _ | ⟨hwire, hwires⟩ := hwires
    obtain _ | ⟨hc, hcs⟩ := hcs
    exact .cons (hi.of_wire hkeys hwire hc) (ih hwires hcs)

theorem Indexes.bounds {keys : List Pubkey} {instruction : Instruction} {c : CompiledInstruction}
    (h : Indexes keys instruction (messageInstruction c)) :
    instruction.accounts.length ≤ 255 ∧ instruction.data.length ≤ 65535 := by
  have haccounts : c.accountsIndices.toList.length = instruction.accounts.length := by
    simpa [messageInstruction] using congrArg List.length h.accounts
  exact ⟨haccounts ▸ c.accountsIndices.length_u8, h.data ▸ c.data.length_u16⟩

/-- Instructions that the program can read are within the bounds of the wire format. -/
theorem CompiledExecutionPayload.Holds.bounds {payload : CompiledExecutionPayload}
    {instructions : List Instruction} (h : payload.Holds instructions) :
    instructions.length ≤ 255 ∧ ∀ instruction ∈ instructions,
      instruction.accounts.length ≤ 255 ∧ instruction.data.length ≤ 65535 := by
  have hall := (List.forall₂_and_left _ _).mp
    (h.indexes.imp fun _ _ hindexes => ⟨hindexes.bounds, hindexes⟩)
  exact ⟨h.indexes.length_eq ▸ payload.instructions.length_u8, hall.1⟩

/-- Where the TypeScript SDK compiles instructions, the Rust SDK does. -/
theorem compileInstructionsForExecution_same (hweb3 : web3.Compiles) (hcompile : compile.Lawful)
    {instructions : List Instruction} (hsome : (compile instructions payer).isSome)
    {compiled : Sdk.CompiledExecutionPayload}
    (hcompiled : Sdk.compileInstructionsForExecution web3
      (instructions.map transactionInstruction) payer = .ok compiled)
    {vs : SmallVec UInt8 CompiledInstruction}
    (hvs : List.Forall₂ Sdk.CompiledInstructionWire.Matches compiled.compiledInstructions vs.toList) :
    ∃ payload, compileInstructionsForExecution compile instructions payer = .ok payload ∧
      SamePayload instructions ⟨compiled.accountMetas, vs⟩ payload := by
  obtain ⟨message, hmessage⟩ := Option.isSome_iff_exists.mp hsome
  have hc := hcompile hmessage
  rw [Sdk.compileInstructionsForExecution_eq] at hcompiled
  simp only [bind_eq_ok, pure_eq_ok] at hcompiled
  obtain ⟨legacy, hlegacy, wires, hwires, rfl⟩ := hcompiled
  obtain ⟨hlayout, hindexes⟩ := hweb3 hlegacy
  have hperm := accountMetas_perm hlayout hc.layout
  have hlength : legacy.accountKeys.length ≤ 256 := by
    have h := hperm.length_eq
    rw [hlayout.accountMetas_eq, hc.layout.accountMetas_eq, List.length_map, List.length_map] at h
    exact h ▸ hc.length_le_256
  have hours : CompiledExecutionPayload.Holds ⟨legacy.accountMetas, vs⟩ instructions := by
    refine ⟨?_, ?_⟩
    · rw [keys_accountMetas]
      exact hlayout.nodup
    · rw [keys_accountMetas]
      exact indexes_of_wires hlength hindexes hwires hvs
  obtain ⟨hcount, hbounds⟩ := hours.bounds
  obtain ⟨payload, hpayload⟩ := compileInstructionsForExecution_isOk hc hcount
    (fun i hi => (hbounds i hi).1) (fun i hi => (hbounds i hi).2) hmessage
  obtain ⟨message', hmessage', hmetas, hinstructions⟩ := compileInstructionsForExecution_ok hpayload
  obtain rfl := Option.some.inj (hmessage.symm.trans hmessage')
  have hkeys : payload.accountMetas.map (·.pubkey) = message.accountKeys := by
    rw [hmetas, keys_accountMetas]
    rfl
  refine ⟨payload, hpayload, hmetas ▸ hperm, hours, hkeys ▸ hc.layout.nodup, ?_⟩
  rw [hkeys, ← List.forall₂_map_right_iff, ← hinstructions]
  exact hc.instructions

theorem executeInstructions_same (hweb3 : web3.Compiles) (hcompile : compile.Lawful)
    {instructions : List Instruction} (hsome : (compile instructions payer).isSome)
    (hdata : data.StandsFor webauthnData) (hslot : Sdk.truncateSlot slot = .ok slotHash.slot.toNat)
    (scheme : Option SignerExecutionScheme) {wrapped : Sdk.WrappedInstructionResult}
    (h : Sdk.buildExecuteInstructions web3 sha256 ⟨webauthnData, passkeyAccount, payer, slot,
      recentSlotHash, instructions.map transactionInstruction, scheme⟩ = .ok wrapped) :
    ∃ (instruction : Instruction) (args : ExecutableInstructionArgs)
        (ours theirs : CompiledExecutionPayload),
      executeInstructions compile data passkeyAccount payer slotHash
        instructions (scheme.getD .executionAccount) = .ok instruction ∧
      SamePayload instructions ours theirs ∧
      Wraps ExecutableInstructionArgs 1 (Sdk.outerMetas passkeyAccount payer) ours.accountMetas
        { args with instructions := ours.instructions } wrapped.instruction ∧
      Wraps ExecutableInstructionArgs 1 (Sdk.outerMetas passkeyAccount payer) theirs.accountMetas
        { args with instructions := theirs.instructions } (transactionInstruction instruction) := by
  simp only [Sdk.buildExecuteInstructions, hslot, ok_bind, bind_eq_ok, pure_eq_ok] at h
  obtain ⟨compiled, hcompiled, bytes, hbytes, bs, hbs, challenge, -, rfl⟩ := h
  have hverification := Writes.serialize_eq Sdk.serializeP256RawVerificationData_ok
    Sdk.verification_rightUnique hdata hbytes
  obtain ⟨args, ⟨hsignature, hscheme, hs, hvec, hvs⟩, hserialize⟩ :=
    Sdk.serializeExecuteInstructionArgs_ok hbs
  have hslothash : args.slothash = slotHash := TruncatedSlot.eq_of_toNat hs
  obtain ⟨payload, hpayload, hsame⟩ :=
    compileInstructionsForExecution_same hweb3 hcompile hsome hcompiled hvs
  obtain ⟨bs', hbs'⟩ := LawfulBorsh.total
    ({ args with instructions := payload.instructions } : ExecutableInstructionArgs)
  refine ⟨⟨ID, 1 :: bs', [⟨passkeyAccount, true, false⟩, ⟨instructionsId, false, false⟩,
    ⟨slotHashesId, false, false⟩, ⟨payer, true, true⟩] ++ payload.accountMetas⟩, args, _, payload,
    ?_, hsame, ⟨rfl, rfl, bs, Sdk.concatBytes_pair _ _, tryFromSlice_serialize hserialize⟩,
    ⟨rfl, ?_, bs', rfl, tryFromSlice_serialize hbs'⟩⟩
  · simp only [executeInstructions, bind_eq_ok, ofIo_eq_ok, mapErr_eq_ok, SmallVec.tryFrom_eq_ok]
    refine ⟨payload, hpayload, bytes, hverification, args.extraVerificationData, hvec, bs', ?_, rfl⟩
    rw [← hslothash, ← hbs', hsignature, hscheme]
    rfl
  · rw [Sdk.outerMetas, slotHashesSysvarId_eq]
    rfl

theorem executeInstructionsSessioned_same (hweb3 : web3.Compiles) (hcompile : compile.Lawful)
    {instructions : List Instruction} (hsome : (compile instructions payer).isSome)
    (scheme : Option SignerExecutionScheme) {wrapped : Sdk.TransactionInstruction}
    (h : Sdk.buildExecuteInstructionsSessioned web3 ⟨passkeyAccount, payer,
      instructions.map transactionInstruction, scheme⟩ = .ok wrapped) :
    ∃ (instruction : Instruction) (args : ExecutableInstructionSessionedArgs)
        (ours theirs : CompiledExecutionPayload),
      executeInstructionsSessioned compile passkeyAccount payer
        instructions (scheme.getD .executionAccount) = .ok instruction ∧
      SamePayload instructions ours theirs ∧
      Wraps ExecutableInstructionSessionedArgs 3 [⟨passkeyAccount, true, false⟩, ⟨payer, false, true⟩]
        ours.accountMetas { args with instructions := ours.instructions } wrapped ∧
      Wraps ExecutableInstructionSessionedArgs 3 [⟨passkeyAccount, true, false⟩, ⟨payer, false, true⟩]
        theirs.accountMetas { args with instructions := theirs.instructions }
        (transactionInstruction instruction) := by
  simp only [Sdk.buildExecuteInstructionsSessioned, bind_eq_ok, pure_eq_ok] at h
  obtain ⟨compiled, hcompiled, bs, hbs, rfl⟩ := h
  obtain ⟨args, ⟨hsignature, hscheme, hvs⟩, hserialize⟩ :=
    Sdk.serializeExecuteInstructionsSessionedArgs_ok hbs
  obtain ⟨payload, hpayload, hsame⟩ :=
    compileInstructionsForExecution_same hweb3 hcompile hsome hcompiled hvs
  obtain ⟨bs', hbs'⟩ := LawfulBorsh.total
    ({ args with instructions := payload.instructions } : ExecutableInstructionSessionedArgs)
  refine ⟨⟨ID, 3 :: bs', [⟨passkeyAccount, true, false⟩, ⟨payer, false, true⟩] ++
    payload.accountMetas⟩, args, _, payload, ?_, hsame,
    ⟨rfl, rfl, bs, Sdk.concatBytes_pair _ _, tryFromSlice_serialize hserialize⟩,
    ⟨rfl, rfl, bs', rfl, tryFromSlice_serialize hbs'⟩⟩
  simp only [executeInstructionsSessioned, bind_eq_ok, ofIo_eq_ok]
  refine ⟨payload, hpayload, bs', ?_, rfl⟩
  rw [← hbs', hsignature, hscheme]
  rfl

end RustSdk

/-- Whatever the TypeScript SDK builds of a credential, a slot, session keys and instructions, the
Rust SDK builds of the same arguments, but for the order of the accounts that it wraps. -/
theorem sdks_agree {sha256 : Bytes → ByteArr 32} {find : RustSdk.FindProgramAddress}
    {findSync : Sdk.FindProgramAddress} (hfind : find.Mirrors findSync)
    {data : RustSdk.WebAuthnData} {webauthnData : Sdk.WebAuthnData}
    (hdata : data.StandsFor webauthnData) {slot : Sdk.Numeric} {slotHash : TruncatedSlot}
    (hslot : Sdk.truncateSlot slot = .ok slotHash.slot.toNat) (passkeyAccount payer : Pubkey)
    (recentSlotHash : Bytes) :
    (∀ rpId wrapped,
      Sdk.buildInitializePasskeyAccount sha256 findSync ⟨webauthnData, rpId, payer, slot,
        recentSlotHash, none⟩ = .ok wrapped →
      ∃ instruction, RustSdk.initializePasskeyAccount sha256 find data rpId payer slotHash =
          .ok (wrapped.passkeyAccount, instruction) ∧
        transactionInstruction instruction = wrapped.instruction) ∧
    (∀ rpId sessionKey k wrapped, sessionKey.Matches k →
      Sdk.buildInitializePasskeyAccount sha256 findSync ⟨webauthnData, rpId, payer, slot,
        recentSlotHash, some sessionKey⟩ = .ok wrapped →
      ∃ instruction, RustSdk.initializePasskeyAccountWithSession sha256 find data rpId payer
          slotHash k = .ok (wrapped.passkeyAccount, instruction) ∧
        transactionInstruction instruction = wrapped.instruction) ∧
    (∀ sessionKey k wrapped, sessionKey.Matches k →
      Sdk.buildRefreshSessionKey sha256 ⟨webauthnData, passkeyAccount, payer, slot,
        recentSlotHash, sessionKey⟩ = .ok wrapped →
      ∃ instruction, RustSdk.refreshSessionKey data passkeyAccount payer slotHash k =
          .ok instruction ∧
        transactionInstruction instruction = wrapped.instruction) ∧
    ∀ (web3 : Sdk.Web3) (compile : RustSdk.MessageCompiler) (instructions : List Instruction)
      (scheme : Option SignerExecutionScheme),
      web3.Compiles → compile.Lawful → (compile instructions payer).isSome →
      (∀ wrapped, Sdk.buildExecuteInstructions web3 sha256 ⟨webauthnData, passkeyAccount, payer,
          slot, recentSlotHash, instructions.map transactionInstruction, scheme⟩ = .ok wrapped →
        ∃ (instruction : Instruction) (args : ExecutableInstructionArgs)
            (ours theirs : RustSdk.CompiledExecutionPayload),
          RustSdk.executeInstructions compile data passkeyAccount payer slotHash instructions
            (scheme.getD .executionAccount) = .ok instruction ∧
          RustSdk.SamePayload instructions ours theirs ∧
          RustSdk.Wraps ExecutableInstructionArgs 1 (Sdk.outerMetas passkeyAccount payer)
            ours.accountMetas { args with instructions := ours.instructions } wrapped.instruction ∧
          RustSdk.Wraps ExecutableInstructionArgs 1 (Sdk.outerMetas passkeyAccount payer)
            theirs.accountMetas { args with instructions := theirs.instructions }
            (transactionInstruction instruction)) ∧
      ∀ wrapped, Sdk.buildExecuteInstructionsSessioned web3 ⟨passkeyAccount, payer,
          instructions.map transactionInstruction, scheme⟩ = .ok wrapped →
        ∃ (instruction : Instruction) (args : ExecutableInstructionSessionedArgs)
            (ours theirs : RustSdk.CompiledExecutionPayload),
          RustSdk.executeInstructionsSessioned compile passkeyAccount payer instructions
            (scheme.getD .executionAccount) = .ok instruction ∧
          RustSdk.SamePayload instructions ours theirs ∧
          RustSdk.Wraps ExecutableInstructionSessionedArgs 3
            [⟨passkeyAccount, true, false⟩, ⟨payer, false, true⟩] ours.accountMetas
            { args with instructions := ours.instructions } wrapped ∧
          RustSdk.Wraps ExecutableInstructionSessionedArgs 3
            [⟨passkeyAccount, true, false⟩, ⟨payer, false, true⟩] theirs.accountMetas
            { args with instructions := theirs.instructions }
            (transactionInstruction instruction) :=
  ⟨fun _ _ => RustSdk.initializeAccount_eq hfind hdata hslot .none,
    fun _ _ _ _ hk => RustSdk.initializeAccount_eq hfind hdata hslot (.some hk),
    fun _ _ _ hk => RustSdk.refreshSessionKey_eq hdata hslot hk,
    fun _ _ _ scheme hweb3 hcompile hsome =>
      ⟨fun _ => RustSdk.executeInstructions_same hweb3 hcompile hsome hdata hslot scheme,
        fun _ => RustSdk.executeInstructionsSessioned_same hweb3 hcompile hsome scheme⟩⟩

namespace Sample

open RustSdk

theorem findProgramAddressSync_mirrors (host : Host) :
    FindProgramAddress.Mirrors host.tryFindProgramAddress host.findProgramAddressSync := by
  intro seeds programId
  rw [Host.findProgramAddressSync]
  cases host.tryFindProgramAddress seeds programId <;> rfl

end Sample

/-- Both SDKs wrap two instructions for a session, the one with the accounts in the order of their
first use, the other with the accounts sorted. -/
theorem sdks_agree_sessioned : ∃ (wrapped : Sdk.TransactionInstruction)
      (args : ExecutableInstructionSessionedArgs) (ours theirs : RustSdk.CompiledExecutionPayload),
    Sdk.buildExecuteInstructionsSessioned Sample.textWeb3 ⟨Sample.external, Sample.sessionSigner,
      Sample.innerInstructions.map transactionInstruction, none⟩ = .ok wrapped ∧
    RustSdk.executeInstructionsSessioned Sample.compileInner Sample.external Sample.sessionSigner
      Sample.innerInstructions .executionAccount = .ok Sample.wrappedInstruction ∧
    wrapped.keys ≠ Sample.wrappedInstruction.accounts ∧
    RustSdk.SamePayload Sample.innerInstructions ours theirs ∧
    RustSdk.Wraps ExecutableInstructionSessionedArgs 3
      [⟨Sample.external, true, false⟩, ⟨Sample.sessionSigner, false, true⟩] ours.accountMetas
      { args with instructions := ours.instructions } wrapped ∧
    RustSdk.Wraps ExecutableInstructionSessionedArgs 3
      [⟨Sample.external, true, false⟩, ⟨Sample.sessionSigner, false, true⟩] theirs.accountMetas
      { args with instructions := theirs.instructions }
      (transactionInstruction Sample.wrappedInstruction) := by
  obtain ⟨-, -, -, hexecute⟩ := @sdks_agree Host.solana.sha256 _ _
    (Sample.findProgramAddressSync_mirrors .solana) ⟨Sample.passkey, ⟨0x10, none⟩⟩
    (Sample.wrapInput ⟨Sample.external, false, false⟩).webauthnData ⟨rfl, rfl, rfl⟩
    (.number 349863001) ⟨1⟩ (by decide) Sample.external Sample.sessionSigner Sample.slot.hash.val
  have hkeys : (Sdk.buildExecuteInstructionsSessioned Sample.textWeb3 ⟨Sample.external,
      Sample.sessionSigner, Sample.innerInstructions.map transactionInstruction, none⟩).map (·.keys) =
      .ok [⟨Sample.external, true, false⟩, ⟨Sample.sessionSigner, false, true⟩,
        ⟨Sample.sessionSigner, true, true⟩, ⟨Sample.executionAccount, true, false⟩,
        ⟨Sample.target, false, false⟩, ⟨Sample.payer, false, false⟩] := by
    decide +kernel
  obtain ⟨wrapped, hwrapped⟩ := exists_of_isOk (show (Sdk.buildExecuteInstructionsSessioned
    Sample.textWeb3 ⟨Sample.external, Sample.sessionSigner,
      Sample.innerInstructions.map transactionInstruction, none⟩).isOk = true by decide +kernel)
  rw [hwrapped] at hkeys
  have heq : wrapped.keys = _ := Except.ok.inj hkeys
  obtain ⟨instruction, args, ours, theirs, hinstruction, hrest⟩ :=
    (hexecute Sample.textWeb3 Sample.compileInner Sample.innerInstructions none
      Sample.textWeb3_compiles Sample.compileInner_lawful (by decide +kernel)).2 wrapped hwrapped
  obtain rfl := Except.ok.inj (hinstruction.symm.trans Sample.wrappedInstruction_wraps)
  refine ⟨wrapped, args, ours, theirs, hwrapped, hinstruction, ?_, hrest⟩
  rw [heq]
  decide +kernel

end ExternalSignature
