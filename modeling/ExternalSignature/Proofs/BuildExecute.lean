import ExternalSignature.Proofs.Build
import ExternalSignature.Proofs.Invocations

/-!
# What the execute builders build

The TypeScript builders have instructions compiled by `@solana/web3.js` and write the message's
instructions for the program. Within the bounds they succeed (`CompiledTo.exists`), and what the
program reads indexes into the keys of the message as the message does: the calls of its loop are
those of the instructions.
-/

namespace ExternalSignature

open Lib Lib.Borsh

namespace Sdk

variable {web3 : Web3} {payer : Pubkey} {instructions : List TransactionInstruction}
  {message : LegacyMessage}

def TransactionInstruction.toInstruction (instruction : TransactionInstruction) : Instruction :=
  ⟨instruction.programId, instruction.data, instruction.keys⟩

/-- The instruction of a message names its program and its accounts by their indices. -/
structure Indexes (web3 : Web3) (keys : List Pubkey) (instruction : TransactionInstruction)
    (compiled : MessageInstruction) : Prop where
  programId : keys[compiled.programIdIndex]? = some instruction.programId
  accounts : compiled.accounts.map (keys[·]?) = (instruction.keys.map (·.pubkey)).map some
  data : compiled.data.toBytes web3 = .ok instruction.data

/-- What the library documents of a compiled message and its instructions. -/
def Web3.Compiles (web3 : Web3) : Prop := ∀ {payer instructions message},
  web3.compileToLegacyMessage payer instructions = .ok message →
    Compiled payer instructions message ∧
      List.Forall₂ (Indexes web3 message.accountKeys) instructions message.instructions

/-! ## On the wire -/

/-- An instruction of a message as the SDK writes it. -/
def wireOf (web3 : Web3) (instruction : MessageInstruction) :
    Except String CompiledInstructionWire := do
  return {
    programIdIndex := .ofNat instruction.programIdIndex
    accountsIndices := instruction.accounts.map .ofNat
    data := ← instruction.data.toBytes web3 }

theorem compileInstructionsForExecution_eq (web3 : Web3)
    (instructions : List TransactionInstruction) (payer : Pubkey) :
    compileInstructionsForExecution web3 instructions payer = do
      let message ← web3.compileToLegacyMessage payer instructions
      let compiledInstructions ← message.instructions.mapM (wireOf web3)
      return ⟨message.accountMetas, compiledInstructions⟩ := rfl

section

variable {keys : List Pubkey} {instruction : TransactionInstruction} {compiled : MessageInstruction}

theorem getElem?_ofNat {index : Nat} {key : Pubkey} (h : keys[index]? = some key)
    (hkeys : keys.length ≤ 256) : keys[(UInt8.ofNat index).toNat]? = some key := by
  have hlt := (List.getElem?_eq_some_iff.mp h).1
  rwa [UInt8.toNat_ofNat_of_lt' (show index < 256 by omega)]

/-- A byte holds each index, so the program reads the instruction of the message. -/
theorem Indexes.of_wire (h : Indexes web3 keys instruction compiled) (hkeys : keys.length ≤ 256)
    {wire : CompiledInstructionWire} (hwire : wireOf web3 compiled = .ok wire)
    {c : CompiledInstruction} (hc : wire.Matches c) :
    RustSdk.Indexes keys instruction.toInstruction (RustSdk.messageInstruction c) := by
  rw [wireOf, h.data] at hwire
  cases hwire
  obtain ⟨hprogram, haccounts, hdata⟩ := hc
  refine ⟨?_, ?_, hdata⟩
  · rw [RustSdk.messageInstruction, hprogram]
    exact getElem?_ofNat h.programId hkeys
  · refine Eq.trans ?_ h.accounts
    rw [RustSdk.messageInstruction, haccounts, List.map_map]
    refine List.map_congr_left fun index hi => ?_
    have hmem := List.mem_map_of_mem (f := (keys[·]?)) hi
    rw [h.accounts] at hmem
    obtain ⟨key, -, hkey⟩ := List.mem_map.mp hmem
    exact (getElem?_ofNat hkey.symm hkeys).trans hkey

theorem Indexes.wire (h : Indexes web3 keys instruction compiled) (hkeys : keys.length ≤ 64)
    (hreferences : instruction.keys.length ≤ 255) (hdata : instruction.data.length ≤ 65535) :
    ∃ (wire : CompiledInstructionWire) (c : CompiledInstruction),
      wireOf web3 compiled = .ok wire ∧ wire.Matches c ∧
      RustSdk.Indexes keys instruction.toInstruction (RustSdk.messageInstruction c) := by
  have hlength : (compiled.accounts.map UInt8.ofNat).length ≤ 255 := by
    have := congrArg List.length h.accounts
    simp only [List.length_map] at this ⊢
    omega
  obtain ⟨indices, hindices⟩ := RustSdk.exists_tryFrom_u8 hlength
  obtain ⟨data, hbytes⟩ := RustSdk.exists_tryFrom_u16 hdata
  rw [SmallVec.tryFrom_eq_ok] at hindices hbytes
  have hwire : wireOf web3 compiled =
      .ok ⟨.ofNat compiled.programIdIndex, compiled.accounts.map .ofNat, instruction.data⟩ := by
    rw [wireOf, h.data]
    rfl
  have hc : CompiledInstructionWire.Matches
      ⟨.ofNat compiled.programIdIndex, compiled.accounts.map .ofNat, instruction.data⟩
      ⟨.ofNat compiled.programIdIndex, indices, data⟩ :=
    ⟨rfl, hindices, hbytes⟩
  exact ⟨_, _, hwire, hc, h.of_wire (hkeys.trans (by decide)) hwire hc⟩

end

/-! ## Compiled instructions -/

/-- What the instructions are compiled to, on the wire and in the program. -/
structure CompiledTo (web3 : Web3) (payer : Pubkey) (instructions : List TransactionInstruction)
    (message : LegacyMessage) (vs : SmallVec UInt8 CompiledInstruction) : Prop where
  compiled : ∃ wires bs,
    compileInstructionsForExecution web3 instructions payer = .ok ⟨message.accountMetas, wires⟩ ∧
    List.Forall₂ CompiledInstructionWire.Matches wires vs.toList ∧
    serializeCompiledInstructions wires = .ok bs
  indexes : List.Forall₂ (fun instruction c => RustSdk.Indexes message.accountKeys
    instruction.toInstruction (RustSdk.messageInstruction c)) instructions vs.toList

theorem Indexes.wires {keys : List Pubkey} {messages : List MessageInstruction}
    (h : List.Forall₂ (Indexes web3 keys) instructions messages) (hkeys : keys.length ≤ 64)
    (hreferences : ∀ instruction ∈ instructions, instruction.keys.length ≤ 255)
    (hdata : ∀ instruction ∈ instructions, instruction.data.length ≤ 65535) :
    ∃ (wires : List CompiledInstructionWire) (cs : List CompiledInstruction),
      messages.mapM (wireOf web3) = .ok wires ∧
      List.Forall₂ CompiledInstructionWire.Matches wires cs ∧
      List.Forall₂ (fun instruction c => RustSdk.Indexes keys instruction.toInstruction
        (RustSdk.messageInstruction c)) instructions cs := by
  induction h with
  | nil => exact ⟨[], [], rfl, .nil, .nil⟩
  | cons hi _ ih =>
    obtain ⟨hr, hreferences⟩ := List.forall_mem_cons.mp hreferences
    obtain ⟨hd, hdata⟩ := List.forall_mem_cons.mp hdata
    obtain ⟨wire, c, hwire, hc, hindexes⟩ := hi.wire hkeys hr hd
    obtain ⟨wires, cs, hwires, hcs, hall⟩ := ih hreferences hdata
    exact ⟨wire :: wires, c :: cs, mapM_eq_ok.mpr (.cons hwire (mapM_eq_ok.mp hwires)),
      .cons hc hcs, .cons hindexes hall⟩

/-- The bounds of the wire format and of the program. -/
def Fits (payer : Pubkey) (instructions : List TransactionInstruction) : Prop :=
  RustSdk.Fits payer (instructions.map (·.toInstruction))

theorem Compiled.length_le (h : Compiled payer instructions message) (hfits : Fits payer instructions) :
    message.accountKeys.length ≤ 64 := by
  have hinstructions :
      (instructions.map (·.toInstruction)).map RustSdk.transactionInstruction = instructions := by
    rw [List.map_map]
    exact List.map_id instructions
  have haccounts := hfits.accounts
  rw [hinstructions] at haccounts
  have hsubset : message.accountKeys ⊆ (usedKeys payer instructions).eraseDups :=
    fun key hkey => List.mem_eraseDups.mpr (h.mem_iff.mp hkey)
  exact (h.nodup.subperm hsubset).length_le.trans haccounts

theorem CompiledTo.exists (hweb3 : web3.Compiles) (hfits : Fits payer instructions)
    (hmessage : web3.compileToLegacyMessage payer instructions = .ok message) :
    ∃ vs, CompiledTo web3 payer instructions message vs := by
  obtain ⟨hcompiled, hindexes⟩ := hweb3 hmessage
  obtain ⟨wires, cs, hwires, hcs, hall⟩ := Indexes.wires hindexes
    (hcompiled.length_le hfits)
    (fun i hi => hfits.references _ (List.mem_map_of_mem hi))
    (fun i hi => hfits.data _ (List.mem_map_of_mem hi))
  have hcount : instructions.length ≤ 255 := by
    have := hfits.count
    rwa [List.length_map] at this
  obtain ⟨vs, hvs⟩ := RustSdk.exists_tryFrom_u8 (hall.length_eq ▸ hcount)
  obtain rfl := SmallVec.tryFrom_eq_ok.mp hvs
  obtain ⟨bs, hbs⟩ := serializeCompiledInstructions_total hcs
  refine ⟨vs, ⟨wires, bs, ?_, hcs, hbs⟩, hall⟩
  rw [compileInstructionsForExecution_eq, hmessage, ok_bind, hwires, ok_bind]
  rfl

/-- The accounts behind those of the wrapper are the ones that the loop needs. -/
theorem CompiledTo.unwraps {vs : SmallVec UInt8 CompiledInstruction}
    (h : CompiledTo web3 payer instructions message vs) (hcompiled : Compiled payer instructions message)
    (hfits : Fits payer instructions) (l : Ledger) (us : List AccountMeta) :
    RustSdk.Unwraps (instructions.map (·.toInstruction)) (l.granted us message.accountKeys)
      vs.toList where
  nodup := Ledger.keys_granted.symm ▸ hcompiled.nodup
  length_le := by
    rw [Ledger.granted, List.length_map]
    exact hcompiled.length_le hfits
  indexes := by
    rw [List.forall₂_map_left_iff, Ledger.keys_granted]
    exact h.indexes
  program := hfits.program

/-! ## The builders -/

section

variable {vs : SmallVec UInt8 CompiledInstruction} {sha256 : Bytes → ByteArr 32}
  {entry : SlotHash} {payload : Bytes}

theorem CompiledTo.preimage (h : CompiledTo web3 payer instructions message vs)
    (hlength : message.accountMetas.length ≤ 255) (entry : SlotHash) : ∃ payload,
      (Challenge.execute entry.hash payer message.accountMetas vs).encode = .ok payload ∧
      executeInstructionsPreimage web3 payer entry.hash.val instructions = .ok payload := by
  obtain ⟨wires, bs, hcompile, hmatches, hbs⟩ := h.compiled
  obtain ⟨preimage, hpreimage⟩ : ∃ preimage,
      executeInstructionsPreimage web3 payer entry.hash.val instructions = .ok preimage := by
    simp only [executeInstructionsPreimage, hcompile, ok_bind, expectLength_eq entry.hash.property,
      serializeAccountMetaList_ok.mpr ⟨hlength, rfl⟩, hbs]
    exact ⟨_, rfl⟩
  obtain ⟨compiled, slothash, vs', hcompile', hslothash, -, hmatches', hencode⟩ :=
    executeInstructionsPreimage_ok hpreimage
  obtain rfl := Except.ok.inj (hcompile.symm.trans hcompile')
  obtain rfl : slothash = entry.hash := Subtype.ext hslothash
  obtain rfl : vs' = vs := SmallVec.ext (forall₂_unique hmatches' hmatches)
  exact ⟨preimage, hencode, hpreimage⟩

/-- What the program reads of the arguments of an execution. -/
structure ExecuteArguments (bs : Bytes) (entry : SlotHash) (data : P256RawVerificationData)
    (scheme : ExternalSignature.SignerExecutionScheme) (args : ExecutableInstructionArgs) :
    Prop where
  decoded : tryFromSlice ExecutableInstructionArgs bs = .ok args
  signatureScheme : args.signatureScheme = ExternalSignature.SignatureScheme.p256Webauthn.toU8
  slot : args.slothash.slot.toNat = entry.height.toNat % 1000
  verification :
    tryFromSlice P256RawVerificationData args.extraVerificationData.toList = .ok data
  scheme : args.signerExecutionScheme = scheme.toU8

theorem CompiledTo.buildExecuteInstructions_eq (h : CompiledTo web3 payer instructions message vs)
    {webauthnData : WebAuthnData} {data : P256RawVerificationData}
    (hdata : webauthnData.MatchesVerification data) {slot : Numeric} (hslot : slot.Names entry)
    (hpreimage : executeInstructionsPreimage web3 payer entry.hash.val instructions = .ok payload)
    (passkeyAccount : Pubkey) (scheme : Option SignerExecutionScheme) :
    ∃ bs args, ExecuteArguments bs entry data (scheme.getD .executionAccount) args ∧
      args.instructions = vs ∧
      buildExecuteInstructions web3 sha256 ⟨webauthnData, passkeyAccount, payer, slot,
          entry.hash.val, instructions, scheme⟩ =
        .ok ⟨⟨programId, outerMetas passkeyAccount payer ++ message.accountMetas, 1 :: bs⟩,
          sha256 payload, Base64Url.encode (sha256 payload).val,
          buildPrecompileMessage sha256 webauthnData.clientDataJson webauthnData.authData⟩ := by
  obtain ⟨wires, items, hcompile, hmatches, hitems⟩ := h.compiled
  obtain ⟨verificationData, hv, hlength, hread⟩ := serializeVerification_eq hdata
  obtain ⟨vec, hvec⟩ := serializeSmallVecU8_total hlength "verification data"
  obtain ⟨bs, hbs⟩ : ∃ bs, serializeExecuteInstructionArgs
      ⟨SignatureScheme.p256Webauthn.toU8, (scheme.getD .executionAccount).toU8,
        (UInt16.ofNat (entry.height.toNat % 1000)).toNat, verificationData, wires⟩ = .ok bs :=
    ⟨_, bind_eq_ok.mpr ⟨_, toLittleEndianU16_eq _, bind_eq_ok.mpr ⟨vec, hvec, bind_eq_ok.mpr
      ⟨items, hitems, rfl⟩⟩⟩⟩
  obtain ⟨args, hargs, hsignature, hscheme, hs, hbytes, hmatches'⟩ :=
    serializeExecuteInstructionArgs_ok.decodes hbs
  refine ⟨bs, args, ⟨hargs, hsignature, ?_, ?_, hscheme⟩,
    SmallVec.ext (forall₂_unique hmatches' hmatches), ?_⟩
  · rw [← toNat_truncated entry]
    exact Int.ofNat.inj hs
  · rw [hbytes]
    exact hread
  · simp only [buildExecuteInstructions, hcompile, hv, ok_bind, truncateSlot_eq hslot, hbs,
      createExecuteInstructionsChallenge, hpreimage]
    simp [concatBytes, outerMetas, pure, Except.pure, ok_bind]

/-- What the program reads of the arguments of an execution in a session. -/
structure SessionedArguments (bs : Bytes) (scheme : ExternalSignature.SignerExecutionScheme)
    (args : ExecutableInstructionSessionedArgs) : Prop where
  decoded : tryFromSlice ExecutableInstructionSessionedArgs bs = .ok args
  signatureScheme : args.signatureScheme = ExternalSignature.SignatureScheme.p256Webauthn.toU8
  scheme : args.signerExecutionScheme = scheme.toU8

theorem CompiledTo.buildExecuteInstructionsSessioned_eq
    (h : CompiledTo web3 payer instructions message vs) (passkeyAccount : Pubkey)
    (scheme : Option SignerExecutionScheme) :
    ∃ bs args, SessionedArguments bs (scheme.getD .executionAccount) args ∧
      args.instructions = vs ∧
      buildExecuteInstructionsSessioned web3 ⟨passkeyAccount, payer, instructions, scheme⟩ =
        .ok ⟨programId, ⟨passkeyAccount, true, false⟩ :: ⟨payer, false, true⟩ ::
          message.accountMetas, 3 :: bs⟩ := by
  obtain ⟨wires, items, hcompile, hmatches, hitems⟩ := h.compiled
  obtain ⟨bs, hbs⟩ : ∃ bs, serializeExecuteInstructionsSessionedArgs
      ⟨SignatureScheme.p256Webauthn.toU8, (scheme.getD .executionAccount).toU8, wires⟩ = .ok bs :=
    ⟨_, bind_eq_ok.mpr ⟨items, hitems, rfl⟩⟩
  obtain ⟨args, hargs, hsignature, hscheme, hmatches'⟩ :=
    serializeExecuteInstructionsSessionedArgs_ok.decodes hbs
  refine ⟨bs, args, ⟨hargs, hsignature, hscheme⟩,
    SmallVec.ext (forall₂_unique hmatches' hmatches), ?_⟩
  simp only [buildExecuteInstructionsSessioned, hcompile, ok_bind, hbs]
  simp [concatBytes, pure, Except.pure]

end

end Sdk

end ExternalSignature
