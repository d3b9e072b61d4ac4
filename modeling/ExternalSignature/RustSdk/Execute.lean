import ExternalSignature.Instructions.Execute
import ExternalSignature.Instructions.Sessioned
import ExternalSignature.RustSdk.Precompile
import ExternalSignature.Sdk.Web3

/-!
# The Rust builders that wrap instructions

`execute_instructions` and `execute_instructions_sessioned` of the Rust SDK. Both have the
instructions compiled into a legacy message, which is a parameter (`MessageCompiler`), and take over
its keys as account metas and its instructions as indices into them. What the SDK relies on is the
documented form of such a message (`Compiled`).
-/

namespace ExternalSignature.RustSdk

open Lib Lib.Borsh

/-! ## Messages -/

structure MessageHeader where
  numRequiredSignatures : UInt8
  numReadonlySignedAccounts : UInt8
  numReadonlyUnsignedAccounts : UInt8

structure MessageInstruction where
  programIdIndex : UInt8
  accounts : List UInt8
  data : Bytes

/-- A legacy message. -/
structure Message where
  header : MessageHeader
  accountKeys : List Pubkey
  instructions : List MessageInstruction

/-- `legacy::Message::new(instructions, Some(payer))`, which panics on too many keys. -/
abbrev MessageCompiler := List Instruction → Pubkey → Option Message

/-- The instruction as the TypeScript library names its parts. -/
def transactionInstruction (instruction : Instruction) : Sdk.TransactionInstruction :=
  ⟨instruction.programId, instruction.accounts, instruction.data⟩

/-- The message as the TypeScript library names its parts. -/
def Message.toLegacy (message : Message) : Sdk.LegacyMessage where
  header := ⟨message.header.numRequiredSignatures.toNat,
    message.header.numReadonlySignedAccounts.toNat,
    message.header.numReadonlyUnsignedAccounts.toNat⟩
  accountKeys := message.accountKeys
  instructions := message.instructions.map fun instruction =>
    ⟨instruction.programIdIndex.toNat, instruction.accounts.map (·.toNat), .raw instruction.data⟩

/-- The compiled instruction names its program and its accounts by their indices. -/
structure Indexes (keys : List Pubkey) (instruction : Instruction) (compiled : MessageInstruction) :
    Prop where
  programId : keys[compiled.programIdIndex.toNat]? = some instruction.programId
  accounts : compiled.accounts.map (keys[·.toNat]?) =
    (instruction.accounts.map (·.pubkey)).map some
  data : compiled.data = instruction.data

/-- What the compiler makes of its arguments. -/
structure Compiled (instructions : List Instruction) (payer : Pubkey) (message : Message) :
    Prop where
  layout : Sdk.Compiled payer (instructions.map transactionInstruction) message.toLegacy
  instructions : List.Forall₂ (Indexes message.accountKeys) instructions message.instructions

def MessageCompiler.Lawful (compile : MessageCompiler) : Prop := ∀ {instructions payer message},
  compile instructions payer = some message → Compiled instructions payer message

/-! ## Builders -/

/-- How a builder ends without an instruction. -/
inductive SdkFault where
  | err (error : SdkError)
  | panic
  deriving DecidableEq, Repr

/-- `a - b`, with overflow checks. -/
def checkedSub (a b : Nat) : Except SdkFault Nat := do
  ensure (b ≤ a) .panic
  return a - b

structure CompiledExecutionPayload where
  accountMetas : List AccountMeta
  instructions : SmallVec UInt8 CompiledInstruction

/-- The part of the credential that the builders read. -/
structure WebAuthnData where
  publicKey : ByteArr 33
  clientDataJsonReconstructionParams : ClientDataJsonReconstructionParams

variable (compile : MessageCompiler)

def normalize (instruction : MessageInstruction) : Except SdkFault CompiledInstruction := do
  let accountsIndices ← mapErr (.err (.serializationError "Too many instruction accounts"))
    (SmallVec.tryFrom instruction.accounts)
  let data ← mapErr (.err (.serializationError "Instruction data too large"))
    (SmallVec.tryFrom instruction.data)
  return { programIdIndex := instruction.programIdIndex, accountsIndices, data }

def compileInstructionsForExecution (instructions : List Instruction) (payer : Pubkey) :
    Except SdkFault CompiledExecutionPayload := do
  let message ← okOr .panic (compile instructions payer)
  let header := message.header
  let accountKeys := message.accountKeys
  let writableSignedEnd ← checkedSub header.numRequiredSignatures.toNat
    header.numReadonlySignedAccounts.toNat
  let signedEnd := header.numRequiredSignatures.toNat
  let writableUnsignedEnd ← checkedSub accountKeys.length header.numReadonlyUnsignedAccounts.toNat
  let accountMetas : List AccountMeta := accountKeys.mapIdx fun index key =>
    let isSigner := decide (index < signedEnd)
    let isWritable := if isSigner then decide (index < writableSignedEnd)
      else decide (index < writableUnsignedEnd)
    { pubkey := key, isWritable, isSigner }
  let normalized ← message.instructions.mapM normalize
  let compiled ← mapErr (.err (.serializationError "Too many instructions"))
    (SmallVec.tryFrom normalized)
  return { accountMetas, instructions := compiled }

/-- `?` on the result of a serialization. -/
def ofIo {α : Type} (result : Except IoError α) : Except SdkFault α :=
  result.mapError fun error => .err (.borshError error)

def executeInstructions (webauthnData : WebAuthnData) (passkeyAccount nonceSigner : Pubkey)
    (slotHash : TruncatedSlot) (instructions : List Instruction)
    (signerExecutionScheme : SignerExecutionScheme) : Except SdkFault Instruction := do
  let extraVerificationData : P256RawVerificationData :=
    ⟨webauthnData.publicKey, webauthnData.clientDataJsonReconstructionParams⟩
  let compiled ← compileInstructionsForExecution compile instructions nonceSigner
  let extraVerificationData ← ofIo (serialize extraVerificationData)
  let extraVerificationData ← mapErr (.err (.serializationError "Verification data too large"))
    (SmallVec.tryFrom extraVerificationData)
  let externalSigIxData ← ofIo (serialize ({
    signatureScheme := 0
    signerExecutionScheme := signerExecutionScheme.toU8
    slothash := slotHash
    extraVerificationData
    instructions := compiled.instructions } : ExecutableInstructionArgs))
  return {
    programId := ID
    data := 1 :: externalSigIxData
    accounts := [
      { pubkey := passkeyAccount, isWritable := true, isSigner := false },
      { pubkey := instructionsId, isWritable := false, isSigner := false },
      { pubkey := slotHashesId, isWritable := false, isSigner := false },
      { pubkey := nonceSigner, isWritable := true, isSigner := true }] ++ compiled.accountMetas }

def executeInstructionsSessioned (passkeyAccount sessionSigner : Pubkey)
    (instructions : List Instruction) (signerExecutionScheme : SignerExecutionScheme) :
    Except SdkFault Instruction := do
  let compiled ← compileInstructionsForExecution compile instructions sessionSigner
  let args ← ofIo (serialize ({
    signatureScheme := 0
    signerExecutionScheme := signerExecutionScheme.toU8
    instructions := compiled.instructions } : ExecutableInstructionSessionedArgs))
  return {
    programId := ID
    data := 3 :: args
    accounts := [
      { pubkey := passkeyAccount, isWritable := true, isSigner := false },
      { pubkey := sessionSigner, isWritable := false, isSigner := true }] ++
      compiled.accountMetas }

end ExternalSignature.RustSdk
