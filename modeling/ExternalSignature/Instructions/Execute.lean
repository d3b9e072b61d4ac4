import ExternalSignature.Instructions.Invoke
import ExternalSignature.Utils.Nonce

/-!
# Execute instructions

`process_execute_instructions`: the passkey has signed a challenge over the accounts and the
instructions to execute.
-/

namespace ExternalSignature

open Lib Lib.Borsh

structure ExecutableInstructionArgs where
  signatureScheme : UInt8
  signerExecutionScheme : UInt8
  slothash : TruncatedSlot
  extraVerificationData : SmallVec UInt8 UInt8
  instructions : SmallVec UInt8 CompiledInstruction
  deriving DecidableEq

namespace ExecutableInstructionArgs

def fields : ExecutableInstructionArgs ≃
    UInt8 × UInt8 × TruncatedSlot × SmallVec UInt8 UInt8 × SmallVec UInt8 CompiledInstruction where
  toFun a := (a.signatureScheme, a.signerExecutionScheme, a.slothash, a.extraVerificationData,
    a.instructions)
  invFun := fun (s, e, h, v, i) => ⟨s, e, h, v, i⟩
  left_inv _ := rfl
  right_inv _ := rfl

instance : BorshSerialize ExecutableInstructionArgs := serializeAs fields
instance : BorshDeserialize ExecutableInstructionArgs := deserializeAs fields
instance : LawfulBorsh ExecutableInstructionArgs := lawfulAs fields

end ExecutableInstructionArgs

structure ExecuteInstructionsContext where
  nonceData : NonceData
  executionAccount : ExecutionAccount
  verificationData : P256ParsedVerificationData
  externallySignedAccount : ExternallySignedAccount
  instructionsSysvar : Instructions
  instructionExecutionAccounts : List AccountInfo
  instructions : List CompiledInstruction
  instructionExecutionAccountMetas : List AccountMeta

namespace ExecuteInstructionsContext

variable (host : Host) (rt : Runtime)

def load (accountInfos : List AccountInfo) (executionArgs : ExecutableInstructionArgs) :
    Outcome ExecuteInstructionsContext :=
  match accountInfos with
  | externalAccount :: instructionsSysvar :: slothashesSysvar :: nonceSigner ::
      instructionExecutionAccounts => do
    let args ← mapErr (.custom .invalidExtraVerificationDataArgs)
      (tryFromSlice P256RawVerificationData executionArgs.extraVerificationData.toList)
    let parsedVerificationData ← P256ParsedVerificationData.tryFrom args
    let externallySignedAccount ← ExternallySignedAccount.load externalAccount
    let _ ← externallySignedAccount.checkAccount host parsedVerificationData
    let instructionsSysvar ← rt.instructionsSysvar instructionsSysvar
    let slothashesSysvar ← rt.slotHashesSysvar slothashesSysvar
    let nonceData ← validateNonce rt slothashesSysvar executionArgs.slothash nonceSigner
    let signerExecutionScheme ← okOr (.custom .invalidSignerExecutionScheme)
      (SignerExecutionScheme.tryFromPrimitive executionArgs.signerExecutionScheme)
    let executionAccount ← externallySignedAccount.getExecutionAccount host signerExecutionScheme
    return {
      nonceData, executionAccount, externallySignedAccount, instructionsSysvar
      verificationData := parsedVerificationData
      instructionExecutionAccounts
      instructions := executionArgs.instructions.toList
      instructionExecutionAccountMetas := createInstructionExecutionAccountMetas
        instructionExecutionAccounts executionAccount signerExecutionScheme }
  | _ => .error (.err .notEnoughAccountKeys)

end ExecuteInstructionsContext

/-- An account as it is signed: key, signer flag, writable flag. -/
def accountPayload (account : AccountInfo) : Bytes :=
  account.key.val ++ [account.isSigner.toUInt8, account.isWritable.toUInt8]

/-- What `get_instruction_payload_hash` hashes. -/
def instructionPayload (nonceData : NonceData) (accounts : List AccountInfo)
    (instructions : List CompiledInstruction) : Outcome Bytes := do
  -- `serialize(..).unwrap()` of each instruction
  let serialized ← mapErr .panic (serializeItems instructions)
  return nonceData.slothash.val ++ nonceData.signerKey.val ++ ascii "execute_instructions" ++
    (.ofNat accounts.length :: (accounts.flatMap accountPayload ++
      (.ofNat instructions.length :: serialized)))

def ExecuteInstructionsContext.getInstructionPayloadHash (host : Host)
    (self : ExecuteInstructionsContext) : Outcome (ByteArr 32) := do
  return host.sha256
    (← instructionPayload self.nonceData self.instructionExecutionAccounts self.instructions)

variable (host : Host) (rt : Runtime)

/-- The part of the function before the loop. -/
def verifyExecuteInstructions (accounts : List AccountInfo) (data : Bytes) :
    Outcome (ExecuteInstructionsContext × ExternallySignedAccount) := do
  let args ← mapErr (.custom .invalidExecutionArgs) (tryFromSlice ExecutableInstructionArgs data)
  let .p256Webauthn ← okOr (.custom .invalidSignatureScheme)
    (SignatureScheme.tryFromPrimitive args.signatureScheme)
  let executionContext ← ExecuteInstructionsContext.load host rt accounts args
  let instructionExecutionHash ← executionContext.getInstructionPayloadHash host
  let externallySignedAccount ← executionContext.externallySignedAccount.verifyPayload host
    executionContext.instructionsSysvar executionContext.verificationData
    instructionExecutionHash.val
  return (executionContext, externallySignedAccount)

def processExecuteInstructions (accounts : List AccountInfo) (data : Bytes) : Processed :=
  match verifyExecuteInstructions host rt accounts data with
  | .error fault => .ofResult (.error fault)
  | .ok (executionContext, externallySignedAccount) =>
    .invoke rt executionContext.instructionExecutionAccounts
      executionContext.instructionExecutionAccountMetas executionContext.executionAccount
      executionContext.instructions externallySignedAccount

end ExternalSignature
