import ExternalSignature.Instructions.Invoke

/-!
# Execute instructions with a session key

`process_execute_instructions_sessioned`: the session key signs the transaction. The account is
not derived again; its address and the key stored in it are trusted.
-/

namespace ExternalSignature

open Lib Lib.Borsh

structure ExecutableInstructionSessionedArgs where
  signatureScheme : UInt8
  signerExecutionScheme : UInt8
  instructions : SmallVec UInt8 CompiledInstruction
  deriving DecidableEq

namespace ExecutableInstructionSessionedArgs

def fields : ExecutableInstructionSessionedArgs ≃
    UInt8 × UInt8 × SmallVec UInt8 CompiledInstruction where
  toFun a := (a.signatureScheme, a.signerExecutionScheme, a.instructions)
  invFun := fun (s, e, i) => ⟨s, e, i⟩
  left_inv _ := rfl
  right_inv _ := rfl

instance : BorshSerialize ExecutableInstructionSessionedArgs := serializeAs fields
instance : BorshDeserialize ExecutableInstructionSessionedArgs := deserializeAs fields
instance : LawfulBorsh ExecutableInstructionSessionedArgs := lawfulAs fields

end ExecutableInstructionSessionedArgs

structure ExecuteInstructionsSessionedContext where
  externallySignedAccount : ExternallySignedAccount
  sessionSigner : AccountInfo
  instructionExecutionAccounts : List AccountInfo
  executionAccount : ExecutionAccount
  instructions : List CompiledInstruction
  instructionExecutionAccountMetas : List AccountMeta

variable (host : Host) (rt : Runtime)

def ExecuteInstructionsSessionedContext.load (accountInfos : List AccountInfo)
    (executionArgs : ExecutableInstructionSessionedArgs) :
    Outcome ExecuteInstructionsSessionedContext :=
  match accountInfos with
  | externallySignedAccount :: sessionSigner :: instructionExecutionAccounts => do
    let externallySignedAccount ← ExternallySignedAccount.load externallySignedAccount
    externallySignedAccount.isValidSessionKey rt sessionSigner
    let signerExecutionScheme ← okOr (.custom .invalidSignerExecutionScheme)
      (SignerExecutionScheme.tryFromPrimitive executionArgs.signerExecutionScheme)
    let executingAccount ← externallySignedAccount.getExecutionAccount host signerExecutionScheme
    return {
      externallySignedAccount, sessionSigner, instructionExecutionAccounts
      executionAccount := executingAccount
      instructions := executionArgs.instructions.toList
      instructionExecutionAccountMetas := createInstructionExecutionAccountMetas
        instructionExecutionAccounts executingAccount signerExecutionScheme }
  | _ => .error (.err .notEnoughAccountKeys)

/-- The part of the function before the loop. -/
def checkExecuteInstructionsSessioned (accounts : List AccountInfo) (data : Bytes) :
    Outcome ExecuteInstructionsSessionedContext := do
  let args ← mapErr (.custom .invalidExecutionArgs)
    (tryFromSlice ExecutableInstructionSessionedArgs data)
  let .p256Webauthn ← okOr (.custom .invalidSignatureScheme)
    (SignatureScheme.tryFromPrimitive args.signatureScheme)
  ExecuteInstructionsSessionedContext.load host rt accounts args

def processExecuteInstructionsSessioned (accounts : List AccountInfo) (data : Bytes) : Processed :=
  match checkExecuteInstructionsSessioned host rt accounts data with
  | .error fault => .ofResult (.error fault)
  | .ok executionContext =>
    .invoke rt executionContext.instructionExecutionAccounts
      executionContext.instructionExecutionAccountMetas executionContext.executionAccount
      executionContext.instructions executionContext.externallySignedAccount

end ExternalSignature
