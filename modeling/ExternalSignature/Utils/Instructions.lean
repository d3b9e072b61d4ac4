import ExternalSignature.Utils.SmallVec
import ExternalSignature.State.Schemes

/-!
# Compiled instructions

An instruction to execute names its accounts by index into the instruction execution accounts.
-/

namespace ExternalSignature

open Lib Lib.Borsh

structure CompiledInstruction where
  programIdIndex : UInt8
  accountsIndices : SmallVec UInt8 UInt8
  data : SmallVec UInt16 UInt8
  deriving DecidableEq

namespace CompiledInstruction

def fields : CompiledInstruction ≃ UInt8 × SmallVec UInt8 UInt8 × SmallVec UInt16 UInt8 where
  toFun i := (i.programIdIndex, i.accountsIndices, i.data)
  invFun p := ⟨p.1, p.2.1, p.2.2⟩
  left_inv _ := rfl
  right_inv _ := rfl

instance : BorshSerialize CompiledInstruction := serializeAs fields
instance : BorshDeserialize CompiledInstruction := deserializeAs fields
instance : LawfulBorsh CompiledInstruction := lawfulAs fields

end CompiledInstruction

/-- The account metas that the cross-program invocations index into. -/
def createInstructionExecutionAccountMetas (instructionExecutionAccounts : List AccountInfo)
    (executionAccount : ExecutionAccount) (signerExecutionScheme : SignerExecutionScheme) :
    List AccountMeta :=
  instructionExecutionAccounts.map fun account =>
    if account.key = executionAccount.key then
      match signerExecutionScheme with
      -- the external account signs without being writable
      | .externalAccount => ⟨account.key, false, true⟩
      | .executionAccount => ⟨account.key, account.isWritable, true⟩
    else ⟨account.key, account.isWritable, account.isSigner⟩

end ExternalSignature
