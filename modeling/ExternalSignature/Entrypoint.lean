import ExternalSignature.Instructions.Execute
import ExternalSignature.Instructions.Initialize
import ExternalSignature.Instructions.Refresh
import ExternalSignature.Instructions.Sessioned

/-!
# The entrypoint
-/

namespace ExternalSignature

open Lib

/-- `MAX_TX_ACCOUNTS`: further accounts are dropped when the input is parsed. -/
def maxTxAccounts : Nat := 254

variable (host : Host) (rt : Runtime)

def processInstruction (accounts : List AccountInfo) (instructionData : Bytes) : Processed :=
  let accounts := accounts.take maxTxAccounts
  match instructionData with
  | [] => .ofResult (.error (.err .invalidInstructionData))
  | discriminator :: data =>
    if discriminator = 0 then processInitializeExternalAccount host rt accounts data
    else if discriminator = 1 then processExecuteInstructions host rt accounts data
    else if discriminator = 2 then .ofResult (processRefreshSessionKey host rt accounts data)
    else if discriminator = 3 then processExecuteInstructionsSessioned host rt accounts data
    else .ofResult (.error (.err .invalidInstructionData))

end ExternalSignature
