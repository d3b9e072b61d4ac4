import ExternalSignature.Instructions.Initialize
import ExternalSignature.Instructions.Refresh
import ExternalSignature.RustSdk.Execute

/-!
# The Rust builders of account instructions

`initialize_passkey_account`, with and without a session key, and `refresh_session_key` of the Rust
SDK. The search for a program address is a parameter, as in the TypeScript SDK.
-/

namespace ExternalSignature.RustSdk

open Lib Lib.Borsh

/-! ## Addresses -/

/-- `Pubkey::try_find_program_address`. -/
abbrev FindProgramAddress := List Bytes → Pubkey → Option (Pubkey × UInt8)

/-- How the builder of an initialization ends without an instruction: `SdkError` has two more
variants for it. -/
inductive InitializeFault where
  | sdk (fault : SdkFault)
  | pdaDerivationFailed
  | invalidRpId (message : String)
  deriving DecidableEq

variable (sha256 : Bytes → ByteArr 32) (find : FindProgramAddress)

def derivePasskeyAccount (publicKey : ByteArr 33) : Except InitializeFault (Pubkey × UInt8) :=
  okOr .pdaDerivationFailed (find [ascii "passkey", (sha256 publicKey.val).val] ID)

/-! ## Initialize -/

/-- The body of both initializations. -/
def initializeAccount (webauthnData : WebAuthnData) (rpId : Bytes) (payer : Pubkey)
    (slotHash : TruncatedSlot) (sessionKey : Option SessionKey) :
    Except InitializeFault (Pubkey × Instruction) := do
  let (accountToInitialize, _) ← derivePasskeyAccount sha256 find webauthnData.publicKey
  let p256WebauthnArgs : P256RawInitializationData :=
    { rpId := ← mapErr (.invalidRpId "RP ID too long") (SmallVec.tryFrom rpId)
      publicKey := webauthnData.publicKey
      clientDataJsonReconstructionParams := webauthnData.clientDataJsonReconstructionParams }
  let initializationData ← (ofIo (serialize p256WebauthnArgs)).mapError .sdk
  let initializationData ← mapErr
    (.sdk (.err (.serializationError "Initialization data too large")))
    (SmallVec.tryFrom initializationData)
  let instructionData ← (ofIo (serialize ({
    slothash := slotHash
    signatureScheme := SignatureScheme.p256Webauthn.toU8
    initializationData
    sessionKey } : InitializeAccountArgs))).mapError .sdk
  return (accountToInitialize, {
    programId := ID
    data := 0 :: instructionData
    accounts := [
      { pubkey := accountToInitialize, isWritable := true, isSigner := false },
      { pubkey := payer, isWritable := true, isSigner := true },
      { pubkey := instructionsId, isWritable := false, isSigner := false },
      { pubkey := slotHashesId, isWritable := false, isSigner := false },
      { pubkey := systemProgramId, isWritable := false, isSigner := false }] })

def initializePasskeyAccount (webauthnData : WebAuthnData) (rpId : Bytes) (payer : Pubkey)
    (slotHash : TruncatedSlot) : Except InitializeFault (Pubkey × Instruction) :=
  initializeAccount sha256 find webauthnData rpId payer slotHash none

def initializePasskeyAccountWithSession (webauthnData : WebAuthnData) (rpId : Bytes)
    (payer : Pubkey) (slotHash : TruncatedSlot) (sessionKey : SessionKey) :
    Except InitializeFault (Pubkey × Instruction) :=
  initializeAccount sha256 find webauthnData rpId payer slotHash (some sessionKey)

/-! ## Refresh -/

def refreshSessionKey (webauthnData : WebAuthnData) (passkeyAccount payer : Pubkey)
    (slotHash : TruncatedSlot) (sessionKey : SessionKey) : Except SdkFault Instruction := do
  let verificationData : P256RawVerificationData :=
    ⟨webauthnData.publicKey, webauthnData.clientDataJsonReconstructionParams⟩
  let verificationData ← ofIo (serialize verificationData)
  let verificationData ← mapErr (.err (.serializationError "Verification data too large"))
    (SmallVec.tryFrom verificationData)
  let externalSigIxData ← ofIo (serialize ({
    signatureScheme := 0
    verificationData
    sessionKey
    slothash := slotHash } : RefreshSessionKeyArgs))
  return {
    programId := ID
    data := 2 :: externalSigIxData
    accounts := [
      { pubkey := passkeyAccount, isWritable := true, isSigner := false },
      { pubkey := instructionsId, isWritable := false, isSigner := false },
      { pubkey := slotHashesId, isWritable := false, isSigner := false },
      { pubkey := payer, isWritable := true, isSigner := true }] }

end ExternalSignature.RustSdk
