import ExternalSignature.Lib.Base64Url
import ExternalSignature.Sdk.WebAuthn

/-!
# The TypeScript builders

One builder for each instruction of the program, which the SDK calls a wrapper, and for the three
that a passkey signs, the challenge that it has to sign. The search for a program address is a
parameter (`FindProgramAddress`).
-/

namespace ExternalSignature.Sdk

open Lib

/-! ## Constants -/

def programId : Pubkey := pubkey "ExtSgUPtP3JyKUysFw2S5fpL5fWfUPzGUQLd2bTwftXN"
def instructionsSysvarId : Pubkey := pubkey "Sysvar1nstructions1111111111111111111111111"
def slotHashesSysvarId : Pubkey := pubkey "SysvarS1otHashes111111111111111111111111111"
def systemProgramId : Pubkey := pubkey "11111111111111111111111111111111"
def secp256r1ProgramId : Pubkey := pubkey "Secp256r1SigVerify1111111111111111111111111"

variable (web3 : Web3) (sha256 : Bytes → ByteArr 32)

/-! ## Addresses -/

/-- `PublicKey.findProgramAddressSync`, which throws where there is no address. -/
abbrev FindProgramAddress := List Bytes → Pubkey → Except String (Pubkey × UInt8)

def derivePasskeyAccount (find : FindProgramAddress) (publicKey : Bytes) :
    Except String (Pubkey × UInt8) := do
  let publicKeyHash := sha256 (← expectLength publicKey 33 "compressed public key")
  find [ascii "passkey", publicKeyHash.val] programId

/-! ## Challenges -/

structure ChallengeResult where
  challenge : ByteArr 32
  challengeBase64Url : Bytes

/-- What `createInitializePasskeyChallenge` hashes. -/
def initializePasskeyPreimage (payer : Pubkey) (recentSlotHash : Bytes)
    (sessionKey : Option SessionKey) : Except String Bytes := do
  return concatBytes [← expectLength recentSlotHash 32 "recent slot hash", payer.val,
    ascii "initialize_passkey",
    ← match sessionKey with
      | none => pure []
      | some sessionKey => serializeSessionKey sessionKey]

def createInitializePasskeyChallenge (payer : Pubkey) (recentSlotHash : Bytes)
    (sessionKey : Option SessionKey) : Except String ChallengeResult := do
  let challenge := sha256 (← initializePasskeyPreimage payer recentSlotHash sessionKey)
  return { challenge, challengeBase64Url := Base64Url.encode challenge.val }

/-- What `createRefreshSessionKeyChallenge` hashes. -/
def refreshSessionKeyPreimage (nonceSigner : Pubkey) (recentSlotHash : Bytes)
    (sessionKey : SessionKey) : Except String Bytes := do
  return concatBytes [← expectLength recentSlotHash 32 "recent slot hash", nonceSigner.val,
    ascii "refresh_session_key", ← serializeSessionKey sessionKey]

def createRefreshSessionKeyChallenge (nonceSigner : Pubkey) (recentSlotHash : Bytes)
    (sessionKey : SessionKey) : Except String ChallengeResult := do
  let challenge := sha256 (← refreshSessionKeyPreimage nonceSigner recentSlotHash sessionKey)
  return { challenge, challengeBase64Url := Base64Url.encode challenge.val }

/-- What `createExecuteInstructionsChallenge` hashes. -/
def executeInstructionsPreimage (nonceSigner : Pubkey) (recentSlotHash : Bytes)
    (instructions : List TransactionInstruction) : Except String Bytes := do
  let compiled ← compileInstructionsForExecution web3 instructions nonceSigner
  return concatBytes [← expectLength recentSlotHash 32 "recent slot hash", nonceSigner.val,
    ascii "execute_instructions", ← serializeAccountMetaList compiled.accountMetas,
    ← serializeCompiledInstructions compiled.compiledInstructions]

def createExecuteInstructionsChallenge (nonceSigner : Pubkey) (recentSlotHash : Bytes)
    (instructions : List TransactionInstruction) : Except String ChallengeResult := do
  let challenge := sha256
    (← executeInstructionsPreimage web3 nonceSigner recentSlotHash instructions)
  return { challenge, challengeBase64Url := Base64Url.encode challenge.val }

def truncateSlotForValidator (slot : Numeric) : Except String Int := truncateSlot slot

/-! ## Instructions -/

/-- The precompile instruction, with the data of a signature. -/
def secp256r1Instruction (data : Bytes) : TransactionInstruction := ⟨secp256r1ProgramId, [], data⟩

structure Secp256r1InstructionInput where
  signature : Bytes
  message : Bytes
  publicKey : Bytes

/-- `[n & 0xff, (n >> 8) & 0xff]`. -/
def littleEndian (n : Nat) : Bytes := [.ofNat (n &&& 0xff), .ofNat (n >>> 8 &&& 0xff)]

def createSecp256r1Instruction (input : Secp256r1InstructionInput) :
    Except String TransactionInstruction := do
  let signature ← parseDerSignatureToCompact input.signature
  let message ← expectMaxLength input.message 0xffff "precompile message"
  let publicKey ← expectLength input.publicKey 33 "compressed public key"
  let dataStart := 2 + 14
  let publicKeyOffset := dataStart
  let signatureOffset := publicKeyOffset + publicKey.length
  let messageOffset := signatureOffset + signature.length
  return secp256r1Instruction (concatBytes [[1], [0], littleEndian signatureOffset, [0xff, 0xff],
    littleEndian publicKeyOffset, [0xff, 0xff], littleEndian messageOffset,
    littleEndian message.length, [0xff, 0xff], publicKey, signature, message])

def buildPrecompileMessage (clientDataJson authData : Bytes) : Bytes :=
  concatBytes [authData, (sha256 clientDataJson).val]

structure ExecuteInstructionsInput where
  webauthnData : WebAuthnData
  passkeyAccount : Pubkey
  nonceSigner : Pubkey
  truncatedSlot : Numeric
  recentSlotHash : Bytes
  instructions : List TransactionInstruction
  signerExecutionScheme : Option SignerExecutionScheme

structure WrappedInstructionResult where
  instruction : TransactionInstruction
  challenge : ByteArr 32
  challengeBase64Url : Bytes
  precompileMessage : Bytes

def buildExecuteInstructions (input : ExecuteInstructionsInput) :
    Except String WrappedInstructionResult := do
  let compiled ← compileInstructionsForExecution web3 input.instructions input.nonceSigner
  let verificationData ← serializeP256RawVerificationData input.webauthnData
  let args ← serializeExecuteInstructionArgs {
    signatureScheme := SignatureScheme.p256Webauthn.toU8
    signerExecutionScheme := (input.signerExecutionScheme.getD .executionAccount).toU8
    truncatedSlot := ← truncateSlot input.truncatedSlot
    extraVerificationData := verificationData
    compiledInstructions := compiled.compiledInstructions }
  let instruction := {
    programId
    keys := [
      { pubkey := input.passkeyAccount, isSigner := false, isWritable := true },
      { pubkey := instructionsSysvarId, isSigner := false, isWritable := false },
      { pubkey := slotHashesSysvarId, isSigner := false, isWritable := false },
      { pubkey := input.nonceSigner, isSigner := true, isWritable := true }] ++
      compiled.accountMetas
    data := concatBytes [[1], args] }
  let { challenge, challengeBase64Url } ← createExecuteInstructionsChallenge web3 sha256
    input.nonceSigner input.recentSlotHash input.instructions
  return {
    instruction, challenge, challengeBase64Url
    precompileMessage := buildPrecompileMessage sha256 input.webauthnData.clientDataJson
      input.webauthnData.authData }

structure InitializePasskeyAccountInput where
  webauthnData : WebAuthnData
  /-- `string | Uint8Array`; a string is its UTF-8 bytes. -/
  rpId : Bytes
  payer : Pubkey
  truncatedSlot : Numeric
  recentSlotHash : Bytes
  sessionKey : Option SessionKey

structure InitializePasskeyResult extends WrappedInstructionResult where
  passkeyAccount : Pubkey

def buildInitializePasskeyAccount (find : FindProgramAddress)
    (input : InitializePasskeyAccountInput) : Except String InitializePasskeyResult := do
  let (passkeyAccount, _) ← derivePasskeyAccount sha256 find input.webauthnData.publicKey
  let initializationData ← serializeP256RawInitializationData input.rpId input.webauthnData
  let args ← serializeInitializeAccountArgs {
    truncatedSlot := ← truncateSlot input.truncatedSlot
    signatureScheme := SignatureScheme.p256Webauthn.toU8
    initializationData
    sessionKey := input.sessionKey }
  let instruction := {
    programId
    keys := [
      { pubkey := passkeyAccount, isSigner := false, isWritable := true },
      { pubkey := input.payer, isSigner := true, isWritable := true },
      { pubkey := instructionsSysvarId, isSigner := false, isWritable := false },
      { pubkey := slotHashesSysvarId, isSigner := false, isWritable := false },
      { pubkey := systemProgramId, isSigner := false, isWritable := false }]
    data := concatBytes [[0], args] }
  let { challenge, challengeBase64Url } ← createInitializePasskeyChallenge sha256 input.payer
    input.recentSlotHash input.sessionKey
  return {
    passkeyAccount, instruction, challenge, challengeBase64Url
    precompileMessage := buildPrecompileMessage sha256 input.webauthnData.clientDataJson
      input.webauthnData.authData }

structure RefreshSessionKeyInput where
  webauthnData : WebAuthnData
  passkeyAccount : Pubkey
  nonceSigner : Pubkey
  truncatedSlot : Numeric
  recentSlotHash : Bytes
  sessionKey : SessionKey

def buildRefreshSessionKey (input : RefreshSessionKeyInput) :
    Except String WrappedInstructionResult := do
  let verificationData ← serializeP256RawVerificationData input.webauthnData
  let args ← serializeRefreshSessionKeyArgs {
    truncatedSlot := ← truncateSlot input.truncatedSlot
    signatureScheme := SignatureScheme.p256Webauthn.toU8
    verificationData
    sessionKey := input.sessionKey }
  let instruction := {
    programId
    keys := [
      { pubkey := input.passkeyAccount, isSigner := false, isWritable := true },
      { pubkey := instructionsSysvarId, isSigner := false, isWritable := false },
      { pubkey := slotHashesSysvarId, isSigner := false, isWritable := false },
      { pubkey := input.nonceSigner, isSigner := true, isWritable := true }]
    data := concatBytes [[2], args] }
  let { challenge, challengeBase64Url } ← createRefreshSessionKeyChallenge sha256
    input.nonceSigner input.recentSlotHash input.sessionKey
  return {
    instruction, challenge, challengeBase64Url
    precompileMessage := buildPrecompileMessage sha256 input.webauthnData.clientDataJson
      input.webauthnData.authData }

structure ExecuteInstructionsSessionedInput where
  passkeyAccount : Pubkey
  sessionSigner : Pubkey
  instructions : List TransactionInstruction
  signerExecutionScheme : Option SignerExecutionScheme

def buildExecuteInstructionsSessioned (input : ExecuteInstructionsSessionedInput) :
    Except String TransactionInstruction := do
  let compiled ← compileInstructionsForExecution web3 input.instructions input.sessionSigner
  let args ← serializeExecuteInstructionsSessionedArgs {
    signatureScheme := SignatureScheme.p256Webauthn.toU8
    signerExecutionScheme := (input.signerExecutionScheme.getD .executionAccount).toU8
    compiledInstructions := compiled.compiledInstructions }
  return {
    programId
    keys := [
      { pubkey := input.passkeyAccount, isSigner := false, isWritable := true },
      { pubkey := input.sessionSigner, isSigner := true, isWritable := false }] ++
      compiled.accountMetas
    data := concatBytes [[3], args] }

end ExternalSignature.Sdk
