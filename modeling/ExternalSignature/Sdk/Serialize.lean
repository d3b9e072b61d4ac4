import ExternalSignature.Entrypoint
import ExternalSignature.Sdk.Web3

/-!
# The TypeScript serializers

The SDK writes the arguments of the program's instructions by hand. Its inputs are JavaScript
values, so numbers are checked before they are written; byte-sized fields are `UInt8` here. A
serializer that throws returns the message of its `ExternalSignatureSdkError`.
-/

namespace ExternalSignature.Sdk

open Lib

/-! ## Bytes -/

def concatBytes (parts : List Bytes) : Bytes := parts.flatten

def expectLength (value : Bytes) (length : Nat) (label : String) : Except String Bytes := do
  ensure (value.length = length) (label ++ " must be exactly " ++ toString length ++ " bytes")
  return value

def expectMaxLength (value : Bytes) (length : Nat) (label : String) : Except String Bytes := do
  ensure (value.length ≤ length) (label ++ " must be at most " ++ toString length ++ " bytes")
  return value

def toLittleEndianU16 (value : Int) : Except String Bytes := do
  ensure (0 ≤ value ∧ value ≤ 0xffff) "u16 out of range"
  return leBytes 2 value.toNat

/-- `bigint | number`, where the number is an integer. -/
inductive Numeric where
  | bigint (value : Int)
  | number (value : Int)
  deriving DecidableEq

namespace Numeric

def value : Numeric → Int
  | bigint value | number value => value

/-- `Number.isSafeInteger` of a number. -/
def isSafe : Numeric → Prop
  | bigint _ => True
  | number value => -(2 ^ 53) < value ∧ value < 2 ^ 53

instance : DecidablePred isSafe
  | bigint _ => inferInstanceAs (Decidable True)
  | number _ => inferInstanceAs (Decidable (_ ∧ _))

end Numeric

def toLittleEndianU64 (value : Numeric) : Except String Bytes := do
  ensure value.isSafe "u64 input number must be a safe integer"
  ensure (0 ≤ value.value ∧ value.value ≤ 0xffffffffffffffff) "u64 out of range"
  return leBytes 8 value.value.toNat

def truncateSlot (slot : Numeric) : Except String Int := do
  ensure slot.isSafe "slot must be a safe integer"
  ensure (0 ≤ slot.value) "slot must be non-negative"
  return slot.value % 1000

/-! ## Parts -/

structure ClientDataJsonReconstructionParams where
  typeAndFlags : UInt8
  port : Option Int

structure SessionKey where
  key : Bytes
  expiration : Numeric

structure WebAuthnData where
  publicKey : Bytes
  authData : Bytes
  clientDataJson : Bytes
  clientDataJsonReconstructionParams : ClientDataJsonReconstructionParams

structure CompiledInstructionWire where
  programIdIndex : UInt8
  accountsIndices : Bytes
  data : Bytes

def serializeOptionU16 : Option Int → Except String Bytes
  | none => return [0]
  | some value => return concatBytes [[1], ← toLittleEndianU16 value]

def serializeClientDataJsonReconstructionParams (params : ClientDataJsonReconstructionParams) :
    Except String Bytes := do
  return concatBytes [[params.typeAndFlags], ← serializeOptionU16 params.port]

def serializeSmallVecU8 (bytes : Bytes) (label : String) : Except String Bytes := do
  let normalized ← expectMaxLength bytes 0xff label
  return concatBytes [[.ofNat normalized.length], normalized]

def serializeSmallVecU16 (bytes : Bytes) (label : String) : Except String Bytes := do
  let normalized ← expectMaxLength bytes 0xffff label
  return concatBytes [← toLittleEndianU16 normalized.length, normalized]

def serializeSessionKey (sessionKey : SessionKey) : Except String Bytes := do
  return concatBytes [← expectLength sessionKey.key 32 "session key",
    ← toLittleEndianU64 sessionKey.expiration]

def serializeP256RawVerificationData (webauthnData : WebAuthnData) : Except String Bytes := do
  return concatBytes [← expectLength webauthnData.publicKey 33 "compressed public key",
    ← serializeClientDataJsonReconstructionParams webauthnData.clientDataJsonReconstructionParams]

def serializeP256RawInitializationData (rpId : Bytes) (webauthnData : WebAuthnData) :
    Except String Bytes := do
  return concatBytes [← serializeSmallVecU8 (← expectMaxLength rpId 0xff "rp id") "rp id",
    ← expectLength webauthnData.publicKey 33 "compressed public key",
    ← serializeClientDataJsonReconstructionParams webauthnData.clientDataJsonReconstructionParams]

def serializeCompiledInstruction (instruction : CompiledInstructionWire) : Except String Bytes := do
  return concatBytes [[instruction.programIdIndex],
    ← serializeSmallVecU8
      (← expectMaxLength instruction.accountsIndices 0xff "compiled instruction accounts")
      "compiled instruction accounts",
    ← serializeSmallVecU16
      (← expectMaxLength instruction.data 0xffff "compiled instruction data")
      "compiled instruction data"]

def serializeCompiledInstructions (instructions : List CompiledInstructionWire) :
    Except String Bytes := do
  ensure (instructions.length ≤ 0xff) "too many compiled instructions"
  return concatBytes ([.ofNat instructions.length] ::
    (← instructions.mapM serializeCompiledInstruction))

/-! ## Compiled instructions -/

structure CompiledExecutionPayload where
  accountMetas : List AccountMeta
  compiledInstructions : List CompiledInstructionWire

/-- The account metas, by the place of each key in the message. -/
def LegacyMessage.accountMetas (message : LegacyMessage) : List AccountMeta :=
  let header := message.header
  -- below zero where JavaScript subtracts more: no index is less than either
  let writableSignedEnd := header.numRequiredSignatures - header.numReadonlySignedAccounts
  let signedEnd := header.numRequiredSignatures
  let writableUnsignedEnd := message.accountKeys.length - header.numReadonlyUnsignedAccounts
  message.accountKeys.mapIdx fun index pubkey =>
    let isSigner : Bool := index < signedEnd
    let isWritable : Bool :=
      if isSigner then index < writableSignedEnd else index < writableUnsignedEnd
    { pubkey, isSigner, isWritable }

def MessageData.toBytes (web3 : Web3) : MessageData → Except String Bytes
  | text base58 => web3.base58Decode base58
  | raw bytes => return bytes

def compileInstructionsForExecution (web3 : Web3) (instructions : List TransactionInstruction)
    (payerKey : Pubkey) : Except String CompiledExecutionPayload := do
  let message ← web3.compileToLegacyMessage payerKey instructions
  let compiledInstructions ← message.instructions.mapM fun instruction => do
    return {
      programIdIndex := .ofNat instruction.programIdIndex
      accountsIndices := instruction.accounts.map .ofNat
      data := ← instruction.data.toBytes web3 : CompiledInstructionWire }
  return { accountMetas := message.accountMetas, compiledInstructions }

/-! ## Arguments -/

structure InitializeAccountArgsInput where
  truncatedSlot : Int
  signatureScheme : UInt8
  initializationData : Bytes
  sessionKey : Option SessionKey

structure ExecuteInstructionArgsInput where
  signatureScheme : UInt8
  signerExecutionScheme : UInt8
  truncatedSlot : Int
  extraVerificationData : Bytes
  compiledInstructions : List CompiledInstructionWire

structure RefreshSessionKeyArgsInput where
  truncatedSlot : Int
  signatureScheme : UInt8
  verificationData : Bytes
  sessionKey : SessionKey

structure ExecuteInstructionsSessionedArgsInput where
  signatureScheme : UInt8
  signerExecutionScheme : UInt8
  compiledInstructions : List CompiledInstructionWire

def serializeInitializeAccountArgs (input : InitializeAccountArgsInput) : Except String Bytes := do
  return concatBytes [← toLittleEndianU16 input.truncatedSlot, [input.signatureScheme],
    ← serializeSmallVecU8 input.initializationData "initialization data",
    ← match input.sessionKey with
      | none => pure [0]
      | some sessionKey => (concatBytes [[1], ·]) <$> serializeSessionKey sessionKey]

def serializeExecuteInstructionArgs (input : ExecuteInstructionArgsInput) : Except String Bytes := do
  return concatBytes [[input.signatureScheme], [input.signerExecutionScheme],
    ← toLittleEndianU16 input.truncatedSlot,
    ← serializeSmallVecU8 input.extraVerificationData "verification data",
    ← serializeCompiledInstructions input.compiledInstructions]

def serializeRefreshSessionKeyArgs (input : RefreshSessionKeyArgsInput) : Except String Bytes := do
  return concatBytes [← toLittleEndianU16 input.truncatedSlot, [input.signatureScheme],
    ← serializeSmallVecU8 input.verificationData "verification data",
    ← serializeSessionKey input.sessionKey]

def serializeExecuteInstructionsSessionedArgs (input : ExecuteInstructionsSessionedArgsInput) :
    Except String Bytes := do
  return concatBytes [[input.signatureScheme], [input.signerExecutionScheme],
    ← serializeCompiledInstructions input.compiledInstructions]

def serializeAccountMetaList (accountMetas : List AccountMeta) : Except String Bytes := do
  ensure (accountMetas.length ≤ 0xff) "too many execution accounts"
  return concatBytes ([.ofNat accountMetas.length] :: accountMetas.map fun accountMeta =>
    concatBytes [accountMeta.pubkey.val, [if accountMeta.isSigner then 1 else 0],
      [if accountMeta.isWritable then 1 else 0]])

end ExternalSignature.Sdk
