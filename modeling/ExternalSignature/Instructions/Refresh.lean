import ExternalSignature.State.Account
import ExternalSignature.Utils.Nonce

/-!
# Refresh the session key

`process_refresh_session_key`: the passkey has signed a challenge over a new session key, whose
expiration is given as a duration.
-/

namespace ExternalSignature

open Lib Lib.Borsh

structure RefreshSessionKeyArgs where
  slothash : TruncatedSlot
  signatureScheme : UInt8
  verificationData : SmallVec UInt8 UInt8
  sessionKey : SessionKey
  deriving DecidableEq

namespace RefreshSessionKeyArgs

def fields : RefreshSessionKeyArgs ≃
    TruncatedSlot × UInt8 × SmallVec UInt8 UInt8 × SessionKey where
  toFun a := (a.slothash, a.signatureScheme, a.verificationData, a.sessionKey)
  invFun := fun (h, s, v, k) => ⟨h, s, v, k⟩
  left_inv _ := rfl
  right_inv _ := rfl

instance : BorshSerialize RefreshSessionKeyArgs := serializeAs fields
instance : BorshDeserialize RefreshSessionKeyArgs := deserializeAs fields
instance : LawfulBorsh RefreshSessionKeyArgs := lawfulAs fields

end RefreshSessionKeyArgs

structure RefreshSessionKeyContext where
  nonceData : NonceData
  verificationData : P256ParsedVerificationData
  externallySignedAccount : ExternallySignedAccount
  instructionsSysvar : Instructions
  sessionKey : SessionKey

variable (host : Host) (rt : Runtime)

def RefreshSessionKeyContext.load (accountInfos : List AccountInfo)
    (args : RefreshSessionKeyArgs) : Outcome RefreshSessionKeyContext :=
  match accountInfos with
  | externallySignedAccount :: instructionsSysvar :: slothashesSysvar :: nonceSigner :: _ => do
    let verificationArgs ← mapErr (.custom .invalidExtraVerificationDataArgs)
      (tryFromSlice P256RawVerificationData args.verificationData.toList)
    let verificationData ← mapErr (.custom .invalidExtraVerificationDataArgs)
      (P256ParsedVerificationData.tryFrom verificationArgs)
    let externallySignedAccount ← ExternallySignedAccount.load externallySignedAccount
    let _ ← externallySignedAccount.checkAccount host verificationData
    let instructionsSysvar ← rt.instructionsSysvar instructionsSysvar
    let slothashesSysvar ← rt.slotHashesSysvar slothashesSysvar
    let nonceData ← validateNonce rt slothashesSysvar args.slothash nonceSigner
    return {
      nonceData, verificationData, externallySignedAccount, instructionsSysvar
      sessionKey := args.sessionKey }
  | _ => .error (.err .notEnoughAccountKeys)

/-- What `get_refresh_session_key_payload_hash` hashes. -/
def refreshSessionKeyPayload (nonceData : NonceData) (sessionKey : SessionKey) : Outcome Bytes := do
  -- `serialize(..).unwrap()`
  let serialized ← mapErr .panic (serialize sessionKey)
  return nonceData.slothash.val ++ nonceData.signerKey.val ++ ascii "refresh_session_key" ++
    serialized

def RefreshSessionKeyContext.getRefreshSessionKeyPayloadHash (self : RefreshSessionKeyContext) :
    Outcome (ByteArr 32) := do
  return host.sha256 (← refreshSessionKeyPayload self.nonceData self.sessionKey)

/-- The expiration that a duration gives now: the `i64` sum wraps. -/
def sessionKeyExpiration (duration : UInt64) : UInt64 :=
  (rt.unixTimestamp + duration.toInt64).toUInt64

def processRefreshSessionKey (accounts : List AccountInfo) (data : Bytes) : Outcome AccountInfo := do
  let args ← mapErr (.err .invalidArgument) (tryFromSlice RefreshSessionKeyArgs data)
  let .p256Webauthn ← okOr (.custom .invalidSignatureScheme)
    (SignatureScheme.tryFromPrimitive args.signatureScheme)
  let context ← RefreshSessionKeyContext.load host rt accounts args
  let payloadHash ← context.getRefreshSessionKeyPayloadHash host
  let externallySignedAccount ← context.externallySignedAccount.verifyPayload host
    context.instructionsSysvar context.verificationData payloadHash.val
  let sessionKey := { args.sessionKey with
    expiration := sessionKeyExpiration rt args.sessionKey.expiration }
  let externallySignedAccount ← externallySignedAccount.updateSessionKey rt sessionKey
  return externallySignedAccount.finish

end ExternalSignature
