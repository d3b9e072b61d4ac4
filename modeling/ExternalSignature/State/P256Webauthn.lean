import ExternalSignature.State.Schemes
import ExternalSignature.Utils.Precompiles
import ExternalSignature.Utils.SmallVec
import ExternalSignature.Utils.WebAuthn

/-!
# P-256 WebAuthn accounts

The data of an external account, the arguments of its initialization and verification, and the
operations on it (`impl ExternallySignedAccountData for P256WebauthnAccountData`, the only
implementation of the trait). An operation that updates the data returns the new data.
-/

namespace ExternalSignature

open Lib Lib.Borsh

/-! ## Layout -/

structure AccountHeader where
  version : UInt8
  scheme : UInt8
  reserved : ByteArr 2
  deriving DecidableEq

structure RpIdInformation where
  rpIdLen : UInt8
  rpId : ByteArr 32
  rpIdHash : ByteArr 32
  deriving DecidableEq

structure CompressedP256PublicKey where
  x : ByteArr 32
  yParity : UInt8
  deriving DecidableEq

/-- The first bytes of an account; the padding aligns the session key. -/
structure P256WebauthnAccountData where
  header : AccountHeader
  rpIdInfo : RpIdInformation
  publicKey : CompressedP256PublicKey
  padding : ByteArr 2
  sessionKey : SessionKey
  counter : UInt64
  deriving DecidableEq

namespace AccountHeader

def fields : AccountHeader ≃ UInt8 × UInt8 × ByteArr 2 where
  toFun h := (h.version, h.scheme, h.reserved)
  invFun := fun (v, s, r) => ⟨v, s, r⟩
  left_inv _ := rfl
  right_inv _ := rfl

instance : Pod AccountHeader := .ofEquiv fields

end AccountHeader

namespace RpIdInformation

def fields : RpIdInformation ≃ UInt8 × ByteArr 32 × ByteArr 32 where
  toFun i := (i.rpIdLen, i.rpId, i.rpIdHash)
  invFun := fun (l, i, h) => ⟨l, i, h⟩
  left_inv _ := rfl
  right_inv _ := rfl

instance : Pod RpIdInformation := .ofEquiv fields

/-- Copying a longer id into the 32 bytes panics. -/
def new (rpId : Bytes) (rpIdHash : ByteArr 32) : Outcome RpIdInformation :=
  if h : rpId.length ≤ 32 then
    .ok ⟨.ofNat rpId.length, ⟨rpId ++ List.replicate (32 - rpId.length) 0, by simp; omega⟩, rpIdHash⟩
  else .error .panic

/-- `&rp_id[..rp_id_len]`. -/
def rpIdSlice (info : RpIdInformation) : Outcome Bytes := slice info.rpId.val 0 info.rpIdLen.toNat

end RpIdInformation

namespace CompressedP256PublicKey

def fields : CompressedP256PublicKey ≃ ByteArr 32 × UInt8 where
  toFun k := (k.x, k.yParity)
  invFun := fun (x, y) => ⟨x, y⟩
  left_inv _ := rfl
  right_inv _ := rfl

instance : Pod CompressedP256PublicKey := .ofEquiv fields

def new (publicKey : ByteArr 33) : CompressedP256PublicKey :=
  ⟨⟨publicKey.val.tail, by simp [publicKey.property]⟩, publicKey.val.headD 0⟩

def toBytes (key : CompressedP256PublicKey) : ByteArr 33 :=
  ⟨key.yParity :: key.x.val, by simp [key.x.property]⟩

theorem toBytes_inj {k l : CompressedP256PublicKey} (h : k.toBytes = l.toBytes) : k = l := by
  obtain ⟨⟨x, hx⟩, y⟩ := k
  obtain ⟨⟨x', hx'⟩, y'⟩ := l
  simp only [toBytes, Subtype.mk.injEq, List.cons.injEq] at h
  obtain ⟨rfl, rfl⟩ := h
  rfl

end CompressedP256PublicKey

namespace P256WebauthnAccountData

def fields : P256WebauthnAccountData ≃
    AccountHeader × RpIdInformation × CompressedP256PublicKey × ByteArr 2 × SessionKey × UInt64 where
  toFun d := (d.header, d.rpIdInfo, d.publicKey, d.padding, d.sessionKey, d.counter)
  invFun := fun (h, r, k, p, s, c) => ⟨h, r, k, p, s, c⟩
  left_inv _ := rfl
  right_inv _ := rfl

instance : Pod P256WebauthnAccountData := .ofEquiv fields

def version : UInt8 := 1
def scheme : UInt8 := SignatureScheme.p256Webauthn.toU8
def size : Nat := Pod.size P256WebauthnAccountData

theorem size_eq : size = 152 := rfl

end P256WebauthnAccountData

/-! ## Arguments -/

structure P256RawInitializationData where
  rpId : SmallVec UInt8 UInt8
  publicKey : ByteArr 33
  clientDataJsonReconstructionParams : ClientDataJsonReconstructionParams
  deriving DecidableEq

structure P256ParsedInitializationData where
  rpIdInfo : RpIdInformation
  publicKey : CompressedP256PublicKey
  counter : UInt64
  clientDataJsonReconstructionParams : ClientDataJsonReconstructionParams

structure P256RawVerificationData where
  publicKey : ByteArr 33
  clientDataJsonReconstructionParams : ClientDataJsonReconstructionParams
  deriving DecidableEq

structure P256ParsedVerificationData where
  publicKey : CompressedP256PublicKey
  clientDataJsonReconstructionParams : ClientDataJsonReconstructionParams

namespace P256RawInitializationData

def fields : P256RawInitializationData ≃
    SmallVec UInt8 UInt8 × ByteArr 33 × ClientDataJsonReconstructionParams where
  toFun d := (d.rpId, d.publicKey, d.clientDataJsonReconstructionParams)
  invFun := fun (r, k, p) => ⟨r, k, p⟩
  left_inv _ := rfl
  right_inv _ := rfl

instance : BorshSerialize P256RawInitializationData := serializeAs fields
instance : BorshDeserialize P256RawInitializationData := deserializeAs fields
instance : LawfulBorsh P256RawInitializationData := lawfulAs fields

end P256RawInitializationData

namespace P256RawVerificationData

def fields : P256RawVerificationData ≃ ByteArr 33 × ClientDataJsonReconstructionParams where
  toFun d := (d.publicKey, d.clientDataJsonReconstructionParams)
  invFun := fun (k, p) => ⟨k, p⟩
  left_inv _ := rfl
  right_inv _ := rfl

instance : BorshSerialize P256RawVerificationData := serializeAs fields
instance : BorshDeserialize P256RawVerificationData := deserializeAs fields
instance : LawfulBorsh P256RawVerificationData := lawfulAs fields

end P256RawVerificationData

/-- `P256ParsedInitializationData::try_from`. -/
def P256ParsedInitializationData.tryFrom (host : Host) (data : P256RawInitializationData) :
    Outcome P256ParsedInitializationData := do
  ensure (data.rpId.toList.length ≤ 32) (.custom .p256RelyingPartTooLong)
  ensure (0x22 ∉ data.rpId.toList) (.custom .p256RelyingPartIncludeQuotes)
  let rpIdHash := host.sha256 data.rpId.toList
  return {
    rpIdInfo := ← RpIdInformation.new data.rpId.toList rpIdHash
    publicKey := .new data.publicKey
    counter := 0
    clientDataJsonReconstructionParams := data.clientDataJsonReconstructionParams }

/-- `P256ParsedVerificationData::try_from`, which always succeeds. -/
def P256ParsedVerificationData.tryFrom (data : P256RawVerificationData) :
    Outcome P256ParsedVerificationData :=
  return ⟨.new data.publicKey, data.clientDataJsonReconstructionParams⟩

/-! ## Addresses -/

structure P256DeriveAccountArgs where
  publicKey : ByteArr 33

structure AccountSeeds where
  key : Pubkey
  bump : UInt8
  seedPasskey : Bytes
  seedPublicKeyHash : ByteArr 32

namespace AccountSeeds

def seeds (s : AccountSeeds) : List Bytes := [s.seedPasskey, s.seedPublicKeyHash.val, [s.bump]]

def seedsOwned (s : AccountSeeds) : Bytes × Bytes := (s.seedPasskey, s.seedPublicKeyHash.val)

end AccountSeeds

/-- A program address of this program; there always is one, or the program panics. -/
def findProgramAddress (host : Host) (seeds : List Bytes) : Outcome (Pubkey × UInt8) :=
  okOr .panic (host.tryFindProgramAddress seeds ID)

/-- The seeds of the external account of a public key. -/
def passkeySeeds (host : Host) (publicKey : CompressedP256PublicKey) : List Bytes :=
  [ascii "passkey", (host.sha256 publicKey.toBytes.val).val]

/-! ## The operations -/

namespace SignaturePayload

/-- The message without its last 32 bytes. -/
def authData (signed : SignaturePayload) : Bytes :=
  signed.message.take (signed.message.length - 32)

/-- The last 32 bytes of the message. -/
def clientDataHash (signed : SignaturePayload) : Bytes :=
  signed.message.drop (signed.message.length - 32)

end SignaturePayload

/-- The one signature of the precompile instruction at index 0. -/
def Instructions.signaturePayload (instructionsSysvar : Instructions) : Outcome SignaturePayload := do
  let precompileInstruction ← instructionsSysvar.loadInstructionAt 0
  let parser ← PrecompileParser.new precompileInstruction instructionsSysvar
  let numSignatures ← parser.numSignatures
  ensure (numSignatures = 1) (.custom .invalidNumPrecompileSignatures)
  parser.getSignaturePayload 0

namespace P256WebauthnAccountData

variable (host : Host) (rt : Runtime)

def getInitializationPayload : Bytes := ascii "initialize_passkey"

def deriveAccount (args : P256DeriveAccountArgs) : Outcome AccountSeeds := do
  let publicKeyHash := host.sha256 args.publicKey.val
  let (derivedKey, bump) ← findProgramAddress host [ascii "passkey", publicKeyHash.val]
  return ⟨derivedKey, bump, ascii "passkey", publicKeyHash⟩

def deriveExistingAccount (self : P256WebauthnAccountData) : Outcome AccountSeeds :=
  deriveAccount host ⟨self.publicKey.toBytes⟩

/-- The latest expiration a session key may have: the `u64` sum wraps. -/
def expirationBound : UInt64 := rt.unixTimestamp.toUInt64 + sessionKeyExpirationLimit

def initializeAccount (self : P256WebauthnAccountData) (args : P256ParsedInitializationData)
    (sessionKey : Option SessionKey) : Outcome P256WebauthnAccountData := do
  let self := { self with
    rpIdInfo := args.rpIdInfo, publicKey := args.publicKey, counter := args.counter }
  match sessionKey with
  | none => return self
  | some sessionKey =>
    ensure (sessionKey.expiration ≤ expirationBound rt) (.custom .invalidSessionKeyExpiration)
    return { self with sessionKey := sessionKey }

def checkAccount (accountInfo : AccountInfo) (args : P256ParsedVerificationData) :
    Outcome AccountSeeds := do
  ensure accountInfo.isWritable (.custom .p256AccountNotWritable)
  let accountSeeds ← deriveAccount host ⟨args.publicKey.toBytes⟩
  ensure (accountSeeds.key = accountInfo.key) (.err .invalidAccountOwner)
  return accountSeeds

def verifyPayload (self : P256WebauthnAccountData) (instructionsSysvar : Instructions)
    (extraVerificationData : P256ParsedVerificationData) (payload : Bytes) :
    Outcome P256WebauthnAccountData := do
  let signed ← instructionsSysvar.signaturePayload
  ensure (signed.publicKey = self.publicKey.toBytes.val) (.custom .p256PublicKeyMismatch)
  -- `split_at(len - 32)`
  ensure (32 ≤ signed.message.length) .panic
  let authDataParser : AuthDataParser := ⟨signed.authData⟩
  ensure (← authDataParser.isUserPresent) (.custom .p256UserNotPresent)
  let rpIdHash ← authDataParser.rpIdHash
  let rpId ← self.rpIdInfo.rpIdSlice
  ensure (self.rpIdInfo.rpIdHash.val = rpIdHash) (.custom .p256RelyingPartyMismatch)
  let reconstructedClientData ← reconstructClientDataJson
    extraVerificationData.clientDataJsonReconstructionParams rpId payload
  ensure ((host.sha256 reconstructedClientData).val = signed.clientDataHash)
    (.custom .p256ClientDataHashMismatch)
  let counter ← authDataParser.getCounter
  if counter ≠ 0 then
    ensure (self.counter < counter.toUInt64) .panic
    return { self with counter := counter.toUInt64 }
  else return self

def verifyInitializationPayload (self : P256WebauthnAccountData) (instructionsSysvar : Instructions)
    (initializationData : P256ParsedInitializationData) (payload : Bytes) :
    Outcome P256WebauthnAccountData :=
  self.verifyPayload host instructionsSysvar
    ⟨initializationData.publicKey, initializationData.clientDataJsonReconstructionParams⟩ payload

def isValidSessionKey (self : P256WebauthnAccountData) (signer : AccountInfo) : Outcome Unit := do
  ensure signer.isSigner (.custom .sessionSignerNotASigner)
  ensure (self.sessionKey.key = signer.key) (.custom .invalidSessionKey)
  ensure (rt.unixTimestamp.toUInt64 ≤ self.sessionKey.expiration) (.custom .sessionKeyExpired)

def updateSessionKey (self : P256WebauthnAccountData) (sessionKey : SessionKey) :
    Outcome P256WebauthnAccountData := do
  ensure (sessionKey.expiration ≤ expirationBound rt) (.custom .invalidSessionKeyExpiration)
  return { self with sessionKey := sessionKey }

end P256WebauthnAccountData

end ExternalSignature
