import ExternalSignature.Instructions.Invoke
import ExternalSignature.Utils.Nonce

/-!
# Initialize an external account

`process_initialize_external_account`: create the account of a passkey that has signed the
initialization challenge. The account is written first and the signature checked last, against
what was written.
-/

namespace ExternalSignature

open Lib Lib.Borsh

structure InitializeAccountArgs where
  slothash : TruncatedSlot
  signatureScheme : UInt8
  initializationData : SmallVec UInt8 UInt8
  sessionKey : Option SessionKey
  deriving DecidableEq

namespace InitializeAccountArgs

def fields : InitializeAccountArgs ≃
    TruncatedSlot × UInt8 × SmallVec UInt8 UInt8 × Option SessionKey where
  toFun a := (a.slothash, a.signatureScheme, a.initializationData, a.sessionKey)
  invFun := fun (h, s, d, k) => ⟨h, s, d, k⟩
  left_inv _ := rfl
  right_inv _ := rfl

instance : BorshSerialize InitializeAccountArgs := serializeAs fields
instance : BorshDeserialize InitializeAccountArgs := deserializeAs fields
instance : LawfulBorsh InitializeAccountArgs := lawfulAs fields

end InitializeAccountArgs

structure InitializeExternalAccountContext where
  slothash : ByteArr 32
  externallySignedAccount : ExternallySignedAccount
  rentPayer : AccountInfo
  instructionsSysvar : Instructions
  externallySignedAccountSeeds : AccountSeeds
  initializationData : P256ParsedInitializationData
  sessionKey : Option SessionKey

def checkAccountUninitialized (account : AccountInfo) : Outcome Unit := do
  ensure (account.owner = systemProgramId) (.err .invalidAccountOwner)
  ensure (account.data = []) (.err .invalidAccountData)

namespace InitializeExternalAccountContext

variable (host : Host) (rt : Runtime)

def load (accountInfos : List AccountInfo) (args : InitializeAccountArgs) :
    Outcome InitializeExternalAccountContext :=
  match accountInfos with
  | externalAccount :: rentPayer :: instructionsSysvar :: slothashesSysvar :: systemProgram :: _ => do
    checkAccountUninitialized externalAccount
    let externallySignedAccount ← ExternallySignedAccount.load externalAccount
    let instructionsSysvar ← rt.instructionsSysvar instructionsSysvar
    let slothashesSysvar ← rt.slotHashesSysvar slothashesSysvar
    ensure (systemProgram.key = systemProgramId) .panic
    let nonceData ← validateNonce rt slothashesSysvar args.slothash rentPayer
    let rawInitializationData ← mapErr (.err .invalidArgument)
      (tryFromSlice P256RawInitializationData args.initializationData.toList)
    let parsedInitializationData ← P256ParsedInitializationData.tryFrom host rawInitializationData
    let externallySignedAccountSeeds ←
      P256WebauthnAccountData.deriveAccount host ⟨parsedInitializationData.publicKey.toBytes⟩
    ensure (externallySignedAccount.key = externallySignedAccountSeeds.key)
      (.err .invalidAccountOwner)
    return {
      slothash := nonceData.slothash
      externallySignedAccount, rentPayer, instructionsSysvar, externallySignedAccountSeeds
      initializationData := parsedInitializationData
      sessionKey := args.sessionKey }
  | _ => .error (.err .notEnoughAccountKeys)

/-- `Transfer`, `Allocate` and `Assign`, in the order in which they are invoked. -/
def systemInstructions (self : InitializeExternalAccountContext) : List SystemInstruction :=
  let space := P256WebauthnAccountData.size
  let requiredLamports := rt.minimumBalance space
  let key := self.externallySignedAccount.key
  let signer := self.externallySignedAccountSeeds.seeds
  [.transfer self.rentPayer.key key requiredLamports, .allocate key (.ofNat space) signer,
    .assign key ID signer]

/-- Fund, allocate and assign the account; `reload` then finds it zero-filled. The calls are those
made also when one of them fails. -/
def createAndAllocateExternallySignedAccount (self : InitializeExternalAccountContext) :
    List SystemInstruction × Outcome ExternallySignedAccount :=
  let (calls, outcome) := invokeSystem rt (self.systemInstructions rt) []
  let data := List.replicate P256WebauthnAccountData.size 0
  (calls, do
    outcome
    return ⟨{ self.externallySignedAccount.accountInfo with owner := ID, data }, data⟩)

end InitializeExternalAccountContext

/-- What `get_initialization_payload_hash` hashes. -/
def initializationPayload (slothash : ByteArr 32) (rentPayer : Pubkey)
    (signatureSpecificInitializationPayload : Bytes) (sessionKey : Option SessionKey) : Bytes :=
  slothash.val ++ rentPayer.val ++ signatureSpecificInitializationPayload ++
    match sessionKey with
    | none => []
    | some sessionKey => sessionKey.key.val ++ (Pod.bytes sessionKey.expiration).val

def InitializeExternalAccountContext.getInitializationPayloadHash (host : Host)
    (self : InitializeExternalAccountContext) (signatureSpecificInitializationPayload : Bytes) :
    ByteArr 32 :=
  host.sha256 (initializationPayload self.slothash self.rentPayer.key
    signatureSpecificInitializationPayload self.sessionKey)

variable (host : Host) (rt : Runtime)

/-- The part of the function before the account is created. -/
def loadInitializeExternalAccount (accounts : List AccountInfo) (data : Bytes) :
    Outcome InitializeExternalAccountContext := do
  let args ← mapErr (.err .invalidArgument) (tryFromSlice InitializeAccountArgs data)
  let .p256Webauthn ← okOr (.custom .invalidSignatureScheme)
    (SignatureScheme.tryFromPrimitive args.signatureScheme)
  InitializeExternalAccountContext.load host rt accounts args

def processInitializeExternalAccount (accounts : List AccountInfo) (data : Bytes) : Processed :=
  match loadInitializeExternalAccount host rt accounts data with
  | .error fault => .ofResult (.error fault)
  | .ok context =>
    let payloadHash := context.getInitializationPayloadHash host
      P256WebauthnAccountData.getInitializationPayload
    let (system, created) := context.createAndAllocateExternallySignedAccount rt
    ⟨system, [], do
      let account ← created
      let account ← account.initializeAccount rt context.initializationData context.sessionKey
      let account ← account.verifyInitializationPayload host context.instructionsSysvar
        context.initializationData payloadHash.val
      return account.finish⟩

@[simp] theorem processInitializeExternalAccount_invocations (accounts : List AccountInfo)
    (data : Bytes) : (processInitializeExternalAccount host rt accounts data).invocations = [] := by
  unfold processInitializeExternalAccount
  split <;> rfl

end ExternalSignature
