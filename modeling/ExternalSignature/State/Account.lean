import ExternalSignature.State.P256Webauthn

/-!
# Externally signed accounts

`ExternallySignedAccount` is an account with its data loaded. `load` accepts an empty account of
the system program or a non-empty one of this program, and `dataRef` a header of the right version
and scheme (`dataRef_ok`).
-/

namespace ExternalSignature

open Lib

structure ExternallySignedAccount where
  accountInfo : AccountInfo
  data : Bytes
  deriving DecidableEq

namespace ExternallySignedAccount

variable (host : Host) (rt : Runtime)

def key (self : ExternallySignedAccount) : Pubkey := self.accountInfo.key

def load (accountInfo : AccountInfo) : Outcome ExternallySignedAccount := do
  ensure (accountInfo.owner = if accountInfo.data = [] then systemProgramId else ID) .panic
  return ⟨accountInfo, accountInfo.data⟩

/-- The account as the runtime finds it after the instruction. -/
def finish (self : ExternallySignedAccount) : AccountInfo :=
  { self.accountInfo with data := self.data }

/-! ## Data -/

def header (self : ExternallySignedAccount) : Outcome AccountHeader :=
  okOr .panic (Pod.read AccountHeader self.data)

/-- `data` and `data_ref`. -/
def dataRef (self : ExternallySignedAccount) : Outcome P256WebauthnAccountData := do
  let header ← self.header
  ensure (header.version = P256WebauthnAccountData.version ∧
    header.scheme = P256WebauthnAccountData.scheme) (.custom .errorDeserializingHeader)
  okOr (.custom .errorDeserializingAccountData) (Pod.read P256WebauthnAccountData self.data)

/-- The account after a write through the reference that `data` returns. -/
def setData (self : ExternallySignedAccount) (data : P256WebauthnAccountData) :
    ExternallySignedAccount :=
  { self with data := Pod.write data self.data }

def initializeHeader (self : ExternallySignedAccount) : Outcome ExternallySignedAccount := do
  let header ← self.header
  let header := { header with
    version := P256WebauthnAccountData.version, scheme := P256WebauthnAccountData.scheme }
  return { self with data := Pod.write header self.data }

/-! ## Operations -/

def checkAccount (self : ExternallySignedAccount) (args : P256ParsedVerificationData) :
    Outcome AccountSeeds := do
  let _ ← self.dataRef
  P256WebauthnAccountData.checkAccount host self.accountInfo args

def deriveExistingAccount (self : ExternallySignedAccount) : Outcome AccountSeeds := do
  (← self.dataRef).deriveExistingAccount host

def initializeAccount (self : ExternallySignedAccount) (args : P256ParsedInitializationData)
    (sessionKey : Option SessionKey) : Outcome ExternallySignedAccount := do
  let self ← self.initializeHeader
  let data ← self.dataRef
  return self.setData (← data.initializeAccount rt args sessionKey)

def verifyInitializationPayload (self : ExternallySignedAccount) (instructionsSysvar : Instructions)
    (initializationData : P256ParsedInitializationData) (payload : Bytes) :
    Outcome ExternallySignedAccount := do
  let data ← self.dataRef
  return self.setData
    (← data.verifyInitializationPayload host instructionsSysvar initializationData payload)

def verifyPayload (self : ExternallySignedAccount) (instructionsSysvar : Instructions)
    (extraVerificationData : P256ParsedVerificationData) (payload : Bytes) :
    Outcome ExternallySignedAccount := do
  let data ← self.dataRef
  return self.setData
    (← data.verifyPayload host instructionsSysvar extraVerificationData payload)

def isValidSessionKey (self : ExternallySignedAccount) (signer : AccountInfo) : Outcome Unit := do
  (← self.dataRef).isValidSessionKey rt signer

def updateSessionKey (self : ExternallySignedAccount) (sessionKey : SessionKey) :
    Outcome ExternallySignedAccount := do
  let data ← self.dataRef
  return self.setData (← data.updateSessionKey rt sessionKey)

/-- The account that signs the cross-program invocations. The external account signs with seeds
derived from the public key stored in it, the execution account with the account's own key. -/
def getExecutionAccount (self : ExternallySignedAccount)
    (signerExecutionScheme : SignerExecutionScheme) : Outcome ExecutionAccount :=
  match signerExecutionScheme with
  | .executionAccount => do
    let seeds := (self.key.val, ascii "execution_account")
    let (executionAccount, bump) ← findProgramAddress host [seeds.1, seeds.2]
    return ⟨executionAccount, bump, seeds⟩
  | .externalAccount => do
    let externalAccountSeeds ← self.deriveExistingAccount host
    return ⟨externalAccountSeeds.key, externalAccountSeeds.bump, externalAccountSeeds.seedsOwned⟩

end ExternallySignedAccount

/-! ## What a successful operation has done -/

/-- The data of an account that passes the header check. -/
def Initialized (buf : Bytes) (data : P256WebauthnAccountData) : Prop :=
  Pod.read P256WebauthnAccountData buf = some data ∧
    data.header.version = P256WebauthnAccountData.version ∧
    data.header.scheme = P256WebauthnAccountData.scheme

theorem Initialized.unique {buf : Bytes} {d e : P256WebauthnAccountData} (hd : Initialized buf d)
    (he : Initialized buf e) : d = e :=
  Option.some.inj (hd.1.symm.trans he.1)

theorem Initialized.write {d e : P256WebauthnAccountData} {buf : Bytes} (hd : Initialized buf d)
    (he : e.header = d.header) : Initialized (Pod.write e buf) e :=
  ⟨Pod.read_write e buf, by rw [he]; exact hd.2⟩

theorem read_header {buf : Bytes} {data : P256WebauthnAccountData}
    (h : Pod.read P256WebauthnAccountData buf = some data) :
    Pod.read AccountHeader buf = some data.header := by
  obtain ⟨rest, h⟩ := Pod.read_eq_some.mp h
  exact Pod.read_fst (p := P256WebauthnAccountData.fields data) (Pod.read_eq_some.mpr ⟨rest, h⟩)

namespace ExternallySignedAccount

variable {self self' : ExternallySignedAccount} {data : P256WebauthnAccountData}

theorem load_ok {accountInfo : AccountInfo} (h : load accountInfo = .ok self) :
    self = ⟨accountInfo, accountInfo.data⟩ ∧
      (accountInfo.data = [] ∧ accountInfo.owner = systemProgramId ∨
        accountInfo.data ≠ [] ∧ accountInfo.owner = ID) := by
  obtain ⟨_, ho, h⟩ := bind_eq_ok.mp h
  rw [ensure_eq_ok] at ho
  refine ⟨(pure_eq_ok.mp h).symm, ?_⟩
  split at ho
  · exact .inl ⟨‹_›, ho⟩
  · exact .inr ⟨‹_›, ho⟩

theorem dataRef_ok : self.dataRef = .ok data ↔ Initialized self.data data := by
  simp only [dataRef, header, bind_eq_ok, okOr_eq_ok, ensure_eq_ok, exists_unit]
  constructor
  · rintro ⟨hdr, hh, hv, hd⟩
    obtain rfl := Option.some.inj (hh.symm.trans (read_header hd))
    exact ⟨hd, hv⟩
  · rintro ⟨hd, hv⟩
    exact ⟨data.header, read_header hd, hv, hd⟩

/-- A loaded account with a header is one of the program. -/
theorem owner_of_load {accountInfo : AccountInfo} (hl : load accountInfo = .ok self)
    (hd : self.dataRef = .ok data) :
    self = ⟨accountInfo, accountInfo.data⟩ ∧ accountInfo.owner = ID ∧
      Initialized accountInfo.data data := by
  obtain ⟨rfl, hempty, -⟩ | ⟨rfl, -, howner⟩ := and_or_left.mp (load_ok hl)
  · have hi := (dataRef_ok.mp hd).1
    simp only [hempty] at hi
    cases hi
  · exact ⟨rfl, howner, dataRef_ok.mp hd⟩

@[simp] theorem finish_setData : (self.setData data).finish =
    { self.accountInfo with data := Pod.write data self.data } := rfl

end ExternallySignedAccount

end ExternalSignature
