import ExternalSignature.Proofs.Integrity

/-!
# Authority

What the program lends to the programs it calls. An invocation of either execute instruction is
signed for one address, the external account or the execution account derived from it, and that
address is all that it adds to what the transaction has granted (`invocation_authority`). The
sessioned instruction derives nothing from its arguments, so the result rests on `Ledger.Sound`.
-/

namespace ExternalSignature

open Lib Lib.Borsh

variable {host : Host}

/-- The seeds of the account that signs, without the bump. -/
def executionSeeds (host : Host) (scheme : SignerExecutionScheme) (key : Pubkey)
    (data : P256WebauthnAccountData) : List Bytes :=
  match scheme with
  | .executionAccount => [key.val, ascii "execution_account"]
  | .externalAccount => passkeySeeds host data.publicKey

theorem getExecutionAccount_ok {info : AccountInfo} {data : P256WebauthnAccountData}
    {scheme : SignerExecutionScheme} {executionAccount : ExecutionAccount}
    (hi : Initialized info.data data)
    (h : (ExternallySignedAccount.mk info info.data).getExecutionAccount host scheme =
      .ok executionAccount) :
    host.tryFindProgramAddress (executionSeeds host scheme info.key data) ID =
        some (executionAccount.key, executionAccount.bump) ∧
      executionAccount.toSignerSeeds =
        executionSeeds host scheme info.key data ++ [[executionAccount.bump]] := by
  cases scheme with
  | executionAccount =>
    simp only [ExternallySignedAccount.getExecutionAccount, bind_eq_ok, findProgramAddress_ok,
      pure_eq_ok, Prod.exists] at h
    obtain ⟨key, bump, hf, rfl⟩ := h
    exact ⟨hf, rfl⟩
  | externalAccount =>
    simp only [ExternallySignedAccount.getExecutionAccount,
      ExternallySignedAccount.deriveExistingAccount, bind_eq_ok, pure_eq_ok] at h
    obtain ⟨seeds, ⟨stored, hs, hd⟩, rfl⟩ := h
    obtain rfl := (ExternallySignedAccount.dataRef_ok.mp hs).unique hi
    have hd := deriveAccount_ok hd
    refine ⟨hd.found, ?_⟩
    simp only [ExecutionAccount.toSignerSeeds, hd.seedsOwned]
    rfl

/-- The seeds of an invocation derive the account that signs it. -/
theorem createProgramAddress_toSignerSeeds {info : AccountInfo} {data : P256WebauthnAccountData}
    {scheme : SignerExecutionScheme} {executionAccount : ExecutionAccount}
    (hi : Initialized info.data data)
    (h : (ExternallySignedAccount.mk info info.data).getExecutionAccount host scheme =
      .ok executionAccount) :
    host.createProgramAddress executionAccount.toSignerSeeds ID = some executionAccount.key := by
  obtain ⟨hfind, hseeds⟩ := getExecutionAccount_ok hi h
  rw [hseeds]
  exact host.create_of_find hfind

/-! ## The metas of an invocation -/

/-- What the metas make of the flags of an account. -/
structure Granted (executionKey : Pubkey) (scheme : SignerExecutionScheme) (account : AccountInfo)
    (m : AccountMeta) : Prop where
  pubkey : m.pubkey = account.key
  signer : m.isSigner → account.isSigner ∨ account.key = executionKey
  writable : m.isWritable → account.isWritable
  readonly : scheme = .externalAccount → account.key = executionKey → m.isWritable = false

theorem mem_executionAccountMetas {accounts : List AccountInfo} {m : AccountMeta}
    {executionAccount : ExecutionAccount} {scheme : SignerExecutionScheme}
    (h : m ∈ createInstructionExecutionAccountMetas accounts executionAccount scheme) :
    ∃ account ∈ accounts, Granted executionAccount.key scheme account m := by
  obtain ⟨account, ha, rfl⟩ := List.mem_map.mp h
  refine ⟨account, ha, ?_⟩
  by_cases hk : account.key = executionAccount.key
  · cases scheme <;> constructor <;> simp [hk]
  · constructor <;> simp [hk]

/-! ## Where an invocation comes from -/

/-- The scheme that an execute instruction, with or without a session, names. -/
def executionScheme : (instructionData : Bytes) → Option SignerExecutionScheme
  | 1 :: data => do
    let args ← (tryFromSlice ExecutableInstructionArgs data).toOption
    SignerExecutionScheme.tryFromPrimitive args.signerExecutionScheme
  | 3 :: data => do
    let args ← (tryFromSlice ExecutableInstructionSessionedArgs data).toOption
    SignerExecutionScheme.tryFromPrimitive args.signerExecutionScheme
  | _ => none

/-- An invocation, with the call that makes it. -/
structure Issued (host : Host) (accounts : List AccountInfo) (ixData : Bytes)
    (invocation : Invocation) where
  scheme : SignerExecutionScheme
  external : AccountInfo
  stored : P256WebauthnAccountData
  rest : List AccountInfo
  executionAccount : ExecutionAccount
  instruction : CompiledInstruction
  scheme_eq : executionScheme ixData = some scheme
  head : accounts.head? = some external
  rest_subset : rest ⊆ accounts
  owner : external.owner = ID
  initialized : Initialized external.data stored
  executing : (ExternallySignedAccount.mk external external.data).getExecutionAccount host scheme =
    .ok executionAccount
  built : Built rest (createInstructionExecutionAccountMetas rest executionAccount scheme)
    executionAccount instruction invocation

section Runs

variable {rt : Runtime} {accounts : List AccountInfo} {data : Bytes} {invocation : Invocation}
  {instruction : CompiledInstruction}

theorem ExecuteRun.executionScheme_eq (run : ExecuteRun host rt accounts data) :
    executionScheme (1 :: data) = some run.scheme := by
  simp [executionScheme, run.decoded, Except.toOption,
    SignerExecutionScheme.tryFromPrimitive_eq_some, run.scheme_eq]

def ExecuteRun.issued (run : ExecuteRun host rt accounts data)
    (hb : Built run.rest run.metas run.executionAccount instruction invocation) :
    Issued host accounts (1 :: data) invocation where
  scheme := run.scheme
  external := run.external
  stored := run.before
  rest := run.rest
  executionAccount := run.executionAccount
  instruction := instruction
  scheme_eq := run.executionScheme_eq
  head := congrArg List.head? run.accounts_eq
  rest_subset a ha := (congrArg (a ∈ ·) run.accounts_eq).mpr (by simp [ha])
  owner := run.owner
  initialized := run.initialized
  executing := run.executing
  built := hb

def SessionedRun.issued (run : SessionedRun host rt accounts data)
    (hb : Built run.rest run.metas run.executionAccount instruction invocation) :
    Issued host accounts (3 :: data) invocation where
  scheme := run.scheme
  external := run.external
  stored := run.stored
  rest := run.rest
  executionAccount := run.executionAccount
  instruction := instruction
  scheme_eq := by
    simp [executionScheme, run.decoded, Except.toOption,
      SignerExecutionScheme.tryFromPrimitive_eq_some, run.scheme_eq]
  head := congrArg List.head? run.accounts_eq
  rest_subset a ha := (congrArg (a ∈ ·) run.accounts_eq).mpr (by simp [ha])
  owner := run.owner
  initialized := run.initialized
  executing := run.executing
  built := hb

/-- Also an invocation of a call that fails later comes from a call whose checks have passed. -/
theorem processInstruction_issued {ixData : Bytes}
    (h : invocation ∈ (processInstruction host rt accounts ixData).invocations) :
    Nonempty (Issued host (accounts.take maxTxAccounts) ixData invocation) := by
  have hd := processInstruction_dispatch host rt accounts ixData
  generalize processInstruction host rt accounts ixData = p at h hd
  cases hd with
  | fault => cases h
  | init data =>
    rw [processInitializeExternalAccount_invocations] at h
    cases h
  | execute run =>
    obtain ⟨_, -, hb⟩ := Processed.built_of_mem_invoke h
    exact ⟨run.issued hb⟩
  | refresh => cases h
  | sessioned run =>
    obtain ⟨_, -, hb⟩ := Processed.built_of_mem_invoke h
    exact ⟨run.issued hb⟩

end Runs

/-! ## Addresses of different accounts -/

/-- No two of the seeds find the same address. -/
def Host.AddressFreeOn (host : Host) (seeds : List Bytes → Prop) : Prop :=
  ∀ s t, seeds s → seeds t → ∀ key b c, host.tryFindProgramAddress s ID = some (key, b) →
    host.tryFindProgramAddress t ID = some (key, c) → s = t

/-- The seeds of the external accounts of a ledger and of their execution accounts. -/
def Ledger.ExecutionSeeds (host : Host) (l : Ledger) (s : List Bytes) : Prop :=
  ∃ scheme key data, l.Holds key data ∧ s = executionSeeds host scheme key data

/-- Accounts that execute with the same seeds are the same account. -/
theorem executionSeeds_inj {key key' : Pubkey} {data data' : P256WebauthnAccountData}
    {scheme scheme' : SignerExecutionScheme} (h : DerivesTo host data.publicKey key)
    (h' : DerivesTo host data'.publicKey key')
    (hs : executionSeeds host scheme key data = executionSeeds host scheme' key' data') :
    key = key' := by
  cases scheme <;> cases scheme' <;>
    simp only [executionSeeds, passkeySeeds, List.cons.injEq, and_true] at hs
  · exact Subtype.ext hs
  · exact absurd (congrArg List.length hs.1) (by rw [key.property]; decide)
  · exact absurd (congrArg List.length hs.1) (by rw [key'.property]; decide)
  · obtain ⟨bump, hf⟩ := h'
    exact h.unique ⟨bump, by simpa only [passkeySeeds, hs] using hf⟩

/-! ## The authority of an invocation -/

/-- The account an invocation is made for is one of the ledger. -/
theorem Issued.holds {l : Ledger} {c : Call} {invocation : Invocation}
    (i : Issued host (c.infos l) c.data invocation) : l.Holds i.external.key i.stored := by
  obtain ⟨rest, hc⟩ := List.head?_eq_some_iff.mp i.head
  obtain ⟨howner, hdata⟩ := Call.info_of_head hc
  exact ⟨howner.symm.trans i.owner, hdata ▸ i.initialized⟩

/-- The accounts that an instruction receives have the flags that the transaction grants. -/
theorem Call.granted_of_mem {l : Ledger} {c : Call} {info : AccountInfo} (h : info ∈ c.infos l) :
    ∃ g ∈ c.accounts, g.pubkey = info.key ∧ g.isSigner = info.isSigner ∧
      g.isWritable = info.isWritable := by
  obtain ⟨g, hg, rfl⟩ := List.mem_map.mp (List.mem_of_mem_take h)
  exact ⟨g, hg, rfl, rfl, rfl⟩

theorem Call.head_pubkey {l : Ledger} {c : Call} {info : AccountInfo}
    (h : (c.infos l).head? = some info) : c.accounts.head?.map (·.pubkey) = some info.key := by
  obtain ⟨rt, accounts, data⟩ := c
  cases accounts with
  | nil => cases h
  | cons m ms =>
    obtain rfl := Option.some.inj h
    rfl

/-- In every reachable state, every invocation is signed for the execution account of the external
account, or for the external account itself, and for no address of another external account. It is
the only signer, and nothing is writable, beyond what the transaction has granted; an external
account that signs is not writable. -/
theorem invocation_authority {l : Ledger} (hl : l.Reachable host)
    (hfree : host.AddressFreeOn (l.ExecutionSeeds host)) (c : Call) {invocation : Invocation}
    (h : invocation ∈ (c.process host l).invocations) :
    ∃ external scheme pda, c.accounts.head?.map (·.pubkey) = some external ∧
      executionScheme c.data = some scheme ∧
      host.createProgramAddress invocation.signerSeeds ID = some pda ∧
      (scheme = .executionAccount → ∃ bump, host.tryFindProgramAddress
        [external.val, ascii "execution_account"] ID = some (pda, bump)) ∧
      (scheme = .externalAccount → pda = external) ∧
      (∀ key data, l.Holds key data → key ≠ external → pda ≠ key ∧ ∀ bump,
        host.tryFindProgramAddress [key.val, ascii "execution_account"] ID ≠ some (pda, bump)) ∧
      ∀ m ∈ invocation.instruction.accounts,
        (m.isSigner → m.pubkey = pda ∨ ∃ g ∈ c.accounts, g.pubkey = m.pubkey ∧ g.isSigner) ∧
        (m.isWritable → ∃ g ∈ c.accounts, g.pubkey = m.pubkey ∧ g.isWritable) ∧
        (scheme = .externalAccount → m.pubkey = external → ¬m.isWritable) := by
  obtain ⟨i⟩ := processInstruction_issued h
  have hholds := i.holds
  have hderived := (hl.sound _ _ hholds).derived
  obtain ⟨hfind, -⟩ := getExecutionAccount_ok i.initialized i.executing
  have hself : i.scheme = .externalAccount → i.executionAccount.key = i.external.key := by
    intro hs
    rw [hs] at hfind
    exact DerivesTo.unique ⟨_, hfind⟩ hderived
  -- an address of another account has other seeds
  have hother : ∀ key data, l.Holds key data → key ≠ i.external.key → ∀ scheme bump,
      host.tryFindProgramAddress (executionSeeds host scheme key data) ID ≠
        some (i.executionAccount.key, bump) := by
    intro key data hd hne scheme bump hf
    have hs := hfree _ _ ⟨_, _, _, hd, rfl⟩ ⟨_, _, _, hholds, rfl⟩ _ _ _ hf hfind
    exact hne (executionSeeds_inj (hl.sound _ _ hd).derived hderived hs)
  refine ⟨i.external.key, i.scheme, i.executionAccount.key, Call.head_pubkey i.head, i.scheme_eq,
    ?_, ?_, hself, ?_, ?_⟩
  · rw [i.built.signerSeeds]
    exact createProgramAddress_toSignerSeeds i.initialized i.executing
  · intro hs
    rw [hs] at hfind
    exact ⟨_, hfind⟩
  · intro key data hd hne
    refine ⟨?_, fun bump => hother key data hd hne .executionAccount bump⟩
    rintro rfl
    obtain ⟨bump, hf⟩ := (hl.sound _ _ hd).derived
    exact hother _ data hd hne .externalAccount bump hf
  · intro m hm
    obtain ⟨account, ha, hg⟩ := mem_executionAccountMetas (i.built.mem_metas hm)
    obtain ⟨g, hgm, hkey, hsigner, hwritable⟩ := Call.granted_of_mem (i.rest_subset ha)
    refine ⟨fun hms => ?_, fun hmw => ?_, fun hs hk hmw => ?_⟩
    · rcases hg.signer hms with h | h
      · exact .inr ⟨g, hgm, hkey.trans hg.pubkey.symm, hsigner.trans h⟩
      · exact .inl (hg.pubkey.trans h)
    · exact ⟨g, hgm, hkey.trans hg.pubkey.symm, hwritable.trans (hg.writable hmw)⟩
    · have hr := hg.readonly hs (hg.pubkey.symm.trans (hk.trans (hself hs).symm))
      rw [hr] at hmw
      cases hmw

namespace Sample

def target : Pubkey := ⟨List.replicate 32 0x22, rfl⟩

/-- The execution account of `external`. -/
def executionAccount : Pubkey :=
  .ofNat 32 0x82797c5c7335978909ba304173af6a0c18d08668664f048d9bccaea206642d50

def verificationData (publicKey : ByteArr 33) : P256RawVerificationData := ⟨publicKey, ⟨0x10, none⟩⟩

/-- The signature of `passkey` for a call of `target` with the execution account. -/
def executeSignature : IntrospectedInstruction := precompile passkey
  0x86cd0ecd12c4c5c26fbe23754c84856daec1a7ad9ba5be9d32bf3e3475cf6d21
  0x0caa77ae26e18bae8055391bb7cc8209c4d74664f1717b843ab7a638b9cf73c2
  0 0xbddcefeb63b3071385d2359d9230be301d7eacbbf9c850065125d34515d68c68

/-- The call of `target`, for an account at the address of `publicKey`. -/
def executeWith (account : Pubkey) (publicKey : ByteArr 33) (slotHashes : List SlotHash)
    (signature : IntrospectedInstruction) (signerExecutionScheme : UInt8) : Call where
  rt := runtime 1700000000 slotHashes [signature]
  accounts := [⟨account, true, false⟩, ⟨instructionsId, false, false⟩,
    ⟨slotHashesId, false, false⟩, ⟨payer, true, true⟩, ⟨target, false, false⟩,
    ⟨executionAccount, true, false⟩]
  data := 1 :: encoded (ExecutableInstructionArgs.mk 0 signerExecutionScheme ⟨1⟩
    (smallVec (encoded (verificationData publicKey))) ⟨[⟨0, ⟨[1], rfl⟩, ⟨[7], rfl⟩⟩], rfl⟩)

def executeCall : Call := executeWith external passkey [slot] executeSignature 0

/-- The call of `target`, with the signer flag that the scheme gives the execution account. -/
def invocation (isSigner : Bool) (signerSeeds : List Bytes) : Invocation where
  instruction := ⟨target, [7], [⟨executionAccount, true, isSigner⟩]⟩
  accountInfos := [⟨executionAccount, true, false⟩]
  signerSeeds

def executeDigests : List (Bytes × ByteArr 32) := [
  (slot.hash.val ++ payer.val ++ ascii "execute_instructions" ++ ([2] ++ target.val ++ [0, 0] ++
      executionAccount.val ++ [0, 1] ++ [1, 0, 1, 1, 1, 0, 7]),
    .ofNat 32 0xf2cd437d6f64b54f592ca848a82758862580a3a563aea1e214fdeb9a15df1404),
  (clientDataJson "get" "8s1DfW9ktU9ZLKhIqCdYhiWAo6VjrqHiFP3rmhXfFAQ",
    .ofNat 32 0xbddcefeb63b3071385d2359d9230be301d7eacbbf9c850065125d34515d68c68)]

def executeAddresses : List (List Bytes × Option (Pubkey × UInt8)) :=
  [([external.val, ascii "execution_account"], some (executionAccount, 255))]

theorem executeDigests_eq : ∀ p ∈ executeDigests, Sha256.hash p.1 = p.2 := by
  unfold executeDigests
  simp only [List.forall_mem_cons, List.not_mem_nil, false_imp_iff, implies_true, and_true]
  refine ⟨?_, ?_⟩ <;> decide +kernel

theorem executeAddresses_eq :
    ∀ p ∈ executeAddresses, Solana.tryFindProgramAddress p.1 ID = p.2 := by
  unfold executeAddresses
  simp only [List.forall_mem_singleton]
  decide +kernel

/-- What is hashed and derived to execute. -/
def executeRecorded : Recorded := recorded.append
  ⟨executeDigests, executeAddresses, executeDigests_eq, executeAddresses_eq⟩

theorem executeCall_executionAccount : executeCall.process .solana ledger =
    ⟨[], [invocation true [external.val, ascii "execution_account", [255]]],
      .ok ⟨external, false, true, ID, (Pod.bytes stored).val⟩⟩ := by
  rw [← executeRecorded.host_eq]
  decide +kernel

/-- The address of each scheme. -/
def signerKey : SignerExecutionScheme → Pubkey
  | .executionAccount => executionAccount
  | .externalAccount => external

theorem findProgramAddress_executionSeeds (scheme : SignerExecutionScheme) :
    Host.solana.tryFindProgramAddress (executionSeeds .solana scheme external stored) ID =
      some (signerKey scheme, 255) := by
  rw [← executeRecorded.host_eq]
  cases scheme <;> decide +kernel

theorem ledger_addressFree : Host.solana.AddressFreeOn (ledger.ExecutionSeeds .solana) := by
  have only : ∀ {key data}, ledger.Holds key data → key = external ∧ data = stored := by
    intro key data h
    by_cases hk : key = external
    · subst hk
      exact ⟨rfl, h.unique ledger_holds⟩
    · exact absurd ((Ledger.holds_update_of_ne hk).mp h).1 (genesis_fresh key)
  have hne : executionAccount ≠ external := by decide +kernel
  rintro s t ⟨scheme, key, data, hs, rfl⟩ ⟨scheme', key', data', ht, rfl⟩ found b c hb hc
  obtain ⟨rfl, rfl⟩ := only hs
  obtain ⟨rfl, rfl⟩ := only ht
  rw [findProgramAddress_executionSeeds] at hb hc
  have hk : signerKey scheme = signerKey scheme' :=
    (congrArg Prod.fst (Option.some.inj hb)).trans (congrArg Prod.fst (Option.some.inj hc)).symm
  cases scheme <;> cases scheme'
  · rfl
  · exact absurd hk hne
  · exact absurd hk hne.symm
  · rfl

end Sample

/-- The execution account is not a signer of the transaction, and signs the invocation. -/
theorem invocation_authority_execute : ∃ pda,
    Host.solana.createProgramAddress
      [Sample.external.val, ascii "execution_account", [255]] ID = some pda ∧
    (Sample.executionAccount = pda ∨ ∃ g ∈ (Sample.executeCall).accounts,
      g.pubkey = Sample.executionAccount ∧ g.isSigner) := by
  have h : Sample.invocation true [Sample.external.val, ascii "execution_account", [255]] ∈
      ((Sample.executeCall).process .solana Sample.ledger).invocations := by
    rw [Sample.executeCall_executionAccount]
    exact List.mem_singleton_self _
  obtain ⟨_, _, pda, -, -, hcreate, -, -, -, hmetas⟩ :=
    invocation_authority Sample.ledger_reachable Sample.ledger_addressFree _ h
  exact ⟨pda, hcreate, (hmetas _ (List.mem_singleton_self _)).1 rfl⟩

end ExternalSignature
