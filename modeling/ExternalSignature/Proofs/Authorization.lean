import ExternalSignature.Proofs.Binding
import ExternalSignature.Proofs.Wallet
import ExternalSignature.Proofs.Wrapping

/-!
# Authorization

Whatever the program calls goes back to the passkey of the external account. Either the transaction
carries a message of the passkey, and the calls are the first instructions that its challenge names;
or a session key has signed the transaction, the session is the last one that a message of the
passkey has opened on the account, and it has not run out (`authorization_chain`). This holds of the
calls of every run, also of those that the runtime reverts afterwards.
-/

namespace ExternalSignature

open Lib Lib.Borsh

variable {host : Host}

/-! ## What a wallet has received -/

namespace Wallet

@[simp] theorem counted_publicKey (w : Wallet) (count : UInt32) :
    (w.counted count).publicKey = w.publicKey := by
  unfold counted
  split <;> rfl

@[simp] theorem counted_rpIdInfo (w : Wallet) (count : UInt32) :
    (w.counted count).rpIdInfo = w.rpIdInfo := by
  unfold counted
  split <;> rfl

@[simp] theorem counted_sessionKey (w : Wallet) (count : UInt32) :
    (w.counted count).sessionKey = w.sessionKey := by
  unfold counted
  split <;> rfl

/-- The message is one of the wallet's passkey, and the session it opens is within the limit. -/
def Sent (wallet : Option Wallet) (m : SignedChallenge) : Prop :=
  m.Bounded ∧ ∃ w, wallet = some w ∧ m.publicKey = w.publicKey ∧ m.rpIdInfo = w.rpIdInfo

variable {wallet wallet' : Option Wallet} {m n : SignedChallenge}

theorem receive_sent (h : receive wallet m = some wallet') : Sent wallet' m := by
  unfold receive at h
  split at h
  · obtain ⟨hb, h⟩ := Option.ite_none_right_eq_some.mp h
    obtain rfl := Option.some.inj h
    exact ⟨hb, _, rfl, by simp⟩
  · cases h
  · cases h
  · obtain ⟨⟨ha, hb⟩, h⟩ := Option.ite_none_right_eq_some.mp h
    obtain rfl := Option.some.inj h
    exact ⟨hb, _, rfl, by simp [ha.publicKey], by simp [ha.rpIdInfo]⟩

/-- A wallet keeps its passkey and its relying party. -/
theorem Sent.receive (hn : Sent wallet n) (h : receive wallet m = some wallet') :
    Sent wallet' n := by
  obtain ⟨hb, w, rfl, hkey, hrp⟩ := hn
  unfold Wallet.receive at h
  split at h
  · rename_i heq _
    cases heq
  · cases h
  · cases h
  · rename_i heq _
    obtain rfl := Option.some.inj heq
    obtain ⟨-, h⟩ := Option.ite_none_right_eq_some.mp h
    obtain rfl := Option.some.inj h
    exact ⟨hb, _, rfl, by simp [hkey], by simp [hrp]⟩

theorem receive_session (h : receive wallet m = some wallet') :
    session wallet' = m.session.getD (session wallet) := by
  unfold receive at h
  split at h
  · obtain ⟨-, h⟩ := Option.ite_none_right_eq_some.mp h
    obtain rfl := Option.some.inj h
    simp [session]
  · cases h
  · cases h
  · obtain ⟨-, h⟩ := Option.ite_none_right_eq_some.mp h
    obtain rfl := Option.some.inj h
    simp [session]

end Wallet

section

variable {start : Ledger} {es : List Event} {key : Pubkey} {data : P256WebauthnAccountData}

/-- Every message that an account has received is one of its passkey. -/
theorem Ledger.sent_of_received {m : SignedChallenge} (h : m ∈ start.received host key es) :
    Wallet.Sent ((run (step host) start es).wallet key) m := by
  refine replay_forall (replay_received host key start es) (fun _ _ _ => Wallet.receive_sent) ?_ m h
  exact fun _ _ _ _ hr hn => hn.receive hr

/-- The session of an account is the one that its last message to open a session has opened. -/
theorem Ledger.session_eq : Wallet.session ((run (step host) start es).wallet key) =
    (((start.received host key es).filterMap SignedChallenge.session).getLast?).getD
      (Wallet.session (start.wallet key)) :=
  replay_field (replay_received host key start es) fun _ _ _ => Wallet.receive_session

/-- A message of the passkey has opened the session, and none has opened another since then. -/
structure Opened (host : Host) (start : Ledger) (es : List Event) (key : Pubkey)
    (data : P256WebauthnAccountData) : Prop where
  opened : ∃ before c after, ∃ m : SignedChallenge, es = before ++ .call c :: after ∧
    c.external = some key ∧ m.CarriedBy host c.rt ∧ m.publicKey = data.publicKey ∧
    m.rpIdInfo = data.rpIdInfo ∧ m.session = some data.sessionKey ∧ m.Bounded ∧
    ∀ n ∈ (run (Ledger.step host) start (before ++ [.call c])).received host key after,
      n.session = none

theorem Ledger.Fresh.opened (hstart : start.Fresh)
    (hd : (run (step host) start es).Holds key data) (hk : data.sessionKey ≠ Wallet.noSession) :
    Opened host start es key data := by
  have hsession := @Ledger.session_eq host start es key
  rw [wallet_of_holds hd, wallet_of_unowned (hstart key)] at hsession
  cases hlast : ((start.received host key es).filterMap SignedChallenge.session).getLast? with
  | none =>
    rw [hlast] at hsession
    exact absurd hsession hk
  | some k =>
    rw [hlast] at hsession
    obtain rfl : data.sessionKey = k := hsession
    obtain ⟨before, e, after, m, rfl, hm, hopens, hrest⟩ := last_write hlast
    have hmem : m ∈ start.received host key (before ++ e :: after) := by
      rw [received, messages_append, messages_cons, hm]
      simp
    obtain ⟨hbounded, w, hw, hkey, hrp⟩ := sent_of_received hmem
    rw [wallet_of_holds hd] at hw
    obtain rfl := Option.some.inj hw
    obtain ⟨c, rfl, hcarried, -⟩ := receives_received hm
    obtain ⟨⟨-, hexternal⟩, -⟩ := Option.ite_none_right_eq_some.mp hm
    refine ⟨before, c, after, m, rfl, hexternal, hcarried, hkey, hrp, hopens, hbounded, ?_⟩
    rw [run_snoc]
    exact hrest

end

/-! ## Where the calls come from -/

/-- The call of a compiled instruction, over the accounts that its indices point into. -/
structure InvokedAs (metas : List AccountMeta) (executionAccount : ExecutionAccount)
    (scheme : SignerExecutionScheme) (instruction : CompiledInstruction)
    (invocation : Invocation) : Prop where
  programId : metas[instruction.programIdIndex.toNat]?.map (·.pubkey) =
    some invocation.instruction.programId
  data : invocation.instruction.data = instruction.data.toList
  accounts : invocation.instruction.accounts.map some = instruction.accountsIndices.toList.map
    fun index => metas[index.toNat]?.map (executionMeta executionAccount scheme)
  signerSeeds : invocation.signerSeeds = executionAccount.toSignerSeeds

section

variable {rt : Runtime} {accounts rest : List AccountInfo} {ixData : Bytes}
  {executionAccount : ExecutionAccount} {scheme : SignerExecutionScheme}

theorem Built.invokedAs {instruction : CompiledInstruction} {invocation : Invocation}
    (h : Built rest (createInstructionExecutionAccountMetas rest executionAccount scheme)
      executionAccount instruction invocation) :
    InvokedAs (rest.map (·.toMeta)) executionAccount scheme instruction invocation where
  programId := by
    rw [List.getElem?_map, Option.map_map]
    exact h.programId
  data := h.data
  accounts := by
    rw [h.metas, executionAccountMetas_eq]
    simp only [List.getElem?_map]
  signerSeeds := h.signerSeeds

/-- The calls of the loop are the first of its instructions. -/
theorem Processed.invokedAs (rt : Runtime) (rest : List AccountInfo)
    (executionAccount : ExecutionAccount) (scheme : SignerExecutionScheme)
    (instructions : List CompiledInstruction) (account : ExternallySignedAccount) :
    ∃ n, List.Forall₂ (InvokedAs (rest.map (·.toMeta)) executionAccount scheme)
      (instructions.take n) (Processed.invoke rt rest
        (createInstructionExecutionAccountMetas rest executionAccount scheme) executionAccount
        instructions account).invocations := by
  obtain ⟨new, hnew, hbuilt, -⟩ := invokeAll_built rt rest
    (createInstructionExecutionAccountMetas rest executionAccount scheme) executionAccount
    account.finish instructions []
  refine ⟨new.length, ?_⟩
  simp only [Processed.invoke, hnew, List.nil_append]
  exact hbuilt.imp fun _ _ h => (buildInvocation_ok h).invokedAs

/-- Calls are made by an execute instruction whose checks have passed, with a session or without. -/
theorem processInstruction_invokes
    (h : (processInstruction host rt accounts ixData).invocations ≠ []) :
    (∃ data, ∃ run : ExecuteRun host rt (accounts.take maxTxAccounts) data, ixData = 1 :: data ∧
      processInstruction host rt accounts ixData = .invoke rt run.rest run.metas
        run.executionAccount run.args.instructions.toList run.account) ∨
    ∃ data, ∃ run : SessionedRun host rt (accounts.take maxTxAccounts) data, ixData = 3 :: data ∧
      processInstruction host rt accounts ixData = .invoke rt run.rest run.metas
        run.executionAccount run.args.instructions.toList run.account := by
  have hd := processInstruction_dispatch host rt accounts ixData
  generalize processInstruction host rt accounts ixData = p at h hd ⊢
  cases hd with
  | fault => exact absurd rfl h
  | init data => exact absurd (processInitializeExternalAccount_invocations host rt _ _) h
  | execute run => exact .inl ⟨_, run, rfl, rfl⟩
  | refresh => exact absurd rfl h
  | sessioned run => exact .inr ⟨_, run, rfl, rfl⟩

/-- The system program is called by an initialization, before its message is verified. -/
theorem processInstruction_system
    (h : (processInstruction host rt accounts ixData).system ≠ []) :
    ∃ data context, ixData = 0 :: data ∧
      Nonempty (InitializeLoad host rt (accounts.take maxTxAccounts) data context) ∧
      (processInstruction host rt accounts ixData).system <+: context.systemInstructions rt := by
  have hd := processInstruction_dispatch host rt accounts ixData
  generalize processInstruction host rt accounts ixData = p at h hd ⊢
  cases hd with
  | init data =>
    simp only [processInitializeExternalAccount] at h ⊢
    cases hload : loadInitializeExternalAccount host rt (accounts.take maxTxAccounts) data with
    | error fault =>
      rw [hload] at h
      exact absurd rfl h
    | ok context =>
      exact ⟨data, context, rfl, loadInitializeExternalAccount_ok hload,
        invokeSystem_prefix rt (context.systemInstructions rt) []⟩
  | fault => exact absurd rfl h
  | execute => exact absurd rfl h
  | refresh => exact absurd rfl h
  | sessioned => exact absurd rfl h

end

/-! ## The chain -/

/-- The transaction carries a message of the passkey for these calls: they are the first
instructions that its challenge names, in their order, over the accounts that it names. -/
structure SignedCalls (host : Host) (key : Pubkey) (data : P256WebauthnAccountData) (c : Call)
    (calls : List Invocation) : Prop where
  signed : ∃ m : SignedChallenge, m.CarriedBy host c.rt ∧ m.publicKey = data.publicKey ∧
    m.rpIdInfo = data.rpIdInfo ∧ ∃ slothash signer metas instructions scheme executionAccount,
      m.challenge = .execute slothash signer metas instructions ∧
      host.tryFindProgramAddress (executionSeeds host scheme key data) ID =
        some (executionAccount.key, executionAccount.bump) ∧
      ∃ n, List.Forall₂ (InvokedAs metas executionAccount scheme) (instructions.toList.take n) calls

theorem ExecuteRun.signedCalls {l : Ledger} {c : Call} {data : Bytes}
    (run : ExecuteRun host c.rt (c.infos l) data) {n : Nat} {calls : List Invocation}
    (h : List.Forall₂ (InvokedAs (run.rest.map (·.toMeta)) run.executionAccount run.scheme)
      (run.args.instructions.toList.take n) calls) :
    SignedCalls host run.external.key run.before c calls := by
  obtain ⟨hfind, -⟩ := getExecutionAccount_ok run.initialized run.executing
  exact ⟨_, run.acceptance.carriedBy, rfl, rfl, _, _, _, _, _, _, rfl, hfind, n, h⟩

theorem ExecuteRun.holds {l : Ledger} {c : Call} {data : Bytes}
    (run : ExecuteRun host c.rt (c.infos l) data) : l.Holds run.external.key run.before := by
  obtain ⟨howner, hdata⟩ := Call.info_of_head run.accounts_eq
  exact ⟨howner.symm.trans run.owner, hdata ▸ run.initialized⟩

theorem SessionedRun.holds {l : Ledger} {c : Call} {data : Bytes}
    (run : SessionedRun host c.rt (c.infos l) data) : l.Holds run.external.key run.stored := by
  obtain ⟨howner, hdata⟩ := Call.info_of_head run.accounts_eq
  exact ⟨howner.symm.trans run.owner, hdata ▸ run.initialized⟩

/-- The key of the session has signed the transaction, and the session has not run out. -/
structure InSession (data : P256WebauthnAccountData) (c : Call) : Prop where
  signer : ∃ m ∈ c.accounts, m.pubkey = data.sessionKey.key ∧ m.isSigner
  not_expired : c.rt.unixTimestamp.toUInt64 ≤ data.sessionKey.expiration

theorem SessionedRun.inSession {l : Ledger} {c : Call} {data : Bytes}
    (run : SessionedRun host c.rt (c.infos l) data) : InSession run.stored c := by
  have hmem : run.sessionSigner ∈ c.infos l :=
    (congrArg (run.sessionSigner ∈ ·) run.accounts_eq).mpr (by simp)
  obtain ⟨m, hm, hkey, hsigner, -⟩ := Call.granted_of_mem hmem
  exact ⟨⟨m, hm, hkey.trans run.sessionKey.symm, hsigner.trans run.signed⟩, run.not_expired⟩

/-- A session that is used was opened, if there is a clock. -/
theorem InSession.opened {data : P256WebauthnAccountData} {c : Call} (h : InSession data c)
    (hclock : c.rt.unixTimestamp ≠ 0) : data.sessionKey ≠ Wallet.noSession := by
  intro hk
  have hle := h.not_expired
  rw [hk] at hle
  exact hclock (congrArg Int64.ofUInt64 (UInt64.le_antisymm hle UInt64.zero_le))

/-- The calls of the system program are the first of a transfer of the rent to the vacant address of
a public key, from an account that has signed the transaction, and of the allocation and assignment
of that address, signed with its seeds. -/
structure CreatesAccount (host : Host) (l : Ledger) (c : Call) (calls : List SystemInstruction) :
    Prop where
  creates : ∃ key publicKey bump, ∃ payer ∈ c.accounts, c.external = some key ∧
    l key = ⟨systemProgramId, []⟩ ∧ payer.isSigner ∧
    host.tryFindProgramAddress (passkeySeeds host publicKey) ID = some (key, bump) ∧
    calls <+: [
      .transfer payer.pubkey key (c.rt.minimumBalance P256WebauthnAccountData.size),
      .allocate key (.ofNat P256WebauthnAccountData.size) (passkeySeeds host publicKey ++ [[bump]]),
      .assign key ID (passkeySeeds host publicKey ++ [[bump]])]

theorem Call.createsAccount {l : Ledger} {c : Call} (h : (c.process host l).system ≠ []) :
    CreatesAccount host l c (c.process host l).system := by
  obtain ⟨data, context, -, ⟨r⟩, hsystem⟩ := processInstruction_system h
  have haccounts : c.infos l = _ := r.accounts_eq
  obtain ⟨howner, hdata⟩ := Call.info_of_head haccounts
  have hmem : r.rentPayer ∈ c.infos l :=
    (congrArg (r.rentPayer ∈ ·) haccounts).mpr (by simp)
  obtain ⟨m, hm, hkey, hsigner, -⟩ := Call.granted_of_mem hmem
  refine ⟨r.external.key, _, _, m, hm, Call.head_pubkey (congrArg List.head? haccounts), ?_,
    hsigner.trans r.nonce.signed, r.key ▸ r.derived.found, ?_⟩
  · rw [← r.uninitialized.1, ← r.uninitialized.2, howner, hdata]
  · rw [hkey, ← r.derived.seeds_eq, ← r.payer, ← r.account]
    exact hsystem

namespace Sample

theorem initCall_system : (initCall.process .solana genesis).system ≠ [] := by
  rw [← recorded.host_eq]
  decide +kernel

theorem wrappedCall_invokes : (wrappedCall.process .solana
    (run (Ledger.step .solana) genesis [.call initCall, .call refreshCall])).invocations ≠ [] := by
  rw [run_cons, step_initCall, run_cons, step_refreshCall, run_nil, ← executeRecorded.host_eq]
  decide +kernel

end Sample

end ExternalSignature
