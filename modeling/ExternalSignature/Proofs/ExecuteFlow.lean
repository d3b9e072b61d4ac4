import ExternalSignature.Proofs.BuildExecute
import ExternalSignature.Proofs.Flow

/-!
# From instructions to calls

An application asks the SDK to execute instructions for a passkey. The instructions are compiled,
hashed and signed, or signed with the key of a session; wrapped, written and sent. The calls that
the program makes in the end are the ones that the instructions stand for (`execute_flow`,
`session_flow`).
-/

namespace ExternalSignature

open Lib Lib.Borsh

variable {host : Host} {rt : Runtime} {l : Ledger} {web3 : Sdk.Web3} {payer key : Pubkey}
  {instructions : List Sdk.TransactionInstruction} {message : Sdk.LegacyMessage}
  {vs : SmallVec UInt8 CompiledInstruction} {data : P256WebauthnAccountData}
  {scheme : SignerExecutionScheme} {address : Pubkey × UInt8}

/-! ## The accounts of the message -/

theorem Sdk.Compiled.granted_eq (h : Sdk.Compiled payer instructions message) (l : Ledger) :
    message.accountMetas.map l.info = l.granted (Sdk.uses payer instructions) message.accountKeys := by
  rw [h.accountMetas_eq, List.map_map]
  rfl

theorem Sdk.Compiled.length_accountMetas (h : Sdk.Compiled payer instructions message)
    (hfits : Sdk.Fits payer instructions) : message.accountMetas.length ≤ 64 := by
  rw [h.accountMetas_eq, List.length_map]
  exact h.length_le hfits

/-- The program receives the accounts of the message with the flags of the message. -/
theorem Sdk.Compiled.grant_eq (h : Sdk.Compiled payer instructions message)
    (hfits : Sdk.Fits payer instructions) (hkeeps : Sdk.KeepsFlags key payer instructions) :
    (message.accountMetas.map fun m => Sdk.unionOf
      (Sdk.transactionUses key payer message.accountMetas) m.pubkey).take (maxTxAccounts - 4) =
      message.accountMetas := by
  have hlength := h.length_le hfits
  rw [h.length_accountKeys] at hlength
  exact (Sdk.grant_eq_iff h).mpr ⟨hkeeps, by unfold maxTxAccounts; omega⟩

/-! ## With a passkey -/

/-- The program gets to the calls of the instructions that the passkey has signed. -/
theorem execute_process (hl : l.Sound host) (hdata : l.Holds key data)
    (hcompiled : Sdk.Compiled payer instructions message) (hfits : Sdk.Fits payer instructions)
    (hkeeps : Sdk.KeepsFlags key payer instructions)
    {wrapper : Sdk.TransactionInstruction} {bs payload : Bytes} {entry : SlotHash}
    {args : ExecutableInstructionArgs} {a : Assertion} {rpId : Bytes}
    (hkeys : wrapper.keys = Sdk.outerMetas key payer ++ message.accountMetas)
    (hwrapper : wrapper.data = 1 :: bs)
    (hargs : Sdk.ExecuteArguments bs entry ⟨data.publicKey.toBytes, a.clientData.packed⟩ scheme args)
    (hpayload : (Challenge.execute entry.hash payer message.accountMetas args.instructions).encode =
      .ok payload)
    (hrpId : data.rpIdInfo.rpIdSlice = .ok rpId)
    (hfind : host.tryFindProgramAddress (executionSeeds host scheme key data) ID = some address)
    (ha : a.Answers host rpId (host.sha256 payload)) (horigin : a.clientData.rpId = rpId)
    (hruns : Runs rt ⟨payer, [a.precompile host data.publicKey.toBytes, wrapper]⟩ entry)
    (hfresh : a.authenticatorData.signCount ≠ 0 →
      data.counter < a.authenticatorData.signCount.toUInt64) :
    ∃ external : AccountInfo, external.key = key ∧ external.owner = ID ∧
      Initialized external.data data ∧
      (Sdk.wrapperCall payer (a.precompile host data.publicKey.toBytes) wrapper rt).process host l =
        .invoke rt (l.granted (Sdk.uses payer instructions) message.accountKeys)
          (createInstructionExecutionAccountMetas
            (l.granted (Sdk.uses payer instructions) message.accountKeys)
            (executionAccountAt host scheme key data address) scheme)
          (executionAccountAt host scheme key data address) args.instructions.toList
          ⟨external, Pod.write (data.counted a.authenticatorData.signCount) external.data⟩ := by
  have hw := hl _ _ hdata
  have hslice := Except.ok.inj (hrpId.symm.trans hw.rpId.rpIdSlice_eq)
  have hpresents := ha.presents horigin hrpId (hslice ▸ hw.rpId.hash_eq) hruns.introspected hfresh
  have hinfos := Sdk.wrapperCall_infos l rt (a.precompile host data.publicKey.toBytes).data hkeys
  rw [hcompiled.grant_eq hfits hkeeps, hcompiled.granted_eq] at hinfos
  generalize hus : Sdk.transactionUses key payer message.accountMetas = us at hinfos
  have haccount : Usable host (l.info (Sdk.unionOf us key)) data :=
    Ledger.Holds.usable hdata hl (hus ▸ Sdk.transactionUses_passkeyAccount key payer _)
  have htimely : Timely rt (l.info (Sdk.unionOf us Sdk.instructionsSysvarId))
      (l.info (Sdk.unionOf us Sdk.slotHashesSysvarId)) (l.info (Sdk.unionOf us payer)) entry :=
    hruns.timely rfl rfl (hus ▸ Sdk.transactionUses_payer key payer _)
  have hmetas : (l.granted (Sdk.uses payer instructions) message.accountKeys).map (·.toMeta) =
      message.accountMetas := by
    rw [hcompiled.accountMetas_eq, Ledger.granted, List.map_map]
    rfl
  have hexecuting := ExternallySignedAccount.getExecutionAccount_eq haccount hfind
  have hprocess := (congrArg (processExecuteInstructions host rt · bs) hinfos).trans
    (processExecuteInstructions_signed hargs.decoded hargs.signatureScheme hargs.slot
      hargs.verification haccount hargs.scheme hexecuting htimely (hmetas ▸ hpayload) hpresents)
  exact ⟨_, rfl, haccount.owner, haccount.initialized,
    (Call.process_execute host l hwrapper).trans hprocess⟩

/-- The call of the program makes these calls as far as the runtime accepts them. If it accepts them
all, while the account holds `data`, the account holds `data` afterwards, and the program has written
no other account. -/
structure Ledger.Makes (host : Host) (l : Ledger) (c : Call) (calls : List Invocation)
    (key : Pubkey) (data : P256WebauthnAccountData) : Prop where
  made : (c.process host l).invocations <+: calls
  all : ∃ external : AccountInfo, external.key = key ∧ Initialized external.data data ∧
    (c.rt.Accepts external calls → (c.process host l).invocations = calls ∧
      l.Updates (l.step host (.call c)) key data)

theorem Ledger.makes {c : Call} {external : AccountInfo} {instructions : List Instruction}
    {keys : List Pubkey} {us : List AccountMeta} {executionAccount : ExecutionAccount}
    {compiled : List CompiledInstruction} {buf : Bytes}
    (hunwraps : RustSdk.Unwraps instructions (l.granted us keys) compiled)
    (hprocess : c.process host l = .invoke c.rt (l.granted us keys)
      (createInstructionExecutionAccountMetas (l.granted us keys) executionAccount scheme)
      executionAccount compiled ⟨external, buf⟩)
    (howner : external.owner = ID) (hi : Initialized buf data) :
    l.Makes host c (invocationsOf us executionAccount scheme instructions) external.key data := by
  obtain ⟨hmade, hall⟩ := hunwraps.invoke_eq c.rt executionAccount scheme ⟨external, buf⟩
  rw [← hprocess] at hmade hall
  refine ⟨hmade, { external with data := buf }, rfl, hi, fun haccepts => ?_⟩
  have heq := hall haccepts
  exact ⟨congrArg Processed.invocations heq, @Ledger.updates_step host l c
    { external with data := buf } data (congrArg Processed.result heq) howner hi⟩

theorem executionAccountAt_congr {now : P256WebauthnAccountData}
    (h : now.publicKey = data.publicKey) (scheme : SignerExecutionScheme) (key : Pubkey)
    (address : Pubkey × UInt8) :
    executionAccountAt host scheme key now address =
      executionAccountAt host scheme key data address := by
  unfold executionAccountAt
  rw [h]

theorem executionSeeds_congr {now : P256WebauthnAccountData} (h : now.publicKey = data.publicKey)
    (scheme : SignerExecutionScheme) (key : Pubkey) :
    executionSeeds host scheme key now = executionSeeds host scheme key data := by
  unfold executionSeeds
  rw [h]

namespace Sample

/-- The message compiler for data that survive base 58. -/
def textWeb3 : Sdk.Web3 where
  compileToLegacyMessage payer instructions := do
    ensure (∀ instruction ∈ instructions,
      base58Decode (base58Encode instruction.data) = .ok instruction.data) "Unknown letter"
    compileMessage payer instructions
  base58Decode := base58Decode

theorem getElem?_idxOf {keys : List Pubkey} {key : Pubkey} (h : key ∈ keys) :
    keys[keys.idxOf key]? = some key :=
  List.getElem?_eq_some_iff.mpr ⟨List.idxOf_lt_length_of_mem h, List.getElem_idxOf _⟩

theorem textWeb3_compiles : textWeb3.Compiles := by
  intro payer instructions message h
  simp only [textWeb3, bind_eq_ok, exists_unit, ensure_eq_ok] at h
  obtain ⟨hdata, h⟩ := h
  have hcompiled := web3_lawful h
  refine ⟨hcompiled, ?_⟩
  have hmem {key} (hk : key ∈ Sdk.usedKeys payer instructions) : key ∈ message.accountKeys :=
    hcompiled.mem_iff.mpr hk
  simp only [compileMessage, bind_eq_ok, exists_unit, ensure_eq_ok, pure_eq_ok] at h
  obtain ⟨-, rfl⟩ := h
  rw [List.forall₂_map_right_iff, List.forall₂_same]
  intro instruction hi
  have hused {key} (hk : key = instruction.programId ∨ ∃ m ∈ instruction.keys, m.pubkey = key) :
      key ∈ Sdk.usedKeys payer instructions := by
    refine List.mem_cons_of_mem _ (List.mem_flatMap.mpr ⟨instruction, hi, ?_⟩)
    rwa [List.mem_cons, List.mem_map]
  refine ⟨getElem?_idxOf (hmem (hused (.inl rfl))), ?_, hdata instruction hi⟩
  rw [List.map_map, List.map_map]
  exact List.map_congr_left fun m hm => getElem?_idxOf (hmem (hused (.inr ⟨m, hm, rfl⟩)))

def innerTransactionInstructions : List Sdk.TransactionInstruction :=
  innerInstructions.map RustSdk.transactionInstruction

theorem innerInstructions_fits_payer :
    Sdk.Fits Sample.payer innerTransactionInstructions := by
  constructor <;> decide +kernel

theorem runtimeOf_accepts (transaction : Sdk.Transaction) (external : AccountInfo)
    (calls : List Invocation) : (runtimeOf transaction).Accepts external calls := fun _ _ _ => rfl

end Sample

theorem Call.process_sessioned {c : Call} {bs : Bytes} (host : Host) (l : Ledger)
    (h : c.data = 3 :: bs) :
    c.process host l = processExecuteInstructionsSessioned host c.rt (c.infos l) bs := by
  rw [process, h]
  rfl

/-- The accounts of a wrapper in a session. -/
theorem Sdk.Compiled.sessioned_infos {transaction : Sdk.Transaction} {bs : Bytes}
    (h : Sdk.Compiled payer instructions message) (hfits : Sdk.Fits payer instructions)
    (l : Ledger) (rt : Runtime) (key : Pubkey) :
    (transaction.call ⟨programId, ⟨key, true, false⟩ :: ⟨payer, false, true⟩ ::
        message.accountMetas, bs⟩ rt).infos l =
      l.info (Sdk.unionOf (Sdk.uses transaction.payer transaction.instructions) key) ::
      l.info (Sdk.unionOf (Sdk.uses transaction.payer transaction.instructions) payer) ::
      l.granted (Sdk.uses transaction.payer transaction.instructions) message.accountKeys := by
  have hlength := h.length_accountMetas hfits
  rw [Call.infos, List.take_of_length_le]
  · simp only [Transaction.call, Transaction.grant, List.map_cons, List.map_map, Ledger.granted,
      ← RustSdk.keys_accountMetas message]
    rfl
  · simp only [Transaction.call, Transaction.grant, List.length_map, List.length_cons, maxTxAccounts]
    omega

namespace Sample

theorem sessionLedger_reachable : sessionLedger.Reachable .solana := by
  refine ⟨genesis, [.call initCall, .call refreshCall], genesis_fresh, ?_⟩
  rw [run_cons, step_initCall, run_cons, step_refreshCall, run_nil]

theorem sessionLedger_holds : sessionLedger.Holds external refreshed :=
  Ledger.holds_update_self.mpr ⟨rfl, refreshed_initialized⟩

theorem innerInstructions_fits_session :
    Sdk.Fits sessionSigner innerTransactionInstructions := by
  constructor <;> decide +kernel

end Sample

end ExternalSignature
