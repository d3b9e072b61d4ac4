import ExternalSignature.Proofs.Steps
import ExternalSignature.Proofs.Authority
import ExternalSignature.Proofs.Wire
import ExternalSignature.Sdk.Instructions
import Mathlib.Data.List.Dedup

/-!
# The execute challenge of the SDK

The passkey signs what the SDK hashes, and the program compares it with what it hashes itself.
The SDK takes the flags of the accounts from a message of the inner instructions alone
(`Compiled.accountMetas_eq`); the program sees the flags that the transaction grants. They are the
same for every account but the external account, which the outer instruction always makes writable
(`unionOf_transaction`). So the challenges agree exactly when the inner instructions leave that
account out or make it writable themselves (`execute_challenge_agrees`).
-/

namespace ExternalSignature

open Lib Lib.Borsh

namespace Sdk

variable {web3 : Web3} {payer : Pubkey} {instructions : List TransactionInstruction}
  {message : LegacyMessage}

/-! ## The accounts of a message -/

theorem mapIdx_eq_map {α β : Type} {f : Nat → α → β} {g : α → β} {l : List α}
    (h : ∀ i < l.length, ∀ a ∈ l, f i a = g a) : l.mapIdx f = l.map g := by
  apply List.ext_getElem
  · simp
  · intro i hi hi'
    rw [List.length_mapIdx] at hi
    rw [List.getElem_mapIdx, List.getElem_map]
    exact h i hi _ (List.getElem_mem hi)

/-- The header gives each account the union of the flags of its uses. -/
theorem Compiled.accountMetas_eq (h : Compiled payer instructions message) :
    message.accountMetas = message.accountKeys.map (unionOf (uses payer instructions)) := by
  obtain ⟨ws, rs, wu, ru, hkeys, hheader, hws, hrs, hwu, hru⟩ := h.layout
  simp only [LegacyMessage.accountMetas, hkeys, hheader, List.mapIdx_append, List.map_append,
    List.length_append]
  congr 1
  · congr 1
    · congr 1
      · refine mapIdx_eq_map fun i hi key hk => ?_
        have hs : i < ws.length + rs.length := by omega
        simp [hws key hk, hs, hi]
      · refine mapIdx_eq_map fun i hi key hk => ?_
        have hs : i + ws.length < ws.length + rs.length := by omega
        simp [hrs key hk, hs]
    · refine mapIdx_eq_map fun i hi key hk => ?_
      have hw : i + (ws.length + rs.length) < ws.length + rs.length + wu.length := by omega
      simp [hwu key hk, hw]
  · refine mapIdx_eq_map fun i hi key hk => ?_
    have hs : ws.length + rs.length ≤ i + (ws.length + rs.length + wu.length) := by omega
    simp [hru key hk, hs]

theorem Compiled.length_accountKeys (h : Compiled payer instructions message) :
    message.accountKeys.length = (usedKeys payer instructions).dedup.length := by
  apply List.Perm.length_eq
  rw [List.perm_ext_iff_of_nodup h.nodup (List.nodup_dedup _)]
  intro key
  rw [h.mem_iff, List.mem_dedup]

theorem uses_isWritable {key : Pubkey} :
    (unionOf (uses payer instructions) key).isWritable ↔ key = payer ∨
      ∃ instruction ∈ instructions, ∃ m ∈ instruction.keys, m.pubkey = key ∧ m.isWritable := by
  rw [unionOf_isWritable]
  simp only [uses, List.mem_cons, List.mem_flatMap]
  constructor
  · rintro ⟨m, rfl | ⟨instruction, hi, hm⟩, hk, hw⟩
    · exact .inl hk.symm
    · exact .inr ⟨instruction, hi, m, hm, hk, hw⟩
  · rintro (rfl | ⟨instruction, hi, m, hm, hk, hw⟩)
    · exact ⟨_, .inl rfl, rfl, rfl⟩
    · exact ⟨m, .inr ⟨instruction, hi, hm⟩, hk, hw⟩

theorem uses_payer_isSigner : (unionOf (uses payer instructions) payer).isSigner :=
  unionOf_isSigner.mpr ⟨_, List.mem_cons_self, rfl, rfl⟩

/-! ## The accounts of the transaction -/

/-- The accounts that the wrapping instruction uses itself. -/
def outerMetas (passkeyAccount nonceSigner : Pubkey) : List AccountMeta :=
  [⟨passkeyAccount, true, false⟩, ⟨instructionsSysvarId, false, false⟩,
    ⟨slotHashesSysvarId, false, false⟩, ⟨nonceSigner, true, true⟩]

section

variable (passkeyAccount : Pubkey) {nonceSigner key : Pubkey} {keys : List Pubkey}
  {inner : List AccountMeta}

/-- The uses in the transaction of a precompile and a wrapping instruction. -/
def transactionUses (passkeyAccount nonceSigner : Pubkey) (metas : List AccountMeta) :
    List AccountMeta :=
  ⟨nonceSigner, true, true⟩ :: (outerMetas passkeyAccount nonceSigner ++ metas)

theorem transaction_isSigner (hk : key ∈ keys)
    (hpayer : (unionOf inner nonceSigner).isSigner) :
    (unionOf (transactionUses passkeyAccount nonceSigner (keys.map (unionOf inner)))
      key).isSigner = (unionOf inner key).isSigner := by
  rw [Bool.eq_iff_iff, unionOf_isSigner]
  constructor
  · rintro ⟨m, hm, rfl, hs⟩
    simp only [transactionUses, outerMetas, List.cons_append, List.nil_append, List.mem_cons,
      List.mem_map] at hm
    rcases hm with rfl | rfl | rfl | rfl | rfl | ⟨k, -, rfl⟩
    · exact hpayer
    · cases hs
    · cases hs
    · cases hs
    · exact hpayer
    · exact hs
  · intro hs
    refine ⟨unionOf inner key, ?_, rfl, hs⟩
    simp only [transactionUses, List.mem_cons, List.mem_append]
    exact .inr (.inr (List.mem_map_of_mem hk))

theorem transaction_isWritable (hk : key ∈ keys)
    (hpayer : (unionOf inner nonceSigner).isWritable) :
    (unionOf (transactionUses passkeyAccount nonceSigner (keys.map (unionOf inner)))
      key).isWritable = (decide (key = passkeyAccount) || (unionOf inner key).isWritable) := by
  rw [Bool.eq_iff_iff, unionOf_isWritable, Bool.or_eq_true, decide_eq_true_eq]
  constructor
  · rintro ⟨m, hm, rfl, hw⟩
    simp only [transactionUses, outerMetas, List.cons_append, List.nil_append, List.mem_cons,
      List.mem_map] at hm
    rcases hm with rfl | rfl | rfl | rfl | rfl | ⟨k, -, rfl⟩
    · exact .inr hpayer
    · exact .inl rfl
    · cases hw
    · cases hw
    · exact .inr hpayer
    · exact .inr hw
  · simp only [transactionUses, outerMetas, List.mem_cons, List.mem_append]
    rintro (rfl | hw)
    · exact ⟨_, .inr (.inl (.inl rfl)), rfl, rfl⟩
    · exact ⟨unionOf inner key, .inr (.inr (List.mem_map_of_mem hk)), rfl, hw⟩

/-- The outer instruction changes the flags of the external account only. -/
theorem unionOf_transaction (hk : key ∈ keys) (hsigner : (unionOf inner nonceSigner).isSigner)
    (hwritable : (unionOf inner nonceSigner).isWritable) :
    unionOf (transactionUses passkeyAccount nonceSigner (keys.map (unionOf inner))) key =
      unionOf inner key ↔ (key = passkeyAccount → (unionOf inner key).isWritable) := by
  have hs := transaction_isSigner passkeyAccount hk hsigner
  have hw := transaction_isWritable passkeyAccount hk hwritable
  constructor
  · intro h hp
    rw [← h, hw, hp]
    simp
  · intro h
    have hw' : (unionOf (transactionUses passkeyAccount nonceSigner
        (keys.map (unionOf inner))) key).isWritable = (unionOf inner key).isWritable := by
      rw [hw]
      by_cases hp : key = passkeyAccount
      · simp [hp, hp ▸ h hp]
      · simp [hp]
    exact congrArg₂ (AccountMeta.mk key) hw' hs

end

/-! ## What the SDK hashes -/

theorem Matches.unique {input : CompiledInstructionWire} {a b : CompiledInstruction}
    (ha : input.Matches a) (hb : input.Matches b) : a = b := by
  obtain ⟨index, accountsIndices, data⟩ := a
  obtain ⟨index', accountsIndices', data'⟩ := b
  obtain ⟨hi, hx, hd⟩ := ha
  obtain ⟨hi', hx', hd'⟩ := hb
  obtain rfl : index = index' := hi.trans hi'.symm
  obtain rfl := SmallVec.ext (hx.trans hx'.symm)
  obtain rfl := SmallVec.ext (hd.trans hd'.symm)
  rfl

theorem forall₂_unique {inputs : List CompiledInstructionWire} {as bs : List CompiledInstruction}
    (ha : List.Forall₂ CompiledInstructionWire.Matches inputs as)
    (hb : List.Forall₂ CompiledInstructionWire.Matches inputs bs) : as = bs := by
  induction ha generalizing bs with
  | nil =>
    cases hb
    rfl
  | cons h _ ih =>
    obtain _ | ⟨h', hbs⟩ := hb
    rw [Matches.unique h h', ih hbs]

theorem serializeAccountMetaList_ok {metas : List AccountMeta} {bs : Bytes} :
    serializeAccountMetaList metas = .ok bs ↔
      metas.length ≤ 255 ∧ .ofNat metas.length :: metas.flatMap AccountMeta.encode = bs := by
  simp only [serializeAccountMetaList, bind_eq_ok, exists_unit, ensure_eq_ok, pure_eq_ok,
    concatBytes, List.flatten_cons, ← List.flatMap_def]
  rfl

/-- The SDK hashes the encoding of a challenge. -/
theorem executeInstructionsPreimage_ok {nonceSigner : Pubkey} {recentSlotHash preimage : Bytes}
    (h : executeInstructionsPreimage web3 nonceSigner recentSlotHash instructions = .ok preimage) :
    ∃ (compiled : CompiledExecutionPayload) (slothash : ByteArr 32)
      (vs : SmallVec UInt8 CompiledInstruction),
      compileInstructionsForExecution web3 instructions nonceSigner = .ok compiled ∧
      slothash.val = recentSlotHash ∧ compiled.accountMetas.length ≤ 255 ∧
      List.Forall₂ CompiledInstructionWire.Matches compiled.compiledInstructions vs.toList ∧
      (Challenge.execute slothash nonceSigner compiled.accountMetas vs).encode = .ok preimage := by
  simp only [executeInstructionsPreimage, bind_eq_ok, expectLength_ok, serializeAccountMetaList_ok,
    pure_eq_ok] at h
  obtain ⟨compiled, hc, _, ⟨hl, rfl⟩, _, ⟨hm, rfl⟩, x, hx, rfl⟩ := h
  obtain ⟨vs, hvs, hs⟩ := serializeCompiledInstructions_ok hx
  obtain ⟨len, marker, items, hlen, hmarker, hitems, rfl⟩ := serialize_smallVec_ok.mp hs
  cases hmarker
  refine ⟨compiled, ⟨recentSlotHash, hl⟩, vs, hc, rfl, hm, hvs, ?_⟩
  refine bind_eq_ok.mpr ⟨_, bind_eq_ok.mpr ⟨items, hitems, rfl⟩, ?_⟩
  have hlen : UInt8.ofNat vs.toList.length = len := by
    rw [← hlen]
    exact UInt8.ofNat_toNat
  simp [concatBytes, hlen, Challenge.slothash, Challenge.signer, pure_eq_ok]

end Sdk

/-! ## What the program hashes -/

section

variable (host : Host) (rt : Runtime) (accounts : List AccountInfo) (data : Bytes)

/-- The part of `process_execute_instructions` before the hash. -/
def executeContext : Outcome ExecuteInstructionsContext := do
  let args ← mapErr (.custom .invalidExecutionArgs) (tryFromSlice ExecutableInstructionArgs data)
  let .p256Webauthn ← okOr (.custom .invalidSignatureScheme)
    (SignatureScheme.tryFromPrimitive args.signatureScheme)
  ExecuteInstructionsContext.load host rt accounts args

/-- The string that the program hashes is the payload of this context. -/
theorem verifyExecuteInstructions_eq : verifyExecuteInstructions host rt accounts data = do
    let context ← executeContext host rt accounts data
    let payload ← instructionPayload context.nonceData context.instructionExecutionAccounts
      context.instructions
    let account ← context.externallySignedAccount.verifyPayload host context.instructionsSysvar
      context.verificationData (host.sha256 payload).val
    return (context, account) := by
  simp only [verifyExecuteInstructions, executeContext,
    ExecuteInstructionsContext.getInstructionPayloadHash, bind_assoc, pure_bind]

end

theorem executeContext_ok {host : Host} {rt : Runtime} {accounts : List AccountInfo} {data : Bytes}
    {context : ExecuteInstructionsContext}
    (h : executeContext host rt accounts data = .ok context) :
    ∃ args external instructionsSysvar slothashesSysvar nonceSigner,
      tryFromSlice ExecutableInstructionArgs data = .ok args ∧
      accounts = external :: instructionsSysvar :: slothashesSysvar :: nonceSigner ::
        context.instructionExecutionAccounts ∧
      context.nonceData.signerKey = nonceSigner.key ∧
      context.instructions = args.instructions.toList := by
  simp only [executeContext, bind_eq_ok, mapErr_eq_ok, okOr_eq_ok] at h
  obtain ⟨args, hargs, ⟨⟩, -, hload⟩ := h
  unfold ExecuteInstructionsContext.load at hload
  split at hload
  · rename_i external instructionsSysvar slothashesSysvar nonceSigner rest
    simp only [bind_eq_ok, mapErr_eq_ok, okOr_eq_ok, pure_eq_ok] at hload
    obtain ⟨_, -, _, -, _, -, _, -, _, -, _, -, nonceData, hnonce, _, -, _, -, rfl⟩ := hload
    obtain ⟨n⟩ := validateNonce_ok hnonce
    exact ⟨args, external, instructionsSysvar, slothashesSysvar, nonceSigner, hargs, rfl,
      n.signerKey, rfl⟩
  · cases hload

/-- The context of a call of `execute_instructions`. -/
def Call.executeContext (host : Host) (l : Ledger) (c : Call) : Outcome ExecuteInstructionsContext :=
  match c.data with
  | [] => .error (.err .invalidInstructionData)
  | discriminator :: data =>
    if discriminator = 1 then ExternalSignature.executeContext host c.rt (c.infos l) data
    else .error (.err .invalidInstructionData)

/-- The call that the runtime makes for an instruction of the transaction. -/
def Sdk.Transaction.call (transaction : Sdk.Transaction) (instruction : Sdk.TransactionInstruction)
    (rt : Runtime) : Call :=
  ⟨rt, transaction.grant instruction, instruction.data⟩

/-! ## The challenges agree -/

namespace Sdk

variable {web3 : Web3} {sha256 : Bytes → ByteArr 32} {input : ExecuteInstructionsInput}
  {wrapped : WrappedInstructionResult}

/-- What the builder has done: the wrapping instruction, and the challenge of its instructions. -/
theorem buildExecuteInstructions_ok (h : buildExecuteInstructions web3 sha256 input = .ok wrapped) :
    ∃ (compiled : CompiledExecutionPayload) (args : ExecutableInstructionArgs)
      (bs preimage : Bytes),
      compileInstructionsForExecution web3 input.instructions input.nonceSigner = .ok compiled ∧
      tryFromSlice ExecutableInstructionArgs bs = .ok args ∧
      List.Forall₂ CompiledInstructionWire.Matches compiled.compiledInstructions
        args.instructions.toList ∧
      wrapped.instruction = ⟨programId,
        outerMetas input.passkeyAccount input.nonceSigner ++ compiled.accountMetas, 1 :: bs⟩ ∧
      executeInstructionsPreimage web3 input.nonceSigner input.recentSlotHash input.instructions =
        .ok preimage ∧
      wrapped.challenge = sha256 preimage := by
  simp only [buildExecuteInstructions, bind_eq_ok, pure_eq_ok] at h
  obtain ⟨compiled, hc, _, -, slot, -, bs, hbs, ⟨_, _⟩, hchallenge, rfl⟩ := h
  obtain ⟨preimage, hp, h⟩ := bind_eq_ok.mp hchallenge
  cases pure_eq_ok.mp h
  obtain ⟨args, hm, hs⟩ := serializeExecuteInstructionArgs_ok hbs
  refine ⟨compiled, args, bs, preimage, hc, tryFromSlice_serialize hs, hm.2.2.2.2, ?_, hp, rfl⟩
  simp [concatBytes, outerMetas]

/-- The inner instructions leave the external account out, or make it writable themselves. -/
def KeepsFlags (passkeyAccount payer : Pubkey) (instructions : List TransactionInstruction) : Prop :=
  passkeyAccount ∈ usedKeys payer instructions → passkeyAccount = payer ∨
    ∃ instruction ∈ instructions, ∃ m ∈ instruction.keys, m.pubkey = passkeyAccount ∧ m.isWritable

def ExecuteInstructionsInput.KeepsFlags (input : ExecuteInstructionsInput) : Prop :=
  Sdk.KeepsFlags input.passkeyAccount input.nonceSigner input.instructions

/-- With the four of the wrapping instruction, the entrypoint keeps every account. -/
def ExecuteInstructionsInput.Fits (input : ExecuteInstructionsInput) : Prop :=
  (usedKeys input.nonceSigner input.instructions).dedup.length + 4 ≤ maxTxAccounts

theorem take_map_eq_iff {α : Type} {f : α → α} {l : List α} {n : Nat} :
    (l.map f).take n = l ↔ l.length ≤ n ∧ ∀ a ∈ l, f a = a := by
  constructor
  · intro h
    have hl := congrArg List.length h
    rw [List.length_take, List.length_map] at hl
    rw [List.take_of_length_le (by rw [List.length_map]; omega)] at h
    exact ⟨by omega, fun a ha => List.map_inj_left.mp (h.trans (List.map_id l).symm) a ha⟩
  · rintro ⟨hl, h⟩
    rw [List.take_of_length_le (by rwa [List.length_map])]
    exact (List.map_congr_left h).trans (List.map_id l)

/-- The transaction presents the accounts with the flags that the SDK has hashed. -/
theorem grant_eq_iff {passkeyAccount payer : Pubkey} {instructions : List TransactionInstruction}
    {message : LegacyMessage} (h : Compiled payer instructions message) :
    (message.accountMetas.map fun m => unionOf (transactionUses passkeyAccount payer
      message.accountMetas) m.pubkey).take (maxTxAccounts - 4) = message.accountMetas ↔
      KeepsFlags passkeyAccount payer instructions ∧
        (usedKeys payer instructions).dedup.length + 4 ≤ maxTxAccounts := by
  have hmetas := h.accountMetas_eq
  have hlength : message.accountMetas.length = (usedKeys payer instructions).dedup.length := by
    rw [hmetas, List.length_map, h.length_accountKeys]
  have hflags : ∀ key ∈ message.accountKeys,
      unionOf (transactionUses passkeyAccount payer message.accountMetas) key =
        unionOf (uses payer instructions) key ↔
      (key = passkeyAccount → (unionOf (uses payer instructions) key).isWritable) := by
    intro key hk
    rw [hmetas]
    exact unionOf_transaction _ hk uses_payer_isSigner (uses_isWritable.mpr (.inl rfl))
  rw [take_map_eq_iff, hlength, and_comm]
  refine and_congr ?_ (by unfold maxTxAccounts; omega)
  constructor
  · intro hall hused
    have hk := h.mem_iff.mpr hused
    have hm := hall (unionOf (uses payer instructions) passkeyAccount)
      (hmetas ▸ List.mem_map_of_mem hk)
    exact uses_isWritable.mp ((hflags _ hk).mp hm rfl)
  · intro hkeeps m hm
    obtain ⟨key, hk, rfl⟩ := List.mem_map.mp (hmetas ▸ hm)
    refine (hflags key hk).mpr ?_
    rintro rfl
    exact uses_isWritable.mpr (hkeeps (h.mem_iff.mp hk))

theorem transaction_uses (signature : Bytes) {instruction : TransactionInstruction}
    {nonceSigner passkeyAccount : Pubkey} {metas : List AccountMeta}
    (h : instruction.keys = outerMetas passkeyAccount nonceSigner ++ metas) :
    uses nonceSigner [secp256r1Instruction signature, instruction] =
      transactionUses passkeyAccount nonceSigner metas := by
  simp [uses, secp256r1Instruction, transactionUses, h]

/-- The context of the call that the runtime makes for a wrapping instruction. -/
theorem executeContext_call {instruction : TransactionInstruction} {nonceSigner : Pubkey}
    {passkeyAccount : Pubkey} {metas : List AccountMeta} {signature bs : Bytes} {host : Host}
    {l : Ledger} {rt : Runtime} {args : ExecutableInstructionArgs}
    {context : ExecuteInstructionsContext}
    (hinstruction : instruction =
      ⟨programId, outerMetas passkeyAccount nonceSigner ++ metas, 1 :: bs⟩)
    (hargs : tryFromSlice ExecutableInstructionArgs bs = .ok args)
    (h : (Transaction.call ⟨nonceSigner, [secp256r1Instruction signature, instruction]⟩
      instruction rt).executeContext host l = .ok context) :
    context.instructionExecutionAccounts.map (·.toMeta) =
        (metas.map fun m => unionOf (transactionUses passkeyAccount nonceSigner metas)
          m.pubkey).take (maxTxAccounts - 4) ∧
      context.nonceData.signerKey = nonceSigner ∧
      context.instructions = args.instructions.toList := by
  have huses := transaction_uses signature
    (show instruction.keys = outerMetas passkeyAccount nonceSigner ++ metas by rw [hinstruction])
  subst instruction
  obtain ⟨args', external, instructionsSysvar, slothashesSysvar, nonce, hargs', haccounts, hsigner,
    hinstructions⟩ := executeContext_ok h
  obtain rfl := Except.ok.inj (hargs.symm.trans hargs')
  simp only [Call.infos, Transaction.call, Transaction.grant, huses] at haccounts
  simp only [outerMetas, List.map_cons, List.cons_append, List.nil_append, maxTxAccounts,
    List.take_succ_cons, List.cons.injEq] at haccounts
  obtain ⟨-, -, -, rfl, hrest⟩ := haccounts
  refine ⟨?_, hsigner, hinstructions⟩
  rw [← hrest, ← List.map_take, List.map_map]
  exact List.map_id _

end Sdk

/-- The program and the SDK hash the same string exactly when the transaction keeps the flags of
the inner instructions. -/
theorem execute_challenge_agrees {web3 : Sdk.Web3} (hweb3 : web3.Lawful) {host : Host}
    {input : Sdk.ExecuteInstructionsInput} {wrapped : Sdk.WrappedInstructionResult}
    (hbuild : Sdk.buildExecuteInstructions web3 host.sha256 input = .ok wrapped)
    (signature : Bytes) (l : Ledger) (rt : Runtime) {context : ExecuteInstructionsContext}
    (hcontext : (Sdk.Transaction.call
      ⟨input.nonceSigner, [Sdk.secp256r1Instruction signature, wrapped.instruction]⟩
      wrapped.instruction rt).executeContext host l = .ok context)
    (hslothash : context.nonceData.slothash.val = input.recentSlotHash) :
    ∃ preimage,
      Sdk.executeInstructionsPreimage web3 input.nonceSigner input.recentSlotHash
        input.instructions = .ok preimage ∧
      wrapped.challenge = host.sha256 preimage ∧
      (instructionPayload context.nonceData context.instructionExecutionAccounts
        context.instructions = .ok preimage ↔ input.KeepsFlags ∧ input.Fits) := by
  obtain ⟨compiled, args, bs, preimage, hcompiled, hargs, hinstructions, hwrapped, hpreimage,
    hchallenge⟩ := Sdk.buildExecuteInstructions_ok hbuild
  refine ⟨preimage, hpreimage, hchallenge, ?_⟩
  obtain ⟨compiled', slothash, vs, hcompiled', hs, hbound, hvs, hencode⟩ :=
    Sdk.executeInstructionsPreimage_ok hpreimage
  obtain rfl := Except.ok.inj (hcompiled.symm.trans hcompiled')
  have hvs : vs = args.instructions := SmallVec.ext (Sdk.forall₂_unique hvs hinstructions)
  subst vs
  obtain ⟨message, hmessage, h⟩ := bind_eq_ok.mp hcompiled
  obtain ⟨_, -, h⟩ := bind_eq_ok.mp h
  obtain rfl := pure_eq_ok.mp h
  obtain ⟨hrest, hsigner, hcontextInstructions⟩ :=
    Sdk.executeContext_call hwrapped hargs hcontext
  have hnonce : context.nonceData = ⟨input.nonceSigner, slothash⟩ := by
    rw [← hsigner, ← Subtype.ext (hslothash.trans hs.symm)]
  have hlength : context.instructionExecutionAccounts.length ≤ 255 := by
    rw [← List.length_map (·.toMeta), hrest, List.length_take]
    exact Nat.le_trans (Nat.min_le_left _ _) (by decide)
  rw [Sdk.ExecuteInstructionsInput.KeepsFlags, Sdk.ExecuteInstructionsInput.Fits,
    ← Sdk.grant_eq_iff (hweb3 hmessage), ← hrest, hnonce, hcontextInstructions]
  -- both strings are encodings of challenges that differ in the accounts at most
  refine Iff.trans (PayloadCall.execute ⟨input.nonceSigner, slothash⟩
    context.instructionExecutionAccounts args.instructions).preimage_eq ?_
  constructor
  · intro h
    have hadmitted : (PayloadCall.execute ⟨input.nonceSigner, slothash⟩
      context.instructionExecutionAccounts args.instructions).Admitted := hlength
    have heq := Challenge.encode_inj hadmitted.bounded (show Challenge.Bounded (.execute ..) from
      hbound) h hencode
    simp only [PayloadCall.challenge, Challenge.execute.injEq] at heq
    exact heq.2.2.1
  · intro h
    simp only [PayloadCall.challenge]
    rw [h]
    exact hencode

/-! ## Two instructions to wrap -/

namespace Sample

open Sdk

/-- The digits of a number, the highest first. -/
def digits (base : Nat) : (fuel : Nat) → Nat → List Nat
  | 0, _ => []
  | fuel + 1, n => if n = 0 then [] else digits base fuel (n / base) ++ [n % base]

def base58Alphabet : List Char :=
  "123456789ABCDEFGHJKLMNPQRSTUVWXYZabcdefghijkmnopqrstuvwxyz".toList

/-- A `1` for each zero in front, then the digits of the number. -/
def base58Encode (bs : Bytes) : String :=
  .ofList (List.replicate (bs.takeWhile (· = 0)).length '1' ++
    (digits 58 (2 * bs.length) (beNat bs)).map (base58Alphabet.getD · '1'))

def base58Decode (s : String) : Except String Bytes := do
  ensure (s.toList ⊆ base58Alphabet) "Unknown letter"
  let number := (ascii s).foldl (fun n c => 58 * n + base58Digit c) 0
  return List.replicate (s.toList.takeWhile (· = '1')).length 0 ++
    (digits 256 s.length number).map .ofNat

/-- Each key once, in the order of use, and then by group. -/
def compileMessage (payer : Pubkey) (instructions : List TransactionInstruction) :
    Except String LegacyMessage := do
  let keys := (usedKeys payer instructions).eraseDups
  ensure (keys.length ≤ 256) "Max static account keys length exceeded"
  let group (isWritable isSigner : Bool) : List Pubkey := keys.filter fun key =>
    unionOf (uses payer instructions) key = ⟨key, isWritable, isSigner⟩
  let accountKeys := group true true ++ group false true ++ group true false ++ group false false
  return {
    header := ⟨(group true true).length + (group false true).length, (group false true).length,
      (group false false).length⟩
    accountKeys
    instructions := instructions.map fun instruction => {
      programIdIndex := accountKeys.idxOf instruction.programId
      accounts := instruction.keys.map (accountKeys.idxOf ·.pubkey)
      data := .text (base58Encode instruction.data) } }

def web3 : Web3 := ⟨compileMessage, base58Decode⟩

theorem nodup_eraseDups {α : Type} [BEq α] [LawfulBEq α] : (l : List α) → l.eraseDups.Nodup
  | [] => List.nodup_nil
  | a :: as => by
    rw [List.eraseDups_cons, List.nodup_cons]
    exact ⟨by simp [List.mem_eraseDups], nodup_eraseDups _⟩
termination_by l => l.length
decreasing_by exact Nat.lt_succ_of_le (List.length_filter_le ..)

theorem web3_lawful : web3.Lawful := by
  intro payer instructions message h
  simp only [web3, compileMessage, bind_eq_ok, exists_unit, ensure_eq_ok, pure_eq_ok] at h
  obtain ⟨-, rfl⟩ := h
  set keys := (usedKeys payer instructions).eraseDups with hkeys
  set us := uses payer instructions with hus
  have hnodup (p : Pubkey → Bool) : (keys.filter p).Nodup := (nodup_eraseDups _).filter p
  refine ⟨?_, ?_, ?_, _, _, _, _, rfl, rfl, ?_, ?_, ?_, ?_⟩
  · intro key
    rw [← List.mem_eraseDups (l := usedKeys payer instructions)]
    simp only [List.mem_append, List.mem_filter, decide_eq_true_eq]
    constructor
    · rintro (((h | h) | h) | h) <;> exact h.1
    · intro hk
      rcases hm : unionOf us key with ⟨k, w, s⟩
      obtain rfl : key = k := congrArg AccountMeta.pubkey hm
      cases w <;> cases s <;> simp [hkeys, hk]
  · simp only [List.nodup_append, hnodup, true_and, List.mem_append, List.mem_filter,
      decide_eq_true_eq]
    refine ⟨⟨?_, ?_⟩, ?_⟩ <;> grind
  · have hp : unionOf us payer = ⟨payer, true, true⟩ :=
      congrArg₂ (AccountMeta.mk payer) (uses_isWritable.mpr (.inl rfl)) uses_payer_isSigner
    simp [hkeys, usedKeys, List.eraseDups_cons, hp]
  · exact fun key hk => decide_eq_true_eq.mp (List.mem_filter.mp hk).2
  · exact fun key hk => decide_eq_true_eq.mp (List.mem_filter.mp hk).2
  · exact fun key hk => decide_eq_true_eq.mp (List.mem_filter.mp hk).2
  · exact fun key hk => decide_eq_true_eq.mp (List.mem_filter.mp hk).2

/-- A call of `target` with one account, to be wrapped for `external`. -/
def wrapInput (m : AccountMeta) : ExecuteInstructionsInput where
  webauthnData := {
    publicKey := passkey.val
    authData := rpIdHash.val ++ [5, 0, 0, 0, 0]
    clientDataJson := []
    clientDataJsonReconstructionParams := ⟨0x10, none⟩ }
  passkeyAccount := external
  nonceSigner := payer
  truncatedSlot := .number 349863001
  recentSlotHash := slot.hash.val
  instructions := [⟨target, [m], [7]⟩]
  signerExecutionScheme := none

/-- The call of the wrapping instruction. -/
def wrapCall (wrapped : WrappedInstructionResult) : Call :=
  Transaction.call ⟨payer, [secp256r1Instruction executeSignature.data, wrapped.instruction]⟩
    wrapped.instruction (runtime 1700000000 [slot] [executeSignature])

end Sample

/-- An instruction that reads the external account: the transaction makes it writable. -/
theorem execute_challenge_differs :
    (Sample.web3).Lawful ∧ ∃ wrapped context preimage payload,
      Sdk.buildExecuteInstructions Sample.web3 Host.solana.sha256
        (Sample.wrapInput ⟨Sample.external, false, false⟩) = .ok wrapped ∧
      (Sample.wrapCall wrapped).executeContext .solana Sample.ledger = .ok context ∧
      context.nonceData.slothash.val = Sample.slot.hash.val ∧
      Sdk.executeInstructionsPreimage Sample.web3 Sample.payer Sample.slot.hash.val
        (Sample.wrapInput ⟨Sample.external, false, false⟩).instructions = .ok preimage ∧
      instructionPayload context.nonceData context.instructionExecutionAccounts
        context.instructions = .ok payload ∧ payload ≠ preimage := by
  refine ⟨Sample.web3_lawful, ?_⟩
  have h : isOkAnd (fun wrapped => isOkAnd (fun context =>
      decide (context.nonceData.slothash.val = Sample.slot.hash.val) &&
      isOkAnd (fun preimage => isOkAnd (fun payload => decide (payload ≠ preimage))
        (instructionPayload context.nonceData context.instructionExecutionAccounts
          context.instructions))
        (Sdk.executeInstructionsPreimage Sample.web3 Sample.payer Sample.slot.hash.val
          (Sample.wrapInput ⟨Sample.external, false, false⟩).instructions))
      ((Sample.wrapCall wrapped).executeContext .solana Sample.ledger))
      (Sdk.buildExecuteInstructions Sample.web3 Host.solana.sha256
        (Sample.wrapInput ⟨Sample.external, false, false⟩)) := by
    rw [← Sample.executeRecorded.host_eq]
    decide +kernel
  obtain ⟨wrapped, hw, h⟩ := isOkAnd_iff.mp h
  obtain ⟨context, hc, h⟩ := isOkAnd_iff.mp h
  obtain ⟨hs, h⟩ := (Bool.and_eq_true _ _).mp h
  obtain ⟨preimage, hp, h⟩ := isOkAnd_iff.mp h
  obtain ⟨payload, hq, h⟩ := isOkAnd_iff.mp h
  exact ⟨wrapped, context, preimage, payload, hw, hc, of_decide_eq_true hs, hp, hq,
    of_decide_eq_true h⟩

/-- An instruction that writes the execution account. -/
theorem execute_challenge_agrees_execution_account : ∃ wrapped context preimage,
    Sdk.buildExecuteInstructions Sample.web3 Host.solana.sha256
      (Sample.wrapInput ⟨Sample.executionAccount, true, false⟩) = .ok wrapped ∧
    (Sample.wrapCall wrapped).executeContext .solana Sample.ledger = .ok context ∧
    wrapped.challenge = Host.solana.sha256 preimage ∧
    instructionPayload context.nonceData context.instructionExecutionAccounts
      context.instructions = .ok preimage := by
  have h : isOkAnd (fun wrapped => isOkAnd (fun context =>
      decide (context.nonceData.slothash.val = Sample.slot.hash.val))
      ((Sample.wrapCall wrapped).executeContext .solana Sample.ledger))
      (Sdk.buildExecuteInstructions Sample.web3 Host.solana.sha256
        (Sample.wrapInput ⟨Sample.executionAccount, true, false⟩)) := by
    rw [← Sample.executeRecorded.host_eq]
    decide +kernel
  obtain ⟨wrapped, hw, h⟩ := isOkAnd_iff.mp h
  obtain ⟨context, hc, h⟩ := isOkAnd_iff.mp h
  obtain ⟨preimage, -, hchallenge, hiff⟩ := execute_challenge_agrees Sample.web3_lawful hw _ _ _ hc
    (of_decide_eq_true h)
  refine ⟨wrapped, context, preimage, hw, hc, hchallenge, hiff.mpr ⟨fun hused => ?_, ?_⟩⟩
  · -- the external account is not among the keys
    exact absurd hused (by decide +kernel)
  · unfold Sdk.ExecuteInstructionsInput.Fits
    decide +kernel

end ExternalSignature
