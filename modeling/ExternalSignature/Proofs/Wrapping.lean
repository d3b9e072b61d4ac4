import ExternalSignature.Entrypoint
import ExternalSignature.Instructions.Buffers
import ExternalSignature.Proofs.Alignment
import ExternalSignature.RustSdk.Execute
import ExternalSignature.Sdk.Serialize

/-!
# Wrapped instructions

The Rust SDK wraps instructions into one of the program, as indices into the keys of a message, and
the program's loop turns the indices into instructions again (`Unwraps`). `Executes` are the two
process functions on what the two builders build; the calls of the loop carry out the instructions
that were wrapped, one by one (`wrapped_execution`).
-/

namespace ExternalSignature

open Lib Lib.Borsh

namespace RustSdk

variable {compile : MessageCompiler} {instructions : List Instruction} {payer : Pubkey}

/-! ## The compiled instructions -/

/-- The instruction of the message that a compiled instruction was made from. -/
def messageInstruction (compiled : CompiledInstruction) : MessageInstruction :=
  ⟨compiled.programIdIndex, compiled.accountsIndices.toList, compiled.data.toList⟩

theorem normalize_eq_ok {instruction : MessageInstruction} {compiled : CompiledInstruction} :
    normalize instruction = .ok compiled ↔ instruction = messageInstruction compiled := by
  obtain ⟨programIdIndex, indices, data⟩ := compiled
  simp only [normalize, bind_eq_ok, mapErr_eq_ok, SmallVec.tryFrom_eq_ok, pure_eq_ok]
  constructor
  · rintro ⟨_, hi, _, hd, h⟩
    obtain ⟨rfl, rfl, rfl⟩ := CompiledInstruction.mk.inj h
    rw [messageInstruction, hi, hd]
  · rintro rfl
    exact ⟨indices, rfl, data, rfl, rfl⟩

theorem mapM_normalize_eq_ok {messages : List MessageInstruction}
    {compiled : List CompiledInstruction} :
    messages.mapM normalize = .ok compiled ↔ messages = compiled.map messageInstruction := by
  rw [mapM_eq_ok, ← List.forall₂_eq_eq_eq, List.forall₂_map_right_iff]
  exact ⟨fun h => h.imp fun _ _ => normalize_eq_ok.mp, fun h => h.imp fun _ _ => normalize_eq_ok.mpr⟩

theorem checkedSub_eq_ok {a b c : Nat} : checkedSub a b = .ok c ↔ b ≤ a ∧ a - b = c := by
  simp only [checkedSub, bind_eq_ok, exists_unit, ensure_eq_ok, pure_eq_ok]

theorem keys_accountMetas (message : Sdk.LegacyMessage) :
    message.accountMetas.map (·.pubkey) = message.accountKeys := by
  refine List.ext_getElem? fun i => ?_
  rw [Sdk.LegacyMessage.accountMetas, List.getElem?_map, List.getElem?_mapIdx, Option.map_map]
  exact congrFun Option.map_id _

/-- The metas and the instructions are the message's. -/
theorem compileInstructionsForExecution_ok {payload : CompiledExecutionPayload}
    (h : compileInstructionsForExecution compile instructions payer = .ok payload) :
    ∃ message, compile instructions payer = some message ∧
      payload.accountMetas = message.toLegacy.accountMetas ∧
      message.instructions = payload.instructions.toList.map messageInstruction := by
  simp only [compileInstructionsForExecution, bind_eq_ok, okOr_eq_ok, mapErr_eq_ok,
    SmallVec.tryFrom_eq_ok, mapM_normalize_eq_ok, checkedSub_eq_ok, pure_eq_ok] at h
  obtain ⟨message, hm, _, ⟨-, rfl⟩, _, ⟨-, rfl⟩, normalized, hn, compiled, rfl, rfl⟩ := h
  exact ⟨message, hm, rfl, hn⟩

/-! ## One instruction -/

/-- The call that carries out an instruction: its program, its account keys with repetitions and its
data, and the infos of its distinct accounts. -/
structure CarriesOut (instruction : Instruction) (invocation : Invocation) : Prop where
  programId : invocation.instruction.programId = instruction.programId
  keys : invocation.instruction.accounts.map (·.pubkey) = instruction.accounts.map (·.pubkey)
  data : invocation.instruction.data = instruction.data
  infos : invocation.accountInfos.map (·.pubkey) =
    (instruction.accounts.map (·.pubkey)).eraseDups

section

variable {accounts : List AccountInfo} {accountMetas : List AccountMeta}
  {executionAccount : ExecutionAccount} {instruction : Instruction}
  {compiled : CompiledInstruction}

theorem Indexes.inRange
    (h : Indexes (accounts.map (·.key)) instruction (messageInstruction compiled))
    (hlen : accounts.length ≤ 64) (hne : instruction.programId ≠ ID) :
    InRange accounts compiled where
  indices := by
    intro index hi
    have hmem := List.mem_map_of_mem (f := fun i : UInt8 => (accounts.map (·.key))[i.toNat]?) hi
    rw [show compiled.accountsIndices.toList = (messageInstruction compiled).accounts from rfl,
      h.accounts] at hmem
    obtain ⟨key, -, hkey⟩ := List.mem_map.mp hmem
    have hlt : index.toNat < (accounts.map (·.key)).length :=
      (List.getElem?_eq_some_iff.mp hkey.symm).1
    rw [List.length_map] at hlt
    rw [Nat.min_eq_right hlen]
    exact hlt
  program := by
    have hp := h.programId
    rw [List.getElem?_map, Option.map_eq_some_iff] at hp
    obtain ⟨program, hp, hkey⟩ := hp
    exact ⟨program, hp, hkey ▸ hne⟩

theorem Indexes.carriesOut {invocation : Invocation}
    (h : Indexes (accounts.map (·.key)) instruction (messageInstruction compiled))
    (hnodup : (accounts.map (·.key)).Nodup) (hin : InRange accounts compiled)
    (hmetas : accountMetas.map (·.pubkey) = accounts.map (·.key))
    (hb : buildInvocation accounts accountMetas executionAccount compiled = .ok invocation) :
    CarriesOut instruction invocation := by
  have hbuilt := buildInvocation_ok hb
  have hindices : compiled.accountsIndices.toList.map (keyAt accounts) =
      (instruction.accounts.map (·.pubkey)).map some := by
    rw [← h.accounts]
    refine List.map_congr_left fun index _ => ?_
    rw [keyAt, List.getElem?_map]
  have hprogram := hbuilt.programId
  rw [← List.getElem?_map] at hprogram
  refine ⟨Option.some.inj (hprogram.symm.trans h.programId), ?_, hbuilt.data.trans h.data, ?_⟩
  · have hk := (accountMetas_keys hmetas hbuilt).trans hindices
    exact List.map_injective_iff.mpr (Option.some_injective _) hk
  · -- the indices are told apart by their keys, so first occurrences are first occurrences of keys
    have hk := accountInfos_keys hb
    rw [← eraseDups_map (keyAt_inj hnodup hin), hindices,
      eraseDups_map fun _ _ _ _ heq => Option.some.inj heq] at hk
    exact List.map_injective_iff.mpr (Option.some_injective _) hk

end

/-! ## All of them -/

/-- The bounds of the wire format on the instructions, their references and their data, and those of
the program: 64 accounts, and it does not call itself. -/
structure Fits (payer : Pubkey) (instructions : List Instruction) : Prop where
  count : instructions.length ≤ 255
  /-- The payer, the programs and the accounts that are referred to. -/
  accounts : (Sdk.usedKeys payer
    (instructions.map transactionInstruction)).eraseDups.length ≤ 64
  references : ∀ instruction ∈ instructions, instruction.accounts.length ≤ 255
  data : ∀ instruction ∈ instructions, instruction.data.length ≤ 65535
  program : ∀ instruction ∈ instructions, instruction.programId ≠ ID

theorem Compiled.length_le {message : Message} (h : Compiled instructions payer message)
    (hfits : Fits payer instructions) : message.accountKeys.length ≤ 64 := by
  have hsubset : message.accountKeys ⊆
      (Sdk.usedKeys payer (instructions.map transactionInstruction)).eraseDups :=
    fun key hkey => List.mem_eraseDups.mpr (h.layout.mem_iff.mp hkey)
  exact (h.layout.nodup.subperm hsubset).length_le.trans hfits.accounts

/-- What the loop is given is what the message compiler made of the instructions. -/
structure Unwraps (instructions : List Instruction) (accounts : List AccountInfo)
    (compiled : List CompiledInstruction) : Prop where
  nodup : (accounts.map (·.key)).Nodup
  length_le : accounts.length ≤ 64
  indexes : List.Forall₂ (fun instruction c =>
    Indexes (accounts.map (·.key)) instruction (messageInstruction c)) instructions compiled
  program : ∀ instruction ∈ instructions, instruction.programId ≠ ID

theorem compileInstructionsForExecution_unwraps {payload : CompiledExecutionPayload}
    {accounts : List AccountInfo} (hcompile : compile.Lawful) (hfits : Fits payer instructions)
    (h : compileInstructionsForExecution compile instructions payer = .ok payload)
    (haccounts : accounts.map (·.key) = payload.accountMetas.map (·.pubkey)) :
    Unwraps instructions accounts payload.instructions.toList := by
  obtain ⟨message, hm, hmetas, hinstructions⟩ := compileInstructionsForExecution_ok h
  have hc := hcompile hm
  replace haccounts : accounts.map (·.key) = message.accountKeys := by
    rw [haccounts, hmetas, keys_accountMetas]
    rfl
  refine ⟨haccounts ▸ hc.layout.nodup, ?_, ?_, hfits.program⟩
  · have hlen := hc.length_le hfits
    rwa [← haccounts, List.length_map] at hlen
  · have hindexes := hc.instructions
    rw [hinstructions, List.forall₂_map_right_iff, ← haccounts] at hindexes
    exact hindexes

variable {rt : Runtime} {accounts : List AccountInfo} {accountMetas : List AccountMeta}
  {executionAccount : ExecutionAccount} {compiled : List CompiledInstruction}

/-- Where the calls succeed, the loop carries out every instruction. -/
theorem Unwraps.invokeAll (h : Unwraps instructions accounts compiled)
    (hmetas : accountMetas.map (·.pubkey) = accounts.map (·.key))
    (hrt : ∀ external calls, rt.sliceInvokeSigned external calls = .ok ())
    (executionAccount : ExecutionAccount) (external : AccountInfo) (done : List Invocation) :
    ∃ new, invokeAll rt accounts accountMetas executionAccount external compiled done =
      (done ++ new, .ok ()) ∧ List.Forall₂ CarriesOut instructions new := by
  obtain ⟨hnodup, hlen, hindexes, hprogram⟩ := h
  induction hindexes generalizing done with
  | nil => exact ⟨[], by rw [List.append_nil]; rfl, .nil⟩
  | cons hi _ ih =>
    obtain ⟨hne, hprogram⟩ := List.forall_mem_cons.mp hprogram
    have hin := hi.inRange hlen hne
    have hl : accountMetas.length = accounts.length := by
      simpa using congrArg List.length hmetas
    obtain ⟨invocation, hb⟩ := hin.build hl executionAccount
    obtain ⟨new, hnew, hall⟩ := ih (done ++ [invocation]) hprogram
    refine ⟨invocation :: new, ?_, .cons (hi.carriesOut hnodup hin hmetas hb) hall⟩
    rw [ExternalSignature.invokeAll, hb]
    simp only [hrt, hnew, List.append_assoc, List.singleton_append]

/-! ## The builders -/

theorem ofIo_eq_ok {α : Type} {result : Except IoError α} {a : α} :
    ofIo result = .ok a ↔ result = .ok a := by
  cases result <;> simp [ofIo, Except.mapError]

theorem executeInstructions_ok {webauthnData : WebAuthnData} {passkeyAccount : Pubkey}
    {slotHash : TruncatedSlot} {scheme : SignerExecutionScheme} {wrapped : Instruction}
    (h : executeInstructions compile webauthnData passkeyAccount payer slotHash instructions scheme =
      .ok wrapped) :
    ∃ payload args bytes,
      compileInstructionsForExecution compile instructions payer = .ok payload ∧
      wrapped.data = 1 :: bytes ∧ tryFromSlice ExecutableInstructionArgs bytes = .ok args ∧
      args.instructions = payload.instructions ∧
      wrapped.accounts.map (·.pubkey) =
        [passkeyAccount, instructionsId, slotHashesId, payer] ++
          payload.accountMetas.map (·.pubkey) := by
  simp only [executeInstructions, bind_eq_ok, ofIo_eq_ok, pure_eq_ok] at h
  obtain ⟨payload, hpayload, _, -, _, -, bytes, hbytes, rfl⟩ := h
  exact ⟨payload, _, bytes, hpayload, rfl, tryFromSlice_serialize hbytes, rfl, rfl⟩

theorem executeInstructionsSessioned_ok {passkeyAccount : Pubkey} {scheme : SignerExecutionScheme}
    {wrapped : Instruction}
    (h : executeInstructionsSessioned compile passkeyAccount payer instructions scheme =
      .ok wrapped) :
    ∃ payload args bytes,
      compileInstructionsForExecution compile instructions payer = .ok payload ∧
      wrapped.data = 3 :: bytes ∧
      tryFromSlice ExecutableInstructionSessionedArgs bytes = .ok args ∧
      args.instructions = payload.instructions ∧
      wrapped.accounts.map (·.pubkey) =
        [passkeyAccount, payer] ++ payload.accountMetas.map (·.pubkey) := by
  simp only [executeInstructionsSessioned, bind_eq_ok, ofIo_eq_ok, pure_eq_ok] at h
  obtain ⟨payload, hpayload, bytes, hbytes, rfl⟩ := h
  exact ⟨payload, _, bytes, hpayload, rfl, tryFromSlice_serialize hbytes, rfl, rfl⟩

/-! ### They succeed within the bounds -/

theorem exists_tryFrom {L T : Type} [LenPrefix L] {val : List T} {l : L}
    (h : intoU32 l = val.length) : ∃ v : SmallVec L T, SmallVec.tryFrom val = .ok v :=
  ⟨⟨val, by rw [LenPrefix.tryFrom_eq_some.mpr h]; rfl⟩, SmallVec.tryFrom_eq_ok.mpr rfl⟩

theorem exists_tryFrom_u8 {T : Type} {val : List T} (h : val.length ≤ 255) :
    ∃ v : SmallVec UInt8 T, SmallVec.tryFrom val = .ok v :=
  exists_tryFrom (l := .ofNat val.length) (UInt8.toNat_ofNat_of_lt' (Nat.lt_succ_of_le h))

theorem exists_tryFrom_u16 {T : Type} {val : List T} (h : val.length ≤ 65535) :
    ∃ v : SmallVec UInt16 T, SmallVec.tryFrom val = .ok v :=
  exists_tryFrom (l := .ofNat val.length) (UInt16.toNat_ofNat_of_lt' (Nat.lt_succ_of_le h))

theorem Indexes.normalize {keys : List Pubkey} {instruction : Instruction}
    {message : MessageInstruction} (h : Indexes keys instruction message)
    (hreferences : instruction.accounts.length ≤ 255) (hdata : instruction.data.length ≤ 65535) :
    ∃ compiled, normalize message = .ok compiled := by
  have haccounts : message.accounts.length = instruction.accounts.length := by
    simpa using congrArg List.length h.accounts
  obtain ⟨indices, hi⟩ := exists_tryFrom_u8 (haccounts ▸ hreferences)
  obtain ⟨data, hd⟩ := exists_tryFrom_u16 (h.data ▸ hdata)
  exact ⟨⟨message.programIdIndex, indices, data⟩, by simp only [RustSdk.normalize, hi, hd, mapErr, ok_bind]; rfl⟩

theorem mapM_normalize_isOk {keys : List Pubkey} {messages : List MessageInstruction}
    (h : List.Forall₂ (Indexes keys) instructions messages)
    (hreferences : ∀ instruction ∈ instructions, instruction.accounts.length ≤ 255)
    (hdata : ∀ instruction ∈ instructions, instruction.data.length ≤ 65535) :
    ∃ compiled : List CompiledInstruction, messages.mapM normalize = .ok compiled ∧
      compiled.length = instructions.length := by
  induction h with
  | nil => exact ⟨[], rfl, rfl⟩
  | cons hi _ ih =>
    obtain ⟨hr, hreferences⟩ := List.forall_mem_cons.mp hreferences
    obtain ⟨hd, hdata⟩ := List.forall_mem_cons.mp hdata
    obtain ⟨compiled, hc⟩ := hi.normalize hr hd
    obtain ⟨rest, hrest, hlen⟩ := ih hreferences hdata
    refine ⟨compiled :: rest, mapM_eq_ok.mpr (.cons hc (mapM_eq_ok.mp hrest)), ?_⟩
    rw [List.length_cons, List.length_cons, hlen]

theorem compileInstructionsForExecution_isOk {message : Message}
    (hc : Compiled instructions payer message) (hcount : instructions.length ≤ 255)
    (hreferences : ∀ instruction ∈ instructions, instruction.accounts.length ≤ 255)
    (hdata : ∀ instruction ∈ instructions, instruction.data.length ≤ 65535)
    (hm : compile instructions payer = some message) :
    ∃ payload, compileInstructionsForExecution compile instructions payer = .ok payload := by
  obtain ⟨ws, rs, wu, ru, hkeys, hheader, -⟩ := hc.layout.layout
  obtain ⟨hrequired, hreadonlySigned, hreadonlyUnsigned⟩ := Sdk.MessageHeader.mk.inj hheader
  have hsigned : message.header.numReadonlySignedAccounts.toNat ≤
      message.header.numRequiredSignatures.toNat := by
    omega
  have hunsigned : message.header.numReadonlyUnsignedAccounts.toNat ≤
      message.accountKeys.length := by
    have hlen : message.accountKeys.length = _ := congrArg List.length hkeys
    simp only [List.length_append] at hlen
    omega
  obtain ⟨normalized, hn, hlen⟩ := mapM_normalize_isOk hc.instructions hreferences hdata
  obtain ⟨compiled, hcompiled⟩ := exists_tryFrom_u8 (hlen ▸ hcount)
  simp only [compileInstructionsForExecution, bind_eq_ok, okOr_eq_ok, mapErr_eq_ok,
    checkedSub_eq_ok]
  exact ⟨_, message, hm, _, ⟨hsigned, rfl⟩, _, ⟨hunsigned, rfl⟩, normalized, hn, compiled,
    hcompiled, rfl⟩

theorem length_serialize_verificationData {data : P256RawVerificationData} {bs : Bytes}
    (h : serialize data = .ok bs) : bs.length ≤ 37 := by
  obtain ⟨x, y, hx, hy, rfl⟩ := serialize_pair_ok.mp h
  obtain ⟨f, o, hf, ho, rfl⟩ := serialize_pair_ok.mp hy
  obtain rfl : data.publicKey.val = x := Except.ok.inj hx
  obtain rfl : [data.clientDataJsonReconstructionParams.typeAndFlags] = f := Except.ok.inj hf
  have hport : o.length ≤ 3 := by
    change serialize data.clientDataJsonReconstructionParams.port = .ok o at ho
    cases hp : data.clientDataJsonReconstructionParams.port with
    | none =>
      rw [hp] at ho
      obtain rfl : [0] = o := Except.ok.inj ho
      decide
    | some port =>
      rw [hp] at ho
      obtain rfl : 1 :: (Pod.bytes port).val = o := Except.ok.inj ho
      rw [List.length_cons, (Pod.bytes port).property]
      decide
  rw [List.length_append, List.length_append, data.publicKey.property, List.length_singleton]
  omega

variable (webauthnData : WebAuthnData) (passkeyAccount : Pubkey) (slotHash : TruncatedSlot)
  (scheme : SignerExecutionScheme)

theorem executeInstructions_isOk {message : Message} (hcompile : compile.Lawful)
    (hfits : Fits payer instructions) (hm : compile instructions payer = some message) :
    ∃ wrapped, executeInstructions compile webauthnData passkeyAccount payer slotHash instructions
      scheme = .ok wrapped := by
  obtain ⟨payload, hp⟩ := compileInstructionsForExecution_isOk (hcompile hm) hfits.count
    hfits.references hfits.data hm
  obtain ⟨raw, hraw⟩ := LawfulBorsh.total (P256RawVerificationData.mk webauthnData.publicKey
    webauthnData.clientDataJsonReconstructionParams)
  obtain ⟨extra, hextra⟩ := exists_tryFrom_u8 (T := UInt8)
    ((length_serialize_verificationData hraw).trans (by decide))
  obtain ⟨bytes, hbytes⟩ := LawfulBorsh.total
    (ExecutableInstructionArgs.mk 0 scheme.toU8 slotHash extra payload.instructions)
  simp only [executeInstructions, bind_eq_ok, ofIo_eq_ok, mapErr_eq_ok]
  exact ⟨_, payload, hp, raw, hraw, extra, hextra, bytes, hbytes, rfl⟩

theorem executeInstructionsSessioned_isOk {message : Message} (hcompile : compile.Lawful)
    (hfits : Fits payer instructions) (hm : compile instructions payer = some message) :
    ∃ wrapped, executeInstructionsSessioned compile passkeyAccount payer instructions scheme =
      .ok wrapped := by
  obtain ⟨payload, hp⟩ := compileInstructionsForExecution_isOk (hcompile hm) hfits.count
    hfits.references hfits.data hm
  obtain ⟨bytes, hbytes⟩ := LawfulBorsh.total
    (ExecutableInstructionSessionedArgs.mk 0 scheme.toU8 payload.instructions)
  simp only [executeInstructionsSessioned, bind_eq_ok, ofIo_eq_ok]
  exact ⟨_, payload, hp, bytes, hbytes, rfl⟩

/-! ## The program -/

/-- A wrapped instruction whose checks have passed in the program, and the loop that follows. -/
inductive Executes (compile : MessageCompiler) (host : Host) (rt : Runtime) (payer : Pubkey)
    (instructions : List Instruction) (accounts : List AccountInfo) :
    Instruction → Processed → Prop where
  | execute {webauthnData : WebAuthnData} {passkeyAccount : Pubkey} {slotHash : TruncatedSlot}
      {scheme : SignerExecutionScheme} {wrapped : Instruction}
      {context : ExecuteInstructionsContext} {account : ExternallySignedAccount}
      (wraps : executeInstructions compile webauthnData passkeyAccount payer slotHash instructions
        scheme = .ok wrapped)
      (checked : verifyExecuteInstructions host rt accounts wrapped.data.tail =
        .ok (context, account)) :
      Executes compile host rt payer instructions accounts wrapped
        (.loop rt context.instructionExecutionAccounts context.instructionExecutionAccountMetas
          context.executionAccount context.instructions account)
  | sessioned {passkeyAccount : Pubkey} {scheme : SignerExecutionScheme} {wrapped : Instruction}
      {context : ExecuteInstructionsSessionedContext}
      (wraps : executeInstructionsSessioned compile passkeyAccount payer instructions scheme =
        .ok wrapped)
      (checked : checkExecuteInstructionsSessioned host rt accounts wrapped.data.tail =
        .ok context) :
      Executes compile host rt payer instructions accounts wrapped
        (.loop rt context.instructionExecutionAccounts context.instructionExecutionAccountMetas
          context.executionAccount context.instructions context.externallySignedAccount)

variable {host : Host} {wrapped : Instruction} {p : Processed}

theorem processInstruction_execute {data : Bytes} (h : accounts.length ≤ maxTxAccounts) :
    processInstruction host rt accounts (1 :: data) =
      processExecuteInstructions host rt accounts data := by
  rw [processInstruction, List.take_of_length_le h]
  rfl

theorem processInstruction_sessioned {data : Bytes} (h : accounts.length ≤ maxTxAccounts) :
    processInstruction host rt accounts (3 :: data) =
      processExecuteInstructionsSessioned host rt accounts data := by
  rw [processInstruction, List.take_of_length_le h]
  rfl

/-- Behind the accounts that a builder puts in front stand the ones that were compiled. -/
theorem unwraps_behind {payload : CompiledExecutionPayload} {front : List Pubkey}
    {rest : List AccountInfo} (hcompile : compile.Lawful) (hfits : Fits payer instructions)
    (h : compileInstructionsForExecution compile instructions payer = .ok payload)
    (haccounts : accounts.map (·.key) = front ++ payload.accountMetas.map (·.pubkey))
    (hfront : front.length ≤ 4)
    (hrest : accounts.drop front.length = rest) :
    accounts.length ≤ maxTxAccounts ∧ Unwraps instructions rest payload.instructions.toList := by
  have hexecution : rest.map (·.key) = payload.accountMetas.map (·.pubkey) := by
    rw [← hrest, List.map_drop, haccounts, List.drop_left]
  have hunwraps := compileInstructionsForExecution_unwraps hcompile hfits h hexecution
  have hle := hunwraps.length_le
  have hdrop := congrArg List.length hrest
  rw [List.length_drop] at hdrop
  refine ⟨?_, hunwraps⟩
  rw [maxTxAccounts]
  omega

/-- The program runs the loop with the accounts that were compiled, and what was compiled. -/
theorem Executes.unwraps (hcompile : compile.Lawful) (hfits : Fits payer instructions)
    (haccounts : accounts.map (·.key) = wrapped.accounts.map (·.pubkey))
    (h : Executes compile host rt payer instructions accounts wrapped p) :
    processInstruction host rt accounts wrapped.data = p ∧
      ∃ executionAccounts metas executionAccount compiled account,
        p = .loop rt executionAccounts metas executionAccount compiled account ∧
        metas.map (·.pubkey) = executionAccounts.map (·.key) ∧
        Unwraps instructions executionAccounts compiled := by
  cases h with
  | @execute _ _ _ _ _ context account wraps checked =>
    obtain ⟨payload, args, bytes, hpayload, hdata, hargs, hinstructions, hkeys⟩ :=
      executeInstructions_ok wraps
    rw [hdata, List.tail_cons] at checked
    obtain ⟨run, hrest, hmetas, -, hcompiled, -⟩ := verifyExecuteInstructions_ok checked
    obtain rfl := Except.ok.inj (run.decoded.symm.trans hargs)
    have hdrop : accounts.drop 4 = run.rest := congrArg (List.drop 4) run.accounts_eq
    obtain ⟨hlen, hunwraps⟩ := unwraps_behind hcompile hfits hpayload
      (haccounts.trans hkeys) (show 4 ≤ 4 by decide) hdrop
    refine ⟨?_, _, _, _, _, _, rfl, ?_, ?_⟩
    · rw [hdata, processInstruction_execute hlen, processExecuteInstructions, checked,
        Processed.loop_eq_invoke]
    · rw [hmetas, hrest]
      exact keys_createInstructionExecutionAccountMetas _ _ _
    · rw [hrest, hcompiled, hinstructions]
      exact hunwraps
  | sessioned wraps checked =>
    obtain ⟨payload, args, bytes, hpayload, hdata, hargs, hinstructions, hkeys⟩ :=
      executeInstructionsSessioned_ok wraps
    rw [hdata, List.tail_cons] at checked
    obtain ⟨run, hrest, hmetas, -, hcompiled, -⟩ := checkExecuteInstructionsSessioned_ok checked
    obtain rfl := Except.ok.inj (run.decoded.symm.trans hargs)
    have hdrop : accounts.drop 2 = run.rest := congrArg (List.drop 2) run.accounts_eq
    obtain ⟨hlen, hunwraps⟩ := unwraps_behind hcompile hfits hpayload
      (haccounts.trans hkeys) (show 2 ≤ 4 by decide) hdrop
    refine ⟨?_, _, _, _, _, _, rfl, ?_, ?_⟩
    · rw [hdata, processInstruction_sessioned hlen, processExecuteInstructionsSessioned, checked,
        Processed.loop_eq_invoke]
    · rw [hmetas, hrest]
      exact keys_createInstructionExecutionAccountMetas _ _ _
    · rw [hrest, hcompiled, hinstructions]
      exact hunwraps

/-- Instructions within the bounds are wrapped; and the program carries out wrapped instructions one
by one, in their order. -/
theorem wrapped_execution (hcompile : compile.Lawful) (hfits : Fits payer instructions) :
    ((compile instructions payer).isSome →
      (∀ webauthnData passkeyAccount slotHash scheme, ∃ wrapped,
        executeInstructions compile webauthnData passkeyAccount payer slotHash instructions scheme =
          .ok wrapped) ∧
      ∀ passkeyAccount scheme, ∃ wrapped,
        executeInstructionsSessioned compile passkeyAccount payer instructions scheme =
          .ok wrapped) ∧
    ∀ (host : Host) (rt : Runtime) (accounts : List AccountInfo) (wrapped : Instruction)
      (p : Processed), accounts.map (·.key) = wrapped.accounts.map (·.pubkey) →
      (∀ external calls, rt.sliceInvokeSigned external calls = .ok ()) →
      Executes compile host rt payer instructions accounts wrapped p →
        processInstruction host rt accounts wrapped.data = p ∧ p.result.isOk ∧
          List.Forall₂ CarriesOut instructions p.invocations := by
  constructor
  · intro hsome
    obtain ⟨message, hm⟩ := Option.isSome_iff_exists.mp hsome
    exact ⟨fun w k s e => executeInstructions_isOk w k s e hcompile hfits hm,
      fun k e => executeInstructionsSessioned_isOk k e hcompile hfits hm⟩
  · intro host rt accounts wrapped p haccounts hrt h
    obtain ⟨hp, executionAccounts, metas, executionAccount, compiled, account, rfl, hmetas,
      hunwraps⟩ := h.unwraps hcompile hfits haccounts
    obtain ⟨new, hnew, hall⟩ := hunwraps.invokeAll hmetas hrt executionAccount account.finish []
    refine ⟨hp, ?_, ?_⟩
    · rw [Processed.loop_eq_invoke, Processed.invoke, hnew]
      rfl
    · rw [Processed.loop_eq_invoke, Processed.invoke, hnew]
      exact hall

end RustSdk

namespace Sample

open RustSdk

/-- Two instructions that share an account, one of them with a repetition. -/
def innerInstructions : List Instruction :=
  [⟨target, [7], [⟨executionAccount, true, false⟩, ⟨executionAccount, true, false⟩,
      ⟨payer, false, false⟩]⟩,
    ⟨target, [8, 9], [⟨payer, false, false⟩]⟩]

/-- Their message, for the session signer as payer. -/
def innerMessage : Message where
  header := ⟨1, 0, 2⟩
  accountKeys := [sessionSigner, executionAccount, payer, target]
  instructions := [⟨3, [1, 1, 2], [7]⟩, ⟨3, [2], [8, 9]⟩]

/-- A compiler that knows one message. -/
def compileInner : MessageCompiler := fun instructions payer =>
  if instructions = innerInstructions ∧ payer = sessionSigner then some innerMessage else none

theorem compileInner_lawful : compileInner.Lawful := by
  intro instructions payer message h
  unfold compileInner at h
  split at h
  · rename_i heq
    obtain ⟨rfl, rfl⟩ := heq
    obtain rfl := Option.some.inj h
    refine ⟨⟨?_, by decide +kernel, rfl, [sessionSigner], [], [executionAccount],
      [Sample.payer, target], rfl, rfl, by decide +kernel, by decide +kernel, by decide +kernel,
      by decide +kernel⟩, .cons ⟨rfl, rfl, rfl⟩ (.cons ⟨rfl, rfl, rfl⟩ .nil)⟩
    intro key
    simp only [Sdk.usedKeys, innerInstructions, transactionInstruction, innerMessage,
      Message.toLegacy, List.map_cons, List.map_nil, List.flatMap_cons, List.flatMap_nil,
      List.cons_append, List.nil_append, List.append_nil, List.mem_cons, List.not_mem_nil]
    tauto
  · cases h

theorem innerInstructions_fits : Fits sessionSigner innerInstructions := by
  constructor <;> decide +kernel

/-- The instruction that the SDK makes of them for the session signer. -/
def wrappedInstruction : Instruction where
  programId := ID
  data := [3, 0, 0, 2, 3, 3, 1, 1, 2, 1, 0, 7, 3, 1, 2, 2, 0, 8, 9]
  accounts := [⟨external, true, false⟩, ⟨sessionSigner, false, true⟩, ⟨sessionSigner, true, true⟩,
    ⟨executionAccount, true, false⟩, ⟨payer, false, false⟩, ⟨target, false, false⟩]

theorem wrappedInstruction_wraps : executeInstructionsSessioned compileInner external sessionSigner
    innerInstructions .executionAccount = .ok wrappedInstruction := by
  decide +kernel

/-- The call of the wrapped instruction. -/
def wrappedCall : Call where
  rt := sessionedCall.rt
  accounts := wrappedInstruction.accounts
  data := wrappedInstruction.data

theorem wrappedCall_checked : ∃ context, checkExecuteInstructionsSessioned .solana wrappedCall.rt
    (wrappedCall.infos sessionLedger) wrappedCall.data.tail = .ok context := by
  have h : (checkExecuteInstructionsSessioned .solana wrappedCall.rt
      (wrappedCall.infos sessionLedger) wrappedCall.data.tail).isOk = true := by
    rw [← executeRecorded.host_eq]
    decide +kernel
  cases hc : checkExecuteInstructionsSessioned .solana wrappedCall.rt
      (wrappedCall.infos sessionLedger) wrappedCall.data.tail with
  | error fault =>
    rw [hc] at h
    cases h
  | ok context => exact ⟨context, rfl⟩

end Sample

theorem RustSdk.wrapped_execution_sessioned :
    List.Forall₂ CarriesOut Sample.innerInstructions (processInstruction .solana
      Sample.wrappedCall.rt (Sample.wrappedCall.infos Sample.sessionLedger)
      Sample.wrappedInstruction.data).invocations := by
  obtain ⟨context, hc⟩ := Sample.wrappedCall_checked
  have h := (wrapped_execution Sample.compileInner_lawful Sample.innerInstructions_fits).2 .solana
    Sample.wrappedCall.rt (Sample.wrappedCall.infos Sample.sessionLedger) _ _ (by decide +kernel)
    (fun _ _ => rfl) (.sessioned Sample.wrappedInstruction_wraps hc)
  rw [h.1]
  exact h.2.2

end ExternalSignature
