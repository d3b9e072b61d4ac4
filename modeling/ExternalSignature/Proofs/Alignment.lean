import ExternalSignature.Lib.Distinct
import ExternalSignature.Proofs.Session

/-!
# Account infos and metas

For each instruction the loop collects a meta for every account index, and an account info for
every index that is new. `slice_invoke_signed` wants the two lists in one order, and they are in
one order exactly when every new index is in its place (`invocation_alignment`): a repetition that
is followed by a new account moves the infos against the metas.
-/

namespace ExternalSignature

open Lib Lib.Borsh

variable {host : Host} {rt : Runtime} {accounts : List AccountInfo} {accountMetas : List AccountMeta}
  {executionAccount : ExecutionAccount}

/-! ## One instruction -/

/-- The indices collected for the account infos are the first occurrences. -/
theorem collectAccounts_infos {indices before : List UInt8} {metas metas' : List AccountMeta}
    {infos : List UInt8}
    (h : collectAccounts accountMetas indices (metas, before.eraseDups) = .ok (metas', infos)) :
    infos = (before ++ indices).eraseDups := by
  induction indices generalizing metas before with
  | nil =>
    cases h
    rw [List.append_nil]
  | cons index indices ih =>
    simp only [collectAccounts, bind_eq_ok, exists_unit, List.mem_eraseDups, ← eraseDups_concat] at h
    obtain ⟨accountMeta, -, -, h⟩ := h
    rw [ih h, List.append_assoc, List.singleton_append]

theorem collectAccounts_isOk {indices : List UInt8}
    (h : ∀ index ∈ indices, index.toNat < min 64 accountMetas.length)
    (collected : List AccountMeta × List UInt8) : ∃ all, collectAccounts accountMetas indices collected = .ok all := by
  induction indices generalizing collected with
  | nil => exact ⟨collected, rfl⟩
  | cons index indices ih =>
    obtain ⟨hi, h⟩ := List.forall_mem_cons.mp h
    obtain ⟨h64, hlt⟩ := Nat.lt_min.mp hi
    obtain ⟨metas, infos⟩ := collected
    obtain ⟨all, hall⟩ := ih h _
    refine ⟨all, ?_⟩
    simp only [collectAccounts, bind_eq_ok, okOr_eq_ok, exists_unit, ensure_eq_ok]
    exact ⟨_, List.getElem?_eq_getElem hlt, h64, hall⟩

/-- The account infos of an invocation, by their indices. -/
theorem buildInvocation_infos {instruction : CompiledInstruction} {invocation : Invocation}
    (h : buildInvocation accounts accountMetas executionAccount instruction = .ok invocation) :
    invocation.accountInfos.map some =
      instruction.accountsIndices.toList.eraseDups.map (accounts[·.toNat]?.map (·.toMeta)) := by
  simp only [buildInvocation, bind_eq_ok, pure_eq_ok] at h
  obtain ⟨⟨metas, infos⟩, hc, filtered, hf, -, -, -, -, rfl⟩ := h
  rw [← List.nil_append instruction.accountsIndices.toList, ← collectAccounts_infos hc]
  have hfiltered : List.Forall₂ (fun (index : UInt8) info =>
      okOr Fault.panic accounts[index.toNat]? = .ok info) infos filtered := mapM_eq_ok.mp hf
  clear hc hf
  induction hfiltered with
  | nil => rfl
  | cons hi _ ih =>
    rw [List.map_cons, List.map_cons, List.map_cons, okOr_eq_ok.mp hi, ih]
    rfl

/-- The indices of an instruction are those of execution accounts that the loop can track, and its
program is not this one. -/
structure InRange (accounts : List AccountInfo) (instruction : CompiledInstruction) : Prop where
  indices : ∀ index ∈ instruction.accountsIndices.toList, index.toNat < min 64 accounts.length
  program : ∃ program, accounts[instruction.programIdIndex.toNat]? = some program ∧ program.key ≠ ID

theorem InRange.build {instruction : CompiledInstruction} (h : InRange accounts instruction)
    (hl : accountMetas.length = accounts.length) (executionAccount : ExecutionAccount) :
    ∃ invocation,
      buildInvocation accounts accountMetas executionAccount instruction = .ok invocation := by
  obtain ⟨⟨metas, infos⟩, hc⟩ := collectAccounts_isOk (hl ▸ h.indices) ([], [])
  obtain ⟨program, hp, hne⟩ := h.program
  have hmem : ∀ index ∈ infos, ∃ info, accounts[index.toNat]? = some info := by
    intro index hi
    have hinfos : infos = ([] ++ instruction.accountsIndices.toList).eraseDups :=
      collectAccounts_infos hc
    rw [hinfos, List.mem_eraseDups] at hi
    exact ⟨_, List.getElem?_eq_getElem (Nat.lt_min.mp (h.indices index hi)).2⟩
  obtain ⟨filtered, hf⟩ : ∃ filtered,
      (infos.mapM fun index => okOr Fault.panic accounts[index.toNat]?) = .ok filtered := by
    clear hc
    induction infos with
    | nil => exact ⟨[], rfl⟩
    | cons index infos ih =>
      obtain ⟨hi, hmem⟩ := List.forall_mem_cons.mp hmem
      obtain ⟨info, hi⟩ := hi
      obtain ⟨rest, hrest⟩ := ih hmem
      exact ⟨info :: rest, mapM_eq_ok.mpr (.cons (okOr_eq_ok.mpr hi) (mapM_eq_ok.mp hrest))⟩
  refine ⟨⟨⟨program.key, instruction.data.toList, metas⟩, filtered.map (·.toMeta),
    executionAccount.toSignerSeeds⟩, ?_⟩
  simp only [buildInvocation, bind_eq_ok, okOr_eq_ok, exists_unit, ensure_eq_ok]
  exact ⟨_, hc, filtered, hf, program, hp, hne, rfl⟩

namespace Invocation

/-- The account infos agree with the metas, key by key, at every index they have. -/
def Aligned (invocation : Invocation) : Prop :=
  invocation.accountInfos.map (·.pubkey) <+: invocation.instruction.accounts.map (·.pubkey)

instance (invocation : Invocation) : Decidable invocation.Aligned :=
  inferInstanceAs (Decidable (_ <+: _))

end Invocation

/-- The key of the execution account that an index names. -/
def keyAt (accounts : List AccountInfo) (index : UInt8) : Option Pubkey :=
  accounts[index.toNat]?.map (·.key)

/-- The keys of the account infos are at the first occurrences of the indices. -/
theorem accountInfos_keys {instruction : CompiledInstruction} {invocation : Invocation}
    (h : buildInvocation accounts accountMetas executionAccount instruction = .ok invocation) :
    (invocation.accountInfos.map (·.pubkey)).map some =
      instruction.accountsIndices.toList.eraseDups.map (keyAt accounts) := by
  have hi := congrArg (List.map (Option.map (·.pubkey))) (buildInvocation_infos h)
  rw [List.map_map, List.map_map] at hi
  rw [List.map_map]
  refine hi.trans (List.map_congr_left fun index _ => ?_)
  exact Option.map_map _ _ _

/-- The keys of the metas are at the indices. -/
theorem accountMetas_keys {instruction : CompiledInstruction} {invocation : Invocation}
    (hkeys : accountMetas.map (·.pubkey) = accounts.map (·.key))
    (h : Built accounts accountMetas executionAccount instruction invocation) :
    (invocation.instruction.accounts.map (·.pubkey)).map some =
      instruction.accountsIndices.toList.map (keyAt accounts) := by
  have hm := congrArg (List.map (Option.map (·.pubkey))) h.metas
  have hget : Option.map (·.pubkey) ∘ (fun index : UInt8 => accountMetas[index.toNat]?) =
      keyAt accounts := by
    funext index
    rw [Function.comp_apply, keyAt, ← List.getElem?_map, ← List.getElem?_map, hkeys]
  rw [List.map_map, List.map_map, hget] at hm
  rw [List.map_map]
  exact hm

theorem aligned_iff_inPlace {instruction : CompiledInstruction} {invocation : Invocation}
    (hkeys : accountMetas.map (·.pubkey) = accounts.map (·.key))
    (h : buildInvocation accounts accountMetas executionAccount instruction = .ok invocation) :
    invocation.Aligned ↔ InPlace (keyAt accounts) instruction.accountsIndices.toList := by
  rw [← map_eraseDups_prefix_iff, ← accountInfos_keys h,
    ← accountMetas_keys hkeys (buildInvocation_ok h),
    List.prefix_map_iff_of_injective (fun _ _ => Option.some.inj)]
  rfl

/-! ## The loop -/

/-- `slice_invoke_signed` refuses account infos that are not aligned, and the callee succeeds. -/
def Runtime.ChecksPositions (rt : Runtime) : Prop :=
  ∀ external done invocation, rt.sliceInvokeSigned external (done ++ [invocation]) =
    if invocation.Aligned then .ok () else .error .invalidArgument

theorem invokeAll_ok_iff {instructions : List CompiledInstruction} (hrt : rt.ChecksPositions)
    (hkeys : accountMetas.map (·.pubkey) = accounts.map (·.key))
    (hin : ∀ instruction ∈ instructions, InRange accounts instruction)
    (executionAccount : ExecutionAccount) (external : AccountInfo) (done : List Invocation) :
    (invokeAll rt accounts accountMetas executionAccount external instructions done).2 = .ok () ↔
      ∀ instruction ∈ instructions,
        InPlace (keyAt accounts) instruction.accountsIndices.toList := by
  induction instructions generalizing done with
  | nil => exact iff_of_true rfl (by simp)
  | cons instruction instructions ih =>
    obtain ⟨hi, hin⟩ := List.forall_mem_cons.mp hin
    have hl : accountMetas.length = accounts.length := by
      simpa using congrArg List.length hkeys
    obtain ⟨invocation, hb⟩ := hi.build hl executionAccount
    have haligned := aligned_iff_inPlace hkeys hb
    have hs := hrt external done invocation
    rw [List.forall_mem_cons, ← haligned]
    by_cases h : invocation.Aligned
    · rw [if_pos h] at hs
      simp only [invokeAll, hb, hs, ih hin, h, true_and]
    · rw [if_neg h] at hs
      simp only [invokeAll, hb, hs, h, false_and, reduceCtorEq]

/-! ## The process functions -/

/-- A process function whose checks have passed: what it leaves, the execution accounts and the
instructions of its loop. -/
inductive Executing (host : Host) (rt : Runtime) (accounts : List AccountInfo) (data : Bytes) :
    Processed → List AccountInfo → List CompiledInstruction → Prop where
  | execute {context : ExecuteInstructionsContext} {account : ExternallySignedAccount}
      (checked : verifyExecuteInstructions host rt accounts data = .ok (context, account)) :
      Executing host rt accounts data (processExecuteInstructions host rt accounts data)
        context.instructionExecutionAccounts context.instructions
  | sessioned {context : ExecuteInstructionsSessionedContext}
      (checked : checkExecuteInstructionsSessioned host rt accounts data = .ok context) :
      Executing host rt accounts data (processExecuteInstructionsSessioned host rt accounts data)
        context.instructionExecutionAccounts context.instructions

theorem keys_createInstructionExecutionAccountMetas (accounts : List AccountInfo)
    (executionAccount : ExecutionAccount) (scheme : SignerExecutionScheme) :
    (createInstructionExecutionAccountMetas accounts executionAccount scheme).map (·.pubkey) =
      accounts.map (·.key) := by
  rw [createInstructionExecutionAccountMetas, List.map_map]
  refine List.map_congr_left fun account _ => ?_
  rw [Function.comp_apply]
  split
  · cases scheme <;> rfl
  · rfl

variable {data : Bytes} {p : Processed} {executionAccounts : List AccountInfo}
  {instructions : List CompiledInstruction}

/-- Both functions end in the loop, with metas of the keys of the execution accounts. -/
theorem Executing.invoke (h : Executing host rt accounts data p executionAccounts instructions) :
    ∃ metas executionAccount account,
      p = .invoke rt executionAccounts metas executionAccount instructions account ∧
      metas.map (·.pubkey) = executionAccounts.map (·.key) := by
  cases h with
  | execute checked =>
    refine ⟨_, _, _, by rw [processExecuteInstructions, checked], ?_⟩
    obtain ⟨run, h₁, h₂, -⟩ := verifyExecuteInstructions_ok checked
    rw [h₁, h₂]
    exact keys_createInstructionExecutionAccountMetas _ _ _
  | sessioned checked =>
    refine ⟨_, _, _, by rw [processExecuteInstructionsSessioned, checked], ?_⟩
    obtain ⟨run, h₁, h₂, -⟩ := checkExecuteInstructionsSessioned_ok checked
    rw [h₁, h₂]
    exact keys_createInstructionExecutionAccountMetas _ _ _

theorem keyAt_inj (hnodup : (executionAccounts.map (·.key)).Nodup) {instruction : CompiledInstruction}
    (hin : InRange executionAccounts instruction) :
    ∀ a ∈ instruction.accountsIndices.toList, ∀ b ∈ instruction.accountsIndices.toList,
      keyAt executionAccounts a = keyAt executionAccounts b → a = b := by
  intro a ha b hb heq
  have hlt (index) (h : index ∈ instruction.accountsIndices.toList) :=
    (Nat.lt_min.mp (hin.indices index h)).2
  rw [keyAt, keyAt, ← List.getElem?_map, ← List.getElem?_map] at heq
  have hab := (List.getElem?_inj (by simpa using hlt a ha) hnodup).mp heq
  exact UInt8.toNat_inj.mp hab

/-- The account infos of an invocation agree with its metas exactly when every index of the
instruction is in its place. With the callee's check, a function whose instructions are in range
succeeds exactly when that is so of them all; and where no two accounts have one key, it says that
no index is new after a repetition. -/
theorem invocation_alignment
    (h : Executing host rt accounts data p executionAccounts instructions) :
    List.Forall₂ (fun instruction invocation => invocation.Aligned ↔
      InPlace (keyAt executionAccounts) instruction.accountsIndices.toList)
      (instructions.take p.invocations.length) p.invocations ∧
    (rt.ChecksPositions → (∀ instruction ∈ instructions, InRange executionAccounts instruction) →
      (p.result.isOk ↔ ∀ instruction ∈ instructions,
        InPlace (keyAt executionAccounts) instruction.accountsIndices.toList)) ∧
    ((executionAccounts.map (·.key)).Nodup → ∀ instruction ∈ instructions,
      InRange executionAccounts instruction →
        (InPlace (keyAt executionAccounts) instruction.accountsIndices.toList ↔
          ∀ before index, before ++ [index] <+: instruction.accountsIndices.toList →
            index ∉ before → before.Nodup)) := by
  obtain ⟨metas, executionAccount, account, rfl, hkeys⟩ := h.invoke
  refine ⟨?_, fun hrt hin => ?_, fun hnodup instruction _ hin =>
    inPlace_iff_of_injOn (keyAt_inj hnodup hin)⟩
  · obtain ⟨new, hnew, hall, -⟩ :=
      invokeAll_built rt executionAccounts metas executionAccount account.finish instructions []
    simp only [Processed.invoke, hnew, List.nil_append]
    exact hall.imp fun _ _ hb => aligned_iff_inPlace hkeys hb
  · rw [← invokeAll_ok_iff hrt hkeys hin executionAccount account.finish []]
    cases hrun : (invokeAll rt executionAccounts metas executionAccount account.finish
      instructions []).2 <;>
      simp [Processed.invoke, hrun, bind, Except.bind, Except.isOk, Except.toBool, pure, Except.pure]

/-! ## A repetition before a new account -/

namespace Sample

theorem seven_fits : (tryFromUsize [(7 : UInt8)].length : Option UInt16).isSome := rfl

/-- An instruction for `target` that names the payer twice, and then `target`. -/
def repeatedInstruction : CompiledInstruction := ⟨1, ⟨[0, 0, 1], rfl⟩, ⟨[7], seven_fits⟩⟩

/-- The session key has it executed, with a `slice_invoke_signed` that checks the positions. -/
def repeatedCall : Call where
  rt := { sessionedCall.rt with
    sliceInvokeSigned := fun _ calls =>
      if calls.getLast?.all (fun invocation => invocation.Aligned) then .ok ()
      else .error .invalidArgument }
  accounts := [⟨external, false, false⟩, ⟨sessionSigner, false, true⟩, ⟨payer, true, false⟩,
    ⟨target, false, false⟩]
  data := 3 :: encoded
    (ExecutableInstructionSessionedArgs.mk 0 0 ⟨[repeatedInstruction], rfl⟩)

/-- Its execution accounts. -/
def repeatedAccounts : List AccountInfo :=
  [⟨payer, false, true, systemProgramId, []⟩, ⟨target, false, false, systemProgramId, []⟩]

/-- What the loop hands on for it. -/
def repeatedInvocation : Invocation where
  instruction := ⟨target, [7],
    [⟨payer, true, false⟩, ⟨payer, true, false⟩, ⟨target, false, false⟩]⟩
  accountInfos := repeatedAccounts.map (·.toMeta)
  signerSeeds := [external.val, ascii "execution_account", [255]]

theorem repeatedCall_checksPositions : repeatedCall.rt.ChecksPositions := by
  intro external done invocation
  simp [repeatedCall]

theorem repeatedCall_process : processExecuteInstructionsSessioned .solana repeatedCall.rt
    (repeatedCall.infos sessionLedger) repeatedCall.data.tail =
      ⟨[], [repeatedInvocation], .error (.err .invalidArgument)⟩ := by
  rw [← executeRecorded.host_eq]
  decide +kernel

theorem repeatedCall_checked : ∃ context, checkExecuteInstructionsSessioned .solana repeatedCall.rt
    (repeatedCall.infos sessionLedger) repeatedCall.data.tail = .ok context ∧
      context.instructionExecutionAccounts = repeatedAccounts ∧
      context.instructions = [repeatedInstruction] := by
  have h : (do
      let context ← checkExecuteInstructionsSessioned .solana repeatedCall.rt
        (repeatedCall.infos sessionLedger) repeatedCall.data.tail
      return (context.instructionExecutionAccounts, context.instructions) : Outcome _) =
        .ok (repeatedAccounts, [repeatedInstruction]) := by
    rw [← executeRecorded.host_eq]
    decide +kernel
  simp only [bind_eq_ok, pure_eq_ok, Prod.mk.injEq] at h
  exact h

end Sample

/-- The infos are of the payer and of the target, the metas of the payer twice and of the target:
the call is rejected, though every index is in range. -/
theorem invocation_alignment_repeated :
    (∀ index ∈ Sample.repeatedInstruction.accountsIndices.toList,
      index.toNat < min 64 Sample.repeatedAccounts.length) ∧
    Sample.repeatedCall.rt.ChecksPositions ∧
    processExecuteInstructionsSessioned .solana Sample.repeatedCall.rt
      (Sample.repeatedCall.infos Sample.sessionLedger) Sample.repeatedCall.data.tail =
        ⟨[], [Sample.repeatedInvocation], .error (.err .invalidArgument)⟩ ∧
    ¬Sample.repeatedInvocation.Aligned :=
  ⟨by decide +kernel, Sample.repeatedCall_checksPositions, Sample.repeatedCall_process,
    by decide +kernel⟩

theorem invocation_alignment_sessioned : Sample.repeatedInvocation.Aligned ↔
    InPlace (keyAt Sample.repeatedAccounts)
      Sample.repeatedInstruction.accountsIndices.toList := by
  obtain ⟨context, hc, haccounts, hinstructions⟩ := Sample.repeatedCall_checked
  have h := (invocation_alignment (.sessioned hc)).1
  rw [Sample.repeatedCall_process, haccounts, hinstructions] at h
  exact (List.forall₂_cons.mp h).1

end ExternalSignature
