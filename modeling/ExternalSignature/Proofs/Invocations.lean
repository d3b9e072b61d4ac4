import ExternalSignature.Proofs.Binding
import ExternalSignature.Proofs.Wrapping

/-!
# The calls of instructions

An instruction stands for one call, over its accounts as the transaction grants them and signed by
the execution account (`Instruction.invocation`). The SDKs compile instructions to indices into a
list of keys, and the loop of the program makes of them the calls that the instructions stand for,
in their order, as far as the runtime accepts them (`Unwraps.invoke_eq`).
-/

namespace ExternalSignature

open Lib RustSdk

variable {rt : Runtime} {l : Ledger} {us : List AccountMeta} {keys : List Pubkey}
  {executionAccount : ExecutionAccount} {scheme : SignerExecutionScheme}

/-- The accounts of these keys, with the flags that the transaction grants for its uses. -/
def Ledger.granted (l : Ledger) (us : List AccountMeta) (keys : List Pubkey) : List AccountInfo :=
  keys.map fun key => l.info (Sdk.unionOf us key)

@[simp] theorem Ledger.keys_granted : (l.granted us keys).map (·.key) = keys := by
  rw [granted, List.map_map]
  exact List.map_id keys

/-- The call that an instruction stands for. -/
def Instruction.invocation (us : List AccountMeta)
    (executionAccount : ExecutionAccount) (scheme : SignerExecutionScheme)
    (instruction : Instruction) : Invocation where
  instruction := ⟨instruction.programId, instruction.data, instruction.accounts.map fun m =>
    executionMeta executionAccount scheme (Sdk.unionOf us m.pubkey)⟩
  accountInfos := (instruction.accounts.map (·.pubkey)).eraseDups.map (Sdk.unionOf us)
  signerSeeds := executionAccount.toSignerSeeds

/-- The indices of a compiled instruction point at the accounts of the instruction. -/
theorem RustSdk.Indexes.getElem_granted {instruction : Instruction} {compiled : CompiledInstruction}
    (h : Indexes keys instruction (messageInstruction compiled)) {α : Type} (f : Pubkey → α) :
    compiled.accountsIndices.toList.map ((keys.map f)[·.toNat]?) =
      (instruction.accounts.map fun m => f m.pubkey).map some := by
  have haccounts := congrArg (List.map (Option.map f)) h.accounts
  simp only [List.map_map] at haccounts ⊢
  refine Eq.trans (List.map_congr_left fun index _ => ?_) haccounts
  exact List.getElem?_map

theorem RustSdk.Indexes.buildInvocation_eq {instruction : Instruction}
    {compiled : CompiledInstruction}
    (h : Indexes keys instruction (messageInstruction compiled)) (hnodup : keys.Nodup)
    (hlength : keys.length ≤ 64) (hne : instruction.programId ≠ ID) :
    buildInvocation (l.granted us keys)
        (createInstructionExecutionAccountMetas (l.granted us keys) executionAccount scheme)
        executionAccount compiled =
      .ok (instruction.invocation us executionAccount scheme) := by
  have hkeys : (l.granted us keys).map (·.key) = keys := Ledger.keys_granted
  have hmetas : createInstructionExecutionAccountMetas (l.granted us keys) executionAccount scheme =
      keys.map fun key => executionMeta executionAccount scheme (Sdk.unionOf us key) := by
    rw [executionAccountMetas_eq, Ledger.granted, List.map_map, List.map_map]
    rfl
  have hin : InRange (l.granted us keys) compiled :=
    Indexes.inRange (hkeys.symm ▸ h) (by rwa [Ledger.granted, List.length_map]) hne
  obtain ⟨invocation, hb⟩ := hin.build
    (show (createInstructionExecutionAccountMetas (l.granted us keys) executionAccount
      scheme).length = _ by rw [createInstructionExecutionAccountMetas, List.length_map])
    executionAccount
  have hcarries := Indexes.carriesOut (hkeys.symm ▸ h) (hkeys.symm ▸ hnodup) hin
    (keys_createInstructionExecutionAccountMetas _ _ _) hb
  have hbuilt := buildInvocation_ok hb
  have haccounts := hbuilt.metas
  rw [hmetas, h.getElem_granted] at haccounts
  have haccounts := List.map_injective_iff.mpr (Option.some_injective _) haccounts
  have hinfos := buildInvocation_infos hb
  -- every info has the flags that the transaction grants for its key
  have hgranted : ∀ info ∈ invocation.accountInfos, Sdk.unionOf us info.pubkey = info := by
    intro info hi
    have hmem : some info ∈ invocation.accountInfos.map some := List.mem_map_of_mem hi
    rw [hinfos] at hmem
    obtain ⟨index, -, hindex⟩ := List.mem_map.mp hmem
    obtain ⟨granted, hget, rfl⟩ := Option.map_eq_some_iff.mp hindex
    obtain ⟨key, -, rfl⟩ := List.mem_map.mp (List.mem_of_getElem? hget)
    rfl
  have hinfos : (instruction.accounts.map (·.pubkey)).eraseDups.map (Sdk.unionOf us) =
      invocation.accountInfos := by
    rw [← hcarries.infos, List.map_map]
    exact (List.map_congr_left hgranted).trans (List.map_id _)
  rw [hb]
  obtain ⟨⟨programId, data, accounts⟩, infos, seeds⟩ := invocation
  obtain rfl := hcarries.programId
  obtain rfl := hcarries.data
  obtain rfl := haccounts
  obtain rfl := hbuilt.signerSeeds
  obtain rfl := hinfos
  rfl

/-! ## The loop -/

section

variable {instructions : List Instruction} {compiled : List CompiledInstruction}

/-- The calls of instructions. -/
def invocationsOf (us : List AccountMeta) (executionAccount : ExecutionAccount)
    (scheme : SignerExecutionScheme) (instructions : List Instruction) : List Invocation :=
  instructions.map (·.invocation us executionAccount scheme)

/-- The runtime accepts the calls, one after the other. -/
def Runtime.Accepts (rt : Runtime) (external : AccountInfo) (calls : List Invocation) : Prop :=
  ∀ done call, done ++ [call] <+: calls → rt.sliceInvokeSigned external (done ++ [call]) = .ok ()

/-- What is compiled is built again. -/
theorem RustSdk.Unwraps.built (h : Unwraps instructions (l.granted us keys) compiled)
    (executionAccount : ExecutionAccount) (scheme : SignerExecutionScheme) :
    List.Forall₂ (fun instruction c => buildInvocation (l.granted us keys)
        (createInstructionExecutionAccountMetas (l.granted us keys) executionAccount scheme)
        executionAccount c = .ok (instruction.invocation us executionAccount scheme))
      instructions compiled := by
  obtain ⟨hnodup, hlength, hindexes, hprogram⟩ := h
  simp only [Ledger.keys_granted] at hnodup hindexes
  rw [Ledger.granted, List.length_map] at hlength
  induction hindexes with
  | nil => exact .nil
  | cons hi _ ih =>
    obtain ⟨hne, hprogram⟩ := List.forall_mem_cons.mp hprogram
    exact .cons (hi.buildInvocation_eq hnodup hlength hne) (ih hprogram)

/-- The loop over what the instructions have been compiled to makes their calls. -/
theorem invokeAll_eq {accounts : List AccountInfo} {accountMetas : List AccountMeta}
    {external : AccountInfo} {call : Instruction → Invocation}
    (h : List.Forall₂ (fun instruction c => buildInvocation accounts accountMetas executionAccount c =
      .ok (call instruction)) instructions compiled) (done : List Invocation) :
    (invokeAll rt accounts accountMetas executionAccount external compiled done).1 <+:
        done ++ instructions.map call ∧
      (rt.Accepts external (done ++ instructions.map call) →
        invokeAll rt accounts accountMetas executionAccount external compiled done =
          (done ++ instructions.map call, .ok ())) := by
  induction h generalizing done with
  | nil =>
    rw [List.map_nil, List.append_nil]
    exact ⟨List.prefix_refl done, fun _ => rfl⟩
  | @cons instruction c instructions compiled hb _ ih =>
    have hcons : done ++ (instruction :: instructions).map call =
        done ++ [call instruction] ++ instructions.map call := by simp
    obtain ⟨hfirst, heq⟩ := ih (done ++ [call instruction])
    rw [hcons]
    simp only [invokeAll, hb]
    constructor
    · cases rt.sliceInvokeSigned external (done ++ [call instruction]) with
      | error e => exact List.prefix_append _ _
      | ok u => exact hfirst
    · intro haccepts
      rw [haccepts done _ (List.prefix_append _ _)]
      exact heq haccepts

/-- The program makes the calls of the instructions that were wrapped, as far as the runtime accepts
them. -/
theorem RustSdk.Unwraps.invoke_eq (h : Unwraps instructions (l.granted us keys) compiled)
    (rt : Runtime) (executionAccount : ExecutionAccount) (scheme : SignerExecutionScheme)
    (account : ExternallySignedAccount) :
    (Processed.invoke rt (l.granted us keys) (createInstructionExecutionAccountMetas
        (l.granted us keys) executionAccount scheme) executionAccount compiled account).invocations <+:
        invocationsOf us executionAccount scheme instructions ∧
      (rt.Accepts account.finish (invocationsOf us executionAccount scheme instructions) →
        Processed.invoke rt (l.granted us keys) (createInstructionExecutionAccountMetas
            (l.granted us keys) executionAccount scheme) executionAccount compiled account =
          ⟨[], invocationsOf us executionAccount scheme instructions, .ok account.finish⟩) := by
  obtain ⟨hfirst, heq⟩ := @invokeAll_eq rt executionAccount _ _ _ _ account.finish _
    (h.built executionAccount scheme) []
  refine ⟨hfirst, fun haccepts => ?_⟩
  rw [Processed.invoke, heq haccepts]
  rfl

end

end ExternalSignature
