import ExternalSignature.State.Account
import ExternalSignature.Utils.Instructions

/-!
# Cross-program invocations

`invokeSystem` makes the calls of the system program that an initialization needs.
`process_execute_instructions` and `process_execute_instructions_sessioned` end in the same loop
over the compiled instructions. `invokeAll` is that loop; it returns the calls of
`slice_invoke_signed` made so far also when an instruction fails or panics.
-/

namespace ExternalSignature

open Lib

/-- What a process function leaves: its calls of the system program, its invocations of the programs
that it is given and, when it succeeds, the external account. -/
structure Processed where
  system : List SystemInstruction
  invocations : List Invocation
  result : Outcome AccountInfo
  deriving DecidableEq

/-- A process function that makes no cross-program invocation. -/
def Processed.ofResult (result : Outcome AccountInfo) : Processed := ⟨[], [], result⟩

/-- The calls of the system program, up to one that fails. -/
def invokeSystem (rt : Runtime) :
    List SystemInstruction → List SystemInstruction → List SystemInstruction × Outcome Unit
  | [], calls => (calls, .ok ())
  | instruction :: instructions, calls =>
    let calls := calls ++ [instruction]
    match rt.system calls with
    | .error e => (calls, .error (.err e))
    | .ok () => invokeSystem rt instructions calls

/-- The metas of an instruction's accounts and their distinct indices, in one pass. -/
def collectAccounts (accountMetas : List AccountMeta) :
    List UInt8 → List AccountMeta × List UInt8 → Outcome (List AccountMeta × List UInt8)
  | [], collected => return collected
  | index :: indices, (metas, accountInfoIndices) => do
    let accountMeta ← okOr .panic accountMetas[index.toNat]?
    -- `seen_indices` has 64 entries
    ensure (index.toNat < 64) .panic
    collectAccounts accountMetas indices (metas ++ [accountMeta],
      if index ∈ accountInfoIndices then accountInfoIndices else accountInfoIndices ++ [index])

/-- What the loop hands to `slice_invoke_signed` for one instruction. -/
def buildInvocation (accounts : List AccountInfo) (accountMetas : List AccountMeta)
    (executionAccount : ExecutionAccount) (instruction : CompiledInstruction) :
    Outcome Invocation := do
  let (metas, accountInfoIndices) ←
    collectAccounts accountMetas instruction.accountsIndices.toList ([], [])
  let filteredAccountInfos ←
    accountInfoIndices.mapM fun index => okOr Fault.panic accounts[index.toNat]?
  let program ← okOr .panic accounts[instruction.programIdIndex.toNat]?
  -- prevent against re-entrancy
  ensure (program.key ≠ ID) .panic
  return {
    instruction := ⟨program.key, instruction.data.toList, metas⟩
    accountInfos := filteredAccountInfos.map (·.toMeta)
    signerSeeds := executionAccount.toSignerSeeds }

def invokeAll (rt : Runtime) (accounts : List AccountInfo) (accountMetas : List AccountMeta)
    (executionAccount : ExecutionAccount) (external : AccountInfo) :
    List CompiledInstruction → List Invocation → List Invocation × Outcome Unit
  | [], invocations => (invocations, .ok ())
  | instruction :: instructions, invocations =>
    match buildInvocation accounts accountMetas executionAccount instruction with
    | .error fault => (invocations, .error fault)
    | .ok invocation =>
      let invocations := invocations ++ [invocation]
      match rt.sliceInvokeSigned external invocations with
      | .error e => (invocations, .error (.err e))
      | .ok () =>
        invokeAll rt accounts accountMetas executionAccount external instructions invocations

/-- The loop of a process function whose checks have passed, on the account they leave. -/
def Processed.invoke (rt : Runtime) (accounts : List AccountInfo) (accountMetas : List AccountMeta)
    (executionAccount : ExecutionAccount) (instructions : List CompiledInstruction)
    (account : ExternallySignedAccount) : Processed :=
  let (invocations, outcome) :=
    invokeAll rt accounts accountMetas executionAccount account.finish instructions []
  ⟨[], invocations, do outcome; return account.finish⟩

/-! ## What has been called -/

variable {rt : Runtime} {accounts : List AccountInfo} {accountMetas : List AccountMeta}
  {executionAccount : ExecutionAccount}

theorem invokeSystem_prefix (rt : Runtime) (instructions done : List SystemInstruction) :
    (invokeSystem rt instructions done).1 <+: done ++ instructions := by
  induction instructions generalizing done with
  | nil => exact List.prefix_append _ _
  | cons instruction instructions ih =>
    have hcons : done ++ instruction :: instructions = done ++ [instruction] ++ instructions := by simp
    simp only [invokeSystem]
    rw [hcons]
    split
    · exact List.prefix_append _ _
    · exact ih (done ++ [instruction])

theorem invokeSystem_eq (h : ∀ calls, rt.system calls = .ok ())
    (instructions done : List SystemInstruction) :
    invokeSystem rt instructions done = (done ++ instructions, .ok ()) := by
  induction instructions generalizing done with
  | nil => simp [invokeSystem]
  | cons instruction instructions ih => simp [invokeSystem, h, ih]

/-- The answer to the last call is that to all of them. -/
theorem invokeSystem_answer {instructions done : List SystemInstruction}
    (hdone : done = [] ∨ rt.system done = .ok ())
    (h : (invokeSystem rt instructions done).2 = .ok ()) :
    (invokeSystem rt instructions done).1 = [] ∨
      rt.system (invokeSystem rt instructions done).1 = .ok () := by
  induction instructions generalizing done with
  | nil => exact hdone
  | cons instruction instructions ih =>
    simp only [invokeSystem] at h ⊢
    cases hanswer : rt.system (done ++ [instruction]) with
    | error e =>
      rw [hanswer] at h
      cases h
    | ok _ =>
      rw [hanswer] at h
      exact ih (.inr hanswer) h

theorem invokeAll_answer {left : AccountInfo} {instructions : List CompiledInstruction}
    {done : List Invocation} (hdone : done = [] ∨ rt.sliceInvokeSigned left done = .ok ())
    (h : (invokeAll rt accounts accountMetas executionAccount left instructions done).2 =
      .ok ()) :
    (invokeAll rt accounts accountMetas executionAccount left instructions done).1 = [] ∨
      rt.sliceInvokeSigned left
        (invokeAll rt accounts accountMetas executionAccount left instructions done).1 =
          .ok () := by
  induction instructions generalizing done with
  | nil => exact hdone
  | cons instruction instructions ih =>
    simp only [invokeAll] at h ⊢
    cases hbuild : buildInvocation accounts accountMetas executionAccount instruction with
    | error fault =>
      rw [hbuild] at h
      cases h
    | ok invocation =>
      rw [hbuild] at h
      simp only at h ⊢
      cases hanswer : rt.sliceInvokeSigned left (done ++ [invocation]) with
      | error e =>
        rw [hanswer] at h
        cases h
      | ok _ =>
        rw [hanswer] at h
        exact ih (.inr hanswer) h

theorem collectAccounts_ok {indices : List UInt8} {metas metas' : List AccountMeta}
    {infos infos' : List UInt8}
    (h : collectAccounts accountMetas indices (metas, infos) = .ok (metas', infos')) :
    ∃ new, metas' = metas ++ new ∧ new.map some = indices.map (accountMetas[·.toNat]?) := by
  induction indices generalizing metas infos with
  | nil =>
    cases h
    exact ⟨[], by simp⟩
  | cons index indices ih =>
    simp only [collectAccounts, bind_eq_ok, okOr_eq_ok, exists_unit, ensure_eq_ok] at h
    obtain ⟨accountMeta, hm, -, h⟩ := h
    obtain ⟨new, rfl, hnew⟩ := ih h
    exact ⟨accountMeta :: new, by simp, by simp [hm, hnew]⟩

/-- What the loop hands on for one instruction. -/
structure Built (accounts : List AccountInfo) (accountMetas : List AccountMeta)
    (executionAccount : ExecutionAccount) (instruction : CompiledInstruction)
    (invocation : Invocation) : Prop where
  programId : accounts[instruction.programIdIndex.toNat]?.map (·.key) =
    some invocation.instruction.programId
  programId_ne : invocation.instruction.programId ≠ ID
  data : invocation.instruction.data = instruction.data.toList
  metas : invocation.instruction.accounts.map some =
    instruction.accountsIndices.toList.map (accountMetas[·.toNat]?)
  signerSeeds : invocation.signerSeeds = executionAccount.toSignerSeeds

theorem buildInvocation_ok {instruction : CompiledInstruction} {invocation : Invocation}
    (h : buildInvocation accounts accountMetas executionAccount instruction = .ok invocation) :
    Built accounts accountMetas executionAccount instruction invocation := by
  simp only [buildInvocation, bind_eq_ok, okOr_eq_ok, exists_unit, ensure_eq_ok, pure_eq_ok] at h
  obtain ⟨⟨metas, infos⟩, hc, filtered, -, program, hp, hne, rfl⟩ := h
  obtain ⟨new, rfl, hnew⟩ := collectAccounts_ok hc
  exact ⟨by simp [hp], hne, rfl, hnew, rfl⟩

theorem Built.mem_metas {instruction : CompiledInstruction} {invocation : Invocation}
    (h : Built accounts accountMetas executionAccount instruction invocation) {m : AccountMeta}
    (hm : m ∈ invocation.instruction.accounts) : m ∈ accountMetas := by
  have hs : some m ∈ invocation.instruction.accounts.map some := List.mem_map_of_mem hm
  rw [h.metas] at hs
  obtain ⟨index, -, hi⟩ := List.mem_map.mp hs
  exact List.mem_of_getElem? hi

/-- The calls of a run of the loop, which may fail, are built from the first instructions; and a run
that succeeds makes one call for each instruction. -/
theorem invokeAll_built (rt : Runtime) (accounts : List AccountInfo)
    (accountMetas : List AccountMeta) (executionAccount : ExecutionAccount) (external : AccountInfo)
    (instructions : List CompiledInstruction) (done : List Invocation) :
    ∃ new, (invokeAll rt accounts accountMetas executionAccount external instructions done).1 =
        done ++ new ∧
      List.Forall₂ (fun instruction invocation =>
        buildInvocation accounts accountMetas executionAccount instruction = .ok invocation)
        (instructions.take new.length) new ∧
      ((invokeAll rt accounts accountMetas executionAccount external instructions done).2 = .ok () →
        new.length = instructions.length) := by
  induction instructions generalizing done with
  | nil => exact ⟨[], (List.append_nil _).symm, .nil, fun _ => rfl⟩
  | cons instruction instructions ih =>
    simp only [invokeAll]
    split
    · exact ⟨[], (List.append_nil _).symm, .nil, by rintro ⟨⟩⟩
    · rename_i invocation hb
      split
      · exact ⟨[invocation], rfl, .cons hb .nil, by rintro ⟨⟩⟩
      · obtain ⟨new, hnew, hall, hlen⟩ := ih (done ++ [invocation])
        refine ⟨invocation :: new, ?_, .cons hb hall, fun hok => congrArg (· + 1) (hlen hok)⟩
        rw [hnew, List.append_assoc, List.singleton_append]

theorem Processed.invoke_ok {instructions : List CompiledInstruction}
    {account : ExternallySignedAccount} {left : AccountInfo}
    (h : (Processed.invoke rt accounts accountMetas executionAccount instructions account).result =
      .ok left) :
    left = account.finish ∧ List.Forall₂ (Built accounts accountMetas executionAccount) instructions
      (Processed.invoke rt accounts accountMetas executionAccount instructions
        account).invocations := by
  obtain ⟨new, hnew, hbuilt, hlen⟩ :=
    invokeAll_built rt accounts accountMetas executionAccount account.finish instructions []
  simp only [Processed.invoke, bind_eq_ok, exists_unit, pure_eq_ok] at h ⊢
  obtain ⟨hok, rfl⟩ := h
  rw [hlen hok, List.take_length] at hbuilt
  rw [hnew, List.nil_append]
  exact ⟨rfl, hbuilt.imp fun _ _ => buildInvocation_ok⟩

theorem Processed.built_of_mem_invoke {instructions : List CompiledInstruction}
    {account : ExternallySignedAccount} {invocation : Invocation}
    (h : invocation ∈ (Processed.invoke rt accounts accountMetas executionAccount instructions
      account).invocations) :
    ∃ instruction ∈ instructions,
      Built accounts accountMetas executionAccount instruction invocation := by
  obtain ⟨new, hnew, hbuilt, -⟩ :=
    invokeAll_built rt accounts accountMetas executionAccount account.finish instructions []
  simp only [Processed.invoke, hnew, List.nil_append] at h
  obtain ⟨i, hi, rfl⟩ := List.mem_iff_getElem.mp h
  have hlt : i < (instructions.take new.length).length := by rwa [hbuilt.length_eq]
  exact ⟨_, List.mem_of_mem_take (List.getElem_mem hlt), buildInvocation_ok (hbuilt.get hlt hi)⟩

end ExternalSignature
