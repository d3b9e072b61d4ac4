import ExternalSignature.Instructions.Invoke

/-!
# The buffers of the loop

The source allocates two containers before the loop and clears them after each call of
`slice_invoke_signed`. `Processed.loop` is the end of a process function with these containers and
with the table of the indices that an instruction has named so far. An instruction always finds the
containers empty, so the loop is the one of `Processed.invoke` (`Processed.loop_eq_invoke`).
-/

namespace ExternalSignature

open Lib

/-- The containers that the iterations share. -/
structure Buffers where
  accountMetas : List AccountMeta
  accountInfoIndices : List UInt8

namespace Buffers

/-- As they are allocated, and after `clear()`. -/
def empty : Buffers := ⟨[], []⟩

/-- `[false; 64]`. -/
def noneSeen : List Bool := List.replicate 64 false

/-- The pass over the account indices of an instruction. -/
def collect (accountMetas : List AccountMeta) : List UInt8 → List Bool → Buffers → Outcome Buffers
  | [], _, buffers => return buffers
  | index :: indices, seenIndices, buffers => do
    let accountMeta ← okOr .panic accountMetas[index.toNat]?
    let metas := buffers.accountMetas ++ [accountMeta]
    let seen ← okOr .panic seenIndices[index.toNat]?
    if seen then
      collect accountMetas indices seenIndices ⟨metas, buffers.accountInfoIndices⟩
    else
      collect accountMetas indices (seenIndices.set index.toNat true)
        ⟨metas, buffers.accountInfoIndices ++ [index]⟩

/-- One iteration up to the call: what it leaves in the containers, and what it hands on. -/
def fill (accounts : List AccountInfo) (accountMetas : List AccountMeta)
    (executionAccount : ExecutionAccount) (buffers : Buffers) (instruction : CompiledInstruction) :
    Outcome (Buffers × Invocation) := do
  let buffers ← buffers.collect accountMetas instruction.accountsIndices.toList noneSeen
  let filteredAccountInfos ←
    buffers.accountInfoIndices.mapM fun index => okOr Fault.panic accounts[index.toNat]?
  let program ← okOr .panic accounts[instruction.programIdIndex.toNat]?
  -- prevent against re-entrancy
  ensure (program.key ≠ ID) .panic
  return (buffers, {
    instruction := ⟨program.key, instruction.data.toList, buffers.accountMetas⟩
    accountInfos := filteredAccountInfos.map (·.toMeta)
    signerSeeds := executionAccount.toSignerSeeds })

/-- `account_metas.clear()` and `account_info_indices.clear()`. -/
def clear (_ : Buffers) : Buffers := empty

end Buffers

def executeLoop (rt : Runtime) (accounts : List AccountInfo) (accountMetas : List AccountMeta)
    (executionAccount : ExecutionAccount) (external : AccountInfo) :
    List CompiledInstruction → Buffers → List Invocation → List Invocation × Outcome Unit
  | [], _, invocations => (invocations, .ok ())
  | instruction :: instructions, buffers, invocations =>
    match buffers.fill accounts accountMetas executionAccount instruction with
    | .error fault => (invocations, .error fault)
    | .ok (buffers, invocation) =>
      let invocations := invocations ++ [invocation]
      match rt.sliceInvokeSigned external invocations with
      | .error e => (invocations, .error (.err e))
      | .ok () => executeLoop rt accounts accountMetas executionAccount external instructions
          buffers.clear invocations

/-- The loop of a process function whose checks have passed, with its containers. -/
def Processed.loop (rt : Runtime) (accounts : List AccountInfo) (accountMetas : List AccountMeta)
    (executionAccount : ExecutionAccount) (instructions : List CompiledInstruction)
    (account : ExternallySignedAccount) : Processed :=
  let (invocations, outcome) :=
    executeLoop rt accounts accountMetas executionAccount account.finish instructions .empty []
  ⟨[], invocations, do outcome; return account.finish⟩

/-! ## The loop without its buffers -/

variable {accounts : List AccountInfo} {accountMetas : List AccountMeta}
  {executionAccount : ExecutionAccount}

namespace Buffers

/-- The table marks the collected indices. -/
def Marks (seenIndices : List Bool) (accountInfoIndices : List UInt8) : Prop :=
  seenIndices.length = 64 ∧
    ∀ index : UInt8, index.toNat < 64 →
      seenIndices[index.toNat]? = some (decide (index ∈ accountInfoIndices))

theorem marks_noneSeen : Marks noneSeen [] := by
  refine ⟨rfl, fun index h => ?_⟩
  rw [noneSeen, List.getElem?_replicate, if_pos h]
  rfl

theorem Marks.set {seenIndices : List Bool} {infos : List UInt8} (h : Marks seenIndices infos)
    {index : UInt8} (hi : index.toNat < 64) :
    Marks (seenIndices.set index.toNat true) (infos ++ [index]) := by
  refine ⟨List.length_set.trans h.1, fun i hlt => ?_⟩
  rw [List.getElem?_set]
  split
  · rename_i heq
    obtain rfl := UInt8.toNat_inj.mp heq
    rw [if_pos (h.1 ▸ hi)]
    simp
  · rename_i hne
    have hin : i ≠ index := fun heq => hne (heq ▸ rfl)
    rw [h.2 i hlt]
    simp [hin]

theorem collect_eq {indices : List UInt8} {seenIndices : List Bool} {metas : List AccountMeta}
    {infos : List UInt8} (h : Marks seenIndices infos) :
    collect accountMetas indices seenIndices ⟨metas, infos⟩ =
      (collectAccounts accountMetas indices (metas, infos)).map fun c => ⟨c.1, c.2⟩ := by
  induction indices generalizing seenIndices metas infos with
  | nil => rfl
  | cons index indices ih =>
    rw [collect, collectAccounts]
    cases hm : accountMetas[index.toNat]? with
    | none => rfl
    | some accountMeta =>
      rw [okOr, ok_bind, ok_bind]
      by_cases hi : index.toNat < 64
      · rw [h.2 index hi, okOr, ok_bind, ensure_pos hi, ok_bind]
        by_cases hmem : index ∈ infos
        · rw [if_pos (decide_eq_true hmem), if_pos hmem, ih h]
        · rw [if_neg (by simpa using hmem), if_neg hmem, ih (h.set hi)]
      · have hnone : seenIndices[index.toNat]? = none :=
          List.getElem?_eq_none (h.1 ▸ Nat.le_of_not_lt hi)
        rw [hnone, ensure_neg hi]
        rfl

theorem fill_empty (instruction : CompiledInstruction) :
    (fill accounts accountMetas executionAccount empty instruction).map Prod.snd =
      buildInvocation accounts accountMetas executionAccount instruction := by
  rw [fill, empty, collect_eq marks_noneSeen, buildInvocation]
  cases collectAccounts accountMetas instruction.accountsIndices.toList ([], []) with
  | error fault => rfl
  | ok collected =>
    simp only [Except.map, ok_bind]
    cases collected.2.mapM fun index => okOr Fault.panic accounts[index.toNat]? with
    | error fault => rfl
    | ok filtered =>
      simp only [ok_bind]
      cases okOr Fault.panic accounts[instruction.programIdIndex.toNat]? with
      | error fault => rfl
      | ok program =>
        simp only [ok_bind]
        cases ensure (program.key ≠ ID) Fault.panic <;> rfl

end Buffers

/-- Every iteration starts with empty containers. -/
theorem executeLoop_eq (rt : Runtime) (external : AccountInfo)
    (instructions : List CompiledInstruction) (done : List Invocation) :
    executeLoop rt accounts accountMetas executionAccount external instructions .empty done =
      invokeAll rt accounts accountMetas executionAccount external instructions done := by
  induction instructions generalizing done with
  | nil => rfl
  | cons instruction instructions ih =>
    rw [executeLoop, invokeAll, ← Buffers.fill_empty]
    cases Buffers.fill accounts accountMetas executionAccount .empty instruction with
    | error fault => rfl
    | ok filled =>
      obtain ⟨buffers, invocation⟩ := filled
      simp only [Except.map]
      cases rt.sliceInvokeSigned external (done ++ [invocation]) with
      | error e => rfl
      | ok _ => exact ih _

theorem Processed.loop_eq_invoke (rt : Runtime) (instructions : List CompiledInstruction)
    (account : ExternallySignedAccount) :
    Processed.loop rt accounts accountMetas executionAccount instructions account =
      Processed.invoke rt accounts accountMetas executionAccount instructions account := by
  rw [loop, executeLoop_eq, invoke]

end ExternalSignature
