import ExternalSignature.Ledger
import ExternalSignature.Proofs.Runs

/-!
# The steps of the ledger

What a step has done: a call has gone to one of the four functions (`Dispatch`) and a successful one
has the record of its instruction, and the other events touch accounts that the program does not own.
-/

namespace ExternalSignature

open Lib

/-! ## Successful calls -/

/-- The record of a successful call, by its instruction. -/
inductive Success (host : Host) (rt : Runtime) (accounts : List AccountInfo) :
    Bytes → AccountInfo → Prop where
  | init {data : Bytes} {left : AccountInfo} (run : InitializeRun host rt accounts data left) :
    Success host rt accounts (0 :: data) left
  | execute {data : Bytes} (run : ExecuteRun host rt accounts data) :
    Success host rt accounts (1 :: data) run.account.finish
  | refresh {data : Bytes} {left : AccountInfo} (run : RefreshRun host rt accounts data left) :
    Success host rt accounts (2 :: data) left
  | sessioned {data : Bytes} (run : SessionedRun host rt accounts data) :
    Success host rt accounts (3 :: data) run.account.finish

variable {host : Host} {rt : Runtime} {accounts : List AccountInfo} {ixData : Bytes}

/-- How the entrypoint ends, by the discriminator: with a fault, or in one of the four functions. -/
inductive Dispatch (host : Host) (rt : Runtime) (accounts : List AccountInfo) :
    Bytes → Processed → Prop where
  | fault (ixData : Bytes) (fault : Fault) :
    Dispatch host rt accounts ixData (.ofResult (.error fault))
  | init (data : Bytes) :
    Dispatch host rt accounts (0 :: data) (processInitializeExternalAccount host rt accounts data)
  | execute {data : Bytes} (run : ExecuteRun host rt accounts data) :
    Dispatch host rt accounts (1 :: data)
      (.invoke rt run.rest run.metas run.executionAccount run.args.instructions.toList run.account)
  | refresh (data : Bytes) :
    Dispatch host rt accounts (2 :: data) (.ofResult (processRefreshSessionKey host rt accounts data))
  | sessioned {data : Bytes} (run : SessionedRun host rt accounts data) :
    Dispatch host rt accounts (3 :: data)
      (.invoke rt run.rest run.metas run.executionAccount run.args.instructions.toList run.account)

theorem processInstruction_dispatch (host : Host) (rt : Runtime) (accounts : List AccountInfo)
    (ixData : Bytes) : Dispatch host rt (accounts.take maxTxAccounts) ixData
      (processInstruction host rt accounts ixData) := by
  unfold processInstruction
  cases ixData with
  | nil => exact .fault _ _
  | cons discriminator data =>
    simp only
    split
    · subst discriminator
      exact .init data
    split
    · subst discriminator
      obtain ⟨fault, hp⟩ | ⟨run, hp⟩ := processExecuteInstructions_cases host rt
        (accounts.take maxTxAccounts) data
      · exact hp ▸ .fault _ fault
      · exact hp ▸ .execute run
    split
    · subst discriminator
      exact .refresh data
    split
    · subst discriminator
      obtain ⟨fault, hp⟩ | ⟨run, hp⟩ := processExecuteInstructionsSessioned_cases host rt
        (accounts.take maxTxAccounts) data
      · exact hp ▸ .fault _ fault
      · exact hp ▸ .sessioned run
    · exact .fault _ _

theorem processInstruction_ok {left : AccountInfo}
    (h : (processInstruction host rt accounts ixData).result = .ok left) :
    Success host rt (accounts.take maxTxAccounts) ixData left := by
  have hd := processInstruction_dispatch host rt accounts ixData
  generalize processInstruction host rt accounts ixData = p at h hd
  cases hd with
  | fault => cases h
  | init data =>
    obtain ⟨run⟩ := processInitializeExternalAccount_ok h
    exact .init run
  | execute run => exact (Processed.invoke_ok h).1 ▸ .execute run
  | refresh data =>
    obtain ⟨run⟩ := processRefreshSessionKey_ok h
    exact .refresh run
  | sessioned run => exact (Processed.invoke_ok h).1 ▸ .sessioned run

/-- What a successful call has asked for has been answered, and it has not asked for both kinds. -/
structure Processed.Answered (rt : Runtime) (left : AccountInfo) (p : Processed) : Prop where
  system : p.system = [] ∨ rt.system p.system = .ok ()
  invocations : p.invocations = [] ∨ rt.sliceInvokeSigned left p.invocations = .ok ()
  either : p.system = [] ∨ p.invocations = []

theorem Processed.invoke_answered {infos : List AccountInfo} {metas : List AccountMeta}
    {executionAccount : ExecutionAccount} {instructions : List CompiledInstruction}
    {account : ExternallySignedAccount} {left : AccountInfo}
    (h : (Processed.invoke rt infos metas executionAccount instructions account).result = .ok left) :
    (Processed.invoke rt infos metas executionAccount instructions account).Answered rt left := by
  simp only [invoke, bind_eq_ok, exists_unit, pure_eq_ok] at h
  obtain ⟨hok, rfl⟩ := h
  exact ⟨.inl rfl, invokeAll_answer (.inl rfl) hok, .inl rfl⟩

theorem processInstruction_answered {left : AccountInfo}
    (h : (processInstruction host rt accounts ixData).result = .ok left) :
    (processInstruction host rt accounts ixData).Answered rt left := by
  have hd := processInstruction_dispatch host rt accounts ixData
  generalize processInstruction host rt accounts ixData = p at h hd ⊢
  cases hd with
  | fault => cases h
  | init data =>
    refine ⟨?_, .inl (processInitializeExternalAccount_invocations ..),
      .inr (processInitializeExternalAccount_invocations ..)⟩
    unfold processInitializeExternalAccount at h ⊢
    split
    · exact .inl rfl
    · rename_i context hload
      simp only [hload, InitializeExternalAccountContext.createAndAllocateExternallySignedAccount,
        bind_eq_ok, exists_unit] at h
      obtain ⟨_, ⟨hcreated, -⟩, -⟩ := h
      exact invokeSystem_answer (.inl rfl) hcreated
  | execute => exact Processed.invoke_answered h
  | refresh => exact ⟨.inl rfl, .inl rfl, .inl rfl⟩
  | sessioned => exact Processed.invoke_answered h

theorem Call.process_ok {l : Ledger} {c : Call} {left : AccountInfo}
    (h : (c.process host l).result = .ok left) : Success host c.rt (c.infos l) c.data left :=
  processInstruction_ok h

theorem Ledger.step_call_ok {l : Ledger} {c : Call} {left : AccountInfo}
    (h : (c.process host l).result = .ok left) :
    l.step host (.call c) = Function.update l left.key left.account := by
  simp only [step, h]

/-- A step changes nothing, or is a successful call, or touches an account that the program does
not own. -/
theorem Ledger.step_cases (host : Host) (l : Ledger) (e : Event) :
    l.step host e = l ∨
    (∃ c left, e = .call c ∧ (c.process host l).result = .ok left ∧
      l.step host e = Function.update l left.key left.account) ∨
    (∃ key size, e = .assign key size ∧ (l key).owner ≠ ID ∧
      l.step host e = Function.update l key ⟨ID, List.replicate size 0⟩) ∨
    (∃ key account, e = .foreign key account ∧ (l key).owner ≠ ID ∧ account.owner ≠ ID ∧
      l.step host e = Function.update l key account) := by
  cases e with
  | call c =>
    cases h : (c.process host l).result with
    | ok left => exact .inr (.inl ⟨c, left, rfl, h, step_call_ok h⟩)
    | error => exact .inl (by simp [step, h])
  | assign key size =>
    by_cases h : (l key).owner = ID
    · exact .inl (by simp [step, h])
    · exact .inr (.inr (.inl ⟨key, size, rfl, h, by simp [step, h]⟩))
  | foreign key account =>
    by_cases h : (l key).owner = ID ∨ account.owner = ID
    · exact .inl (by simp [step, h])
    · obtain ⟨hk, ha⟩ := not_or.mp h
      exact .inr (.inr (.inr ⟨key, account, rfl, hk, ha, by simp [step, hk, ha]⟩))

end ExternalSignature
