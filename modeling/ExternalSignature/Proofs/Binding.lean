import Mathlib.Data.List.Forall2
import ExternalSignature.Proofs.Replay

/-!
# What a signature binds

Two executions that present one message make the same calls: the challenge fixes the accounts with
their flags and the instructions. It does not fix the signer execution scheme, which only decides
the account that signs, so the calls agree up to that account (`signed_execution`).
-/

namespace ExternalSignature

open Lib Lib.Borsh

variable {host : Host}

/-! ## Lists related item by item -/

theorem forall₂_getElem? {α β : Type} {r : α → β → Prop} {xs : List α} {ys : List β}
    (h : List.Forall₂ r xs ys) {i : Nat} {x : α} {y : β} (hx : xs[i]? = some x)
    (hy : ys[i]? = some y) : r x y := by
  induction h generalizing i with
  | nil => cases hx
  | cons hxy _ ih =>
    cases i with
    | zero =>
      obtain rfl := Option.some.inj hx
      obtain rfl := Option.some.inj hy
      exact hxy
    | succ i => exact ih hx hy

/-- Items picked at the same indices are related. -/
theorem forall₂_pick {α β ι : Type} {r : α → β → Prop} {xs : List α} {ys : List β}
    (h : List.Forall₂ r xs ys) {f : ι → Nat} {is : List ι} {as : List α} {bs : List β}
    (ha : as.map some = is.map (xs[f ·]?)) (hb : bs.map some = is.map (ys[f ·]?)) :
    List.Forall₂ r as bs := by
  induction is generalizing as bs with
  | nil =>
    obtain rfl := List.map_eq_nil_iff.mp ha
    obtain rfl := List.map_eq_nil_iff.mp hb
    exact .nil
  | cons i is ih =>
    obtain ⟨a, as, rfl, hx, ha⟩ := List.map_eq_cons_iff.mp ha
    obtain ⟨b, bs, rfl, hy, hb⟩ := List.map_eq_cons_iff.mp hb
    exact .cons (forall₂_getElem? h hx.symm hy.symm) (ih ha hb)

theorem forall₂_join {α β γ : Type} {p : α → β → Prop} {q : α → γ → Prop} {xs : List α}
    {ys : List β} {zs : List γ} (hy : List.Forall₂ p xs ys) (hz : List.Forall₂ q xs zs) :
    List.Forall₂ (fun y z => ∃ x, p x y ∧ q x z) ys zs := by
  induction hy generalizing zs with
  | nil =>
    cases hz
    exact .nil
  | cons hxy _ ih =>
    cases hz with
    | cons hxz hz => exact .cons ⟨_, hxy, hxz⟩ (ih hz)

/-! ## Metas and invocations of two runs -/

/-- One account, with the same flags unless it is one of the two that sign. -/
def AccountMeta.Agree (k₁ k₂ : Pubkey) (m n : AccountMeta) : Prop :=
  m.pubkey = n.pubkey ∧ (m = n ∨ m.pubkey = k₁ ∨ m.pubkey = k₂)

/-- What becomes of the meta of one account. -/
def executionMeta (e : ExecutionAccount) (s : SignerExecutionScheme) (m : AccountMeta) :
    AccountMeta :=
  if m.pubkey = e.key then
    match s with
    | .externalAccount => ⟨m.pubkey, false, true⟩
    | .executionAccount => ⟨m.pubkey, m.isWritable, true⟩
  else m

/-- Of the accounts, only what the challenge names is used. -/
theorem executionAccountMetas_eq (rest : List AccountInfo) (e : ExecutionAccount)
    (s : SignerExecutionScheme) : createInstructionExecutionAccountMetas rest e s =
      (rest.map (·.toMeta)).map (executionMeta e s) := by
  rw [List.map_map]
  rfl

theorem executionMeta_pubkey (e : ExecutionAccount) (s : SignerExecutionScheme) (m : AccountMeta) :
    (executionMeta e s m).pubkey = m.pubkey := by
  unfold executionMeta
  cases s <;> split <;> rfl

theorem executionMeta_agree (e₁ e₂ : ExecutionAccount) (s₁ s₂ : SignerExecutionScheme)
    (m : AccountMeta) :
    AccountMeta.Agree e₁.key e₂.key (executionMeta e₁ s₁ m) (executionMeta e₂ s₂ m) := by
  unfold AccountMeta.Agree
  rw [executionMeta_pubkey, executionMeta_pubkey]
  refine ⟨rfl, ?_⟩
  by_cases h₁ : m.pubkey = e₁.key
  · exact .inr (.inl h₁)
  by_cases h₂ : m.pubkey = e₂.key
  · exact .inr (.inr h₂)
  · left
    unfold executionMeta
    rw [if_neg h₁, if_neg h₂]

theorem executionAccountMetas_agree {rest₁ rest₂ : List AccountInfo}
    (h : rest₁.map (·.toMeta) = rest₂.map (·.toMeta)) (e₁ e₂ : ExecutionAccount)
    (s₁ s₂ : SignerExecutionScheme) :
    List.Forall₂ (AccountMeta.Agree e₁.key e₂.key)
      (createInstructionExecutionAccountMetas rest₁ e₁ s₁)
      (createInstructionExecutionAccountMetas rest₂ e₂ s₂) := by
  rw [executionAccountMetas_eq, executionAccountMetas_eq, h, List.forall₂_map_left_iff,
    List.forall₂_map_right_iff, List.forall₂_same]
  exact fun m _ => executionMeta_agree e₁ e₂ s₁ s₂ m

/-- One call, signed by accounts that may be different. -/
def Invocation.Agree (host : Host) (a b : Invocation) : Prop :=
  a.instruction.programId = b.instruction.programId ∧ a.instruction.data = b.instruction.data ∧
  ∃ k₁ k₂, host.createProgramAddress a.signerSeeds ID = some k₁ ∧
    host.createProgramAddress b.signerSeeds ID = some k₂ ∧
    List.Forall₂ (AccountMeta.Agree k₁ k₂) a.instruction.accounts b.instruction.accounts

theorem Built.programId_eq {rest₁ rest₂ : List AccountInfo} {ms₁ ms₂ : List AccountMeta}
    {e₁ e₂ : ExecutionAccount} {instruction : CompiledInstruction} {a b : Invocation}
    (hrest : rest₁.map (·.toMeta) = rest₂.map (·.toMeta)) (ha : Built rest₁ ms₁ e₁ instruction a)
    (hb : Built rest₂ ms₂ e₂ instruction b) :
    a.instruction.programId = b.instruction.programId := by
  have hkeys : rest₁.map (·.key) = rest₂.map (·.key) := by
    have h := congrArg (List.map AccountMeta.pubkey) hrest
    rwa [List.map_map, List.map_map] at h
  have hp := ha.programId
  rw [← List.getElem?_map, hkeys, List.getElem?_map, hb.programId] at hp
  exact (Option.some.inj hp).symm

theorem Built.agree {rest₁ rest₂ : List AccountInfo} {e₁ e₂ : ExecutionAccount}
    {s₁ s₂ : SignerExecutionScheme} {instruction : CompiledInstruction} {a b : Invocation}
    (hrest : rest₁.map (·.toMeta) = rest₂.map (·.toMeta))
    (h₁ : host.createProgramAddress e₁.toSignerSeeds ID = some e₁.key)
    (h₂ : host.createProgramAddress e₂.toSignerSeeds ID = some e₂.key)
    (ha : Built rest₁ (createInstructionExecutionAccountMetas rest₁ e₁ s₁) e₁ instruction a)
    (hb : Built rest₂ (createInstructionExecutionAccountMetas rest₂ e₂ s₂) e₂ instruction b) :
    a.Agree host b := by
  refine ⟨ha.programId_eq hrest hb, ha.data.trans hb.data.symm, e₁.key, e₂.key,
    by rw [ha.signerSeeds, h₁], by rw [hb.signerSeeds, h₂], ?_⟩
  exact forall₂_pick (executionAccountMetas_agree hrest e₁ e₂ s₁ s₂) ha.metas hb.metas

/-- With one account that signs, the calls are the same. -/
theorem Built.eq {rest₁ rest₂ : List AccountInfo} {e : ExecutionAccount}
    {s : SignerExecutionScheme} {instruction : CompiledInstruction} {a b : Invocation}
    (hrest : rest₁.map (·.toMeta) = rest₂.map (·.toMeta))
    (ha : Built rest₁ (createInstructionExecutionAccountMetas rest₁ e s) e instruction a)
    (hb : Built rest₂ (createInstructionExecutionAccountMetas rest₂ e s) e instruction b) :
    (a.instruction, a.signerSeeds) = (b.instruction, b.signerSeeds) := by
  have hmetas := ha.metas
  rw [executionAccountMetas_eq, hrest, ← executionAccountMetas_eq, ← hb.metas] at hmetas
  have haccounts := List.map_injective_iff.mpr (fun _ _ h => Option.some.inj h) hmetas
  have hinstruction : a.instruction = b.instruction :=
    Instruction.ext (ha.programId_eq hrest hb) (ha.data.trans hb.data.symm) haccounts
  rw [hinstruction, ha.signerSeeds, hb.signerSeeds]

/-! ## Two executions -/

/-- The run of a successful execution, and its calls. -/
theorem Call.execute_ok {l : Ledger} {c : Call} {left : AccountInfo}
    (h : (c.process host l).result = .ok left) (hd : c.data.head? = some 1) :
    ∃ data, c.data = 1 :: data ∧ ∃ run : ExecuteRun host c.rt (c.infos l) data,
      List.Forall₂ (Built run.rest run.metas run.executionAccount) run.args.instructions.toList
        (c.process host l).invocations := by
  obtain ⟨data, hdata⟩ : ∃ data, c.data = 1 :: data := by
    cases hc : c.data with
    | nil => rw [hc] at hd; cases hd
    | cons d data =>
      rw [hc] at hd
      obtain rfl := Option.some.inj hd
      exact ⟨data, rfl⟩
  refine ⟨data, hdata, ?_⟩
  have hprocess : c.process host l = processExecuteInstructions host c.rt (c.infos l) data := by
    simp only [process, processInstruction, hdata, infos, if_pos]
    rfl
  obtain ⟨fault, hp⟩ | ⟨run, hp⟩ := processExecuteInstructions_cases host c.rt (c.infos l) data
  · rw [hprocess, hp] at h
    cases h
  · refine ⟨run, ?_⟩
    rw [hprocess, hp] at h ⊢
    exact (Processed.invoke_ok h).2

/-- The account that signs is decided by the scheme, the external account and the key it stores. -/
theorem ExecuteRun.executionAccount_eq {rt₁ rt₂ : Runtime} {accounts₁ accounts₂ : List AccountInfo}
    {data₁ data₂ : Bytes} (run₁ : ExecuteRun host rt₁ accounts₁ data₁)
    (run₂ : ExecuteRun host rt₂ accounts₂ data₂) (hscheme : run₁.scheme = run₂.scheme)
    (hkey : run₁.external.key = run₂.external.key)
    (hstored : run₁.scheme = .externalAccount → run₁.before.publicKey = run₂.before.publicKey) :
    run₁.executionAccount = run₂.executionAccount := by
  obtain ⟨hfind₁, hseeds₁⟩ := getExecutionAccount_ok run₁.initialized run₁.executing
  obtain ⟨hfind₂, hseeds₂⟩ := getExecutionAccount_ok run₂.initialized run₂.executing
  have hseeds : executionSeeds host run₁.scheme run₁.external.key run₁.before =
      executionSeeds host run₂.scheme run₂.external.key run₂.before := by
    rw [← hscheme, ← hkey]
    cases hs : run₁.scheme with
    | executionAccount => rfl
    | externalAccount => rw [executionSeeds, executionSeeds, hstored hs]
  rw [hseeds, hfind₂] at hfind₁
  obtain ⟨hk, hb⟩ := Prod.mk.inj (Option.some.inj hfind₁)
  rw [hseeds, ← hb, ← hseeds₂] at hseeds₁
  simp only [ExecutionAccount.toSignerSeeds, List.cons.injEq] at hseeds₁
  exact ExecutionAccount.ext hk.symm hb.symm (Prod.ext hseeds₁.1 hseeds₁.2.1)

/-- The challenge of an execution names its accounts and its instructions. -/
theorem ExecuteRun.challenge_eq {l : Ledger} {c : Call} {data : Bytes}
    (run : ExecuteRun host c.rt (c.infos l) data) (hdata : c.data = 1 :: data)
    (a : Accepted host l c) : a.challenge = .execute run.slothash run.nonceSigner.key
      (run.rest.map (·.toMeta)) run.args.instructions := by
  have ha := a.presented
  simp only [Call.presented, hdata, run.presented, Except.ok.injEq] at ha
  exact (congrArg Presented.challenge ha).symm

theorem Call.accepts_execute {l : Ledger} {c : Call} {left : AccountInfo}
    (h : (c.process host l).result = .ok left) (hd : c.data.head? = some 1) :
    c.Accepts host l := by
  refine ⟨?_, ?_⟩
  · rw [hd]
    decide
  · rw [h]
    rfl

/-- Two executions on one external account that present one message make the same calls, up to the
account that signs; and the same calls when they name the same scheme and, where the external
account signs, find the same key stored in it. -/
theorem signed_execution {l₁ l₂ : Ledger} {c₁ c₂ : Call} {left₁ left₂ : AccountInfo}
    (h₁ : (c₁.process host l₁).result = .ok left₁) (h₂ : (c₂.process host l₂).result = .ok left₂)
    (hd₁ : c₁.data.head? = some 1) (hd₂ : c₂.data.head? = some 1)
    (haccount : c₁.external = c₂.external) {s t : SignaturePayload}
    (hs : c₁.rt.instructions.signaturePayload = .ok s)
    (ht : c₂.rt.instructions.signaturePayload = .ok t) (hmessage : s.message = t.message)
    (hfree : host.CollisionFreeOn (c₁.strings host l₁ ++ c₂.strings host l₂)) :
    List.Forall₂ (Invocation.Agree host) (c₁.process host l₁).invocations
      (c₂.process host l₂).invocations ∧
    (executionScheme c₁.data = executionScheme c₂.data →
      (executionScheme c₁.data = some .externalAccount → ∀ key d₁ d₂, c₁.external = some key →
        l₁.Holds key d₁ → l₂.Holds key d₂ → d₁.publicKey = d₂.publicKey) →
      (c₁.process host l₁).invocations.map (fun i => (i.instruction, i.signerSeeds)) =
        (c₂.process host l₂).invocations.map fun i => (i.instruction, i.signerSeeds)) := by
  obtain ⟨data₁, hdata₁, run₁, hbuilt₁⟩ := Call.execute_ok h₁ hd₁
  obtain ⟨data₂, hdata₂, run₂, hbuilt₂⟩ := Call.execute_ok h₂ hd₂
  -- the two calls have one challenge, so one list of accounts and one of instructions
  obtain ⟨a⟩ := (Call.accepts_execute h₁ hd₁).accepted
  obtain ⟨b⟩ := (Call.accepts_execute h₂ hd₂).accepted
  have hchallenge := a.challenge_unique b (a.clientDataHash_eq b hs ht hmessage) hfree
  rw [run₁.challenge_eq hdata₁, run₂.challenge_eq hdata₂] at hchallenge
  obtain ⟨-, -, hrest, hinstructions⟩ := Challenge.execute.inj hchallenge
  rw [hinstructions] at hbuilt₁
  have hjoin := forall₂_join hbuilt₁ hbuilt₂
  constructor
  · refine hjoin.imp fun x y ⟨_, hx, hy⟩ => hx.agree hrest ?_ ?_ hy
    · exact createProgramAddress_toSignerSeeds run₁.initialized run₁.executing
    · exact createProgramAddress_toSignerSeeds run₂.initialized run₂.executing
  · intro hscheme hstored
    have hk₁ : c₁.external = _ := Call.head_pubkey (congrArg List.head? run₁.accounts_eq)
    have hk₂ : c₂.external = _ := Call.head_pubkey (congrArg List.head? run₂.accounts_eq)
    have hkey : run₁.external.key = run₂.external.key :=
      Option.some.inj (hk₁.symm.trans (haccount.trans hk₂))
    rw [hdata₁, hdata₂, run₁.executionScheme_eq, run₂.executionScheme_eq] at hscheme
    have hscheme := Option.some.inj hscheme
    have hm₁ := Call.info_of_head run₁.accounts_eq
    have hm₂ := Call.info_of_head run₂.accounts_eq
    have hexecution : run₁.executionAccount = run₂.executionAccount := by
      refine run₁.executionAccount_eq run₂ hscheme hkey fun hexternal => ?_
      refine hstored ?_ _ _ _ hk₁ ⟨hm₁.1.symm.trans run₁.owner, hm₁.2 ▸ run₁.initialized⟩ ?_
      · rw [hdata₁, run₁.executionScheme_eq, hexternal]
      · rw [hkey]
        exact ⟨hm₂.1.symm.trans run₂.owner, hm₂.2 ▸ run₂.initialized⟩
    rw [← List.forall₂_eq_eq_eq, List.forall₂_map_left_iff, List.forall₂_map_right_iff]
    refine hjoin.imp fun x y ⟨_, hx, hy⟩ => ?_
    unfold ExecuteRun.metas at hx hy
    rw [hexecution, hscheme] at hx
    exact hx.eq hrest hy

namespace Sample

/-- The same call with the external account as signer. -/
def externalCall : Call := executeWith external passkey [slot] executeSignature 1

theorem executeCall_externalAccount : externalCall.process .solana ledger =
    ⟨[], [invocation false [ascii "passkey", (ByteArr.ofNat 32
        0x5baff89de7de5c1d7b6193a1567ceeeb397cbda88f03f725c8de328591bfc194).val, [255]]],
      .ok ⟨external, false, true, ID, (Pod.bytes stored).val⟩⟩ := by
  rw [← otherRecorded.host_eq]
  decide +kernel

theorem externalCall_strings :
    externalCall.strings .solana ledger = executeCall.strings .solana ledger := by
  rw [← otherRecorded.host_eq]
  decide +kernel

/-- Another key stored in the account, and its signature of the same message. -/
def swapped : P256WebauthnAccountData := { stored with publicKey := .new otherPasskey }

def swappedLedger : Ledger := Function.update ledger external ⟨ID, (Pod.bytes swapped).val⟩

def swappedCall : Call := executeWith external passkey [slot] (precompile otherPasskey
  0x7082896169962760384ec7a6a7d2ba1189f76b18c54635aeaaf03e6ae778229c
  0x12f5b6cf9ef6cf0c2953dde59ed0a433880b4f331a41b6a9254ac3d5d73d23bd
  0 0xbddcefeb63b3071385d2359d9230be301d7eacbbf9c850065125d34515d68c68) 1

theorem swappedCall_externalAccount : swappedCall.process .solana swappedLedger =
    ⟨[], [invocation false [ascii "passkey", (ByteArr.ofNat 32
        0x97e9d1d2a642f9d771b3a301aaedc8c8b534dfcb7bff6813309b04d088525031).val, [254]]],
      .ok ⟨external, false, true, ID, (Pod.bytes swapped).val⟩⟩ := by
  rw [← otherRecorded.host_eq]
  decide +kernel

/-- The message that a call presents. -/
def message (c : Call) : Option Bytes := c.rt.instructions.signaturePayload.toOption.map (·.message)

theorem executeCall_message : message executeCall = message externalCall ∧
    message executeCall = message swappedCall ∧ (message executeCall).isSome := by
  refine ⟨rfl, ?_⟩
  decide +kernel

end Sample

/-- One message on one account, with the two schemes, and with the key that the account stores
exchanged: the calls are signed by three different addresses. -/
theorem signed_execution_differ :
    Sample.message Sample.executeCall = Sample.message Sample.externalCall ∧
    Sample.message Sample.executeCall = Sample.message Sample.swappedCall ∧
    (Sample.executeCall.process .solana Sample.ledger).result.isOk ∧
    (Sample.externalCall.process .solana Sample.ledger).result.isOk ∧
    (Sample.swappedCall.process .solana Sample.swappedLedger).result.isOk ∧
    (Sample.executeCall.process .solana Sample.ledger).invocations.map (·.signerSeeds) ≠
      (Sample.externalCall.process .solana Sample.ledger).invocations.map (·.signerSeeds) ∧
    (Sample.externalCall.process .solana Sample.ledger).invocations.map (·.signerSeeds) ≠
      (Sample.swappedCall.process .solana Sample.swappedLedger).invocations.map
        (·.signerSeeds) := by
  rw [Sample.executeCall_executionAccount, Sample.executeCall_externalAccount,
    Sample.swappedCall_externalAccount]
  exact ⟨Sample.executeCall_message.1, Sample.executeCall_message.2.1, rfl, rfl, rfl,
    by decide, by decide⟩

theorem signed_execution_schemes : List.Forall₂ (Invocation.Agree .solana)
    (Sample.executeCall.process .solana Sample.ledger).invocations
    (Sample.externalCall.process .solana Sample.ledger).invocations := by
  obtain ⟨a⟩ := Sample.executeCall_accepts.accepted
  have hs := a.acceptance.verification.presented
  refine (signed_execution (congrArg Processed.result Sample.executeCall_executionAccount)
    (congrArg Processed.result Sample.executeCall_externalAccount) rfl rfl rfl hs hs rfl ?_).1
  rw [Sample.externalCall_strings]
  exact Sample.executeCall_collisionFree.mono (by simp)

end ExternalSignature
