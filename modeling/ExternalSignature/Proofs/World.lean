import ExternalSignature.Proofs.Authorization
import ExternalSignature.Proofs.Replay
import ExternalSignature.World

/-!
# Runs of the world

Each step of the world is a few steps of the ledger: the call, if it is taken over, and then what the
other programs have done in it (`World.step_ledger`). So the ledger of a world after a run is one
after a run of the ledger with the same calls (`World.run_ledger`), and what holds of all of the
latter holds of the world.

Whatever the other programs do in a run, an account that the program owns keeps its data except in
the calls for a message of its passkey (`silent_calls`).
-/

namespace ExternalSignature

open Lib

/-! ## Changes by other programs -/

namespace Account.Admits

variable {a b c : Account}

theorem refl (a : Account) : a.Admits a := .inl rfl

theorem trans (hab : a.Admits b) (hbc : b.Admits c) : a.Admits c := by
  obtain rfl | ⟨ha, hb⟩ := hab
  · exact hbc
  · obtain rfl | ⟨-, hc⟩ := hbc
    · exact .inr ⟨ha, hb⟩
    · exact .inr ⟨ha, hc⟩

theorem eq_of_owner (h : a.Admits b) (ha : a.owner = ID) : a = b :=
  h.resolve_right fun hne => hne.1 ha

end Account.Admits

namespace World

variable {σ : Type} {host : Host} {w w' : World σ} {accounts granted : List AccountMeta}
  {instruction : Foreign σ} {instructions : List (Foreign σ)} {key : Pubkey} {c : Call}
  {programs : Programs σ}

/-- Other programs have changed writable accounts, as the runtime lets them. -/
structure Changes (accounts : List AccountMeta) (w w' : World σ) : Prop where
  admits : ∀ key, (w key).account.Admits (w' key).account
  frame : ∀ key, ¬ Writable accounts key → w' key = w key

namespace Changes

theorem refl (accounts : List AccountMeta) (w : World σ) : Changes accounts w w :=
  ⟨fun _ => .refl _, fun _ _ => rfl⟩

theorem trans {w'' : World σ} (h : Changes accounts w w') (h' : Changes accounts w' w'') :
    Changes accounts w w'' :=
  ⟨fun key => (h.admits key).trans (h'.admits key),
    fun key hkey => (h'.frame key hkey).trans (h.frame key hkey)⟩

theorem mono (h : Changes accounts w w') (hpass : PassesOn granted accounts) :
    Changes granted w w' := by
  refine ⟨h.admits, fun key hkey => h.frame key ?_⟩
  rintro ⟨m, hm, rfl, hw⟩
  exact hkey ((hpass m hm).2 hw)

/-- An account of the program stays as it is. -/
theorem account_eq (h : Changes accounts w w') (howner : (w key).account.owner = ID) :
    (w' key).account = (w key).account :=
  ((h.admits key).eq_of_owner howner).symm

end Changes

theorem carryOut_ok (h : w.carryOut instruction = .ok w') : Changes instruction.accounts w w' := by
  simp only [carryOut, bind_eq_ok, exists_unit, ensure_eq_ok, pure_eq_ok] at h
  obtain ⟨left, -, hadmits, rfl⟩ := h
  have hframe (key) (hkey : ¬ Writable instruction.accounts key) :
      w.writeBack instruction.accounts left key = w key := if_neg hkey
  refine ⟨fun key => ?_, hframe⟩
  by_cases hkey : Writable instruction.accounts key
  · obtain ⟨m, hm, rfl, -⟩ := hkey
    exact hadmits m hm
  · rw [hframe key hkey]
    exact .refl _

theorem invoke_ok (h : w.invoke granted instruction = .ok w') : Changes granted w w' := by
  simp only [invoke, bind_eq_ok, exists_unit, ensure_eq_ok] at h
  exact (carryOut_ok h.2).mono h.1

theorem invokeAll_ok (h : w.invokeAll granted instructions = .ok w') : Changes granted w w' := by
  induction instructions generalizing w with
  | nil =>
    obtain rfl := pure_eq_ok.mp h
    exact .refl granted w
  | cons instruction instructions ih =>
    obtain ⟨next, hnext, h⟩ := bind_eq_ok.mp h
    exact (invoke_ok hnext).trans (ih h)

theorem write_self (w : World σ) (info : AccountInfo) :
    w.write info info.key = { w info.key with account := info.account } :=
  Function.update_self _ _ _

theorem write_of_ne {info : AccountInfo} (h : key ≠ info.key) : w.write info key = w key :=
  Function.update_of_ne h _ _

theorem write_ledger (w : World σ) (info : AccountInfo) :
    (w.write info).ledger = Function.update w.ledger info.key info.account := by
  funext key
  by_cases hinfo : key = info.key
  · subst hinfo
    rw [ledger, write_self, Function.update_self]
  · rw [ledger, write_of_ne hinfo, Function.update_of_ne hinfo, ledger]

theorem Changes.write (h : Changes accounts w w') (info : AccountInfo) :
    Changes accounts (w.write info) (w'.write info) := by
  refine ⟨fun key => ?_, fun key hkey => ?_⟩
  · by_cases hinfo : key = info.key
    · subst hinfo
      rw [write_self, write_self]
      exact .refl _
    · rw [write_of_ne hinfo, write_of_ne hinfo]
      exact h.admits key
  · by_cases hinfo : key = info.key
    · subst hinfo
      rw [write_self, write_self, h.frame _ hkey]
    · rw [write_of_ne hinfo, write_of_ne hinfo, h.frame _ hkey]

/-- Nothing is written where the account holds what it held. -/
theorem write_eq_self {info : AccountInfo} (h : info.account = (w info.key).account) :
    w.write info = w := by
  rw [write, h]
  exact Function.update_eq_self info.key w

/-- A call that is taken over: the accounts after the calls of the system program, and what the
program has written to them before its invocations. -/
structure Taken (host : Host) (w : World σ) (c : Call) (programs : Programs σ) (w' : World σ) where
  left : AccountInfo
  created : World σ
  result : (programs.process w c host).result = .ok left
  system : w.invokeAll c.accounts ((programs.process w c host).system.map programs.ofSystem) =
    .ok created
  writable : left.account = (created left.key).account ∨ Writable c.accounts left.key
  invocations : (created.write left).invokeAll c.accounts
    ((programs.process w c host).invocations.map programs.ofInvocation) = .ok w'

/-- Apart from what the program writes, a call leaves what other programs have changed. -/
theorem Taken.changed (h : Taken host w c programs w') : Changes c.accounts (w.write h.left) w' :=
  ((invokeAll_ok h.system).write h.left).trans (invokeAll_ok h.invocations)

theorem result_call_ok (h : w.result host (.call c programs) = .ok w') :
    Nonempty (Taken host w c programs w') := by
  simp only [result, bind_eq_ok, ofProgram_eq_ok, exists_unit, ensure_eq_ok] at h
  obtain ⟨left, hleft, created, hcreated, hwritable, hinvocations⟩ := h
  exact ⟨⟨left, created, hleft, hcreated, hwritable, hinvocations⟩⟩

theorem step_of_ok {a : Action σ} (h : w.result host a = .ok w') : w.step host a = w' := by
  rw [step, h]

theorem step_of_error {a : Action σ} {fault : Fault} (h : w.result host a = .error fault) :
    w.step host a = w := by
  rw [step, h]

/-- The answer is that of the invocations that the runtime carries out. -/
theorem invokeAll_of_answer (h : instructions = [] ∨
    (w.invokeAll granted instructions).map (fun _ => ()) = .ok ()) :
    ∃ w', w.invokeAll granted instructions = .ok w' := by
  obtain rfl | h := h
  · exact ⟨w, rfl⟩
  · cases hall : w.invokeAll granted instructions with
    | error e =>
      rw [hall] at h
      cases h
    | ok w' => exact ⟨w', rfl⟩

/-- A successful call is taken over, unless it has changed an account that is read-only. -/
theorem exists_result_call {left : AccountInfo} (h : (programs.process w c host).result = .ok left)
    (hwritable : Writable c.accounts left.key) :
    ∃ w', w.result host (.call c programs) = .ok w' := by
  obtain ⟨hsystem, hinvocations, heither⟩ : (programs.process w c host).Answered
    (programs.call w c).rt left := processInstruction_answered h
  obtain ⟨created, hcreated⟩ := invokeAll_of_answer
    (hsystem.imp_left fun hnil => by rw [hnil, List.map_nil])
  have hmade : (programs.process w c host).invocations = [] ∨ created = w := by
    refine heither.symm.imp_right fun hnil => ?_
    rw [hnil] at hcreated
    exact (pure_eq_ok.mp hcreated).symm
  obtain ⟨w', hw'⟩ : ∃ w', (created.write left).invokeAll c.accounts
      ((programs.process w c host).invocations.map programs.ofInvocation) = .ok w' := by
    obtain hnil | rfl := hmade
    · rw [hnil]
      exact ⟨_, rfl⟩
    · exact invokeAll_of_answer (hinvocations.imp_left fun hnil => by rw [hnil, List.map_nil])
  refine ⟨w', ?_⟩
  simp only [result, bind_eq_ok, ofProgram_eq_ok, exists_unit, ensure_eq_ok]
  exact ⟨left, h, created, hcreated, .inr hwritable, hw'⟩

/-! ## The created account -/

/-- The system program does to an account what it is documented to do. -/
theorem invoke_ofSystem_account {instruction : SystemInstruction}
    (h : w.invoke granted (programs.ofSystem instruction) = .ok w')
    (hkey : Writable instruction.accounts key) :
    (w' key).account = instruction.apply key (w key).account := by
  simp only [invoke, carryOut, Programs.ofSystem, bind_eq_ok, exists_unit, pure_eq_ok] at h
  obtain ⟨-, _, ⟨rest, -, rfl⟩, -, rfl⟩ := h
  have hmem : key ∈ instruction.accounts.map (·.pubkey) := by
    obtain ⟨m, hm, rfl, -⟩ := hkey
    exact List.mem_map_of_mem hm
  simp only [writeBack, if_pos hkey, view, if_pos hmem, Option.map_some, Option.getD_some]

/-- What an initialization reloads is what the system program has left: a zero-filled account of the
program. -/
theorem reload_account {rt : Runtime} {context : InitializeExternalAccountContext}
    {created : World σ} (h : w.invokeAll granted ((context.systemInstructions rt).map
      programs.ofSystem) = .ok created) :
    (created context.externallySignedAccount.key).account =
      ⟨ID, List.replicate P256WebauthnAccountData.size 0⟩ := by
  simp only [InitializeExternalAccountContext.systemInstructions, List.map_cons, List.map_nil,
    invokeAll, bind_eq_ok, pure_eq_ok] at h
  obtain ⟨funded, hfunded, allocated, hallocated, _, hassigned, rfl⟩ := h
  have hwritable (m : AccountMeta) (hm : m.isWritable) : Writable [m] m.pubkey :=
    ⟨m, List.mem_cons_self, rfl, hm⟩
  rw [invoke_ofSystem_account hassigned (hwritable _ rfl), SystemInstruction.apply, if_pos rfl,
    invoke_ofSystem_account hallocated (hwritable _ rfl), SystemInstruction.apply, if_pos rfl]
  rfl

/-! ## Steps of the ledger -/

/-- The event that leaves `account` at the key. -/
def change (key : Pubkey) (account : Account) : Event :=
  if account.owner = ID then .assign key account.data.length else .foreign key account

theorem step_change {l : Ledger} {account : Account} (h : (l key).Admits account) :
    l.step host (change key account) = Function.update l key account := by
  by_cases howner : account.owner = ID
  · rw [change, if_pos howner, Ledger.step]
    obtain heq | ⟨hne, hzero⟩ := h
    · rw [if_pos (heq ▸ howner), ← heq, Function.update_eq_self]
    · rw [if_neg hne, ← hzero howner, ← howner]
  · rw [change, if_neg howner, Ledger.step]
    have hold : (l key).owner ≠ ID := by
      obtain heq | ⟨hne, -⟩ := h
      · exact heq ▸ howner
      · exact hne
    rw [if_neg (not_or.mpr ⟨hold, howner⟩)]

/-- Events that leave these accounts as they are in `after`. -/
def changes (accounts : List AccountMeta) (after : Ledger) : List Event :=
  accounts.map fun m => change m.pubkey (after m.pubkey)

theorem run_changes {l after : Ledger} (hadmits : ∀ key, (l key).Admits (after key))
    (hframe : ∀ key, key ∉ accounts.map (·.pubkey) → after key = l key) :
    run (Ledger.step host) l (changes accounts after) = after := by
  induction accounts generalizing l with
  | nil => exact funext fun key => (hframe key List.not_mem_nil).symm
  | cons m ms ih =>
    rw [changes, List.map_cons, run_cons, step_change (hadmits m.pubkey)]
    refine ih (fun key => ?_) (fun key hkey => ?_)
    · by_cases hm : key = m.pubkey
      · rw [hm, Function.update_self]
        exact .refl _
      · rw [Function.update_of_ne hm]
        exact hadmits key
    · by_cases hm : key = m.pubkey
      · rw [hm, Function.update_self]
      · rw [Function.update_of_ne hm]
        refine hframe key fun hmem => ?_
        obtain heq | hmem := List.mem_cons.mp hmem
        · exact hm heq
        · exact hkey hmem

theorem Changes.run_changes (h : Changes accounts w w') :
    run (Ledger.step host) w.ledger (changes accounts w'.ledger) = w'.ledger := by
  refine World.run_changes h.admits fun key hkey => ?_
  refine congrArg Cell.account (h.frame key ?_)
  rintro ⟨m, hm, rfl, -⟩
  exact hkey (List.mem_map_of_mem hm)

/-- The ledger that the program and the other programs leave. -/
theorem Taken.ledger_eq (h : Taken host w c programs w') : w'.ledger =
    run (Ledger.step host) w.ledger
      (.call (programs.call w c) :: changes c.accounts w'.ledger) := by
  rw [run_cons, Ledger.step_call_ok h.result, ← write_ledger, h.changed.run_changes]

/-- The calls of the program that the runtime takes over in a step. -/
def Action.calls (host : Host) (w : World σ) : Action σ → List Call
  | .call c programs =>
    if (w.result host (.call c programs)).isOk then [programs.call w c] else []
  | .other _ => []

end World

def Event.call? : Event → Option Call
  | .call c => some c
  | _ => none

namespace World

variable {σ : Type} {host : Host} {w : World σ}

theorem filterMap_changes (accounts : List AccountMeta) (after : Ledger) :
    (changes accounts after).filterMap Event.call? = [] := by
  refine List.filterMap_eq_nil_iff.mpr fun e he => ?_
  obtain ⟨m, -, rfl⟩ := List.mem_map.mp he
  unfold change
  split <;> rfl

/-- A step of the world is the call that it takes over, and then what other programs do. -/
theorem step_ledger (host : Host) (w : World σ) (a : Action σ) : ∃ es,
    (w.step host a).ledger = run (Ledger.step host) w.ledger es ∧
      es.filterMap Event.call? = a.calls host w := by
  cases h : w.result host a with
  | error fault =>
    refine ⟨[], by rw [step_of_error h]; rfl, ?_⟩
    cases a with
    | call c programs => rw [Action.calls, h]; rfl
    | other => rfl
  | ok w' =>
    rw [step_of_ok h]
    cases a with
    | call c programs =>
      obtain ⟨taken⟩ := result_call_ok h
      refine ⟨_, taken.ledger_eq, ?_⟩
      rw [Action.calls, h]
      exact congrArg (programs.call w c :: ·) (filterMap_changes _ _)
    | other instruction =>
      have hchanges := carryOut_ok (ofProgram_eq_ok.mp h)
      exact ⟨changes instruction.accounts w'.ledger, hchanges.run_changes.symm,
        filterMap_changes _ _⟩

/-- A run of the world is a run of the ledger with the calls that are taken over. -/
theorem run_ledger (host : Host) (w : World σ) (as : List (Action σ)) : ∃ es,
    (run (step host) w as).ledger = run (Ledger.step host) w.ledger es ∧
      es.filterMap Event.call? =
        (trace (step host) w as).flatMap fun p => p.2.calls host p.1 := by
  induction as generalizing w with
  | nil => exact ⟨[], rfl, rfl⟩
  | cons a as ih =>
    obtain ⟨es, hes, hcalls⟩ := step_ledger host w a
    obtain ⟨fs, hfs, hcalls'⟩ := ih (w.step host a)
    refine ⟨es ++ fs, ?_, ?_⟩
    · rw [run_cons, hfs, hes, run_append]
    · rw [List.filterMap_append, hcalls, hcalls']
      rfl

/-- What is true of every ledger that the program can reach is true of every world. -/
theorem reachable_ledger (hw : w.ledger.Fresh) (as : List (Action σ)) :
    (run (step host) w as).ledger.Reachable host := by
  obtain ⟨es, hes, -⟩ := run_ledger host w as
  exact ⟨w.ledger, es, hw, hes⟩

end World

/-! ## Silent calls -/

section

variable {host : Host} {l : Ledger} {c : Call} {left : AccountInfo}

/-- A call in a session, or a nested one. -/
def Call.Silent (c : Call) : Prop := c.data.head? = some 3 ∨ 1 < c.rt.stackHeight

instance (c : Call) : Decidable c.Silent := inferInstanceAs (Decidable (_ ∨ _))

/-- A session leaves the external account as it is. -/
theorem Success.sessioned_account {data : Bytes}
    (h : Success host c.rt (c.infos l) (3 :: data) left) : left.account = l left.key := by
  obtain _ | _ | _ | run := h
  obtain ⟨howner, hdata⟩ := Call.info_of_head run.accounts_eq
  show Account.mk run.external.owner run.external.data = l run.external.key
  rw [howner, hdata]

/-- A message needs a recent slot, which a nested call cannot have. -/
theorem Call.topLevel_of_ok (h : (c.process host l).result = .ok left)
    (hkind : c.data.head? ≠ some 3) : c.rt.stackHeight ≤ 1 ∧ c.external = some left.key := by
  have hok : c.Accepts host l := ⟨hkind, by rw [h]; rfl⟩
  obtain ⟨a⟩ := hok.accepted
  exact ⟨a.acceptance.nonce.topLevel, (process_ok h).external⟩

/-- A silent call that succeeds is one in a session, and writes what it has found. -/
theorem Call.Silent.account_eq (hc : c.Silent) (h : (c.process host l).result = .ok left) :
    c.data.head? = some 3 ∧ left.account = l left.key := by
  have hkind : c.data.head? = some 3 := by
    by_contra hkind
    exact absurd (hc.resolve_left hkind) (UInt64.not_lt.mpr (topLevel_of_ok h hkind).1)
  obtain ⟨data, hdata⟩ := List.head?_eq_some_iff.mp hkind
  exact ⟨hkind, (hdata ▸ Call.process_ok h).sessioned_account⟩

end

namespace World

variable {σ : Type} {host : Host} {w w' : World σ} {c : Call} {programs : Programs σ} {key : Pubkey}

/-- A call for a message of the passkey of this account. -/
def Action.Signs (key : Pubkey) : Action σ → Prop
  | .call c _ => ¬ c.Silent ∧ c.external = some key
  | .other _ => False

theorem process_system_eq_nil (hkind : c.data.head? = some 3) :
    (programs.process w c host).system = [] := by
  by_contra hne
  obtain ⟨data, -, hdata, -⟩ := processInstruction_system hne
  have hzero : c.data.head? = some 0 := congrArg List.head? hdata
  exact absurd (hkind.symm.trans hzero) (by decide)

/-- A silent call leaves what its invocations leave. -/
theorem result_silent (hc : c.Silent) (h : w.result host (.call c programs) = .ok w') :
    w.invokeAll c.accounts ((programs.process w c host).invocations.map programs.ofInvocation) =
      .ok w' := by
  obtain ⟨⟨left, created, hresult, hsystem, -, hinvocations⟩⟩ := result_call_ok h
  have hsilent : (programs.call w c).Silent := hc
  obtain ⟨hkind, haccount⟩ := hsilent.account_eq hresult
  replace hkind : c.data.head? = some 3 := hkind
  rw [process_system_eq_nil hkind] at hsystem
  obtain rfl := pure_eq_ok.mp hsystem
  rwa [write_eq_self haccount] at hinvocations

/-- An account of the program keeps its data, whoever else is called. -/
theorem step_account {a : Action σ} (howner : (w key).account.owner = ID) (ha : ¬ a.Signs key) :
    (w.step host a key).account = (w key).account := by
  cases h : w.result host a with
  | error fault => rw [step_of_error h]
  | ok w' =>
    rw [step_of_ok h]
    cases a with
    | other => exact (carryOut_ok (ofProgram_eq_ok.mp h)).account_eq howner
    | call c programs =>
      obtain ⟨taken⟩ := result_call_ok h
      have hwritten : (w.write taken.left key).account = (w key).account := by
        by_cases hleft : key = taken.left.key
        · subst hleft
          rw [write_self]
          by_cases hc : c.Silent
          · have hsilent : (programs.call w c).Silent := hc
            exact (hsilent.account_eq taken.result).2
          · obtain ⟨-, hext⟩ := Call.topLevel_of_ok taken.result fun hkind => hc (.inl hkind)
            exact absurd ⟨hc, hext⟩ ha
        · rw [write_of_ne hleft]
      rw [taken.changed.account_eq (hwritten ▸ howner), hwritten]

end World

/-- A call in a session or inside another one leaves what its invocations leave, and whatever the
other programs do, an account that the program owns keeps its owner and its data until a call for a
message of its passkey. -/
theorem silent_calls {σ : Type} (host : Host) (w : World σ) :
    (∀ c (programs : Programs σ) w', c.Silent → w.result host (.call c programs) = .ok w' →
      w.invokeAll c.accounts ((programs.process w c host).invocations.map programs.ofInvocation) =
        .ok w') ∧
    ∀ key (as : List (World.Action σ)), (w key).account.owner = ID → (∀ a ∈ as, ¬ a.Signs key) →
      (run (World.step host) w as key).account = (w key).account := by
  refine ⟨fun _ _ _ => World.result_silent, fun key as howner has => ?_⟩
  induction as generalizing w with
  | nil => rfl
  | cons a as ih =>
    obtain ⟨ha, has⟩ := List.forall_mem_cons.mp has
    have hstep : (w.step host a key).account = (w key).account := World.step_account howner ha
    rw [run_cons, ih (w.step host a) (hstep ▸ howner) has, hstep]

namespace Sample

/-- A program that counts in each account how often it has written it. -/
def counting (view : View Nat) : Except ProgramError (View Nat) :=
  .ok fun key => (view key).map fun cell => { cell with rest := cell.rest + 1 }

def programs : Programs Nat where
  system _ view := .ok fun key => ((view key).map (·.rest)).getD 0
  invoke _ := counting

def world : World Nat := fun key => ⟨sessionLedger key, 0⟩

/-- A payment to the external account. -/
def payment : World.Action Nat := .other ⟨[⟨external, true, false⟩], counting⟩

theorem wrappedCall_taken : (world.result .solana (.call wrappedCall programs)).map
    (fun after => (after executionAccount).rest) = .ok 1 := by
  rw [← executeRecorded.host_eq]
  decide +kernel

theorem not_signs : ∀ a ∈ [payment, .call wrappedCall programs, payment], ¬ a.Signs external := by
  simp only [List.forall_mem_cons, List.not_mem_nil, false_imp_iff, implies_true, and_true]
  exact ⟨id, fun h => h.1 (.inl rfl), id⟩

end Sample

/-- A call in a session has its invocations write the execution account, and leaves the external
account, which is paid before and after. -/
theorem silent_calls_session : ∃ w',
    Sample.world.result .solana (.call Sample.wrappedCall Sample.programs) = .ok w' ∧
    (w' Sample.executionAccount).rest = 1 ∧
    Sample.world.invokeAll Sample.wrappedCall.accounts
      ((Sample.programs.process Sample.world Sample.wrappedCall .solana).invocations.map
        Sample.programs.ofInvocation) = .ok w' ∧
    (run (World.step .solana) Sample.world [Sample.payment,
      .call Sample.wrappedCall Sample.programs, Sample.payment] Sample.external).account =
        ⟨ID, (Pod.bytes Sample.refreshed).val⟩ := by
  have hrest := Sample.wrappedCall_taken
  cases h : Sample.world.result .solana (.call Sample.wrappedCall Sample.programs) with
  | error fault =>
    rw [h] at hrest
    cases hrest
  | ok w' =>
    rw [h] at hrest
    obtain ⟨hsilent, hkeeps⟩ := silent_calls .solana Sample.world
    refine ⟨w', rfl, Except.ok.inj hrest, hsilent _ _ w' (.inl rfl) h, ?_⟩
    rw [hkeeps _ _ (by decide +kernel) Sample.not_signs]
    decide +kernel

end ExternalSignature
