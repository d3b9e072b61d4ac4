import ExternalSignature.Lib.Schedule
import ExternalSignature.Proofs.World

/-!
# Schedules

The runtime runs instructions at the same time if they share no account that one of them may write.
This makes no difference to the program: its calls, with all that other programs do in them, depend
on the accounts that they are given and change the writable ones only (`World.footprint`). So two
schedules that order every two instructions with a common writable account in the same way have the
same outcome (`schedule_independence`).
-/

namespace ExternalSignature

open Lib

namespace World

variable {σ : Type} {host : Host} {s t w w' : World σ} {metas granted : List AccountMeta}
  {instruction : Foreign σ} {instructions : List (Foreign σ)} {key : Pubkey}

/-! ## Worlds that agree -/

/-- The two worlds have the same accounts for an instruction. -/
def AgreeOn (metas : List AccountMeta) (s t : World σ) : Prop :=
  ∀ key ∈ metas.map (·.pubkey), s key = t key

namespace AgreeOn

theorem view_eq (h : AgreeOn metas s t) : s.view metas = t.view metas := by
  funext key
  by_cases hkey : key ∈ metas.map (·.pubkey)
  · rw [view, view, if_pos hkey, if_pos hkey, h key hkey]
  · rw [view, view, if_neg hkey, if_neg hkey]

theorem writeBack (h : AgreeOn granted s t) (metas : List AccountMeta) (left : View σ) :
    AgreeOn granted (s.writeBack metas left) (t.writeBack metas left) := by
  intro key hkey
  simp only [World.writeBack, h key hkey]

theorem mono (h : AgreeOn granted s t) (hpass : PassesOn granted metas) :
    AgreeOn metas s t := by
  intro key hkey
  obtain ⟨m, hm, rfl⟩ := List.mem_map.mp hkey
  exact h m.pubkey (hpass m hm).1

theorem carryOut (h : AgreeOn granted s t) (hi : AgreeOn instruction.accounts s t) :
    SameEnd (AgreeOn granted) (s.carryOut instruction) (t.carryOut instruction) := by
  rw [World.carryOut, World.carryOut, hi.view_eq]
  cases instruction.run (t.view instruction.accounts) with
  | error e => exact .error e
  | ok left =>
    have hsame : (∀ m ∈ instruction.accounts, (s m.pubkey).account.Admits
          (s.writeBack instruction.accounts left m.pubkey).account) ↔
        ∀ m ∈ instruction.accounts, (t m.pubkey).account.Admits
          (t.writeBack instruction.accounts left m.pubkey).account := by
      refine forall₂_congr fun m hm => ?_
      have hkey := List.mem_map_of_mem (f := AccountMeta.pubkey) hm
      rw [hi _ hkey, hi.writeBack _ _ _ hkey]
    simp only [ok_bind, hsame]
    by_cases hadmits : ∀ m ∈ instruction.accounts, (t m.pubkey).account.Admits
        (t.writeBack instruction.accounts left m.pubkey).account
    · rw [ensure_pos hadmits]
      exact .ok (h.writeBack _ _)
    · rw [ensure_neg hadmits]
      exact .error _

theorem invoke (h : AgreeOn granted s t) (instruction : Foreign σ) :
    SameEnd (AgreeOn granted) (s.invoke granted instruction) (t.invoke granted instruction) := by
  rw [World.invoke, World.invoke]
  by_cases hpass : PassesOn granted instruction.accounts
  · rw [ensure_pos hpass]
    exact h.carryOut (h.mono hpass)
  · rw [ensure_neg hpass]
    exact .error _

theorem invokeAll (h : AgreeOn granted s t) (instructions : List (Foreign σ)) :
    SameEnd (AgreeOn granted) (s.invokeAll granted instructions)
      (t.invokeAll granted instructions) := by
  induction instructions generalizing s t with
  | nil => exact .ok h
  | cons instruction instructions ih => exact (h.invoke instruction).bind fun _ _ => ih

theorem write (h : AgreeOn granted s t) (info : AccountInfo) :
    AgreeOn granted (s.write info) (t.write info) := by
  intro key hkey
  by_cases hinfo : key = info.key
  · subst hinfo
    rw [write_self, write_self, h _ hkey]
  · rw [write_of_ne hinfo, write_of_ne hinfo, h _ hkey]

variable {c : Call} (programs : Programs σ)

/-- Other programs answer in the same way. -/
theorem call_eq (h : AgreeOn c.accounts s t) : programs.call s c = programs.call t c := by
  have hsystem (calls : List SystemInstruction) :=
    (h.invokeAll (calls.map programs.ofSystem)).map_eq (f := fun _ => ()) (g := fun _ => ())
      fun _ _ _ => rfl
  have hinvoke (external : AccountInfo) (calls : List Invocation) :=
    ((h.write external).invokeAll (calls.map programs.ofInvocation)).map_eq (f := fun _ => ())
      (g := fun _ => ()) fun _ _ _ => rfl
  simp only [Programs.call, hsystem, hinvoke]

theorem process_eq (h : AgreeOn c.accounts s t) :
    programs.process s c host = programs.process t c host := by
  have hinfos : c.accounts.map s.ledger.info = c.accounts.map t.ledger.info := by
    refine List.map_congr_left fun m hm => ?_
    have hkey := h m.pubkey (List.mem_map_of_mem hm)
    simp only [Ledger.info, ledger, hkey]
  rw [Programs.process, Programs.process, h.call_eq, Call.process, Call.process]
  exact congrArg (processInstruction host _ · _) hinfos

end AgreeOn

/-! ## Footprints -/

namespace Action

/-- The accounts that an action is given. -/
def accounts : Action σ → List AccountMeta
  | .call c _ => c.accounts
  | .other instruction => instruction.accounts

def touches (a : Action σ) : Set Pubkey := {key | key ∈ a.accounts.map (·.pubkey)}

def writes (a : Action σ) : Set Pubkey := {key | Writable a.accounts key}

/-- One of the actions may write an account that the other is given. -/
def Conflict (a b : Action σ) : Prop :=
  ∃ key, key ∈ a.writes ∧ key ∈ b.touches ∨ key ∈ a.touches ∧ key ∈ b.writes

end Action

/-- What the program does in an action, and how the runtime ends it. -/
def outcome (host : Host) (w : World σ) (a : Action σ) : Option Processed × Outcome Unit where
  fst := match a with
    | .call c programs => some (programs.process w c host)
    | .other _ => none
  snd := (w.result host a).map fun _ => ()

theorem ofProgram_sameEnd {α : Type} {r : α → α → Prop} {x y : Except ProgramError α}
    (h : SameEnd r x y) : SameEnd r (ofProgram x) (ofProgram y) := by
  cases h with
  | error e => exact .error _
  | ok h => exact .ok h

/-- The program leaves an account that it is given. -/
theorem left_mem {c : Call} {programs : Programs σ} {left : AccountInfo}
    (h : (programs.process w c host).result = .ok left) : left.key ∈ c.accounts.map (·.pubkey) := by
  obtain ⟨m, hm, hkey⟩ := Option.map_eq_some_iff.mp (Call.process_ok h).external
  exact hkey ▸ List.mem_map_of_mem (List.mem_of_mem_head? hm)

theorem AgreeOn.result {a : Action σ} (h : AgreeOn a.accounts s t) :
    SameEnd (AgreeOn a.accounts) (s.result host a) (t.result host a) := by
  cases a with
  | other instruction => exact ofProgram_sameEnd (AgreeOn.carryOut h h)
  | call c programs =>
    have hagree : AgreeOn c.accounts s t := h
    simp only [World.result, hagree.process_eq]
    cases hleft : (programs.process t c host).result with
    | error fault => exact .error fault
    | ok left =>
      refine (ofProgram_sameEnd (hagree.invokeAll _)).bind fun created created' hcreated => ?_
      rw [hcreated left.key (left_mem hleft)]
      by_cases hwritable : left.account = (created' left.key).account ∨ Writable c.accounts left.key
      · rw [ensure_pos hwritable]
        exact ofProgram_sameEnd ((hcreated.write left).invokeAll _)
      · rw [ensure_neg hwritable]
        exact .error _

/-- An action changes no accounts but those that it may write. -/
theorem result_frame {a : Action σ} (h : w.result host a = .ok w')
    (hkey : ¬ Writable a.accounts key) : w' key = w key := by
  cases a with
  | other instruction => exact (carryOut_ok (ofProgram_eq_ok.mp h)).frame key hkey
  | call c programs =>
    obtain ⟨taken⟩ := result_call_ok h
    have hcreated := (invokeAll_ok taken.system).frame key hkey
    have hwritten : taken.created.write taken.left key = taken.created key := by
      obtain heq | hwritable := taken.writable
      · rw [write_eq_self heq]
      · refine write_of_ne ?_
        rintro rfl
        exact hkey hwritable
    rw [(invokeAll_ok taken.invocations).frame key hkey, hwritten, hcreated]

theorem step_frame (w : World σ) {a : Action σ} (hkey : key ∉ a.writes) :
    w.step host a key = w key := by
  cases h : w.result host a with
  | error fault => rw [step_of_error h]
  | ok w' =>
    rw [step_of_ok h]
    exact result_frame h hkey

theorem AgreeOn.step {a : Action σ} (h : AgreeOn a.accounts s t) :
    AgreeOn a.accounts (s.step host a) (t.step host a) := by
  have hresult : SameEnd (AgreeOn a.accounts) (s.result host a) (t.result host a) := h.result
  rw [World.step, World.step]
  generalize s.result host a = x, t.result host a = y at hresult ⊢
  cases hresult with
  | error fault => exact h
  | ok hafter => exact hafter

/-- What the instructions of a schedule touch and write: the accounts that the runtime locks. -/
def footprint (host : Host) : Footprint (@step σ host) (outcome host) where
  touches := Action.touches
  writes := Action.writes
  writes_subset a key h := by
    obtain ⟨m, hm, rfl, -⟩ := h
    exact List.mem_map_of_mem hm
  frame w _ _ h := step_frame w h
  step_congr s t a h key hkey := by
    obtain ⟨m, hm, rfl, -⟩ := hkey
    exact AgreeOn.step h m.pubkey (List.mem_map_of_mem hm)
  outcome_congr s t a h := by
    have hagree : AgreeOn a.accounts s t := h
    have hresult : SameEnd (AgreeOn a.accounts) (result host s a) (result host t a) := hagree.result
    have hend := hresult.map_eq (f := fun _ => ()) (g := fun _ => ()) fun _ _ _ => rfl
    cases a with
    | call c programs => exact congrArg₂ Prod.mk (congrArg some (AgreeOn.process_eq programs h)) hend
    | other instruction => exact congrArg (Prod.mk none) hend

end World

namespace Sample

def stranger : Pubkey := ⟨List.replicate 32 0x66, rfl⟩

/-- A payment to somebody else. -/
def otherPayment : World.Action Nat := .other ⟨[⟨stranger, true, false⟩], counting⟩

theorem wrappedCall_otherPayment :
    ¬ World.Action.Conflict (.call wrappedCall programs) otherPayment := by
  have hother : stranger ∉ wrappedCall.accounts.map (·.pubkey) := by decide +kernel
  have hgiven {key : Pubkey} (hkey : key ∈ otherPayment.touches) : key = stranger :=
    List.mem_singleton.mp hkey
  rintro ⟨key, ⟨⟨m, hm, rfl, -⟩, hkey⟩ | ⟨hmem, hkey⟩⟩
  · exact hother (hgiven hkey ▸ List.mem_map_of_mem hm)
  · exact hother (hgiven ((World.footprint .solana).writes_subset _ hkey) ▸ hmem)

theorem otherPayment_wrappedCall :
    ¬ World.Action.Conflict otherPayment (.call wrappedCall programs) := by
  rintro ⟨key, h⟩
  exact wrappedCall_otherPayment ⟨key, h.symm.imp And.symm And.symm⟩

theorem wrappedCall_otherPayment_rest :
    let after := run (World.step .solana) world [.call wrappedCall programs, otherPayment]
    (after executionAccount).rest = 1 ∧ (after stranger).rest = 1 := by
  rw [← executeRecorded.host_eq]
  decide +kernel

end Sample

end ExternalSignature
