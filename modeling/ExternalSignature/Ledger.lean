import ExternalSignature.Entrypoint
import ExternalSignature.Lib.Run

/-!
# The ledger

The accounts of the chain, and how they change: by what a call of the program writes, which the
runtime reverts if it fails, by another party that gives the program a zero-filled account, and by
other programs in the accounts that are theirs. Only the owner of an account writes its data. What
the invocations of a call do to the accounts are events of their own, after the call, and what the
runtime answers to them is a part of the call; `World` has both from the state of the chain, and its
runs are runs of the ledger (`World.step_ledger`).
-/

namespace ExternalSignature

open Lib

abbrev Ledger := Pubkey → Account

/-- One instruction of a transaction that calls the program: the accounts with the flags that the
transaction grants, and what the runtime answers while it runs. -/
structure Call where
  rt : Runtime
  accounts : List AccountMeta
  data : Bytes

inductive Event where
  | call (c : Call)
  /-- Another party gives the program ownership of a zero-filled account. -/
  | assign (key : Pubkey) (size : Nat)
  /-- Another program changes an account. -/
  | foreign (key : Pubkey) (account : Account)

namespace Ledger

/-- The account that an instruction receives for one of its metas. -/
def info (l : Ledger) (m : AccountMeta) : AccountInfo where
  key := m.pubkey
  isSigner := m.isSigner
  isWritable := m.isWritable
  owner := (l m.pubkey).owner
  data := (l m.pubkey).data

end Ledger

/-- The accounts that the entrypoint passes on. -/
def Call.infos (c : Call) (l : Ledger) : List AccountInfo := (c.accounts.map l.info).take maxTxAccounts

def Call.process (host : Host) (l : Ledger) (c : Call) : Processed :=
  processInstruction host c.rt (c.accounts.map l.info) c.data

namespace Ledger

def step (host : Host) (l : Ledger) : Event → Ledger
  | .call c =>
    match (c.process host l).result with
    | .ok left => Function.update l left.key left.account
    | .error _ => l
  | .assign key size =>
    if (l key).owner = ID then l else Function.update l key ⟨ID, List.replicate size 0⟩
  | .foreign key account =>
    if (l key).owner = ID ∨ account.owner = ID then l else Function.update l key account

/-- The program owns no account yet. -/
def Fresh (l : Ledger) : Prop := ∀ key, (l key).owner ≠ ID

def Reachable (host : Host) (l : Ledger) : Prop :=
  ∃ (start : Ledger) (es : List Event), start.Fresh ∧ l = run (step host) start es

/-- The account at `key` passes `load` and the header check, and holds `data`. -/
def Holds (l : Ledger) (key : Pubkey) (data : P256WebauthnAccountData) : Prop :=
  (l key).owner = ID ∧ Initialized (l key).data data

theorem Holds.unique {l : Ledger} {key : Pubkey} {d e : P256WebauthnAccountData}
    (hd : l.Holds key d) (he : l.Holds key e) : d = e :=
  hd.2.unique he.2

/-- `Holds` is what `load` and `data_ref` check. -/
theorem holds_iff {l : Ledger} {m : AccountMeta} {data : P256WebauthnAccountData} :
    l.Holds m.pubkey data ↔
      ∃ account, ExternallySignedAccount.load (l.info m) = .ok account ∧
        account.dataRef = .ok data := by
  constructor
  · rintro ⟨howner, hi⟩
    refine ⟨⟨l.info m, (l.info m).data⟩, ?_, ExternallySignedAccount.dataRef_ok.mpr hi⟩
    have hne : (l.info m).data ≠ [] := by
      intro he
      have hr := hi.1
      simp only [info] at he
      rw [he] at hr
      cases hr
    simp only [ExternallySignedAccount.load, if_neg hne]
    exact bind_eq_ok.mpr ⟨(), ensure_eq_ok.mpr howner, rfl⟩
  · rintro ⟨account, hl, hd⟩
    obtain ⟨-, howner, hi⟩ := ExternallySignedAccount.owner_of_load hl hd
    exact ⟨howner, hi⟩

end Ledger

end ExternalSignature
