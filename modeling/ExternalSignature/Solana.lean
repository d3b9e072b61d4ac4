import ExternalSignature.Lib.Ed25519
import ExternalSignature.Lib.Sha256
import ExternalSignature.Runtime

/-!
# The runtime's own functions

`Host.solana` has the functions that Solana runs behind the syscalls. Results about an arbitrary
`Host` are tried on it.
-/

namespace ExternalSignature

open Lib

namespace Solana

/-- A hash that is not a point of the curve, so that no private key belongs to it. -/
def createProgramAddress (seeds : List Bytes) (programId : Pubkey) : Option Pubkey :=
  if 16 < seeds.length ∨ ∃ seed ∈ seeds, 32 < seed.length then none
  else
    let hash := Sha256.hash (seeds.flatten ++ programId.val ++ ascii "ProgramDerivedAddress")
    if Ed25519.isOnCurve hash then none else some hash

/-- Bumps from `bump` down to 1. -/
def findFrom (seeds : List Bytes) (programId : Pubkey) : (bump : Nat) → Option (Pubkey × UInt8)
  | 0 => none
  | bump + 1 =>
    match createProgramAddress (seeds ++ [[.ofNat (bump + 1)]]) programId with
    | some key => some (key, .ofNat (bump + 1))
    | none => findFrom seeds programId bump

def tryFindProgramAddress (seeds : List Bytes) (programId : Pubkey) : Option (Pubkey × UInt8) :=
  findFrom seeds programId 255

theorem create_of_findFrom {seeds : List Bytes} {programId key : Pubkey} {n : Nat} {bump : UInt8}
    (h : findFrom seeds programId n = some (key, bump)) :
    createProgramAddress (seeds ++ [[bump]]) programId = some key := by
  induction n with
  | zero => cases h
  | succ n ih =>
    simp only [findFrom] at h
    split at h
    · rename_i found hf
      cases h
      exact hf
    · exact ih h

end Solana

def Host.solana : Host where
  sha256 := Sha256.hash
  createProgramAddress := Solana.createProgramAddress
  tryFindProgramAddress := Solana.tryFindProgramAddress
  create_of_find := Solana.create_of_findFrom

/-! ## Recorded results -/

section

variable {α β : Type} [DecidableEq α]

/-- `f`, with the results of the table looked up. -/
def lookupOr (table : List (α × β)) (f : α → β) (a : α) : β :=
  match table.lookup a with
  | some b => b
  | none => f a

theorem lookupOr_eq {table : List (α × β)} {f : α → β} (h : ∀ p ∈ table, f p.1 = p.2) :
    lookupOr table f = f := by
  funext a
  unfold lookupOr
  split
  · rename_i b hb
    obtain ⟨before, after, rfl, -⟩ := List.lookup_eq_some_iff.mp hb
    exact (h (a, b) (by simp)).symm
  · rfl

end

/-- Digests and addresses of the program that have been computed. -/
structure Recorded where
  digests : List (Bytes × ByteArr 32)
  addresses : List (List Bytes × Option (Pubkey × UInt8))
  digests_eq : ∀ p ∈ digests, Sha256.hash p.1 = p.2
  addresses_eq : ∀ p ∈ addresses, Solana.tryFindProgramAddress p.1 ID = p.2

namespace Recorded

theorem lookupOr_addresses (r : Recorded) (seeds : List Bytes) :
    lookupOr r.addresses (Solana.tryFindProgramAddress · ID) seeds =
      Solana.tryFindProgramAddress seeds ID :=
  congrFun (lookupOr_eq r.addresses_eq) seeds

/-- The runtime's functions, with the recorded results looked up. -/
def host (r : Recorded) : Host where
  sha256 := lookupOr r.digests Sha256.hash
  createProgramAddress := Solana.createProgramAddress
  tryFindProgramAddress seeds programId :=
    if programId = ID then lookupOr r.addresses (Solana.tryFindProgramAddress · ID) seeds
    else Solana.tryFindProgramAddress seeds programId
  create_of_find {seeds programId key bump} h := by
    rw [lookupOr_addresses] at h
    refine Solana.create_of_findFrom (n := 255) ?_
    split at h
    · subst programId
      exact h
    · exact h

theorem host_eq (r : Recorded) : r.host = .solana := by
  have hfind : r.host.tryFindProgramAddress = Solana.tryFindProgramAddress := by
    funext seeds programId
    simp only [host, lookupOr_addresses]
    split
    · subst programId
      rfl
    · rfl
  unfold host at hfind ⊢
  unfold Host.solana
  congr
  exact lookupOr_eq r.digests_eq

/-- Digests without addresses. -/
def ofDigests (digests : List (Bytes × ByteArr 32))
    (h : ∀ p ∈ digests, Sha256.hash p.1 = p.2) : Recorded :=
  ⟨digests, [], h, List.forall_mem_nil _⟩

/-- More results. -/
def append (r s : Recorded) : Recorded where
  digests := r.digests ++ s.digests
  addresses := r.addresses ++ s.addresses
  digests_eq := List.forall_mem_append.mpr ⟨r.digests_eq, s.digests_eq⟩
  addresses_eq := List.forall_mem_append.mpr ⟨r.addresses_eq, s.addresses_eq⟩

end Recorded

end ExternalSignature
