import ExternalSignature.Errors
import ExternalSignature.Lib.Bytes

/-!
# The Solana runtime as the program sees it

Keys, accounts, instructions and what the runtime answers while one instruction of the program
runs. `Host` has the two functions the program takes from the runtime's syscalls: SHA-256 and
program addresses. `Runtime` has the sysvars and the results of cross-program invocations, which
are arbitrary here; what they do to the accounts is in `World`. The program's account data starts on
an 8-byte boundary, so the casts of `bytemuck` fail on lengths only, except in the instructions
sysvar (`IntrospectedInstruction.address`).
-/

namespace ExternalSignature

open Lib

/-! ## Keys -/

abbrev Pubkey := ByteArr 32

/-- The place of a character in the base-58 alphabet, which leaves out `0`, `I`, `O` and `l`. -/
def base58Digit (c : UInt8) : Nat :=
  let n := c.toNat
  if n ≤ 57 then n - 49
  else if n ≤ 72 then n - 56
  else if n ≤ 78 then n - 57
  else if n ≤ 90 then n - 58
  else if n ≤ 107 then n - 64
  else n - 65

example : (ascii "123456789ABCDEFGHJKLMNPQRSTUVWXYZabcdefghijkmnopqrstuvwxyz").map base58Digit =
    List.range 58 := by
  decide +kernel

/-- `pubkey!`: the 32 bytes that a base-58 literal spells. -/
def pubkey (s : String) : Pubkey := .ofNat 32 ((ascii s).foldl (fun n c => 58 * n + base58Digit c) 0)

/-- `crate::ID`. -/
def ID : Pubkey := pubkey "ExtSgUPtP3JyKUysFw2S5fpL5fWfUPzGUQLd2bTwftXN"

/-- `pinocchio_system::ID`. -/
def systemProgramId : Pubkey := ByteArr.zero 32

/-- `pinocchio::sysvars::instructions::INSTRUCTIONS_ID`. -/
def instructionsId : Pubkey := pubkey "Sysvar1nstructions1111111111111111111111111"

def slotHashesId : Pubkey :=
  ⟨[0x06, 0xa7, 0xd5, 0x17, 0x19, 0x2f, 0x0a, 0xaf, 0xc6, 0xf2, 0x65, 0xe3, 0xfb, 0x77, 0xcc, 0x7a,
    0xda, 0x82, 0xc5, 0x29, 0xd0, 0xbe, 0x3b, 0x13, 0x6e, 0x2d, 0x00, 0x55, 0x20, 0x00, 0x00, 0x00],
    rfl⟩

example : slotHashesId = pubkey "SysvarS1otHashes111111111111111111111111111" := by
  decide +kernel

theorem id_ne_system : ID ≠ systemProgramId := by decide +kernel

/-- The syscalls whose code is not the program's. -/
structure Host where
  sha256 : Bytes → ByteArr 32
  createProgramAddress : List Bytes → Pubkey → Option Pubkey
  tryFindProgramAddress : List Bytes → Pubkey → Option (Pubkey × UInt8)
  /-- The address found is the address of the seeds with the bump found. -/
  create_of_find : ∀ {seeds programId key bump},
    tryFindProgramAddress seeds programId = some (key, bump) →
      createProgramAddress (seeds ++ [[bump]]) programId = some key

/-- No two of the strings have the same hash. -/
def Host.CollisionFreeOn (host : Host) (strings : List Bytes) : Prop :=
  ∀ x ∈ strings, ∀ y ∈ strings, host.sha256 x = host.sha256 y → x = y

instance (host : Host) (strings : List Bytes) : Decidable (host.CollisionFreeOn strings) :=
  inferInstanceAs (Decidable (∀ x ∈ strings, ∀ y ∈ strings, _))

theorem Host.CollisionFreeOn.mono {host : Host} {xs ys : List Bytes} (h : host.CollisionFreeOn ys)
    (hs : xs ⊆ ys) : host.CollisionFreeOn xs :=
  fun x hx y hy => h x (hs hx) y (hs hy)

/-! ## Accounts -/

structure Account where
  owner : Pubkey
  data : Bytes
  deriving DecidableEq

/-- An account as an instruction receives it, with the flags the transaction grants. -/
structure AccountInfo where
  key : Pubkey
  isSigner : Bool
  isWritable : Bool
  owner : Pubkey
  data : Bytes
  deriving DecidableEq

def AccountInfo.account (info : AccountInfo) : Account := ⟨info.owner, info.data⟩

/-! ## Instructions -/

structure AccountMeta where
  pubkey : Pubkey
  isWritable : Bool
  isSigner : Bool
  deriving DecidableEq

/-- The key and the flags of an account that the transaction grants. -/
def AccountInfo.toMeta (info : AccountInfo) : AccountMeta := ⟨info.key, info.isWritable, info.isSigner⟩

@[ext] structure Instruction where
  programId : Pubkey
  data : Bytes
  accounts : List AccountMeta
  deriving DecidableEq

/-- One call of `slice_invoke_signed`, with the seeds of its one signer. The account infos are
references: what the callee finds in an account is what the account holds at the time of the call. -/
structure Invocation where
  instruction : Instruction
  accountInfos : List AccountMeta
  signerSeeds : List Bytes
  deriving DecidableEq

/-- The calls of the system program that create an account, with the seeds of their signer. -/
inductive SystemInstruction where
  | transfer (source destination : Pubkey) (lamports : UInt64)
  | allocate (account : Pubkey) (space : UInt64) (signerSeeds : List Bytes)
  | assign (account owner : Pubkey) (signerSeeds : List Bytes)
  deriving DecidableEq

/-! ## Sysvars -/

structure SlotHash where
  height : UInt64
  hash : ByteArr 32
  deriving DecidableEq

/-- An instruction of the transaction in the instructions sysvar: its data, the address the data
is at, and the memory after it, which an unchecked read can reach. -/
structure IntrospectedInstruction where
  programId : Pubkey
  data : Bytes
  address : Nat
  beyond : Bytes

/-- `Instructions<Ref<[u8]>>`. -/
abbrev Instructions := List IntrospectedInstruction

/-- `load_instruction_at`. -/
def Instructions.loadInstructionAt (ixs : Instructions) (index : Nat) :
    Outcome IntrospectedInstruction :=
  okOr (.err .invalidInstructionData) ixs[index]?

/-- The runtime during one instruction of the program. Whether a call of another program succeeds
may depend on the calls made before it and on what the external account holds by then. -/
structure Runtime where
  unixTimestamp : Int64
  stackHeight : UInt64
  slotHashes : List SlotHash
  instructions : Instructions
  minimumBalance : Nat → UInt64
  /-- The answer to the last of the calls of the system program. -/
  system : List SystemInstruction → Except ProgramError Unit
  /-- The answer to the last of the invocations, with the external account as written. -/
  sliceInvokeSigned : AccountInfo → List Invocation → Except ProgramError Unit

/-- `Instructions::try_from`. -/
def Runtime.instructionsSysvar (rt : Runtime) (info : AccountInfo) : Outcome Instructions := do
  ensure (info.key = instructionsId) (.err .unsupportedSysvar)
  return rt.instructions

/-- `?` on the result of a syscall or of an invocation. -/
def ofProgram {α : Type} : Except ProgramError α → Outcome α
  | .ok a => .ok a
  | .error e => .error (.err e)

@[simp] theorem ofProgram_eq_ok {α : Type} {x : Except ProgramError α} {a : α} :
    ofProgram x = .ok a ↔ x = .ok a := by
  cases x <;> simp [ofProgram]

end ExternalSignature
