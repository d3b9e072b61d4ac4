import ExternalSignature.Runtime

/-!
# Messages and transactions

The parts of `@solana/web3.js` and `@scure/base` that the SDK calls, as parameters: `Web3`. What
it relies on is the documented layout of a compiled message (`Compiled`): each key once, the payer
first, and the keys in four groups that the header counts. In a message and in a transaction an
account has the union of the flags of all its uses.
-/

namespace ExternalSignature.Sdk

open Lib

structure TransactionInstruction where
  programId : Pubkey
  keys : List AccountMeta
  data : Bytes

/-! ## Messages -/

structure MessageHeader where
  numRequiredSignatures : Nat
  numReadonlySignedAccounts : Nat
  numReadonlyUnsignedAccounts : Nat

/-- The data of a compiled instruction, as base-58 text or as bytes. -/
inductive MessageData where
  | text (base58 : String)
  | raw (bytes : Bytes)

structure MessageInstruction where
  programIdIndex : Nat
  accounts : List Nat
  data : MessageData

structure LegacyMessage where
  header : MessageHeader
  accountKeys : List Pubkey
  instructions : List MessageInstruction

structure Web3 where
  compileToLegacyMessage (payerKey : Pubkey) (instructions : List TransactionInstruction) :
    Except String LegacyMessage
  base58Decode : String → Except String Bytes

/-! ## Flags -/

/-- The uses of accounts by the payer and the instructions. -/
def uses (payer : Pubkey) (instructions : List TransactionInstruction) : List AccountMeta :=
  ⟨payer, true, true⟩ :: instructions.flatMap (·.keys)

/-- The account `key` with the union of the flags of its uses. -/
def unionOf (uses : List AccountMeta) (key : Pubkey) : AccountMeta where
  pubkey := key
  isWritable := uses.any fun m => m.pubkey = key && m.isWritable
  isSigner := uses.any fun m => m.pubkey = key && m.isSigner

/-- The keys of the uses, and the programs. -/
def usedKeys (payer : Pubkey) (instructions : List TransactionInstruction) : List Pubkey :=
  payer :: instructions.flatMap fun instruction =>
    instruction.programId :: instruction.keys.map (·.pubkey)

/-- What `compileToLegacyMessage` makes of its arguments. -/
structure Compiled (payer : Pubkey) (instructions : List TransactionInstruction)
    (message : LegacyMessage) : Prop where
  mem_iff : ∀ {key}, key ∈ message.accountKeys ↔ key ∈ usedKeys payer instructions
  nodup : message.accountKeys.Nodup
  payer_first : message.accountKeys.head? = some payer
  layout : ∃ writableSigned readonlySigned writableUnsigned readonlyUnsigned,
    message.accountKeys = writableSigned ++ readonlySigned ++ writableUnsigned ++ readonlyUnsigned ∧
    message.header = ⟨writableSigned.length + readonlySigned.length, readonlySigned.length,
      readonlyUnsigned.length⟩ ∧
    (∀ key ∈ writableSigned, unionOf (uses payer instructions) key = ⟨key, true, true⟩) ∧
    (∀ key ∈ readonlySigned, unionOf (uses payer instructions) key = ⟨key, false, true⟩) ∧
    (∀ key ∈ writableUnsigned, unionOf (uses payer instructions) key = ⟨key, true, false⟩) ∧
    ∀ key ∈ readonlyUnsigned, unionOf (uses payer instructions) key = ⟨key, false, false⟩

def Web3.Lawful (web3 : Web3) : Prop := ∀ {payer instructions message},
  web3.compileToLegacyMessage payer instructions = .ok message →
    Compiled payer instructions message

/-- A transaction; its order of instructions decides no flag. -/
structure Transaction where
  payer : Pubkey
  instructions : List TransactionInstruction

/-- The accounts that the runtime presents to an instruction of the transaction. -/
def Transaction.grant (transaction : Transaction) (instruction : TransactionInstruction) :
    List AccountMeta :=
  instruction.keys.map fun m =>
    unionOf (uses transaction.payer transaction.instructions) m.pubkey

section

variable {us : List AccountMeta} {key : Pubkey}

theorem unionOf_isWritable : (unionOf us key).isWritable ↔ ∃ m ∈ us, m.pubkey = key ∧ m.isWritable := by
  simp [unionOf, List.any_eq_true]

theorem unionOf_isSigner : (unionOf us key).isSigner ↔ ∃ m ∈ us, m.pubkey = key ∧ m.isSigner := by
  simp [unionOf, List.any_eq_true]

end

end ExternalSignature.Sdk
