import ExternalSignature.Ledger

/-!
# The world around the program

The accounts with all that the chain keeps of them, and the other programs that change them: in the
invocations of a call, and in instructions of their own. Another program is arbitrary, but what it
does depends on the accounts of its instruction only, and the runtime takes over no other changes
than to those that are writable, and none to an account that the program owns (`World.carryOut`). A
caller can pass on the accounts that it is given itself (`World.invoke`); a refusal for a missing
signature is one of the callee's answers.

What the runtime answers to the invocations of a call follows from the state, so of the runtime that
a call comes with the sysvars count only (`Programs.call`). An instruction of another program that
calls the program in between is several actions, and the actions of a transaction that fails are
left out.
-/

namespace ExternalSignature

open Lib

/-- An account, and what else the chain keeps of it, such as its lamports. -/
structure Cell (σ : Type) where
  account : Account
  rest : σ

/-- The state of the chain. -/
abbrev World (σ : Type) := Pubkey → Cell σ

/-- The accounts that a program is given, as it finds or leaves them. -/
abbrev View (σ : Type) := Pubkey → Option (Cell σ)

/-- An instruction of another program: its accounts, and what the program does with them. -/
structure Foreign (σ : Type) where
  accounts : List AccountMeta
  run : View σ → Except ProgramError (View σ)

/-- Other programs can turn the one account into the other: they leave an account of the program
alone, and the accounts that they give it are zero-filled. -/
def Account.Admits (a b : Account) : Prop :=
  a = b ∨ a.owner ≠ ID ∧ (b.owner = ID → b.data = List.replicate b.data.length 0)

instance (a b : Account) : Decidable (a.Admits b) := inferInstanceAs (Decidable (_ ∨ _))

/-! ## Privileges -/

/-- An instruction with these accounts may write the account `key`. -/
def Writable (accounts : List AccountMeta) (key : Pubkey) : Prop :=
  ∃ m ∈ accounts, m.pubkey = key ∧ m.isWritable

instance (accounts : List AccountMeta) (key : Pubkey) : Decidable (Writable accounts key) :=
  inferInstanceAs (Decidable (∃ m ∈ accounts, _))

/-- An instruction with the accounts `granted` may pass on `accounts`. -/
def PassesOn (granted accounts : List AccountMeta) : Prop :=
  ∀ m ∈ accounts, m.pubkey ∈ granted.map (·.pubkey) ∧ (m.isWritable → Writable granted m.pubkey)

instance (granted accounts : List AccountMeta) : Decidable (PassesOn granted accounts) :=
  inferInstanceAs (Decidable (∀ m ∈ accounts, _))

/-! ## Instructions of other programs -/

namespace World

variable {σ : Type} (w : World σ)

/-- The accounts without the rest. -/
def ledger : Ledger := fun key => (w key).account

def view (accounts : List AccountMeta) : View σ := fun key =>
  if key ∈ accounts.map (·.pubkey) then some (w key) else none

/-- The writable accounts as a program leaves them. -/
def writeBack (accounts : List AccountMeta) (left : View σ) : World σ := fun key =>
  if Writable accounts key then (left key).getD (w key) else w key

def carryOut (instruction : Foreign σ) : Except ProgramError (World σ) := do
  let left ← instruction.run (w.view instruction.accounts)
  let after := w.writeBack instruction.accounts left
  -- `ExternalAccountDataModified` and `ModifiedProgramId`
  ensure (∀ m ∈ instruction.accounts, (w m.pubkey).account.Admits (after m.pubkey).account)
    .invalidAccountData
  return after

/-- An invocation by an instruction with the accounts `granted`. -/
def invoke (granted : List AccountMeta) (instruction : Foreign σ) :
    Except ProgramError (World σ) := do
  -- `MissingAccount` and `PrivilegeEscalation`
  ensure (PassesOn granted instruction.accounts) .invalidArgument
  w.carryOut instruction

/-- Invocations up to one that fails. -/
def invokeAll (w : World σ) (granted : List AccountMeta) :
    List (Foreign σ) → Except ProgramError (World σ)
  | [] => return w
  | instruction :: instructions => do
    invokeAll (← w.invoke granted instruction) granted instructions

/-- The program has written the data of its account. -/
def write (info : AccountInfo) : World σ :=
  Function.update w info.key { w info.key with account := info.account }

end World

/-! ## The invocations of a call -/

namespace SystemInstruction

def accounts : SystemInstruction → List AccountMeta
  | transfer source destination _ => [⟨source, true, true⟩, ⟨destination, true, false⟩]
  | allocate account .. => [⟨account, true, true⟩]
  | assign account .. => [⟨account, true, true⟩]

/-- What the system program makes of the owner and the data of an account. -/
def apply (key : Pubkey) (old : Account) : SystemInstruction → Account
  | transfer .. => old
  | allocate account space _ =>
    if key = account then { old with data := List.replicate space.toNat 0 } else old
  | assign account owner _ => if key = account then { old with owner } else old

end SystemInstruction

/-- The other programs that a call meets. -/
structure Programs (σ : Type) where
  /-- What the system program makes of the rest of each account. -/
  system : SystemInstruction → View σ → Except ProgramError (Pubkey → σ)
  invoke : Invocation → View σ → Except ProgramError (View σ)

namespace Programs

variable {σ : Type} (programs : Programs σ)

def ofSystem (instruction : SystemInstruction) : Foreign σ where
  accounts := instruction.accounts
  run view := do
    let rest ← programs.system instruction view
    return fun key => (view key).map fun cell => ⟨instruction.apply key cell.account, rest key⟩

def ofInvocation (invocation : Invocation) : Foreign σ where
  accounts := invocation.instruction.accounts
  run := programs.invoke invocation

variable (w : World σ) (c : Call)

/-- The call with the answers of the other programs. -/
def call : Call where
  rt := { c.rt with
    system := fun calls => (w.invokeAll c.accounts (calls.map programs.ofSystem)).map fun _ => ()
    sliceInvokeSigned := fun external calls =>
      ((w.write external).invokeAll c.accounts (calls.map programs.ofInvocation)).map fun _ => () }
  accounts := c.accounts
  data := c.data

def process (host : Host) : Processed := (programs.call w c).process host w.ledger

end Programs

/-! ## Steps -/

namespace World

variable {σ : Type}

inductive Action (σ : Type) where
  | call (c : Call) (programs : Programs σ)
  | other (instruction : Foreign σ)

/-- What an action leaves. The program has written its account before the first invocation. -/
def result (host : Host) (w : World σ) : Action σ → Outcome (World σ)
  | .call c programs => do
    let processed := programs.process w c host
    let left ← processed.result
    let created ← ofProgram (w.invokeAll c.accounts (processed.system.map programs.ofSystem))
    -- `ReadonlyDataModified`
    ensure (left.account = (created left.key).account ∨ Writable c.accounts left.key)
      (.err .invalidAccountData)
    ofProgram ((created.write left).invokeAll c.accounts
      (processed.invocations.map programs.ofInvocation))
  | .other instruction => ofProgram (w.carryOut instruction)

def step (host : Host) (w : World σ) (a : Action σ) : World σ :=
  match w.result host a with
  | .ok after => after
  | .error _ => w

end World

end ExternalSignature
