import ExternalSignature.Lib.Borsh
import ExternalSignature.Lib.Pod
import ExternalSignature.Runtime

/-!
# Schemes, session keys and the executing account
-/

namespace ExternalSignature

open Lib Lib.Borsh

inductive SignatureScheme where
  | p256Webauthn
  deriving DecidableEq

namespace SignatureScheme

/-- `scheme as u8`. -/
def toU8 : SignatureScheme → UInt8
  | p256Webauthn => 0

def tryFromPrimitive (b : UInt8) : Option SignatureScheme :=
  if b = 0 then some p256Webauthn else none

end SignatureScheme

/-- Who signs the cross-program invocations: the derived execution account, or the external
account itself. -/
inductive SignerExecutionScheme where
  | executionAccount
  | externalAccount
  deriving DecidableEq

namespace SignerExecutionScheme

def toU8 : SignerExecutionScheme → UInt8
  | executionAccount => 0
  | externalAccount => 1

def tryFromPrimitive (b : UInt8) : Option SignerExecutionScheme :=
  if b = 0 then some executionAccount
  else if b = 1 then some externalAccount
  else none

theorem tryFromPrimitive_eq_some {b : UInt8} {s : SignerExecutionScheme} :
    tryFromPrimitive b = some s ↔ b = s.toU8 := by
  unfold tryFromPrimitive
  cases s <;> split <;> (try split) <;> simp_all [toU8]

end SignerExecutionScheme

/-- The account that signs the cross-program invocations. -/
@[ext] structure ExecutionAccount where
  key : Pubkey
  bump : UInt8
  seeds : Bytes × Bytes

def ExecutionAccount.toSignerSeeds (a : ExecutionAccount) : List Bytes :=
  [a.seeds.1, a.seeds.2, [a.bump]]

/-! ## Session keys -/

/-- Three months in seconds. -/
def sessionKeyExpirationLimit : UInt64 := 3 * 30 * 24 * 60 * 60

structure SessionKey where
  key : ByteArr 32
  expiration : UInt64
  deriving DecidableEq

namespace SessionKey

def fields : SessionKey ≃ ByteArr 32 × UInt64 where
  toFun s := (s.key, s.expiration)
  invFun p := ⟨p.1, p.2⟩
  left_inv _ := rfl
  right_inv _ := rfl

instance : BorshSerialize SessionKey := serializeAs fields
instance : BorshDeserialize SessionKey := deserializeAs fields
instance : LawfulBorsh SessionKey := lawfulAs fields
instance : Pod SessionKey := .ofEquiv fields

end SessionKey

end ExternalSignature
