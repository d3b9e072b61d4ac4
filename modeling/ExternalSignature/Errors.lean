import ExternalSignature.Lib.Result

/-!
# Errors

`ExternalSignatureProgramError` in the order of the enumeration, so that `code` is the number the
program returns. A run of the program fails with a `ProgramError` or by a panic; the runtime
reverts the instruction in both cases. The messages are only logged and are left out.
-/

namespace ExternalSignature

open Lib

inductive ExternalSignatureProgramError where
  | invalidSlothashIndex
  | invalidTruncatedSlot
  | expiredSlothash
  | missingNonceSignature
  | cpiNotAllowed
  | invalidInstructionSysvarAccount
  | invalidPrecompileId
  | invalidNumPrecompileSignatures
  | invalidSignatureIndex
  | invalidSignatureOffset
  | errorInitializingHeader
  | errorDeserializingHeader
  | errorInitializingAccountData
  | errorDeserializingAccountData
  | invalidExtraVerificationDataArgs
  | invalidExecutionArgs
  | sessionSignerNotASigner
  | invalidSessionKey
  | sessionKeyExpired
  | invalidSessionKeyExpiration
  | invalidSignatureScheme
  | invalidSignerExecutionScheme
  | signerExecutionAccountNotASigner
  | p256RelyingPartTooLong
  | p256RelyingPartIncludeQuotes
  | p256RelyingPartyMismatch
  | p256ClientDataHashMismatch
  | p256AccountNotWritable
  | p256InvalidAlgorithm
  | p256InvalidPublicKeyEncoding
  | p256PublicKeyMismatch
  | p256UserNotVerified
  | p256UserNotPresent
  deriving DecidableEq, Repr

/-- `e as u32`. -/
def ExternalSignatureProgramError.code (e : ExternalSignatureProgramError) : UInt32 :=
  .ofNat e.ctorIdx

/-- The variants of pinocchio's `ProgramError` that the program returns. -/
inductive ProgramError where
  | custom (code : UInt32)
  | invalidArgument
  | invalidInstructionData
  | invalidAccountData
  | invalidAccountOwner
  | notEnoughAccountKeys
  | unsupportedSysvar
  deriving DecidableEq, Repr

inductive Fault where
  | err (e : ProgramError)
  | panic
  deriving DecidableEq, Repr

/-- `Result<_, ProgramError>`, of code that may also panic. -/
abbrev Outcome := Except Fault

namespace Fault

/-- `ExternalSignatureProgramError::into`. -/
def custom (e : ExternalSignatureProgramError) : Fault := .err (.custom e.code)

end Fault

end ExternalSignature
