import ExternalSignature.Lib.Pod
import ExternalSignature.Runtime

/-!
# The secp256r1 precompile

The runtime has verified the signatures of a precompile instruction before the program runs; the
program reads what was signed out of the instructions sysvar. An offset may point into another
instruction of the transaction, and such a read is not bounded by that instruction's data.
-/

namespace ExternalSignature

open Lib

structure SignatureOffsets where
  signatureOffset : UInt16
  signatureInstructionIndex : UInt16
  publicKeyOffset : UInt16
  publicKeyInstructionIndex : UInt16
  messageDataOffset : UInt16
  messageDataSize : UInt16
  messageInstructionIndex : UInt16

namespace SignatureOffsets

def fields : SignatureOffsets ≃
    UInt16 × UInt16 × UInt16 × UInt16 × UInt16 × UInt16 × UInt16 where
  toFun o := (o.signatureOffset, o.signatureInstructionIndex, o.publicKeyOffset,
    o.publicKeyInstructionIndex, o.messageDataOffset, o.messageDataSize, o.messageInstructionIndex)
  invFun := fun (a, b, c, d, e, f, g) => ⟨a, b, c, d, e, f, g⟩
  left_inv _ := rfl
  right_inv _ := rfl

instance : Pod SignatureOffsets := .ofEquiv fields

end SignatureOffsets

structure SignaturePayload where
  signature : Bytes
  publicKey : Bytes
  message : Bytes
  deriving DecidableEq

def secp256r1PrecompileId : Pubkey := pubkey "Secp256r1SigVerify1111111111111111111111111"

def secp256r1SignatureSerializedSize : Nat := 64
def secp256r1PublicKeySerializedSize : Nat := 33
def secp256r1SignatureOffsetsSerializedSize : Nat := 14
def secp256r1NumSignaturesSerializedSize : Nat := 2

/-- `&data[offset..offset + size]`. -/
def getDataSlice (data : Bytes) (offset size : Nat) : Outcome Bytes :=
  if offset + size ≤ data.length then .ok ((data.drop offset).take size) else .error .panic

/-- The same bytes read through a raw pointer, which may run past the data. -/
def getDataSliceRaw (ix : IntrospectedInstruction) (offset size : Nat) : Outcome Bytes :=
  getDataSlice (ix.data ++ ix.beyond) offset size

structure PrecompileParser where
  precompileIx : IntrospectedInstruction
  instructionsSysvar : Instructions

namespace PrecompileParser

def new (precompileIx : IntrospectedInstruction) (instructionsSysvar : Instructions) :
    Outcome PrecompileParser := do
  ensure (precompileIx.programId = secp256r1PrecompileId) (.custom .invalidPrecompileId)
  return ⟨precompileIx, instructionsSysvar⟩

def numSignatures (parser : PrecompileParser) : Outcome Nat :=
  match parser.precompileIx.data with
  | [] => .error .panic
  | count :: _ => .ok count.toNat

/-- The signature, public key or message that a pair of offsets points to. -/
def payloadSlice (parser : PrecompileParser) (instructionIndex offset : UInt16) (size : Nat) :
    Outcome Bytes :=
  if instructionIndex = 0xffff then getDataSlice parser.precompileIx.data offset.toNat size
  else do
    let instruction ← mapErr (.custom .invalidSignatureOffset)
      (parser.instructionsSysvar.loadInstructionAt instructionIndex.toNat)
    getDataSliceRaw instruction offset.toNat size

def getSignaturePayload (parser : PrecompileParser) (index : Nat) : Outcome SignaturePayload := do
  let count ← parser.numSignatures
  ensure (index < count) (.custom .invalidSignatureIndex)
  let offsetStart :=
    secp256r1NumSignaturesSerializedSize + secp256r1SignatureOffsetsSerializedSize * index
  let window ← getDataSlice parser.precompileIx.data offsetStart
    secp256r1SignatureOffsetsSerializedSize
  -- `try_from_bytes` wants the offsets on a 2-byte boundary
  ensure ((parser.precompileIx.address + offsetStart) % 2 = 0) (.custom .invalidSignatureOffset)
  let offset ← okOr (.custom .invalidSignatureOffset) (Pod.read SignatureOffsets window)
  let signature ← parser.payloadSlice offset.signatureInstructionIndex offset.signatureOffset
    secp256r1SignatureSerializedSize
  let publicKey ← parser.payloadSlice offset.publicKeyInstructionIndex offset.publicKeyOffset
    secp256r1PublicKeySerializedSize
  let message ← parser.payloadSlice offset.messageInstructionIndex offset.messageDataOffset
    offset.messageDataSize.toNat
  return ⟨signature, publicKey, message⟩

end PrecompileParser

end ExternalSignature
