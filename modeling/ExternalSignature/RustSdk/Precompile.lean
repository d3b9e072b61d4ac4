import ExternalSignature.Lib.Borsh
import ExternalSignature.Lib.Der
import ExternalSignature.Utils.Precompiles

/-!
# The Rust builder of the precompile instruction

`create_secp256r1_instruction` of the Rust SDK. It reads the DER signature with OpenSSL, which is a
parameter: a `BigNum` is its value, and `to_vec` is the parameter's.
-/

namespace ExternalSignature.RustSdk

open Lib

inductive SdkError where
  | invalidSignatureFormat
  | messageTooLarge
  | serializationError (message : String)
  | borshError (error : Borsh.IoError)
  deriving DecidableEq, Repr

/-- The functions of OpenSSL that the builder calls. -/
structure OpenSsl where
  /-- `EcdsaSig::from_der`, with the values of `r` and `s`. -/
  fromDer : Bytes → Option (Nat × Nat)
  /-- `BigNum::to_vec`. -/
  toVec : Nat → Bytes

def fieldSize : Nat := 32

def secp256r1HalfOrder : Bytes :=
  [0x7F, 0xFF, 0xFF, 0xFF, 0x80, 0x00, 0x00, 0x00, 0x7F, 0xFF, 0xFF, 0xFF, 0xFF, 0xFF, 0xFF, 0xFF,
    0xDE, 0x73, 0x7D, 0x56, 0xD3, 0x8B, 0xCF, 0x42, 0x79, 0xDC, 0xE5, 0x61, 0x7E, 0x31, 0x92, 0xA8]

/-- `solana_secp256r1_program::SECP256R1_ORDER`. -/
def secp256r1Order : Bytes :=
  [0xFF, 0xFF, 0xFF, 0xFF, 0x00, 0x00, 0x00, 0x00, 0xFF, 0xFF, 0xFF, 0xFF, 0xFF, 0xFF, 0xFF, 0xFF,
    0xBC, 0xE6, 0xFA, 0xAD, 0xA7, 0x17, 0x9E, 0x84, 0xF3, 0xB9, 0xCA, 0xC2, 0xFC, 0x63, 0x25, 0x51]

/-- `solana_secp256r1_program::DATA_START`. -/
def dataStart : Nat := secp256r1NumSignaturesSerializedSize + secp256r1SignatureOffsetsSerializedSize

/-- `padded[FIELD_SIZE - bytes.len()..].copy_from_slice(bytes)`. -/
def padField (bytes : Bytes) : Bytes := List.replicate (fieldSize - bytes.length) 0 ++ bytes

variable (ssl : OpenSsl)

def parseDerSignatureToCompact (signatureDer : Bytes) : Except SdkError Bytes := do
  let ecdsaSig ← okOr .invalidSignatureFormat (ssl.fromDer signatureDer)
  let r := ssl.toVec ecdsaSig.1
  let s := ssl.toVec ecdsaSig.2
  ensure (r.length ≤ fieldSize ∧ s.length ≤ fieldSize) .invalidSignatureFormat
  let sBignum := beNat s
  if beNat secp256r1HalfOrder < sBignum then
    -- a `BigNum` has a sign, which `to_vec` leaves out
    let newS := ssl.toVec ((beNat secp256r1Order : Int) - sBignum).natAbs
    ensure (newS.length ≤ fieldSize) .invalidSignatureFormat
    return padField r ++ padField newS
  else return padField r ++ padField s

def createSecp256r1Instruction (signatureDer message : Bytes) (publicKey : ByteArr 33)
    (publicKeyOffset : Option (UInt8 × UInt16)) : Except SdkError Instruction := do
  ensure (message.length ≤ 0xffff) .messageTooLarge
  let signature ← parseDerSignatureToCompact ssl signatureDer
  let publicKeyInstructionIndex : UInt16 := match publicKeyOffset with
    | some (ix, _) => ix.toUInt16
    | none => 0xffff
  let publicKeyOffset : Nat := match publicKeyOffset with
    | some (_, offset) => offset.toNat
    | none => dataStart
  let signatureOffset :=
    if publicKeyInstructionIndex = 0xffff then publicKeyOffset + secp256r1PublicKeySerializedSize
    else dataStart
  let messageDataOffset := signatureOffset + secp256r1SignatureSerializedSize
  let offsets : SignatureOffsets := {
    signatureOffset := .ofNat signatureOffset
    signatureInstructionIndex := 0xffff
    publicKeyOffset := .ofNat publicKeyOffset
    publicKeyInstructionIndex
    messageDataOffset := .ofNat messageDataOffset
    messageDataSize := .ofNat message.length
    messageInstructionIndex := 0xffff }
  return {
    programId := secp256r1PrecompileId
    accounts := []
    data := [1, 0] ++ (Pod.bytes offsets).val ++
      (if publicKeyInstructionIndex = 0xffff then publicKey.val else []) ++ signature ++ message }

end ExternalSignature.RustSdk
