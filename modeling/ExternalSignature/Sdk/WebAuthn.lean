import ExternalSignature.Lib.Hex
import ExternalSignature.Sdk.Serialize

/-!
# WebAuthn material in the TypeScript SDK

What the SDK does with the bytes a browser returns: it takes the P-256 key out of a DER
`SubjectPublicKeyInfo` or out of attested credential data, and turns a DER signature into the
compact form the precompile reads. Offsets are JavaScript numbers that never leave the range of
safe integers, so they are natural numbers here; the length of a long DER length field is
accumulated with 32-bit operators and is a `BitVec 32`.
-/

namespace ExternalSignature.Sdk

open Lib

/-! ## DER -/

def p256HalfOrder : Nat := 0x7fffffff800000007fffffffffffffffde737d56d38bcf4279dce5617e3192a8

def p256Order : Nat := 0xffffffff00000000ffffffffffffffffbce6faada7179e84f3b9cac2fc632551

def ecPublicKeyOid : Bytes := [0x2a, 0x86, 0x48, 0xce, 0x3d, 0x02, 0x01]

def prime256v1Oid : Bytes := [0x2a, 0x86, 0x48, 0xce, 0x3d, 0x03, 0x01, 0x07]

structure DerLength where
  length : Nat
  nextOffset : Nat

/-- `(length << 8) | byte` on 32-bit integers. -/
def shiftIn (length : BitVec 32) (byte : UInt8) : BitVec 32 :=
  length <<< 8 ||| byte.toBitVec.setWidth 32

def readDerLength (bytes : Bytes) (offset : Nat) : Except String DerLength := do
  ensure (offset < bytes.length) "invalid DER length field"
  let first := bytes.getD offset 0
  if first < 0x80 then
    return { length := first.toNat, nextOffset := offset + 1 }
  else
    let lengthBytes := (first &&& 0x7f).toNat
    ensure (0 < lengthBytes) "invalid DER length field"
    ensure (lengthBytes ≤ 4) "DER length field is too large"
    ensure (offset + 1 + lengthBytes ≤ bytes.length) "invalid DER length field"
    ensure (bytes.getD (offset + 1) 0 ≠ 0) "DER length field must use minimal encoding"
    -- a JavaScript number again, negative when the highest bit is set
    let length := ((bytes.extract (offset + 1) (offset + 1 + lengthBytes)).foldl shiftIn 0).toInt
    ensure (0x80 ≤ length) "DER long-form length must not encode short-form values"
    return { length := length.toNat, nextOffset := offset + 1 + lengthBytes }

structure DerElement where
  valueOffset : Nat
  nextOffset : Nat

def readDerElement (bytes : Bytes) (offset : Nat) (expectedTag : UInt8) (label : String) :
    Except String DerElement := do
  ensure (offset < bytes.length) (label ++ " is missing")
  ensure (bytes.getD offset 0 = expectedTag) (label ++ " has invalid DER tag")
  let lengthField ← readDerLength bytes (offset + 1)
  let valueOffset := lengthField.nextOffset
  let nextOffset := valueOffset + lengthField.length
  ensure (nextOffset ≤ bytes.length) (label ++ " length exceeds payload")
  return { valueOffset, nextOffset }

structure SpkiKey where
  compressed : Bytes
  uncompressed : Bytes
  deriving DecidableEq

def decodeSpkiP256PublicKey (bytes : Bytes) : Except String SpkiKey := do
  let spki ← readDerElement bytes 0 0x30 "SPKI"
  ensure (spki.nextOffset = bytes.length) "SPKI contains trailing bytes"
  let algorithmIdentifier ← readDerElement bytes spki.valueOffset 0x30 "SPKI algorithm identifier"
  let subjectPublicKey ←
    readDerElement bytes algorithmIdentifier.nextOffset 0x03 "SPKI subjectPublicKey"
  ensure (subjectPublicKey.nextOffset = spki.nextOffset)
    "SPKI contains unexpected fields after subjectPublicKey"
  let algorithmOid ←
    readDerElement bytes algorithmIdentifier.valueOffset 0x06 "SPKI algorithm OID"
  let curveOid ← readDerElement bytes algorithmOid.nextOffset 0x06 "SPKI curve OID"
  ensure (curveOid.nextOffset = algorithmIdentifier.nextOffset)
    "SPKI algorithm identifier contains unexpected trailing bytes"
  let algorithmOidValue := bytes.extract algorithmOid.valueOffset algorithmOid.nextOffset
  let curveOidValue := bytes.extract curveOid.valueOffset curveOid.nextOffset
  ensure (algorithmOidValue = ecPublicKeyOid)
    "SPKI algorithm OID must be id-ecPublicKey (1.2.840.10045.2.1)"
  ensure (curveOidValue = prime256v1Oid)
    "SPKI curve OID must be prime256v1/P-256 (1.2.840.10045.3.1.7)"
  let bitString := bytes.extract subjectPublicKey.valueOffset subjectPublicKey.nextOffset
  ensure (0 < bitString.length) "SPKI subjectPublicKey BIT STRING must not be empty"
  ensure (bitString.getD 0 0 = 0x00) "SPKI subjectPublicKey BIT STRING must use zero unused bits"
  let encodedPoint := bitString.drop 1
  ensure (encodedPoint.length = 65)
    "SPKI subjectPublicKey must contain a 65-byte uncompressed EC point"
  ensure (encodedPoint.getD 0 0 = 0x04)
    "SPKI subjectPublicKey must be uncompressed EC point format (0x04)"
  let uncompressed := encodedPoint.drop 1
  let x := uncompressed.extract 0 32
  let y := uncompressed.extract 32 64
  let keyPrefix : UInt8 := if y.getD 31 0 &&& 1 = 0 then 0x02 else 0x03
  return { compressed := keyPrefix :: x, uncompressed }

/-! ## Signatures -/

def assertCanonicalDerInteger (bytes : Bytes) (label : String) : Except String Unit := do
  ensure (0 < bytes.length) ("DER integer for " ++ label ++ " must not be empty")
  ensure (bytes.getD 0 0 &&& 0x80 = 0) ("DER integer for " ++ label ++ " must be positive")
  if 1 < bytes.length ∧ bytes.getD 0 0 = 0 then
    ensure (bytes.getD 1 0 &&& 0x80 = 0x80)
      ("DER integer for " ++ label ++ " has non-canonical leading zero")

def derIntegerToBigInt (bytes : Bytes) : Nat :=
  let normalized := bytes.dropWhile (· = 0)
  let digits := normalized.flatMap fun value => padStart 2 (hex value.toNat)
  hexValue (if digits = [] then ['0'] else digits)

def bigIntTo32Bytes (value : Nat) : Except String Bytes := do
  ensure (value < p256Order) "signature integer must be in range [0, n)"
  let digits := padStart 64 (hex value)
  ensure (digits.length ≤ 64) "signature integer does not fit into 32 bytes"
  return hexBytes digits

structure DerInteger where
  value : Nat
  nextOffset : Nat

def readDerInteger (bytes : Bytes) (offset : Nat) (label : String) : Except String DerInteger := do
  ensure (offset < bytes.length) ("missing DER integer for " ++ label)
  ensure (bytes.getD offset 0 = 0x02) ("expected DER integer for " ++ label)
  let integerLength ← readDerLength bytes (offset + 1)
  let offset := integerLength.nextOffset
  ensure (0 < integerLength.length) ("DER integer for " ++ label ++ " must not be empty")
  ensure (offset + integerLength.length ≤ bytes.length)
    ("DER integer length for " ++ label ++ " exceeds payload")
  let integerBytes := bytes.extract offset (offset + integerLength.length)
  assertCanonicalDerInteger integerBytes label
  let value := derIntegerToBigInt integerBytes
  ensure (1 ≤ value ∧ value < p256Order) (label ++ " must be in range [1, n-1]")
  return { value, nextOffset := offset + integerLength.length }

/-- The body of the `try`: every error it throws is an `ExternalSignatureSdkError`. -/
def readDerSignature (bytes : Bytes) : Except String Bytes := do
  ensure (2 ≤ bytes.length) "DER signature is too short"
  ensure (bytes.getD 0 0 = 0x30) "DER signature must start with sequence tag (0x30)"
  let sequenceLength ← readDerLength bytes 1
  let offset := sequenceLength.nextOffset
  ensure ((sequenceLength.length : Int) = bytes.length - offset)
    "DER sequence length does not match payload size"
  let r ← readDerInteger bytes offset "r"
  let s ← readDerInteger bytes r.nextOffset "s"
  ensure (s.nextOffset = bytes.length) "DER signature contains trailing bytes"
  let sValue := if p256HalfOrder < s.value then p256Order - s.value else s.value
  return (← bigIntTo32Bytes r.value) ++ (← bigIntTo32Bytes sValue)

def parseDerSignatureToCompact (bytes : Bytes) : Except String Bytes :=
  (readDerSignature bytes).mapError ("invalid DER-encoded ECDSA signature: " ++ ·)

/-! ## CBOR -/

/-- `Number.MAX_SAFE_INTEGER`. -/
def maxSafeInteger : Nat := 2 ^ 53 - 1

structure CborArgument where
  value : Nat
  nextOffset : Nat

def readCborArgument (bytes : Bytes) (offset additionalInfo : Nat) :
    Except String CborArgument := do
  if additionalInfo < 24 then
    return { value := additionalInfo, nextOffset := offset }
  else if additionalInfo = 24 then
    ensure (offset + 1 ≤ bytes.length) "CBOR length exceeds payload"
    return { value := (bytes.getD offset 0).toNat, nextOffset := offset + 1 }
  else if additionalInfo = 25 then
    ensure (offset + 2 ≤ bytes.length) "CBOR length exceeds payload"
    return { value := beNat (bytes.extract offset (offset + 2)), nextOffset := offset + 2 }
  else if additionalInfo = 26 then
    ensure (offset + 4 ≤ bytes.length) "CBOR length exceeds payload"
    return { value := beNat (bytes.extract offset (offset + 4)), nextOffset := offset + 4 }
  else if additionalInfo = 27 then
    ensure (offset + 8 ≤ bytes.length) "CBOR length exceeds payload"
    let value := beNat (bytes.extract offset (offset + 8))
    ensure (value ≤ maxSafeInteger) "CBOR length exceeds supported range"
    return { value, nextOffset := offset + 8 }
  else throw "indefinite-length CBOR items are not supported"

/-- The last branch of `skipCborItem`: simple values and floats. -/
def skipCborSimple (bytes : Bytes) (offset additionalInfo : Nat) : Except String Nat := do
  if additionalInfo < 24 then
    return offset
  else if additionalInfo = 24 then
    ensure (offset + 1 ≤ bytes.length) "CBOR simple value exceeds payload"
    return offset + 1
  else if additionalInfo = 25 then
    ensure (offset + 2 ≤ bytes.length) "CBOR simple value exceeds payload"
    return offset + 2
  else if additionalInfo = 26 then
    ensure (offset + 4 ≤ bytes.length) "CBOR simple value exceeds payload"
    return offset + 4
  else if additionalInfo = 27 then
    ensure (offset + 8 ≤ bytes.length) "CBOR simple value exceeds payload"
    return offset + 8
  else throw "indefinite-length CBOR items are not supported"

/-- The loop `for (let i = 0; i < count; i += 1) nextOffset = skip(nextOffset)`. -/
def skipTimes (skip : Nat → Except String Nat) : Nat → Nat → Except String Nat
  | 0, offset => return offset
  | count + 1, offset => do skipTimes skip count (← skip offset)

/-- The body of `skipCborItem`, with the function it calls itself through. -/
def skipCborItemBody (skip : Nat → Except String Nat) (bytes : Bytes) (offset : Nat) :
    Except String Nat := do
  ensure (offset < bytes.length) "invalid CBOR payload"
  let initialByte := bytes.getD offset 0
  let offset := offset + 1
  let majorType := (initialByte >>> 5).toNat
  let additionalInfo := (initialByte &&& 0x1f).toNat
  if majorType ≤ 1 then
    return (← readCborArgument bytes offset additionalInfo).nextOffset
  else if majorType = 2 ∨ majorType = 3 then
    let lengthInfo ← readCborArgument bytes offset additionalInfo
    let nextOffset := lengthInfo.nextOffset + lengthInfo.value
    ensure (nextOffset ≤ bytes.length) "CBOR byte/string length exceeds payload"
    return nextOffset
  else if majorType = 4 then
    let lengthInfo ← readCborArgument bytes offset additionalInfo
    skipTimes skip lengthInfo.value lengthInfo.nextOffset
  else if majorType = 5 then
    let lengthInfo ← readCborArgument bytes offset additionalInfo
    skipTimes (fun nextOffset => do skip (← skip nextOffset)) lengthInfo.value
      lengthInfo.nextOffset
  else if majorType = 6 then
    skip (← readCborArgument bytes offset additionalInfo).nextOffset
  else skipCborSimple bytes offset additionalInfo

/-- `skipCborItem` with its calls nested at most `depth` deep. -/
def skipCborItemWithin (bytes : Bytes) : Nat → Nat → Except String Nat
  | 0, _ => throw "Maximum call stack size exceeded"
  | depth + 1, offset => skipCborItemBody (skipCborItemWithin bytes depth) bytes offset

/-- Each nested call starts further on, so the calls never nest deeper than the payload is long. -/
def skipCborItem (bytes : Bytes) (offset : Nat) : Except String Nat :=
  skipCborItemWithin bytes (bytes.length + 1) offset

/-! ## Attested credential data -/

/-- What `cbor-x` gives for an item, as far as the SDK looks at it. -/
inductive CborValue where
  | number (value : Int)
  | bytes (value : Bytes)
  | map (get : Int → Option CborValue)
  | other

/-- `decode` of `cbor-x`. -/
abbrev DecodeCbor := Bytes → Except String CborValue

structure CoseKey where
  compressed : Bytes
  uncompressed : Bytes

def flagAttestedCredentialData : UInt8 := 0x40
def flagExtensionData : UInt8 := 0x80
def coseKeyKty : Int := 1
def coseKeyAlg : Int := 3
def coseKeyCrv : Int := -1
def coseKeyX : Int := -2
def coseKeyY : Int := -3
def coseKtyEc2 : Int := 2
def coseAlgEs256 : Int := -7
def coseCrvP256 : Int := 1

/-- `value === n`. -/
def isNumber (value : Option CborValue) (n : Int) : Bool :=
  match value with
  | some (.number m) => m = n
  | _ => false

def getCoseByteString (map : Int → Option CborValue) (key : Int) (label : String) :
    Except String Bytes :=
  match map key with
  | some (.bytes value) => return value
  | _ => throw ("credential public key " ++ label ++ " must be a byte string")

def decodeCoseP256PublicKey (decodeCbor : DecodeCbor) (cosePublicKey : Bytes) :
    Except String CoseKey := do
  let decoded ← decodeCbor cosePublicKey
  match decoded with
  | .map get =>
    ensure (isNumber (get coseKeyKty) coseKtyEc2) "credential public key must use COSE EC2 key type"
    ensure (isNumber (get coseKeyAlg) coseAlgEs256)
      "credential public key must use ES256 algorithm"
    ensure (isNumber (get coseKeyCrv) coseCrvP256) "credential public key must use P-256 curve"
    let x ← expectLength (← getCoseByteString get coseKeyX "x coordinate") 32 "x coordinate"
    let y ← expectLength (← getCoseByteString get coseKeyY "y coordinate") 32 "y coordinate"
    let keyPrefix : UInt8 := if y.getD 31 0 &&& 1 = 0 then 0x02 else 0x03
    return { compressed := keyPrefix :: x, uncompressed := x ++ y }
  | _ => throw "credential public key COSE payload must be a CBOR map"

structure ParsedAttestedCredentialData where
  rpIdHash : Bytes
  flags : UInt8
  signCount : Nat
  aaguid : Bytes
  credentialId : Bytes
  publicKey : Bytes
  publicKeyUncompressed : Bytes

def parseAttestedCredentialData (decodeCbor : DecodeCbor) (authData : Bytes) :
    Except String ParsedAttestedCredentialData := do
  ensure (37 ≤ authData.length) "registration authData is too short"
  let rpIdHash := authData.extract 0 32
  let flags := authData.getD 32 0
  let signCount := beNat (authData.extract 33 37)
  ensure (flags &&& flagAttestedCredentialData ≠ 0)
    "registration authData is missing attested credential data"
  ensure (37 + 18 ≤ authData.length)
    "registration authData is truncated before credential metadata"
  let aaguid := authData.extract 37 53
  let credentialIdLength := (authData.getD 53 0).toNat <<< 8 ||| (authData.getD 54 0).toNat
  ensure (55 + credentialIdLength ≤ authData.length)
    "registration authData credential id exceeds payload length"
  let credentialId := authData.extract 55 (55 + credentialIdLength)
  let offset := 55 + credentialIdLength
  let cosePublicKeyEnd ← skipCborItem authData offset
  ensure (cosePublicKeyEnd ≤ authData.length)
    "registration authData public key exceeds payload length"
  ensure (flags &&& flagExtensionData = 0 → cosePublicKeyEnd = authData.length)
    "registration authData has unexpected trailing bytes after credential public key"
  let cosePublicKey := authData.extract offset cosePublicKeyEnd
  let key ← decodeCoseP256PublicKey decodeCbor cosePublicKey
  return { rpIdHash, flags, signCount, aaguid, credentialId, publicKey := key.compressed,
           publicKeyUncompressed := key.uncompressed }

end ExternalSignature.Sdk
