import ExternalSignature.Sdk.ClientData
import ExternalSignature.Sdk.WebAuthn

/-!
# Credentials in the TypeScript SDK

`parseRegistrationCredential` and `parseAuthenticationCredential` take the fields of a browser's
credential that the builders need. A registration names its public key twice, in the attested
credential data and, where the browser has the method, as a `SubjectPublicKeyInfo`.
-/

namespace ExternalSignature.Sdk

open Lib

/-- What the builders of the wrappers and of the precompile instruction need. -/
structure SignedWebAuthnData extends WebAuthnData where
  signature : Bytes

/-! ## Authentication -/

structure AuthenticatorAssertionResponse where
  signature : Bytes
  authenticatorData : Bytes
  clientDataJson : Bytes

def parseAuthenticationCredential (platform : Platform) (response : AuthenticatorAssertionResponse)
    (compressedPublicKey : Bytes) : Except String SignedWebAuthnData := do
  return {
    publicKey := ← expectLength compressedPublicKey 33 "compressed public key"
    signature := response.signature
    authData := response.authenticatorData
    clientDataJson := response.clientDataJson
    clientDataJsonReconstructionParams :=
      ← parseClientDataJsonReconstructionParams platform response.clientDataJson }

/-! ## Registration -/

/-- The properties of a decoded attestation object that the SDK reads, where they are there. -/
structure AttestationObject where
  authData : Option Bytes
  /-- `attStmt?.sig`. -/
  sig : Option Bytes

/-- `decode` of `cbor-x` on an attestation object, with the reads of its properties. -/
abbrev DecodeAttestationObject := Bytes → Except String AttestationObject

structure AuthenticatorAttestationResponse where
  attestationObject : Bytes
  clientDataJson : Bytes
  /-- `getPublicKey?.()`, where the browser has the method and knows the key. -/
  publicKey : Option Bytes

structure RegistrationWebAuthnData extends SignedWebAuthnData where
  publicKeyUncompressed : Bytes
  credentialId : Bytes

/-- The key that the browser exposes must be the one of the attested credential data. -/
def exposedPublicKey (attestedCredential : ParsedAttestedCredentialData) :
    Option Bytes → Except String SpkiKey
  | none => return ⟨attestedCredential.publicKey, attestedCredential.publicKeyUncompressed⟩
  | some publicKeySpki => do
    let spkiKey ← decodeSpkiP256PublicKey publicKeySpki
    ensure (spkiKey.compressed = attestedCredential.publicKey)
      "browser-exposed public key does not match attested credential data"
    ensure (spkiKey.uncompressed = attestedCredential.publicKeyUncompressed)
      "browser-exposed uncompressed public key does not match attested credential data"
    return spkiKey

def parseRegistrationCredential (platform : Platform) (decodeCbor : DecodeCbor)
    (decodeAttestationObject : DecodeAttestationObject)
    (response : AuthenticatorAttestationResponse) : Except String RegistrationWebAuthnData := do
  let decoded ← decodeAttestationObject response.attestationObject
  let authData := decoded.authData.getD []
  let signatureDer := decoded.sig.getD []
  ensure (0 < signatureDer.length) "registration attestation is missing attStmt.sig DER signature"
  let attestedCredential ← parseAttestedCredentialData decodeCbor authData
  let key ← exposedPublicKey attestedCredential response.publicKey
  return {
    credentialId := attestedCredential.credentialId
    publicKey := key.compressed
    publicKeyUncompressed := key.uncompressed
    signature := signatureDer
    authData
    clientDataJson := response.clientDataJson
    clientDataJsonReconstructionParams :=
      ← parseClientDataJsonReconstructionParams platform response.clientDataJson }

end ExternalSignature.Sdk
