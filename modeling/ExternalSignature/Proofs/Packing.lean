import ExternalSignature.Proofs.BrowserData

/-!
# Packed client data

A client packs the parts of the client data that vary into a byte and a port: the Rust SDK with the
constructor of the program, the TypeScript SDK with its own. The program reads the parts back, and
both render the same text, whatever the byte is (`packing_agrees`).
-/

namespace ExternalSignature

open Lib

def AuthType.toSdk : AuthType → Sdk.AuthType
  | .create => .create
  | .get => .get

namespace ClientDataJsonReconstructionParams

/-- The parameters as the TypeScript SDK holds them. -/
def toSdk (params : ClientDataJsonReconstructionParams) : Sdk.ClientDataJsonReconstructionParams :=
  ⟨params.typeAndFlags, params.port.map fun port => (port.toNat : Int)⟩

variable (authType : AuthType) (crossOrigin hasCrossOrigin isHttp hasGoogleExtra : Bool)
  (port : Option UInt16)

/-- The constructor sets the bits that the SDK sets. -/
theorem typeAndFlags_newWithOptionalCrossOrigin (sdkPort : Option Int) :
    (newWithOptionalCrossOrigin authType crossOrigin hasCrossOrigin isHttp hasGoogleExtra
        port).typeAndFlags =
      (Sdk.createClientDataJsonReconstructionParams ⟨authType.toSdk, crossOrigin,
        some hasCrossOrigin, isHttp, hasGoogleExtra, sdkPort⟩).typeAndFlags := by
  -- Neither byte depends on the port.
  change (newWithOptionalCrossOrigin authType crossOrigin hasCrossOrigin isHttp hasGoogleExtra
      none).typeAndFlags =
    (Sdk.createClientDataJsonReconstructionParams ⟨authType.toSdk, crossOrigin,
      some hasCrossOrigin, isHttp, hasGoogleExtra, none⟩).typeAndFlags
  cases authType <;> cases crossOrigin <;> cases hasCrossOrigin <;> cases isHttp <;>
    cases hasGoogleExtra <;> decide

theorem toSdk_newWithOptionalCrossOrigin :
    (newWithOptionalCrossOrigin authType crossOrigin hasCrossOrigin isHttp hasGoogleExtra
        port).toSdk =
      Sdk.createClientDataJsonReconstructionParams ⟨authType.toSdk, crossOrigin, some hasCrossOrigin,
        isHttp, hasGoogleExtra, port.map fun port => (port.toNat : Int)⟩ := by
  unfold toSdk
  rw [typeAndFlags_newWithOptionalCrossOrigin]
  rfl

/-- What the program reads of packed parameters. -/
structure ReadsBack (params : ClientDataJsonReconstructionParams) : Prop where
  authType : params.authType = authType
  crossOrigin : params.isCrossOrigin = crossOrigin
  omits : params.omitsCrossOrigin = !hasCrossOrigin
  isHttp : params.isHttp = isHttp
  hasGoogleExtra : params.hasGoogleExtra = hasGoogleExtra
  port : params.port = port

theorem readsBack : ReadsBack authType crossOrigin hasCrossOrigin isHttp hasGoogleExtra port
    (newWithOptionalCrossOrigin authType crossOrigin hasCrossOrigin isHttp hasGoogleExtra port) := by
  have h : ReadsBack authType crossOrigin hasCrossOrigin isHttp hasGoogleExtra none
      (newWithOptionalCrossOrigin authType crossOrigin hasCrossOrigin isHttp hasGoogleExtra
        none) := by
    cases authType <;> cases crossOrigin <;> cases hasCrossOrigin <;> cases isHttp <;>
      cases hasGoogleExtra <;>
      exact ⟨rfl, by decide, by decide, by decide, by decide, rfl⟩
  exact ⟨h.authType, h.crossOrigin, h.omits, h.isHttp, h.hasGoogleExtra, rfl⟩

end ClientDataJsonReconstructionParams

/-- Both packings are one and are read back, and both renderings of all parameters are one, of a
relying party that is UTF-8. -/
theorem packing_agrees :
    (∀ authType crossOrigin hasCrossOrigin isHttp hasGoogleExtra port,
      let params := ClientDataJsonReconstructionParams.newWithOptionalCrossOrigin authType
        crossOrigin hasCrossOrigin isHttp hasGoogleExtra port
      params.ReadsBack authType crossOrigin hasCrossOrigin isHttp hasGoogleExtra port ∧
        params.toSdk = Sdk.createClientDataJsonReconstructionParams ⟨authType.toSdk, crossOrigin,
          some hasCrossOrigin, isHttp, hasGoogleExtra, params.toSdk.port⟩) ∧
    ∀ (params : ClientDataJsonReconstructionParams) (rpId challenge json : Bytes),
      reconstructClientDataJson params rpId challenge = .ok json ↔
        isUtf8 rpId ∧ json = Sdk.reconstructClientDataJson params.toSdk rpId challenge := by
  constructor
  · intro authType crossOrigin hasCrossOrigin isHttp hasGoogleExtra port params
    exact ⟨ClientDataJsonReconstructionParams.readsBack authType crossOrigin hasCrossOrigin isHttp
        hasGoogleExtra port,
      ClientDataJsonReconstructionParams.toSdk_newWithOptionalCrossOrigin authType crossOrigin
        hasCrossOrigin isHttp hasGoogleExtra port⟩
  · intro params rpId challenge json
    rw [@Sdk.reconstructClientDataJson_eq_spell params.toSdk params ⟨rfl, rfl⟩]
    exact reconstructClientDataJson_eq_ok

end ExternalSignature
