import ExternalSignature.Lib.Base64Url
import ExternalSignature.Lib.Json
import ExternalSignature.Sdk.Serialize

/-!
# Client data in the TypeScript SDK

`parseClientDataJsonReconstructionParams` packs what the program needs of a browser's client data
into a byte of flags and a port, and `reconstructClientDataJson` is the SDK's own rendering of it.
`JSON.parse` and the URL parser are parameters (`Platform`). Strings are their UTF-8 bytes.
-/

namespace ExternalSignature.Sdk

open Lib

/-! ## The platform -/

structure Url where
  protocol : Bytes
  hostname : Bytes
  port : Bytes

/-- What the SDK calls of its platform; an exception is its text. -/
structure Platform where
  /-- `JSON.parse(new TextDecoder().decode(bytes))`. -/
  parseJson : Bytes → Except String Json
  /-- `new URL(value)`, where an undefined value is `none`. -/
  url : Option Json → Except String Url

/-- An exception in the body of the `try`: one of the SDK, or any other. -/
inductive Thrown where
  | sdk (message : String)
  | other (error : String)

def Thrown.message : Thrown → String
  | sdk message => "invalid clientDataJSON reconstruction parameters: " ++ message
  | other error => "failed to parse clientDataJSON: " ++ error

/-- `json[key]`. -/
def property (json : Json) (key : String) : Except Thrown (Option Json) :=
  match json with
  | .null => .error
    (.other ("TypeError: Cannot read properties of null (reading '" ++ key ++ "')"))
  | .object members => .ok (members.lookup (ascii key))
  | _ => .ok none

/-- `value === s` for a string. -/
def isString (value : Option Json) (s : Bytes) : Bool :=
  match value with
  | some (.string t) => t = s
  | _ => false

/-- `value == null`. -/
def isNullish : Option Json → Bool
  | none | some .null => true
  | _ => false

/-- `typeof value === "boolean"`. -/
def isBoolean : Option Json → Bool
  | some (.bool _) => true
  | _ => false

/-- `Number(s)`, of the digits that the port of a URL consists of. -/
def numberOfDigits (s : Bytes) : Option Nat :=
  if s.all fun c => 48 ≤ c && c ≤ 57 then some (s.foldl (fun n c => 10 * n + (c.toNat - 48)) 0)
  else none

/-! ## Packing -/

inductive AuthType where
  | create
  | get
  deriving DecidableEq

def typeCreate : UInt8 := 0x00
def typeGet : UInt8 := 0x10
def flagCrossOrigin : UInt8 := 0x01
def flagHttpOrigin : UInt8 := 0x02
def flagGoogleExtra : UInt8 := 0x04
def flagOmitCrossOrigin : UInt8 := 0x08

def googleClientDataJsonExtraValue : Bytes :=
  ascii "do not compare clientDataJSON against a template. See https://goo.gl/yabPex"

structure CreateClientDataJsonReconstructionParamsInput where
  authType : AuthType
  crossOrigin : Bool
  includeCrossOrigin : Option Bool
  isHttp : Bool
  hasGoogleExtra : Bool
  port : Option Int

def createClientDataJsonReconstructionParams
    (input : CreateClientDataJsonReconstructionParamsInput) :
    ClientDataJsonReconstructionParams where
  typeAndFlags :=
    (if input.authType = .get then typeGet else typeCreate) |||
    (if input.crossOrigin then flagCrossOrigin else 0) |||
    (if input.isHttp then flagHttpOrigin else 0) |||
    (if input.hasGoogleExtra then flagGoogleExtra else 0) |||
    (if input.includeCrossOrigin = some false then flagOmitCrossOrigin else 0)
  port := input.port

def getAuthType (params : ClientDataJsonReconstructionParams) : AuthType :=
  if params.typeAndFlags &&& 0xf0 = typeGet then .get else .create

/-! ## Parsing -/

/-- The body of the `try`. -/
def readClientDataJson (platform : Platform) (clientDataJson : Bytes) :
    Except Thrown ClientDataJsonReconstructionParams := do
  let json ← (platform.parseJson clientDataJson).mapError .other
  let type ← property json "type"
  ensure (isString type (ascii "webauthn.create") ∨ isString type (ascii "webauthn.get"))
    (.sdk "clientDataJSON type must be either 'webauthn.create' or 'webauthn.get'")
  let crossOrigin ← property json "crossOrigin"
  ensure (isNullish crossOrigin ∨ isBoolean crossOrigin)
    (.sdk "clientDataJSON crossOrigin must be a boolean when present")
  let otherKeys ← property json "other_keys_can_be_added_here"
  ensure (isNullish otherKeys ∨ isString otherKeys googleClientDataJsonExtraValue)
    (.sdk "clientDataJSON other_keys_can_be_added_here must match the canonical Google value")
  let url ← (platform.url (← property json "origin")).mapError .other
  ensure (url.protocol = ascii "http:" ∨ url.protocol = ascii "https:")
    (.sdk "origin must use http or https")
  ensure (0 < url.hostname.length) (.sdk "origin must include a hostname")
  let port ← (if url.port ≠ [] then do
      let parsedPort ← okOr (.sdk "origin port must be an integer") (numberOfDigits url.port)
      ensure (1 ≤ parsedPort ∧ parsedPort ≤ 65535) (.sdk "origin port must be in range 1..65535")
      return some (parsedPort : Int)
    else return none : Except Thrown (Option Int))
  return createClientDataJsonReconstructionParams {
    authType := if isString type (ascii "webauthn.create") then .create else .get
    crossOrigin := match crossOrigin with
      | some (.bool b) => b
      | _ => false
    includeCrossOrigin := crossOrigin.isSome
    isHttp := url.protocol = ascii "http:"
    hasGoogleExtra := match otherKeys with
      | some (.string _) => true
      | _ => false
    port }

def parseClientDataJsonReconstructionParams (platform : Platform) (clientDataJson : Bytes) :
    Except String ClientDataJsonReconstructionParams :=
  (readClientDataJson platform clientDataJson).mapError Thrown.message

/-! ## Reconstruction -/

def reconstructClientDataJson (params : ClientDataJsonReconstructionParams)
    (rpId challenge : Bytes) : Bytes :=
  let challengeBase64Url := Base64Url.encode challenge
  let protocol :=
    if params.typeAndFlags &&& flagHttpOrigin ≠ 0 then ascii "http://" else ascii "https://"
  let type := if getAuthType params = .get then ascii "webauthn.get" else ascii "webauthn.create"
  let origin := match params.port with
    | none => protocol ++ rpId
    | some port => protocol ++ rpId ++ ascii ":" ++ ascii (toString port)
  let crossOrigin :=
    if params.typeAndFlags &&& flagCrossOrigin ≠ 0 then ascii "true" else ascii "false"
  let includeCrossOrigin := params.typeAndFlags &&& flagOmitCrossOrigin = 0
  let base := [ascii "\x7b\"type\":\"", type, ascii "\",\"challenge\":\"", challengeBase64Url,
    ascii "\",\"origin\":\"", origin, ascii "\""] ++
    (if includeCrossOrigin then [ascii ",\"crossOrigin\":", crossOrigin] else [])
  let googleExtra :=
    if params.typeAndFlags &&& flagGoogleExtra ≠ 0 then
      [ascii ",\"other_keys_can_be_added_here\":\"" ++ googleClientDataJsonExtraValue ++ ascii "\""]
    else []
  concatBytes [base.flatten, googleExtra.flatten, ascii "\x7d"]

end ExternalSignature.Sdk
