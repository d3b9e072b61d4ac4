import ExternalSignature.Errors
import ExternalSignature.Lib.Base64Url
import ExternalSignature.Lib.Borsh

/-!
# WebAuthn

The authenticator data that a passkey signs, and the client data JSON, which the program rebuilds
from the relying party, the challenge and a few flags. The JSON determines the challenge whatever
the other parameters are (`reconstructClientDataJson_challenge_inj`).
-/

namespace ExternalSignature

open Lib Lib.Borsh

/-! ## Authenticator data -/

/-- `&data[lo..hi]`. -/
def slice (data : Bytes) (lo hi : Nat) : Outcome Bytes :=
  if hi ≤ data.length then .ok ((data.take hi).drop lo) else .error .panic

structure AuthDataParser where
  authData : Bytes

namespace AuthDataParser

def rpIdHash (parser : AuthDataParser) : Outcome Bytes := slice parser.authData 0 32

def isUserPresent (parser : AuthDataParser) : Outcome Bool := do
  let flags ← okOr .panic parser.authData[32]?
  return flags &&& 0x01 != 0

def getCounter (parser : AuthDataParser) : Outcome UInt32 := do
  return .ofNat (beNat (← slice parser.authData 33 37))

end AuthDataParser

/-! ## Client data -/

structure ClientDataJsonReconstructionParams where
  typeAndFlags : UInt8
  port : Option UInt16
  deriving DecidableEq

inductive AuthType where
  | create
  | get

namespace ClientDataJsonReconstructionParams

def fields : ClientDataJsonReconstructionParams ≃ UInt8 × Option UInt16 where
  toFun p := (p.typeAndFlags, p.port)
  invFun p := ⟨p.1, p.2⟩
  left_inv _ := rfl
  right_inv _ := rfl

instance : BorshSerialize ClientDataJsonReconstructionParams := serializeAs fields
instance : BorshDeserialize ClientDataJsonReconstructionParams := deserializeAs fields
instance : LawfulBorsh ClientDataJsonReconstructionParams := lawfulAs fields

def typeCreate : UInt8 := 0x00
def typeGet : UInt8 := 0x10
def flagCrossOrigin : UInt8 := 0x01
def flagHttpOrigin : UInt8 := 0x02
def flagGoogleExtra : UInt8 := 0x04
def flagOmitCrossOrigin : UInt8 := 0x08

def newWithOptionalCrossOrigin (authType : AuthType)
    (crossOrigin hasCrossOrigin isHttp hasGoogleExtra : Bool) (port : Option UInt16) :
    ClientDataJsonReconstructionParams :=
  let value := match authType with
    | .create => typeCreate
    | .get => typeGet
  let value := if crossOrigin then value ||| flagCrossOrigin else value
  let value := if isHttp then value ||| flagHttpOrigin else value
  let value := if hasGoogleExtra then value ||| flagGoogleExtra else value
  let value := if !hasCrossOrigin then value ||| flagOmitCrossOrigin else value
  { typeAndFlags := value, port }

def new (authType : AuthType) (crossOrigin isHttp hasGoogleExtra : Bool) (port : Option UInt16) :
    ClientDataJsonReconstructionParams :=
  newWithOptionalCrossOrigin authType crossOrigin true isHttp hasGoogleExtra port

variable (params : ClientDataJsonReconstructionParams)

def authType : AuthType := if params.typeAndFlags &&& 0xf0 = typeGet then .get else .create
def isCrossOrigin : Bool := params.typeAndFlags &&& flagCrossOrigin != 0
def isHttp : Bool := params.typeAndFlags &&& flagHttpOrigin != 0
def hasGoogleExtra : Bool := params.typeAndFlags &&& flagGoogleExtra != 0
def omitsCrossOrigin : Bool := params.typeAndFlags &&& flagOmitCrossOrigin != 0

end ClientDataJsonReconstructionParams

/-- A byte `10xxxxxx`. -/
def isContinuation (b : UInt8) : Bool := 0x80 ≤ b && b ≤ 0xbf

/-- `str::from_utf8(bs).is_ok()`: no overlong form, no surrogate, nothing above U+10FFFF. -/
def isUtf8 : Bytes → Bool
  | [] => true
  | a :: rest =>
    if a < 0x80 then isUtf8 rest
    else match rest with
      | [] => false
      | b :: rest =>
        if 0xc2 ≤ a && a ≤ 0xdf then isContinuation b && isUtf8 rest
        else match rest with
          | [] => false
          | c :: rest =>
            if 0xe0 ≤ a && a ≤ 0xef then
              (if a = 0xe0 then 0xa0 ≤ b && b ≤ 0xbf
                else if a = 0xed then 0x80 ≤ b && b ≤ 0x9f
                else isContinuation b) && isContinuation c && isUtf8 rest
            else match rest with
              | [] => false
              | d :: rest =>
                (if a = 0xf0 then 0x90 ≤ b && b ≤ 0xbf
                  else if a = 0xf4 then 0x80 ≤ b && b ≤ 0x8f
                  else 0xf1 ≤ a && a ≤ 0xf3 && isContinuation b) &&
                isContinuation c && isContinuation d && isUtf8 rest

theorem isUtf8_of_ascii {bs : Bytes} (h : ∀ c ∈ bs, c < 0x80) : isUtf8 bs := by
  induction bs with
  | nil => rfl
  | cons c bs ih =>
    rw [isUtf8.eq_def]
    exact (if_pos (h c List.mem_cons_self)).trans (ih fun d hd => h d (List.mem_cons_of_mem c hd))

def AuthType.str : AuthType → Bytes
  | .create => ascii "webauthn.create"
  | .get => ascii "webauthn.get"

def reconstructClientDataJson (params : ClientDataJsonReconstructionParams) (rpId challenge : Bytes) :
    Outcome Bytes := do
  -- `from_utf8(rp_id).unwrap()`
  ensure (isUtf8 rpId) .panic
  let scheme := if params.isHttp then ascii "http://" else ascii "https://"
  let origin := match params.port with
    | some port => scheme ++ rpId ++ ascii ":" ++ ascii (Nat.repr port.toNat)
    | none => scheme ++ rpId
  let crossOrigin :=
    if params.omitsCrossOrigin then []
    else ascii ",\"crossOrigin\":" ++
      (if params.isCrossOrigin then ascii "true" else ascii "false")
  let googleExtra :=
    if params.hasGoogleExtra then
      ascii (",\"other_keys_can_be_added_here\":\"do not compare clientDataJSON against a " ++
        "template. See https://goo.gl/yabPex\"")
    else []
  return ascii "\x7b\"type\":\"" ++ params.authType.str ++ ascii "\",\"challenge\":\"" ++
    (Base64Url.encode challenge ++ (ascii "\",\"origin\":\"" ++ origin ++ ascii "\"" ++
      crossOrigin ++ googleExtra ++ ascii "\x7d"))

/-- The challenge stands after one of two fixed heads. -/
theorem reconstructClientDataJson_ok {params : ClientDataJsonReconstructionParams}
    {rpId challenge json : Bytes} (h : reconstructClientDataJson params rpId challenge = .ok json) :
    isUtf8 rpId ∧ ∃ rest, json = ascii "\x7b\"type\":\"" ++ params.authType.str ++
      ascii "\",\"challenge\":\"" ++ (Base64Url.encode challenge ++ rest) := by
  obtain ⟨_, hu, h⟩ := bind_eq_ok.mp h
  exact ⟨ensure_eq_ok.mp hu, _, (pure_eq_ok.mp h).symm⟩

theorem reconstructClientDataJson_challenge_inj {p q : ClientDataJsonReconstructionParams}
    {r s c d json : Bytes} (hl : c.length = d.length)
    (hc : reconstructClientDataJson p r c = .ok json)
    (hd : reconstructClientDataJson q s d = .ok json) : c = d := by
  obtain ⟨-, x, rfl⟩ := reconstructClientDataJson_ok hc
  obtain ⟨-, y, h⟩ := reconstructClientDataJson_ok hd
  suffices he : Base64Url.encode c ++ x = Base64Url.encode d ++ y from
    Base64Url.encode_inj hl (List.append_inj he (Base64Url.length_encode_eq hl)).1
  -- the heads of the two types differ in their first 20 bytes
  have head : ∀ (t : AuthType) (rest : Bytes),
      (ascii "\x7b\"type\":\"" ++ t.str ++ ascii "\",\"challenge\":\"" ++ rest).take 20 =
        (ascii "\x7b\"type\":\"" ++ t.str).take 20 := by
    intro t rest
    rw [List.append_assoc _ _ rest, List.take_append_of_le_length]
    cases t <;> decide
  have h20 := congrArg (List.take 20) h
  rw [head, head] at h20
  cases hp : p.authType <;> cases hq : q.authType <;> rw [hp, hq] at h h20
  · exact List.append_cancel_left h
  · exact absurd h20 (by decide)
  · exact absurd h20 (by decide)
  · exact List.append_cancel_left h

example : reconstructClientDataJson ⟨0x12, some 3000⟩ (ascii "localhost") (ascii "hello_world") =
    .ok (ascii ("\x7b\"type\":\"webauthn.get\",\"challenge\":\"aGVsbG9fd29ybGQ\",\"origin\":" ++
      "\"http://localhost:3000\",\"crossOrigin\":false\x7d")) := by
  decide +kernel

end ExternalSignature
