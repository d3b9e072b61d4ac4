import ExternalSignature.Proofs.ClientData
import ExternalSignature.Proofs.Wire
import ExternalSignature.Sdk.ClientData

/-!
# Client data of a browser

A browser serializes the client data, the TypeScript SDK packs it into a byte of flags and a port,
and the SDK and the program each render it again. `BrowserClientData` is what the browser
serializes, `Platform.Reads` what the SDK's platform makes of that text. The two renderings are one
(`reconstructClientDataJson_eq_spell`), the flags read back what was packed (`packed_*`), and so the
text survives (`client_data_round_trip`).
-/

namespace ExternalSignature

open Lib

namespace Sdk

/-! ## Numbers -/

theorem numberOfDigits_repr (n : Nat) : numberOfDigits (ascii (Nat.repr n)) = some n := by
  have hall : ((ascii (Nat.repr n)).all fun c => 48 ≤ c && c ≤ 57) = true := by
    rw [List.all_eq_true]
    intro c hc
    rw [Bool.and_eq_true, decide_eq_true_eq, decide_eq_true_eq]
    exact mem_ascii_repr hc
  have hdigit : ∀ c ∈ Nat.toDigits 10 n, c.toNat < 128 := by
    intro c hc
    have hd := Nat.isDigit_of_mem_toDigits (by decide) (by decide) hc
    simp only [Char.isDigit, Bool.and_eq_true, decide_eq_true_eq] at hd
    exact Nat.lt_of_le_of_lt (UInt32.le_iff_toNat_le.mp hd.2) (by decide)
  rw [numberOfDigits, if_pos hall, Nat.repr_eq_ofList_toDigits, ascii_ofList hdigit, List.foldl_map]
  have hfold : (Nat.toDigits 10 n).foldl
        (fun m c => 10 * m + ((UInt8.ofNat c.toNat).toNat - 48)) 0 =
      Nat.ofDigitChars 10 (Nat.toDigits 10 n) 0 := by
    rw [Nat.ofDigitChars_eq_foldl]
    refine List.foldl_ext _ _ 0 fun m c hc => ?_
    rw [UInt8.toNat_ofNat', Nat.mod_eq_of_lt (Nat.lt_trans (hdigit c hc) (by decide))]
    rfl
  rw [hfold, Nat.ofDigitChars_ten_toDigits]

/-! ## Two renderings -/

section

variable (flags : UInt8) (port : Option UInt16)

theorem type_eq_str : (if getAuthType ⟨flags, port.map fun port => (port.toNat : Int)⟩ = .get
      then ascii "webauthn.get" else ascii "webauthn.create") =
    (ExternalSignature.ClientDataJsonReconstructionParams.mk flags port).authType.str := by
  by_cases hget : flags &&& 0xf0 = typeGet
  · have hsdk : getAuthType ⟨flags, port.map fun port => (port.toNat : Int)⟩ = .get := if_pos hget
    have htype : (ExternalSignature.ClientDataJsonReconstructionParams.mk flags port).authType =
        .get := if_pos hget
    rw [hsdk, htype]
    rfl
  · have hsdk : getAuthType ⟨flags, port.map fun port => (port.toNat : Int)⟩ = .create :=
      if_neg hget
    have htype : (ExternalSignature.ClientDataJsonReconstructionParams.mk flags port).authType =
        .create := if_neg hget
    rw [hsdk, htype]
    rfl

theorem trailing_eq :
    (if flags &&& flagOmitCrossOrigin = 0 then [ascii ",\"crossOrigin\":",
        if flags &&& flagCrossOrigin ≠ 0 then ascii "true" else ascii "false"] else []).flatten ++
      ((if flags &&& flagGoogleExtra ≠ 0 then [ascii ",\"other_keys_can_be_added_here\":\"" ++
          googleClientDataJsonExtraValue ++ ascii "\""] else []).flatten ++ ascii "\x7d") =
      (ExternalSignature.ClientDataJsonReconstructionParams.mk flags port).trailing := by
  simp only [ExternalSignature.ClientDataJsonReconstructionParams.trailing,
    ExternalSignature.ClientDataJsonReconstructionParams.omitsCrossOrigin,
    ExternalSignature.ClientDataJsonReconstructionParams.isCrossOrigin,
    ExternalSignature.ClientDataJsonReconstructionParams.hasGoogleExtra, bne_iff_ne]
  congr 1
  · by_cases homit : flags &&& flagOmitCrossOrigin = 0
    · rw [if_pos homit, List.flatten_cons, List.flatten_singleton]
      exact (if_neg (not_not.mpr homit)).symm
    · rw [if_neg homit]
      exact (if_pos homit).symm
  · congr 1
    by_cases hextra : flags &&& flagGoogleExtra ≠ 0
    · rw [if_pos hextra, List.flatten_singleton]
      exact .trans (by decide) (if_pos hextra).symm
    · rw [if_neg hextra]
      exact (if_neg hextra).symm

end

/-- The SDK renders parameters as the program does. -/
theorem reconstructClientDataJson_eq_spell {input : ClientDataJsonReconstructionParams}
    {params : ExternalSignature.ClientDataJsonReconstructionParams} (h : input.Matches params)
    (rpId challenge : Bytes) :
    reconstructClientDataJson input rpId challenge =
      (params.leading rpId challenge).spell params.trailing := by
  obtain ⟨flags, port⟩ := params
  obtain ⟨_, _⟩ := input
  obtain ⟨rfl, rfl⟩ := h
  have hchallenge : ascii "\",\"challenge\":\"" = 0x22 :: ascii ",\"challenge\":\"" := by decide
  have horigin : ascii "\",\"origin\":\"" = 0x22 :: ascii ",\"origin\":\"" := by decide
  have hquote : ascii "\"" = [0x22] := by decide
  have hport (port : UInt16) : toString (port.toNat : Int) = Nat.repr port.toNat := rfl
  have hhttp : ExternalSignature.ClientDataJsonReconstructionParams.flagHttpOrigin =
    flagHttpOrigin := rfl
  simp only [reconstructClientDataJson, type_eq_str]
  cases port <;>
    simp only [concatBytes, Fields.spell, ExternalSignature.ClientDataJsonReconstructionParams.leading,
      ExternalSignature.ClientDataJsonReconstructionParams.origin, hhttp, hport,
      ExternalSignature.ClientDataJsonReconstructionParams.isHttp, bne_iff_ne, ← trailing_eq,
      hchallenge, horigin, hquote, Option.map, List.flatten_cons, List.flatten_nil,
      List.append_assoc, List.cons_append, List.nil_append, List.append_nil]

/-! ## Flags -/

/-- The byte of flags. -/
def flagByte (get crossOrigin isHttp googleExtra omitted : Bool) : UInt8 :=
  (if get then typeGet else typeCreate) ||| (if crossOrigin then flagCrossOrigin else 0) |||
  (if isHttp then flagHttpOrigin else 0) ||| (if googleExtra then flagGoogleExtra else 0) |||
  (if omitted then flagOmitCrossOrigin else 0)

theorem typeBits : ∀ t c h g o, flagByte t c h g o &&& 0xf0 = typeGet ↔ t = true := by decide

theorem crossOriginBit : ∀ t c h g o, (flagByte t c h g o &&& flagCrossOrigin != 0) = c := by decide

theorem httpBit : ∀ t c h g o, (flagByte t c h g o &&& flagHttpOrigin != 0) = h := by decide

theorem extraBit : ∀ t c h g o, (flagByte t c h g o &&& flagGoogleExtra != 0) = g := by decide

theorem omitBit : ∀ t c h g o, (flagByte t c h g o &&& flagOmitCrossOrigin != 0) = o := by decide

/-! ## The browser -/

/-- What a browser writes as client data. -/
structure BrowserClientData where
  authType : AuthType
  challenge : Bytes
  isHttp : Bool
  rpId : Bytes
  port : Option UInt16
  crossOrigin : Option Bool
  googleExtra : Bool

namespace BrowserClientData

variable (b : BrowserClientData)

def typeText : Bytes :=
  match b.authType with
  | .create => ascii "webauthn.create"
  | .get => ascii "webauthn.get"

def scheme : Bytes := if b.isHttp then ascii "http" else ascii "https"

/-- `scheme://rpId[:port]`. -/
def origin : Bytes :=
  b.scheme ++ ascii "://" ++ b.rpId ++
    match b.port with
    | some port => ascii ":" ++ ascii (Nat.repr port.toNat)
    | none => []

def members : Json.Members :=
  [(ascii "type", .string b.typeText),
    (ascii "challenge", .string (Base64Url.encode b.challenge)),
    (ascii "origin", .string b.origin)] ++
  (match b.crossOrigin with
    | some crossOrigin => [(ascii "crossOrigin", .bool crossOrigin)]
    | none => []) ++
  (if b.googleExtra then
    [(ascii "other_keys_can_be_added_here", .string googleClientDataJsonExtraValue)] else [])

/-- The serialization. -/
def json : Bytes := b.members.text

/-- What there is to pack. -/
def input : CreateClientDataJsonReconstructionParamsInput where
  authType := b.authType
  crossOrigin := b.crossOrigin.getD false
  includeCrossOrigin := b.crossOrigin.isSome
  isHttp := b.isHttp
  hasGoogleExtra := b.googleExtra
  port := b.port.map fun port => (port.toNat : Int)

/-- The packed parameters as the program reads them. -/
def packed : ExternalSignature.ClientDataJsonReconstructionParams :=
  ⟨(createClientDataJsonReconstructionParams b.input).typeAndFlags, b.port⟩

theorem packed_flags : b.packed.typeAndFlags = flagByte (b.authType = .get)
    (b.crossOrigin.getD false) b.isHttp b.googleExtra b.crossOrigin.isNone := by
  have homit : (b.input.includeCrossOrigin = some false) ↔ b.crossOrigin.isNone = true := by
    rw [input, Option.some_inj, Option.isSome_eq_false_iff]
  show (if b.authType = .get then typeGet else typeCreate) ||| _ ||| _ ||| _ ||| _ = _
  simp only [flagByte, decide_eq_true_eq, ← homit]
  rfl

theorem matches_packed : (createClientDataJsonReconstructionParams b.input).Matches b.packed :=
  ⟨rfl, rfl⟩

/-! ### Flags -/

theorem packed_str : b.packed.authType.str = b.typeText := by
  have htype : b.packed.typeAndFlags &&& 0xf0 = typeGet ↔ b.authType = .get := by
    rw [packed_flags, typeBits, decide_eq_true_eq]
  unfold typeText
  cases ht : b.authType with
  | create =>
    have hcreate : b.packed.authType = .create := if_neg fun h => by
      cases ht.symm.trans (htype.mp h)
    rw [hcreate]
    rfl
  | get =>
    have hget : b.packed.authType = .get := if_pos (htype.mpr ht)
    rw [hget]
    rfl

theorem packed_isHttp : b.packed.isHttp = b.isHttp := by
  rw [ExternalSignature.ClientDataJsonReconstructionParams.isHttp, packed_flags]
  exact httpBit _ _ _ _ _

theorem packed_isCrossOrigin : b.packed.isCrossOrigin = b.crossOrigin.getD false := by
  rw [ExternalSignature.ClientDataJsonReconstructionParams.isCrossOrigin, packed_flags]
  exact crossOriginBit _ _ _ _ _

theorem packed_omitsCrossOrigin : b.packed.omitsCrossOrigin = b.crossOrigin.isNone := by
  rw [ExternalSignature.ClientDataJsonReconstructionParams.omitsCrossOrigin, packed_flags]
  exact omitBit _ _ _ _ _

theorem packed_hasGoogleExtra : b.packed.hasGoogleExtra = b.googleExtra := by
  rw [ExternalSignature.ClientDataJsonReconstructionParams.hasGoogleExtra, packed_flags]
  exact extraBit _ _ _ _ _

theorem packed_origin : b.packed.origin b.rpId = b.origin := by
  have hscheme : (if b.isHttp then ascii "http://" else ascii "https://") =
      b.scheme ++ ascii "://" := by
    unfold scheme
    cases b.isHttp <;> decide
  rw [ExternalSignature.ClientDataJsonReconstructionParams.origin, packed_isHttp, hscheme]
  rfl

/-- The serialization is the one that the packed parameters stand for. -/
theorem json_eq_spell : b.json = (b.packed.leading b.rpId b.challenge).spell b.packed.trailing := by
  rw [ExternalSignature.ClientDataJsonReconstructionParams.leading, packed_str, packed_origin,
    ExternalSignature.ClientDataJsonReconstructionParams.trailing, packed_omitsCrossOrigin,
    packed_isCrossOrigin, packed_hasGoogleExtra]
  have hhead : ascii "\x7b" ++ Json.Members.memberText (ascii "type", .string b.typeText) ++
        Json.Members.further (ascii "challenge", .string (Base64Url.encode b.challenge)) ++
        Json.Members.further (ascii "origin", .string b.origin) =
      (Fields.mk b.typeText (Base64Url.encode b.challenge) b.origin).spell [] := by
    simp only [Json.Members.memberText, Json.Members.further, Json.Scalar.text, Fields.spell,
      List.append_assoc]
    rfl
  have hcrossOrigin : (match b.crossOrigin with
        | some crossOrigin => [(ascii "crossOrigin", Json.Scalar.bool crossOrigin)]
        | none => []).flatMap Json.Members.further =
      if b.crossOrigin.isNone then [] else ascii ",\"crossOrigin\":" ++
        if b.crossOrigin.getD false then ascii "true" else ascii "false" := by
    rcases b.crossOrigin with _ | _ | _ <;> decide
  have hextra : (if b.googleExtra then [(ascii "other_keys_can_be_added_here",
          Json.Scalar.string googleClientDataJsonExtraValue)] else []).flatMap
          Json.Members.further =
      if b.googleExtra then ascii (",\"other_keys_can_be_added_here\":\"do not compare clientDataJSON against a " ++
        "template. See https://goo.gl/yabPex\"") else [] := by
    cases b.googleExtra <;> decide
  have hspell (rest : Bytes) : (Fields.mk b.typeText (Base64Url.encode b.challenge) b.origin).spell
      rest = (Fields.mk b.typeText (Base64Url.encode b.challenge) b.origin).spell [] ++ rest := by
    simp only [Fields.spell, List.append_assoc, List.cons_append, List.nil_append]
  rw [json, members, List.append_assoc, List.cons_append, Json.Members.text_cons, List.cons_append,
    List.cons_append, List.nil_append, List.flatMap_cons, List.flatMap_cons, List.flatMap_append,
    hcrossOrigin, hextra, hspell, ← hhead]
  simp only [List.append_assoc]

/-! ### Members -/

theorem property_type : property b.members.toJson "type" = .ok (some (.string b.typeText)) := rfl

theorem property_origin :
    property b.members.toJson "origin" = .ok (some (.string b.origin)) := rfl

theorem property_crossOrigin :
    property b.members.toJson "crossOrigin" = .ok (b.crossOrigin.map .bool) := by
  obtain ⟨t, challenge, h, rpId, port, x, g⟩ := b
  cases x <;> cases g <;> rfl

theorem property_otherKeys : property b.members.toJson "other_keys_can_be_added_here" =
    .ok (if b.googleExtra then some (.string googleClientDataJsonExtraValue) else none) := by
  obtain ⟨t, challenge, h, rpId, port, x, g⟩ := b
  cases x <;> cases g <;> rfl

end BrowserClientData

/-! ## The platform -/

/-- A host name: lower-case letters, digits, hyphens and dots. -/
structure Hostname (rpId : Bytes) : Prop where
  nonempty : rpId ≠ []
  chars : ∀ c ∈ rpId, (97 ≤ c ∧ c ≤ 122) ∨ (48 ≤ c ∧ c ≤ 57) ∨ c = 45 ∨ c = 46

theorem Hostname.isUtf8 {rpId : Bytes} (h : Hostname rpId) : isUtf8 rpId := by
  refine isUtf8_of_ascii fun c hc => ?_
  rcases h.chars c hc with ⟨-, hle⟩ | ⟨-, hle⟩ | rfl | rfl
  · exact UInt8.lt_of_le_of_lt hle (by decide)
  · exact UInt8.lt_of_le_of_lt hle (by decide)
  · decide
  · decide

/-- The port that a URL of the scheme leaves out. -/
def defaultPort (isHttp : Bool) : UInt16 := if isHttp then 80 else 443

/-- The port of a parsed origin: empty where it is the default of the scheme. -/
def BrowserClientData.urlPort (b : BrowserClientData) : Bytes :=
  match b.port with
  | none => []
  | some port => if port = defaultPort b.isHttp then [] else ascii (Nat.repr port.toNat)

/-- The platform parses the client data and its origin. -/
structure Platform.Reads (platform : Platform) (b : BrowserClientData) : Prop where
  json : platform.parseJson b.json = .ok b.members.toJson
  url : platform.url (some (.string b.origin)) = .ok ⟨b.scheme ++ ascii ":", b.rpId, b.urlPort⟩

variable {platform : Platform} {b : BrowserClientData}

theorem readPort (hport : ∀ port ∈ b.port, port ≠ 0 ∧ port ≠ defaultPort b.isHttp) :
    (if b.urlPort ≠ [] then do
      let parsedPort ← okOr (.sdk "origin port must be an integer") (numberOfDigits b.urlPort)
      ensure (1 ≤ parsedPort ∧ parsedPort ≤ 65535) (.sdk "origin port must be in range 1..65535")
      return some (parsedPort : Int)
    else return none : Except Thrown (Option Int)) =
      .ok (b.port.map fun port => (port.toNat : Int)) := by
  cases hb : b.port with
  | none =>
    have hurl : b.urlPort = [] := by rw [BrowserClientData.urlPort, hb]
    rw [hurl]
    rfl
  | some port =>
    obtain ⟨hzero, hdefault⟩ := hport port hb
    have hpos : port.toNat ≠ 0 := fun h => hzero (UInt16.toNat_inj.mp h)
    have hrange : 1 ≤ port.toNat ∧ port.toNat ≤ 65535 := by
      have hlt := port.toNat_lt
      omega
    have hurl : b.urlPort = ascii (Nat.repr port.toNat) := by
      rw [BrowserClientData.urlPort, hb]
      exact if_neg hdefault
    have hread := numberOfDigits_repr port.toNat
    have hrepr : ascii (Nat.repr port.toNat) ≠ [] := by
      intro hempty
      rw [hempty] at hread
      exact hpos (Option.some.inj hread).symm
    rw [hurl, if_pos hrepr, hread, okOr, ok_bind, ensure_pos hrange]
    rfl

/-- The SDK packs what the browser wrote. -/
theorem parseClientDataJsonReconstructionParams_eq (hreads : platform.Reads b)
    (hhost : Hostname b.rpId) (hport : ∀ port ∈ b.port, port ≠ 0 ∧ port ≠ defaultPort b.isHttp) :
    parseClientDataJsonReconstructionParams platform b.json =
      .ok (createClientDataJsonReconstructionParams b.input) := by
  have hcreate : isString (some (.string b.typeText)) (ascii "webauthn.create") =
      (b.authType = .create : Bool) := by
    unfold BrowserClientData.typeText
    cases b.authType <;> decide
  have hget : isString (some (.string b.typeText)) (ascii "webauthn.get") =
      (b.authType = .get : Bool) := by
    unfold BrowserClientData.typeText
    cases b.authType <;> decide
  have htype : (b.authType = .create : Bool) = true ∨ (b.authType = .get : Bool) = true := by
    cases b.authType <;> decide
  have hcrossOrigin : isNullish (b.crossOrigin.map .bool) = true ∨
      isBoolean (b.crossOrigin.map .bool) = true := by
    rcases b.crossOrigin with _ | _ <;> simp [isNullish, isBoolean]
  have hotherKeys : isNullish (if b.googleExtra then
        some (.string googleClientDataJsonExtraValue) else none) = true ∨
      isString (if b.googleExtra then some (.string googleClientDataJsonExtraValue) else none)
        googleClientDataJsonExtraValue = true := by
    cases b.googleExtra <;> decide
  have hprotocol : b.scheme ++ ascii ":" = ascii "http:" ∨ b.scheme ++ ascii ":" = ascii "https:" := by
    unfold BrowserClientData.scheme
    cases b.isHttp <;> decide
  have hhttp : (b.scheme ++ ascii ":" = ascii "http:" : Bool) = b.isHttp := by
    unfold BrowserClientData.scheme
    cases b.isHttp <;> decide
  rw [parseClientDataJsonReconstructionParams, readClientDataJson, hreads.json]
  simp only [Except.mapError, ok_bind, b.property_type, b.property_crossOrigin, b.property_otherKeys,
    b.property_origin, hreads.url, hcreate, hget]
  rw [ensure_pos htype, ok_bind, ensure_pos hcrossOrigin, ok_bind, ensure_pos hotherKeys, ok_bind,
    ensure_pos hprotocol, ok_bind, ensure_pos (List.length_pos_iff.mpr hhost.nonempty), ok_bind]
  rw [readPort hport, ok_bind]
  rw [hhttp]
  obtain ⟨t, challenge, h, rpId, port, x, g⟩ := b
  cases t <;> cases x <;> cases g <;> rfl

/-- Client data survives packing, in both renderings. -/
theorem client_data_round_trip (hreads : platform.Reads b) (hhost : Hostname b.rpId)
    (hport : ∀ port ∈ b.port, port ≠ 0 ∧ port ≠ defaultPort b.isHttp) :
    ∃ params onchain, parseClientDataJsonReconstructionParams platform b.json = .ok params ∧
      params.Matches onchain ∧ reconstructClientDataJson params b.rpId b.challenge = b.json ∧
      ExternalSignature.reconstructClientDataJson onchain b.rpId b.challenge = .ok b.json :=
  ⟨_, b.packed, parseClientDataJsonReconstructionParams_eq hreads hhost hport, b.matches_packed,
    (reconstructClientDataJson_eq_spell b.matches_packed _ _).trans b.json_eq_spell.symm,
    reconstructClientDataJson_eq_ok.mpr ⟨hhost.isUtf8, b.json_eq_spell⟩⟩

end Sdk

namespace Sample

/-- A client on `http://localhost:3000`. -/
def localhost : Sdk.BrowserClientData where
  authType := .get
  challenge := ascii "hello_world"
  isHttp := true
  rpId := ascii "localhost"
  port := some 3000
  crossOrigin := some false
  googleExtra := false

def localhostJson : Bytes :=
  ascii ("\x7b\"type\":\"webauthn.get\",\"challenge\":\"aGVsbG9fd29ybGQ\"," ++
    "\"origin\":\"http://localhost:3000\",\"crossOrigin\":false\x7d")

/-- A platform that knows one text and one origin. -/
def localhostPlatform : Sdk.Platform where
  parseJson bytes :=
    if bytes = localhostJson then .ok (.object [(ascii "type", .string (ascii "webauthn.get")),
      (ascii "challenge", .string (ascii "aGVsbG9fd29ybGQ")),
      (ascii "origin", .string (ascii "http://localhost:3000")), (ascii "crossOrigin", .bool false)])
    else .error "SyntaxError"
  url value := match value with
    | some (.string origin) =>
      if origin = ascii "http://localhost:3000" then
        .ok ⟨ascii "http:", ascii "localhost", ascii "3000"⟩
      else .error "TypeError: Invalid URL"
    | _ => .error "TypeError: Invalid URL"

theorem localhost_json : localhost.json = localhostJson := by decide +kernel

theorem localhost_origin : localhost.origin = ascii "http://localhost:3000" := by decide +kernel

theorem localhostPlatform_reads : localhostPlatform.Reads localhost where
  json := by
    rw [localhost_json]
    rfl
  url := by
    rw [localhost_origin]
    rfl

theorem localhost_hostname : Sdk.Hostname localhost.rpId where
  nonempty := by decide
  chars := by decide +kernel

theorem localhost_port : ∀ port ∈ localhost.port,
    port ≠ 0 ∧ port ≠ Sdk.defaultPort localhost.isHttp := by
  rintro _ ⟨⟩
  exact ⟨by decide, by decide⟩

end Sample

theorem Sdk.client_data_round_trip_localhost :
    ∃ params onchain,
      parseClientDataJsonReconstructionParams Sample.localhostPlatform Sample.localhost.json =
        .ok params ∧
      params.Matches onchain ∧
      reconstructClientDataJson params Sample.localhost.rpId Sample.localhost.challenge =
        Sample.localhost.json ∧
      ExternalSignature.reconstructClientDataJson onchain Sample.localhost.rpId
        Sample.localhost.challenge = .ok Sample.localhost.json :=
  client_data_round_trip Sample.localhostPlatform_reads Sample.localhost_hostname
    Sample.localhost_port

end ExternalSignature
