import ExternalSignature.Sdk.Serialize
import Mathlib.Data.List.Forall2
import Mathlib.Data.Option.Basic

/-!
# The wire format

The three codecs of the arguments agree. `Matches` says that an input of the TypeScript
serializers and a value of the program have the same fields. What a serializer writes is the
borsh encoding of a value that matches its input (`Writes`), so the program reads that value back
and nothing is left over (`Decodes`). The program's own encoding is a bijection onto the strings
it accepts (`RoundTrips`, `Canonical`), and a `SmallVec` can always be written (`AlwaysWritten`).
-/

namespace ExternalSignature

open Lib Lib.Borsh

/-! ## The fields of an input -/

namespace Sdk

def ClientDataJsonReconstructionParams.Matches (input : ClientDataJsonReconstructionParams)
    (params : ExternalSignature.ClientDataJsonReconstructionParams) : Prop :=
  params.typeAndFlags = input.typeAndFlags ∧
    params.port.map (fun port => (port.toNat : Int)) = input.port

def SessionKey.Matches (input : SessionKey) (sessionKey : ExternalSignature.SessionKey) : Prop :=
  sessionKey.key.val = input.key ∧ (sessionKey.expiration.toNat : Int) = input.expiration.value

def CompiledInstructionWire.Matches (input : CompiledInstructionWire)
    (instruction : CompiledInstruction) : Prop :=
  instruction.programIdIndex = input.programIdIndex ∧
    instruction.accountsIndices.toList = input.accountsIndices ∧
    instruction.data.toList = input.data

def WebAuthnData.MatchesVerification (input : WebAuthnData) (data : P256RawVerificationData) :
    Prop :=
  data.publicKey.val = input.publicKey ∧
    input.clientDataJsonReconstructionParams.Matches data.clientDataJsonReconstructionParams

/-- The relying party is the first argument of the serializer. -/
def WebAuthnData.MatchesInitialization (input : Bytes × WebAuthnData)
    (data : P256RawInitializationData) : Prop :=
  data.rpId.toList = input.1 ∧ data.publicKey.val = input.2.publicKey ∧
    input.2.clientDataJsonReconstructionParams.Matches data.clientDataJsonReconstructionParams

def InitializeAccountArgsInput.Matches (input : InitializeAccountArgsInput)
    (args : InitializeAccountArgs) : Prop :=
  (args.slothash.slot.toNat : Int) = input.truncatedSlot ∧
    args.signatureScheme = input.signatureScheme ∧
    args.initializationData.toList = input.initializationData ∧
    Option.Rel SessionKey.Matches input.sessionKey args.sessionKey

def ExecuteInstructionArgsInput.Matches (input : ExecuteInstructionArgsInput)
    (args : ExecutableInstructionArgs) : Prop :=
  args.signatureScheme = input.signatureScheme ∧
    args.signerExecutionScheme = input.signerExecutionScheme ∧
    (args.slothash.slot.toNat : Int) = input.truncatedSlot ∧
    args.extraVerificationData.toList = input.extraVerificationData ∧
    List.Forall₂ CompiledInstructionWire.Matches input.compiledInstructions
      args.instructions.toList

def RefreshSessionKeyArgsInput.Matches (input : RefreshSessionKeyArgsInput)
    (args : RefreshSessionKeyArgs) : Prop :=
  (args.slothash.slot.toNat : Int) = input.truncatedSlot ∧
    args.signatureScheme = input.signatureScheme ∧
    args.verificationData.toList = input.verificationData ∧
    input.sessionKey.Matches args.sessionKey

def ExecuteInstructionsSessionedArgsInput.Matches (input : ExecuteInstructionsSessionedArgsInput)
    (args : ExecutableInstructionSessionedArgs) : Prop :=
  args.signatureScheme = input.signatureScheme ∧
    args.signerExecutionScheme = input.signerExecutionScheme ∧
    List.Forall₂ CompiledInstructionWire.Matches input.compiledInstructions
      args.instructions.toList

end Sdk

/-! ## What a codec can promise -/

variable {α ι : Type}

/-- What `write` writes is the encoding of a value with the fields of its input. -/
def Writes [BorshSerialize α] (write : ι → Except String Bytes) (rel : ι → α → Prop) : Prop :=
  ∀ {i bs}, write i = .ok bs → ∃ a, rel i a ∧ serialize a = .ok bs

/-- What `write` writes is read back, with nothing left over, with the fields of its input. -/
def Decodes [BorshDeserialize α] (write : ι → Except String Bytes) (rel : ι → α → Prop) : Prop :=
  ∀ {i bs}, write i = .ok bs → ∃ a, tryFromSlice α bs = .ok a ∧ rel i a

def RoundTrips (α : Type) [BorshSerialize α] [BorshDeserialize α] : Prop :=
  ∀ a : α, ∃ bs, serialize a = .ok bs ∧ tryFromSlice α bs = .ok a

def Canonical (α : Type) [BorshSerialize α] [BorshDeserialize α] : Prop :=
  ∀ {bs} {a : α}, tryFromSlice α bs = .ok a → serialize a = .ok bs

/-- A vector that `try_from` built or that was read off the front of a string can be written. -/
def AlwaysWritten (L T : Type) [LenPrefix L] [BorshSerialize L] [BorshDeserialize L]
    [BorshSerialize T] [BorshDeserialize T] : Prop :=
  (∀ {val} {v : SmallVec L T}, SmallVec.tryFrom val = .ok v → ∃ bs, serialize v = .ok bs) ∧
    ∀ {i rest} {v : SmallVec L T}, deserializeReader i = .ok (v, rest) → ∃ bs, serialize v = .ok bs

section Lawful

variable [BorshSerialize α] [BorshDeserialize α] [LawfulBorsh α]

theorem Writes.decodes {write : ι → Except String Bytes} {rel : ι → α → Prop}
    (h : Writes write rel) : Decodes write rel := by
  intro i bs hw
  obtain ⟨a, ha, hs⟩ := h hw
  exact ⟨a, tryFromSlice_serialize hs, ha⟩

theorem roundTrips : RoundTrips α := by
  intro a
  obtain ⟨bs, hs⟩ := LawfulBorsh.total a
  exact ⟨bs, hs, tryFromSlice_serialize hs⟩

theorem canonical : Canonical α := fun h => serialize_tryFromSlice h

theorem alwaysWritten {L : Type} [LenPrefix L] [BorshSerialize L] [BorshDeserialize L]
    [LawfulBorsh L] : AlwaysWritten L α :=
  ⟨fun _ => LawfulBorsh.total _, fun _ => LawfulBorsh.total _⟩

end Lawful

/-! ## The serializers write encodings -/

namespace Sdk

open CompiledInstructionWire (Matches)

theorem expectLength_ok {value bs : Bytes} {length : Nat} {label : String} :
    expectLength value length label = .ok bs ↔ value.length = length ∧ value = bs := by
  simp only [expectLength, bind_eq_ok, exists_unit, ensure_eq_ok, pure_eq_ok]

theorem expectMaxLength_ok {value bs : Bytes} {length : Nat} {label : String} :
    expectMaxLength value length label = .ok bs ↔ value.length ≤ length ∧ value = bs := by
  simp only [expectMaxLength, bind_eq_ok, exists_unit, ensure_eq_ok, pure_eq_ok]

theorem toLittleEndianU16_ok {value : Int} {bs : Bytes} (h : toLittleEndianU16 value = .ok bs) :
    ∃ v : UInt16, (v.toNat : Int) = value ∧ serialize v = .ok bs := by
  simp only [toLittleEndianU16, bind_eq_ok, exists_unit, ensure_eq_ok, pure_eq_ok] at h
  obtain ⟨⟨h₀, h₁⟩, rfl⟩ := h
  have hv : (UInt16.ofNat value.toNat).toNat = value.toNat := by
    rw [UInt16.toNat_ofNat']
    omega
  refine ⟨.ofNat value.toNat, by rw [hv]; omega, ?_⟩
  show Except.ok (leBytes 2 (UInt16.ofNat value.toNat).toNat) = _
  rw [hv]

theorem toLittleEndianU64_ok {value : Numeric} {bs : Bytes} (h : toLittleEndianU64 value = .ok bs) :
    ∃ v : UInt64, (v.toNat : Int) = value.value ∧ serialize v = .ok bs := by
  simp only [toLittleEndianU64, bind_eq_ok, exists_unit, ensure_eq_ok, pure_eq_ok] at h
  obtain ⟨-, ⟨h₀, h₁⟩, rfl⟩ := h
  have hv : (UInt64.ofNat value.value.toNat).toNat = value.value.toNat := by
    rw [UInt64.toNat_ofNat']
    omega
  refine ⟨.ofNat value.value.toNat, by rw [hv]; omega, ?_⟩
  show Except.ok (leBytes 8 (UInt64.ofNat value.value.toNat).toNat) = _
  rw [hv]

theorem serializeOptionU16_ok {port : Option Int} {bs : Bytes}
    (h : serializeOptionU16 port = .ok bs) :
    ∃ v : Option UInt16, v.map (fun port => (port.toNat : Int)) = port ∧ serialize v = .ok bs := by
  cases port with
  | none =>
    cases h
    exact ⟨none, rfl, rfl⟩
  | some value =>
    obtain ⟨x, hx, h⟩ := bind_eq_ok.mp h
    obtain rfl := pure_eq_ok.mp h
    obtain ⟨v, rfl, hs⟩ := toLittleEndianU16_ok hx
    refine ⟨some v, rfl, bind_eq_ok.mpr ⟨x, hs, ?_⟩⟩
    simp [concatBytes]

theorem serializeParams_ok {params : ClientDataJsonReconstructionParams} {bs : Bytes}
    (h : serializeClientDataJsonReconstructionParams params = .ok bs) :
    ∃ v, params.Matches v ∧ serialize v = .ok bs := by
  obtain ⟨x, hx, h⟩ := bind_eq_ok.mp h
  obtain rfl := pure_eq_ok.mp h
  obtain ⟨port, hp, hs⟩ := serializeOptionU16_ok hx
  refine ⟨⟨params.typeAndFlags, port⟩, ⟨rfl, hp⟩, ?_⟩
  exact serialize_pair_ok.mpr ⟨[params.typeAndFlags], x, rfl, hs, by simp [concatBytes]⟩

theorem serializeSmallVecU8_ok {bytes bs : Bytes} {label : String}
    (h : serializeSmallVecU8 bytes label = .ok bs) :
    ∃ v : SmallVec UInt8 UInt8, v.toList = bytes ∧ serialize v = .ok bs := by
  simp only [serializeSmallVecU8, bind_eq_ok, expectMaxLength_ok, pure_eq_ok] at h
  obtain ⟨_, ⟨hl, rfl⟩, rfl⟩ := h
  have hlen : (UInt8.ofNat bytes.length).toNat = bytes.length := by
    rw [UInt8.toNat_ofNat']
    omega
  refine ⟨⟨bytes, by rw [LenPrefix.tryFrom_eq_some.mpr hlen]; rfl⟩, rfl, ?_⟩
  refine serialize_smallVec_ok.mpr ⟨_, _, bytes, hlen, rfl, serializeItems_u8 bytes, ?_⟩
  simp [concatBytes]

theorem serializeSmallVecU16_ok {bytes bs : Bytes} {label : String}
    (h : serializeSmallVecU16 bytes label = .ok bs) :
    ∃ v : SmallVec UInt16 UInt8, v.toList = bytes ∧ serialize v = .ok bs := by
  simp only [serializeSmallVecU16, bind_eq_ok, expectMaxLength_ok, pure_eq_ok] at h
  obtain ⟨_, ⟨-, rfl⟩, x, hx, rfl⟩ := h
  obtain ⟨len, hlen, hs⟩ := toLittleEndianU16_ok hx
  have hlen : intoU32 len = bytes.length := Int.ofNat.inj hlen
  refine ⟨⟨bytes, by rw [LenPrefix.tryFrom_eq_some.mpr hlen]; rfl⟩, rfl, ?_⟩
  refine serialize_smallVec_ok.mpr ⟨len, x, bytes, hlen, hs, serializeItems_u8 bytes, ?_⟩
  simp [concatBytes]

theorem serializeSessionKey_ok {sessionKey : SessionKey} {bs : Bytes}
    (h : serializeSessionKey sessionKey = .ok bs) :
    ∃ v, sessionKey.Matches v ∧ serialize v = .ok bs := by
  simp only [serializeSessionKey, bind_eq_ok, expectLength_ok, pure_eq_ok] at h
  obtain ⟨_, ⟨hk, rfl⟩, x, hx, rfl⟩ := h
  obtain ⟨expiration, he, hs⟩ := toLittleEndianU64_ok hx
  refine ⟨⟨⟨sessionKey.key, hk⟩, expiration⟩, ⟨rfl, he⟩, ?_⟩
  exact serialize_pair_ok.mpr ⟨sessionKey.key, x, rfl, hs, by simp [concatBytes]⟩

theorem serializeP256RawVerificationData_ok :
    Writes serializeP256RawVerificationData WebAuthnData.MatchesVerification := by
  intro input bs h
  simp only [serializeP256RawVerificationData, bind_eq_ok, expectLength_ok, pure_eq_ok] at h
  obtain ⟨_, ⟨hk, rfl⟩, x, hx, rfl⟩ := h
  obtain ⟨params, hp, hs⟩ := serializeParams_ok hx
  refine ⟨⟨⟨input.publicKey, hk⟩, params⟩, ⟨rfl, hp⟩, ?_⟩
  exact serialize_pair_ok.mpr ⟨input.publicKey, x, rfl, hs, by simp [concatBytes]⟩

theorem serializeP256RawInitializationData_ok :
    Writes (fun input => serializeP256RawInitializationData input.1 input.2)
      WebAuthnData.MatchesInitialization := by
  intro input bs h
  simp only [serializeP256RawInitializationData, bind_eq_ok, expectMaxLength_ok, expectLength_ok,
    pure_eq_ok] at h
  obtain ⟨_, ⟨-, rfl⟩, x, hx, _, ⟨hk, rfl⟩, y, hy, rfl⟩ := h
  obtain ⟨rpId, hr, hs⟩ := serializeSmallVecU8_ok hx
  obtain ⟨params, hp, ht⟩ := serializeParams_ok hy
  refine ⟨⟨rpId, ⟨input.2.publicKey, hk⟩, params⟩, ⟨hr, rfl, hp⟩, ?_⟩
  refine serialize_pair_ok.mpr ⟨x, input.2.publicKey ++ y, hs, ?_, by simp [concatBytes]⟩
  exact serialize_pair_ok.mpr ⟨input.2.publicKey, y, rfl, ht, rfl⟩

theorem serializeCompiledInstruction_ok {input : CompiledInstructionWire} {bs : Bytes}
    (h : serializeCompiledInstruction input = .ok bs) :
    ∃ v, input.Matches v ∧ serialize v = .ok bs := by
  simp only [serializeCompiledInstruction, bind_eq_ok, expectMaxLength_ok, pure_eq_ok] at h
  obtain ⟨_, ⟨-, rfl⟩, x, hx, _, ⟨-, rfl⟩, y, hy, rfl⟩ := h
  obtain ⟨accountsIndices, ha, hs⟩ := serializeSmallVecU8_ok hx
  obtain ⟨data, hd, ht⟩ := serializeSmallVecU16_ok hy
  refine ⟨⟨input.programIdIndex, accountsIndices, data⟩, ⟨rfl, ha, hd⟩, ?_⟩
  refine serialize_pair_ok.mpr ⟨[input.programIdIndex], x ++ y, rfl, ?_, by simp [concatBytes]⟩
  exact serialize_pair_ok.mpr ⟨x, y, hs, ht, rfl⟩

/-- The instructions are written one after the other. -/
theorem mapM_serializeCompiledInstruction_ok {inputs : List CompiledInstructionWire}
    {parts : List Bytes} (h : inputs.mapM serializeCompiledInstruction = .ok parts) :
    ∃ vs, List.Forall₂ Matches inputs vs ∧ serializeItems vs = .ok parts.flatten := by
  induction inputs generalizing parts with
  | nil =>
    cases h
    exact ⟨[], .nil, rfl⟩
  | cons input inputs ih =>
    simp only [List.mapM_cons, bind_eq_ok, pure_eq_ok] at h
    obtain ⟨x, hx, xs, hxs, rfl⟩ := h
    obtain ⟨v, hv, hs⟩ := serializeCompiledInstruction_ok hx
    obtain ⟨vs, hvs, hss⟩ := ih hxs
    exact ⟨v :: vs, .cons hv hvs, serializeItems_cons.mpr ⟨x, _, hs, hss, rfl⟩⟩

theorem serializeCompiledInstructions_ok {inputs : List CompiledInstructionWire} {bs : Bytes}
    (h : serializeCompiledInstructions inputs = .ok bs) :
    ∃ v : SmallVec UInt8 CompiledInstruction,
      List.Forall₂ Matches inputs v.toList ∧ serialize v = .ok bs := by
  simp only [serializeCompiledInstructions, bind_eq_ok, exists_unit, ensure_eq_ok,
    pure_eq_ok] at h
  obtain ⟨hl, parts, hparts, rfl⟩ := h
  obtain ⟨vs, hvs, hs⟩ := mapM_serializeCompiledInstruction_ok hparts
  have hlen : (UInt8.ofNat inputs.length).toNat = vs.length := by
    rw [UInt8.toNat_ofNat', ← hvs.length_eq]
    omega
  refine ⟨⟨vs, by rw [LenPrefix.tryFrom_eq_some.mpr hlen]; rfl⟩, hvs, ?_⟩
  exact serialize_smallVec_ok.mpr ⟨_, _, _, hlen, rfl, hs, rfl⟩

theorem serializeInitializeAccountArgs_ok :
    Writes serializeInitializeAccountArgs InitializeAccountArgsInput.Matches := by
  intro input bs h
  obtain ⟨truncatedSlot, signatureScheme, initializationData, sessionKey⟩ := input
  obtain ⟨x, hx, h⟩ := bind_eq_ok.mp h
  obtain ⟨y, hy, h⟩ := bind_eq_ok.mp h
  obtain ⟨slot, rfl, hs⟩ := toLittleEndianU16_ok hx
  obtain ⟨data, rfl, ht⟩ := serializeSmallVecU8_ok hy
  obtain ⟨z, v, hv, hu, rfl⟩ : ∃ z v, Option.Rel SessionKey.Matches sessionKey v ∧
      serialize v = .ok z ∧ concatBytes [x, [signatureScheme], y, z] = bs := by
    cases sessionKey with
    | none => exact ⟨[0], none, .none, rfl, pure_eq_ok.mp h⟩
    | some sessionKey =>
      obtain ⟨_, hz, h⟩ := bind_eq_ok.mp h
      obtain ⟨k, hk, hz⟩ := bind_eq_ok.mp hz
      cases hz
      obtain ⟨v, hv, hu⟩ := serializeSessionKey_ok hk
      exact ⟨_, some v, .some hv, bind_eq_ok.mpr ⟨k, hu, by simp [concatBytes]⟩, pure_eq_ok.mp h⟩
  refine ⟨⟨⟨slot⟩, signatureScheme, data, v⟩, ⟨rfl, rfl, rfl, hv⟩, ?_⟩
  refine serialize_pair_ok.mpr ⟨x, [signatureScheme] ++ (y ++ z), hs, ?_, by simp [concatBytes]⟩
  refine serialize_pair_ok.mpr ⟨_, y ++ z, rfl, ?_, rfl⟩
  exact serialize_pair_ok.mpr ⟨y, z, ht, hu, rfl⟩

theorem serializeExecuteInstructionArgs_ok :
    Writes serializeExecuteInstructionArgs ExecuteInstructionArgsInput.Matches := by
  intro input bs h
  obtain ⟨x, hx, h⟩ := bind_eq_ok.mp h
  obtain ⟨y, hy, h⟩ := bind_eq_ok.mp h
  obtain ⟨z, hz, h⟩ := bind_eq_ok.mp h
  obtain rfl := pure_eq_ok.mp h
  obtain ⟨slot, hslot, hs⟩ := toLittleEndianU16_ok hx
  obtain ⟨data, hdata, ht⟩ := serializeSmallVecU8_ok hy
  obtain ⟨instructions, hi, hu⟩ := serializeCompiledInstructions_ok hz
  refine ⟨⟨input.signatureScheme, input.signerExecutionScheme, ⟨slot⟩, data, instructions⟩,
    ⟨rfl, rfl, hslot, hdata, hi⟩, ?_⟩
  refine serialize_pair_ok.mpr ⟨[input.signatureScheme],
    [input.signerExecutionScheme] ++ (x ++ (y ++ z)), rfl, ?_, by simp [concatBytes]⟩
  refine serialize_pair_ok.mpr ⟨_, x ++ (y ++ z), rfl, ?_, rfl⟩
  refine serialize_pair_ok.mpr ⟨x, y ++ z, hs, ?_, rfl⟩
  exact serialize_pair_ok.mpr ⟨y, z, ht, hu, rfl⟩

theorem serializeRefreshSessionKeyArgs_ok :
    Writes serializeRefreshSessionKeyArgs RefreshSessionKeyArgsInput.Matches := by
  intro input bs h
  obtain ⟨x, hx, h⟩ := bind_eq_ok.mp h
  obtain ⟨y, hy, h⟩ := bind_eq_ok.mp h
  obtain ⟨z, hz, h⟩ := bind_eq_ok.mp h
  obtain rfl := pure_eq_ok.mp h
  obtain ⟨slot, hslot, hs⟩ := toLittleEndianU16_ok hx
  obtain ⟨data, hdata, ht⟩ := serializeSmallVecU8_ok hy
  obtain ⟨v, hv, hu⟩ := serializeSessionKey_ok hz
  refine ⟨⟨⟨slot⟩, input.signatureScheme, data, v⟩, ⟨hslot, rfl, hdata, hv⟩, ?_⟩
  refine serialize_pair_ok.mpr ⟨x, [input.signatureScheme] ++ (y ++ z), hs, ?_,
    by simp [concatBytes]⟩
  refine serialize_pair_ok.mpr ⟨_, y ++ z, rfl, ?_, rfl⟩
  exact serialize_pair_ok.mpr ⟨y, z, ht, hu, rfl⟩

theorem serializeExecuteInstructionsSessionedArgs_ok :
    Writes serializeExecuteInstructionsSessionedArgs ExecuteInstructionsSessionedArgsInput.Matches := by
  intro input bs h
  obtain ⟨x, hx, h⟩ := bind_eq_ok.mp h
  obtain rfl := pure_eq_ok.mp h
  obtain ⟨instructions, hi, hs⟩ := serializeCompiledInstructions_ok hx
  refine ⟨⟨input.signatureScheme, input.signerExecutionScheme, instructions⟩, ⟨rfl, rfl, hi⟩, ?_⟩
  refine serialize_pair_ok.mpr ⟨[input.signatureScheme], [input.signerExecutionScheme] ++ x, rfl,
    ?_, by simp [concatBytes]⟩
  exact serialize_pair_ok.mpr ⟨_, x, rfl, hs, rfl⟩

end Sdk

/-! ## The codecs agree -/

/-- What either serializer writes of the arguments is read back field by field, what is read
writes to the same string, and every `SmallVec` can be written. -/
theorem wire_format :
    (Decodes Sdk.serializeInitializeAccountArgs Sdk.InitializeAccountArgsInput.Matches ∧
      Decodes Sdk.serializeExecuteInstructionArgs Sdk.ExecuteInstructionArgsInput.Matches ∧
      Decodes Sdk.serializeRefreshSessionKeyArgs Sdk.RefreshSessionKeyArgsInput.Matches ∧
      Decodes Sdk.serializeExecuteInstructionsSessionedArgs
        Sdk.ExecuteInstructionsSessionedArgsInput.Matches ∧
      Decodes (fun input => Sdk.serializeP256RawInitializationData input.1 input.2)
        Sdk.WebAuthnData.MatchesInitialization ∧
      Decodes Sdk.serializeP256RawVerificationData Sdk.WebAuthnData.MatchesVerification) ∧
    (RoundTrips InitializeAccountArgs ∧ RoundTrips ExecutableInstructionArgs ∧
      RoundTrips RefreshSessionKeyArgs ∧ RoundTrips ExecutableInstructionSessionedArgs ∧
      RoundTrips P256RawInitializationData ∧ RoundTrips P256RawVerificationData) ∧
    (Canonical InitializeAccountArgs ∧ Canonical ExecutableInstructionArgs ∧
      Canonical RefreshSessionKeyArgs ∧ Canonical ExecutableInstructionSessionedArgs ∧
      Canonical P256RawInitializationData ∧ Canonical P256RawVerificationData) ∧
    ∀ (T : Type) [BorshSerialize T] [BorshDeserialize T] [LawfulBorsh T],
      AlwaysWritten UInt8 T ∧ AlwaysWritten UInt16 T := by
  refine ⟨⟨?_, ?_, ?_, ?_, ?_, ?_⟩, ⟨roundTrips, roundTrips, roundTrips, roundTrips, roundTrips,
    roundTrips⟩, ⟨canonical, canonical, canonical, canonical, canonical, canonical⟩,
    fun _ => ⟨alwaysWritten, alwaysWritten⟩⟩
  · exact Sdk.serializeInitializeAccountArgs_ok.decodes
  · exact Sdk.serializeExecuteInstructionArgs_ok.decodes
  · exact Sdk.serializeRefreshSessionKeyArgs_ok.decodes
  · exact Sdk.serializeExecuteInstructionsSessionedArgs_ok.decodes
  · exact Sdk.serializeP256RawInitializationData_ok.decodes
  · exact Sdk.serializeP256RawVerificationData_ok.decodes

example :
    Sdk.serializeExecuteInstructionsSessionedArgs ⟨0, 1, [⟨2, [0, 1], [7, 8, 9]⟩]⟩ =
      .ok [0, 1, 1, 2, 2, 0, 1, 3, 0, 7, 8, 9] := by
  rfl

end ExternalSignature
