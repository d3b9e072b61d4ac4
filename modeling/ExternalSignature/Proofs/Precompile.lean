import ExternalSignature.Proofs.Authority

/-!
# What the precompile has verified

The runtime runs a precompile before the program, and the program finds the signature, the key and
the message again with code of its own. `Secp256r1Precompile` is what the runtime is relied on for.
Whatever the offsets are, the program reads the bytes that were verified
(`getSignaturePayload_verified`), and its unchecked reads stay inside the data they address.
-/

namespace ExternalSignature

open Lib

/-! ## The precompile -/

/-- The data that an instruction index addresses: `0xffff` is the instruction itself, any other
index one of the transaction. -/
def addressed (ixs : Instructions) (self : Bytes) (instructionIndex : UInt16) : Option Bytes :=
  if instructionIndex = 0xffff then some self else ixs[instructionIndex.toNat]?.map (·.data)

/-- The runtime resolves an index and an offset to a range of bytes, which is in bounds. -/
def Resolves (ixs : Instructions) (self : Bytes) (instructionIndex offset : UInt16)
    (bytes : Bytes) : Prop :=
  ∃ data, addressed ixs self instructionIndex = some data ∧
    offset.toNat + bytes.length ≤ data.length ∧
    (data.drop offset.toNat).take bytes.length = bytes

/-- An instruction of one signature with these offsets, as the runtime reads it. -/
structure OneSignature (ixs : Instructions) (data : Bytes) (offsets : SignatureOffsets)
    (signed : SignaturePayload) : Prop where
  count : data.head? = some 1
  offsets_eq : Pod.read SignatureOffsets (data.drop secp256r1NumSignaturesSerializedSize) =
    some offsets
  signature : Resolves ixs data offsets.signatureInstructionIndex offsets.signatureOffset
    signed.signature
  publicKey : Resolves ixs data offsets.publicKeyInstructionIndex offsets.publicKeyOffset
    signed.publicKey
  message : Resolves ixs data offsets.messageInstructionIndex offsets.messageDataOffset
    signed.message
  signature_length : signed.signature.length = secp256r1SignatureSerializedSize
  publicKey_length : signed.publicKey.length = secp256r1PublicKeySerializedSize
  message_length : signed.message.length = offsets.messageDataSize.toNat

/-- The runtime's secp256r1 precompile on instructions of one signature: `verify` is the signature,
the key and the message that it has verified, where it accepts. -/
structure Secp256r1Precompile where
  valid : (signature publicKey message : Bytes) → Bool
  verify : Instructions → (data : Bytes) → Option SignaturePayload
  resolves : ∀ {ixs data signed}, verify ixs data = some signed →
    ∃ offsets, OneSignature ixs data offsets signed
  verifies : ∀ {ixs data signed}, verify ixs data = some signed →
    valid signed.signature signed.publicKey signed.message

/-! ## The parser -/

theorem getDataSlice_eq {data : Bytes} {offset size : Nat} (h : offset + size ≤ data.length) :
    getDataSlice data offset size = .ok ((data.drop offset).take size) := if_pos h

/-- A read that stays inside the data does not depend on the memory after it. -/
theorem getDataSliceRaw_eq {ix : IntrospectedInstruction} {offset size : Nat}
    (h : offset + size ≤ ix.data.length) :
    getDataSliceRaw ix offset size = .ok ((ix.data.drop offset).take size) := by
  rw [getDataSliceRaw, getDataSlice_eq (by rw [List.length_append]; omega),
    List.drop_append_of_le_length (by omega),
    List.take_append_of_le_length (by rw [List.length_drop]; omega)]

namespace PrecompileParser

/-- The read that the parser makes for an index and an offset stays inside the instruction that the
index addresses. -/
def InBounds (parser : PrecompileParser) (instructionIndex offset : UInt16) (size : Nat) : Prop :=
  if instructionIndex = 0xffff then offset.toNat + size ≤ parser.precompileIx.data.length
  else ∃ instruction, parser.instructionsSysvar.loadInstructionAt instructionIndex.toNat =
    .ok instruction ∧ offset.toNat + size ≤ instruction.data.length

variable {ixs : Instructions} {ix : IntrospectedInstruction}

theorem payloadSlice_resolved {instructionIndex offset : UInt16} {bytes : Bytes} {size : Nat}
    (h : Resolves ixs ix.data instructionIndex offset bytes) (hsize : bytes.length = size) :
    (PrecompileParser.mk ix ixs).payloadSlice instructionIndex offset size = .ok bytes ∧
      (PrecompileParser.mk ix ixs).InBounds instructionIndex offset size := by
  subst hsize
  obtain ⟨data, hdata, hle, hbytes⟩ := h
  by_cases hself : instructionIndex = 0xffff
  · simp only [addressed, payloadSlice, InBounds, if_pos hself] at hdata ⊢
    obtain rfl := Option.some.inj hdata
    exact ⟨by rw [getDataSlice_eq hle, hbytes], hle⟩
  · simp only [addressed, payloadSlice, InBounds, if_neg hself] at hdata ⊢
    obtain ⟨instruction, hi, rfl⟩ := Option.map_eq_some_iff.mp hdata
    have hload : ixs.loadInstructionAt instructionIndex.toNat = .ok instruction :=
      okOr_eq_ok.mpr hi
    refine ⟨bind_eq_ok.mpr ⟨instruction, mapErr_eq_ok.mpr hload, ?_⟩, instruction, hload, hle⟩
    rw [getDataSliceRaw_eq hle, hbytes]

theorem numSignatures_eq (hcount : ix.data.head? = some 1) :
    (PrecompileParser.mk ix ixs).numSignatures = .ok 1 := by
  obtain ⟨rest, hdata⟩ := List.head?_eq_some_iff.mp hcount
  simp only [numSignatures, hdata]
  rfl

/-- The parser on an instruction of one signature, wherever its offsets point. -/
theorem getSignaturePayload_eq {offsets : SignatureOffsets} {signed : SignaturePayload}
    (h : OneSignature ixs ix.data offsets signed) :
    (PrecompileParser.mk ix ixs).getSignaturePayload 0 =
      if ix.address % 2 = 0 then .ok signed else .error (.custom .invalidSignatureOffset) := by
  obtain ⟨rest, hrest⟩ := Pod.read_eq_some.mp h.offsets_eq
  have hlen : 2 + 14 ≤ ix.data.length := by
    have hl := congrArg List.length hrest
    rw [List.length_drop, List.length_append, (Pod.bytes offsets).property] at hl
    have hsize : Pod.size SignatureOffsets = 14 := rfl
    have h2 : secp256r1NumSignaturesSerializedSize = 2 := rfl
    omega
  have hwindow : Pod.read SignatureOffsets ((ix.data.drop 2).take 14) = some offsets := by
    have hb : (Pod.bytes offsets).val.length = 14 := (Pod.bytes offsets).property
    rw [show ix.data.drop 2 = _ from hrest, ← hb, List.take_left]
    exact Pod.read_eq_some.mpr ⟨[], (List.append_nil _).symm⟩
  have hs := (payloadSlice_resolved h.signature h.signature_length).1
  have hk := (payloadSlice_resolved h.publicKey h.publicKey_length).1
  have hm := (payloadSlice_resolved h.message h.message_length).1
  have haddress : (ix.address + 2) % 2 = 0 ↔ ix.address % 2 = 0 := by omega
  simp only [getSignaturePayload, numSignatures_eq h.count, ok_bind, ensure_pos Nat.zero_lt_one,
    secp256r1NumSignaturesSerializedSize, secp256r1SignatureOffsetsSerializedSize,
    Nat.mul_zero, Nat.add_zero, getDataSlice_eq hlen, haddress]
  split
  · rename_i heven
    simp only [ensure_pos heven, ok_bind, hwindow, okOr, hs, hk, hm]
    rfl
  · rename_i hodd
    simp only [ensure_neg hodd, error_bind]

end PrecompileParser

/-- The verification of a payload finds the instruction by the same parser. -/
theorem signaturePayload_eq {ixs : Instructions} {ix : IntrospectedInstruction}
    (h0 : ixs[0]? = some ix) (hid : ix.programId = secp256r1PrecompileId)
    (hcount : ix.data.head? = some 1) :
    ixs.signaturePayload = (PrecompileParser.mk ix ixs).getSignaturePayload 0 := by
  have hload : ixs.loadInstructionAt 0 = .ok ix := okOr_eq_ok.mpr h0
  have hnew : PrecompileParser.new ix ixs = .ok ⟨ix, ixs⟩ :=
    bind_eq_ok.mpr ⟨(), ensure_eq_ok.mpr hid, rfl⟩
  simp only [Instructions.signaturePayload, hload, ok_bind, hnew,
    PrecompileParser.numSignatures_eq hcount, ensure_pos]

/-- For an instruction of one signature that the precompile has accepted, with whatever offsets, the
program gets what was verified, or the error for data that is not aligned in memory. Every range it
reads is in the data of the instruction that its index addresses. -/
theorem getSignaturePayload_verified (precompile : Secp256r1Precompile) {ixs : Instructions}
    {ix : IntrospectedInstruction} {signed : SignaturePayload} (h0 : ixs[0]? = some ix)
    (hid : ix.programId = secp256r1PrecompileId)
    (hverify : precompile.verify ixs ix.data = some signed) :
    ixs.signaturePayload = (PrecompileParser.mk ix ixs).getSignaturePayload 0 ∧
    (PrecompileParser.mk ix ixs).getSignaturePayload 0 =
      (if ix.address % 2 = 0 then .ok signed else .error (.custom .invalidSignatureOffset)) ∧
    precompile.valid signed.signature signed.publicKey signed.message ∧
    ∃ offsets, Pod.read SignatureOffsets (ix.data.drop secp256r1NumSignaturesSerializedSize) =
        some offsets ∧
      (PrecompileParser.mk ix ixs).InBounds offsets.signatureInstructionIndex
        offsets.signatureOffset secp256r1SignatureSerializedSize ∧
      (PrecompileParser.mk ix ixs).InBounds offsets.publicKeyInstructionIndex
        offsets.publicKeyOffset secp256r1PublicKeySerializedSize ∧
      (PrecompileParser.mk ix ixs).InBounds offsets.messageInstructionIndex
        offsets.messageDataOffset offsets.messageDataSize.toNat := by
  obtain ⟨offsets, h⟩ := precompile.resolves hverify
  exact ⟨signaturePayload_eq h0 hid h.count, PrecompileParser.getSignaturePayload_eq h,
    precompile.verifies hverify, offsets, h.offsets_eq,
    (PrecompileParser.payloadSlice_resolved h.signature h.signature_length).2,
    (PrecompileParser.payloadSlice_resolved h.publicKey h.publicKey_length).2,
    (PrecompileParser.payloadSlice_resolved h.message h.message_length).2⟩

/-! ## A precompile -/

/-- The range that an index and an offset resolve to. -/
def resolve (ixs : Instructions) (self : Bytes) (instructionIndex offset : UInt16) (size : Nat) :
    Option Bytes := do
  let data ← addressed ixs self instructionIndex
  if offset.toNat + size ≤ data.length then some ((data.drop offset.toNat).take size) else none

theorem resolve_eq_some {ixs : Instructions} {self bytes : Bytes}
    {instructionIndex offset : UInt16} {size : Nat}
    (h : resolve ixs self instructionIndex offset size = some bytes) :
    Resolves ixs self instructionIndex offset bytes ∧ bytes.length = size := by
  simp only [resolve, Option.bind_eq_bind, Option.bind_eq_some_iff,
    Option.ite_none_right_eq_some, Option.some.injEq] at h
  obtain ⟨data, hdata, hle, rfl⟩ := h
  have hlength : ((data.drop offset.toNat).take size).length = size := by
    rw [List.length_take, List.length_drop]
    omega
  exact ⟨⟨data, hdata, by rw [hlength]; exact hle, by rw [hlength]⟩, hlength⟩

/-- The precompile of a signature check. -/
def Secp256r1Precompile.of (valid : (signature publicKey message : Bytes) → Bool) :
    Secp256r1Precompile where
  valid
  verify ixs data := do
    if data.head? = some 1 then
      let offsets ← Pod.read SignatureOffsets (data.drop secp256r1NumSignaturesSerializedSize)
      let signature ← resolve ixs data offsets.signatureInstructionIndex offsets.signatureOffset
        secp256r1SignatureSerializedSize
      let publicKey ← resolve ixs data offsets.publicKeyInstructionIndex offsets.publicKeyOffset
        secp256r1PublicKeySerializedSize
      let message ← resolve ixs data offsets.messageInstructionIndex offsets.messageDataOffset
        offsets.messageDataSize.toNat
      if valid signature publicKey message then some ⟨signature, publicKey, message⟩ else none
    else none
  resolves {ixs data signed} h := by
    simp only [Option.bind_eq_bind, Option.bind_eq_some_iff, Option.ite_none_right_eq_some,
      Option.some.injEq] at h
    obtain ⟨hcount, offsets, hoffsets, signature, hs, publicKey, hk, message, hm, -, rfl⟩ := h
    exact ⟨offsets, hcount, hoffsets, (resolve_eq_some hs).1, (resolve_eq_some hk).1,
      (resolve_eq_some hm).1, (resolve_eq_some hs).2, (resolve_eq_some hk).2,
      (resolve_eq_some hm).2⟩
  verifies {ixs data signed} h := by
    simp only [Option.bind_eq_bind, Option.bind_eq_some_iff, Option.ite_none_right_eq_some,
      Option.some.injEq] at h
    obtain ⟨hcount, offsets, hoffsets, signature, hs, publicKey, hk, message, hm, hvalid, rfl⟩ := h
    exact hvalid

namespace Sample

/-- What `executeSignature` signs. -/
def executeSigned : SignaturePayload where
  signature := (ByteArr.ofNat 32
      0x86cd0ecd12c4c5c26fbe23754c84856daec1a7ad9ba5be9d32bf3e3475cf6d21).val ++
    (ByteArr.ofNat 32 0x0caa77ae26e18bae8055391bb7cc8209c4d74664f1717b843ab7a638b9cf73c2).val
  publicKey := passkey.val
  message := rpIdHash.val ++ [5, 0, 0, 0, 0] ++ (ByteArr.ofNat 32
    0xbddcefeb63b3071385d2359d9230be301d7eacbbf9c850065125d34515d68c68).val

/-- The precompile on the one signature of a transaction with `executeSignature`. -/
def secp256r1 : Secp256r1Precompile := .of fun signature publicKey message =>
  SignaturePayload.mk signature publicKey message = executeSigned

/-- Another instruction, which holds the message and the signature. -/
def storage : IntrospectedInstruction where
  programId := ID
  data := executeSigned.message ++ executeSigned.signature
  address := 160
  beyond := []

/-- The precompile instruction for them, which holds the key alone and names itself by its index. -/
def spreadSignature : IntrospectedInstruction where
  programId := secp256r1PrecompileId
  data := [1, 0] ++ (Pod.bytes (SignatureOffsets.mk 69 1 16 0 0 69 1)).val ++ passkey.val
  address := 0
  beyond := []

end Sample

/-- The same is read where all is in one instruction, and where it is spread over two. -/
theorem getSignaturePayload_verified_execute :
    (PrecompileParser.mk Sample.executeSignature [Sample.executeSignature]).getSignaturePayload 0 =
      .ok Sample.executeSigned ∧
    (PrecompileParser.mk Sample.spreadSignature
        [Sample.spreadSignature, Sample.storage]).getSignaturePayload 0 =
      .ok Sample.executeSigned :=
  ⟨(getSignaturePayload_verified Sample.secp256r1 rfl rfl (by decide +kernel)).2.1,
    (getSignaturePayload_verified Sample.secp256r1 rfl rfl (by decide +kernel)).2.1⟩

end ExternalSignature
