import ExternalSignature.Proofs.Der
import ExternalSignature.Proofs.Precompile
import ExternalSignature.RustSdk.Precompile
import ExternalSignature.Sdk.Instructions

/-!
# The precompile instruction, built and parsed

Both SDKs build the same precompile instruction of a DER signature, and the program's parser gets
back the compact signature, the key and the message, also where the key stands in another
instruction (`precompile_round_trip`).
-/

namespace ExternalSignature

open Lib Sdk

/-! ## The Rust signature -/

namespace RustSdk

/-- OpenSSL reads the DER form of the signature, and writes numbers without leading zeros. -/
structure OpenSsl.Reads (ssl : OpenSsl) (r s : Nat) : Prop where
  fromDer : ssl.fromDer (derSignature r s) = some (r, s)
  toVec : ∀ n, ssl.toVec n = bigEndian n

theorem beNat_replicate_append (k : Nat) (bs : Bytes) :
    beNat (List.replicate k 0 ++ bs) = beNat bs := by
  induction k with
  | zero => rfl
  | succ k ih => rw [List.replicate_succ, List.cons_append, Der.beNat_zero_cons, ih]

theorem padField_bigEndian {n : Nat} (h : n < 256 ^ 32) :
    padField (bigEndian n) = scalarBytes n := by
  have hle : (bigEndian n).length ≤ 32 := length_bigEndian_le h
  have hlen : (padField (bigEndian n)).length = 32 := by
    rw [padField, List.length_append, List.length_replicate, fieldSize]
    omega
  have hnat : beNat (padField (bigEndian n)) = n := by
    rw [padField, beNat_replicate_append, beNat_bigEndian]
  rw [scalarBytes, ← hnat, ByteArr.ofNat_beNat hlen, hnat]

theorem parseDerSignatureToCompact_eq {ssl : OpenSsl} {r s : Nat} (h : ssl.Reads r s)
    (hr : r < p256Order) (hs : s < p256Order) :
    parseDerSignatureToCompact ssl (derSignature r s) =
      .ok (scalarBytes r ++ scalarBytes (min s (p256Order - s))) := by
  have hbound : p256Order < 256 ^ 32 := by decide
  have hhalf : beNat secp256r1HalfOrder = p256HalfOrder := by decide
  have horder : beNat secp256r1Order = p256Order := by decide
  have hlength {n : Nat} (hn : n < p256Order) : (bigEndian n).length ≤ fieldSize :=
    length_bigEndian_le (hn.trans hbound)
  have hpad {n : Nat} (hn : n < p256Order) : padField (bigEndian n) = scalarBytes n :=
    padField_bigEndian (hn.trans hbound)
  have hlow := lowS s hs
  simp only [parseDerSignatureToCompact, h.fromDer, h.toVec, okOr, ok_bind,
    ensure_pos (And.intro (hlength hr) (hlength hs)), beNat_bigEndian, hhalf, horder]
  split
  · rename_i hgt
    rw [if_pos hgt] at hlow
    have hsub : ((p256Order : Int) - s).natAbs = p256Order - s := by omega
    have hlt : p256Order - s < p256Order := by omega
    rw [hsub, ensure_pos (hlength hlt), ok_bind, hpad hr, hpad hlt, ← hlow]
    rfl
  · rename_i hle
    rw [if_neg hle] at hlow
    rw [hpad hr, hpad hs, ← hlow]
    rfl

end RustSdk

/-! ## Data -/

/-- The data of an instruction of one signature. -/
def precompileData (offsets : SignatureOffsets) (rest : Bytes) : Bytes :=
  [1, 0] ++ (Pod.bytes offsets).val ++ rest

theorem length_precompileHead (offsets : SignatureOffsets) :
    ([1, 0] ++ (Pod.bytes offsets).val).length = 16 := by
  rw [List.length_append, (Pod.bytes offsets).property]
  rfl

/-- A part of the instruction's own data. -/
theorem resolves_self {ixs : Instructions} {self bytes : Bytes} {offset : UInt16}
    (before rest : Bytes) (h : self = before ++ (bytes ++ rest)) (hoffset : before.length = offset.toNat) :
    Resolves ixs self 0xffff offset bytes := by
  refine ⟨self, if_pos rfl, ?_, ?_⟩
  · rw [h, List.length_append, List.length_append]
    omega
  · rw [h, ← hoffset, List.drop_left, List.take_left]

/-- A range of another instruction of the transaction. -/
theorem resolves_other {ixs : Instructions} {self : Bytes} {instruction : IntrospectedInstruction}
    {instructionIndex offset : UInt16} {size : Nat} (hne : instructionIndex ≠ 0xffff)
    (h : ixs[instructionIndex.toNat]? = some instruction)
    (hle : offset.toNat + size ≤ instruction.data.length) :
    Resolves ixs self instructionIndex offset ((instruction.data.drop offset.toNat).take size) := by
  have hlength : ((instruction.data.drop offset.toNat).take size).length = size := by
    rw [List.length_take, List.length_drop]
    omega
  refine ⟨instruction.data, ?_, by rw [hlength]; exact hle, by rw [hlength]⟩
  rw [addressed, if_neg hne, h]
  rfl

theorem oneSignature_precompileData {ixs : Instructions} {offsets : SignatureOffsets}
    {rest : Bytes} {signed : SignaturePayload}
    (hs : Resolves ixs (precompileData offsets rest) offsets.signatureInstructionIndex
      offsets.signatureOffset signed.signature)
    (hk : Resolves ixs (precompileData offsets rest) offsets.publicKeyInstructionIndex
      offsets.publicKeyOffset signed.publicKey)
    (hm : Resolves ixs (precompileData offsets rest) offsets.messageInstructionIndex
      offsets.messageDataOffset signed.message)
    (hslen : signed.signature.length = 64) (hklen : signed.publicKey.length = 33)
    (hmlen : signed.message.length = offsets.messageDataSize.toNat) :
    OneSignature ixs (precompileData offsets rest) offsets signed where
  count := rfl
  offsets_eq := Pod.read_eq_some.mpr ⟨rest, rfl⟩
  signature := hs
  publicKey := hk
  message := hm
  signature_length := hslen
  publicKey_length := hklen
  message_length := hmlen

/-- The offsets of both builders where the key is in the instruction. -/
def inlineOffsets (message : Bytes) : SignatureOffsets where
  signatureOffset := 49
  signatureInstructionIndex := 0xffff
  publicKeyOffset := 16
  publicKeyInstructionIndex := 0xffff
  messageDataOffset := 113
  messageDataSize := .ofNat message.length
  messageInstructionIndex := 0xffff

/-- The offsets where the key is elsewhere. -/
def elsewhereOffsets (index : UInt8) (offset : UInt16) (message : Bytes) : SignatureOffsets where
  signatureOffset := 16
  signatureInstructionIndex := 0xffff
  publicKeyOffset := offset
  publicKeyInstructionIndex := index.toUInt16
  messageDataOffset := 80
  messageDataSize := .ofNat message.length
  messageInstructionIndex := 0xffff

theorem toNat_messageDataSize {message : Bytes} (h : message.length ≤ 0xffff) :
    (UInt16.ofNat message.length).toNat = message.length := by
  rw [UInt16.toNat_ofNat']
  omega

theorem toUInt16_ne_max (index : UInt8) : index.toUInt16 ≠ 0xffff := by
  intro h
  have hn := congrArg UInt16.toNat h
  rw [UInt8.toNat_toUInt16] at hn
  have hlt := index.toNat_lt
  have hmax : (0xffff : UInt16).toNat = 65535 := rfl
  omega

section

variable {signature message : Bytes} {ixs : Instructions}

theorem oneSignature_inline (publicKey : ByteArr 33) (hs : signature.length = 64)
    (hm : message.length ≤ 0xffff) :
    OneSignature ixs (precompileData (inlineOffsets message) (publicKey.val ++ signature ++ message))
      (inlineOffsets message) ⟨signature, publicKey.val, message⟩ := by
  have hhead := length_precompileHead (inlineOffsets message)
  set head := [1, 0] ++ (Pod.bytes (inlineOffsets message)).val with hh
  refine oneSignature_precompileData (resolves_self (head ++ publicKey.val) message ?_ ?_)
    (resolves_self head (signature ++ message) ?_ hhead)
    (resolves_self (head ++ publicKey.val ++ signature) [] ?_ ?_)
    hs publicKey.property (toNat_messageDataSize hm).symm
  · simp only [precompileData, hh, List.append_assoc]
  · rw [List.length_append, hhead, publicKey.property]
    rfl
  · simp only [precompileData, hh, List.append_assoc]
  · simp only [precompileData, hh, List.append_assoc, List.append_nil]
  · rw [List.length_append, List.length_append, hhead, publicKey.property, hs]
    rfl

theorem oneSignature_elsewhere {index : UInt8} {offset : UInt16}
    {instruction : IntrospectedInstruction} (hs : signature.length = 64)
    (hm : message.length ≤ 0xffff) (hi : ixs[index.toNat]? = some instruction)
    (hle : offset.toNat + 33 ≤ instruction.data.length) :
    OneSignature ixs (precompileData (elsewhereOffsets index offset message) (signature ++ message))
      (elsewhereOffsets index offset message)
      ⟨signature, (instruction.data.drop offset.toNat).take 33, message⟩ := by
  have hhead := length_precompileHead (elsewhereOffsets index offset message)
  set head := [1, 0] ++ (Pod.bytes (elsewhereOffsets index offset message)).val with hh
  have hindex : ixs[index.toUInt16.toNat]? = some instruction := by
    rw [UInt8.toNat_toUInt16, hi]
  have hlength : ((instruction.data.drop offset.toNat).take 33).length = 33 := by
    rw [List.length_take, List.length_drop]
    omega
  refine oneSignature_precompileData (resolves_self head message ?_ hhead)
    (resolves_other (toUInt16_ne_max index) hindex hle)
    (resolves_self (head ++ signature) [] ?_ ?_) hs hlength (toNat_messageDataSize hm).symm
  · simp only [precompileData, hh, List.append_assoc]
  · simp only [precompileData, hh, List.append_assoc, List.append_nil]
  · rw [List.length_append, hhead, hs]
    rfl

end

/-! ## The builders -/

theorem length_compact (r s : Nat) : (scalarBytes r ++ scalarBytes s).length = 64 := by
  rw [List.length_append, scalarBytes, scalarBytes, (ByteArr.ofNat 32 r).property,
    (ByteArr.ofNat 32 s).property]

section

variable {ssl : RustSdk.OpenSsl} {r s : Nat} {message : Bytes}

theorem RustSdk.createSecp256r1Instruction_inline (h : ssl.Reads r s) (hr : r < p256Order)
    (hs : s < p256Order) (publicKey : ByteArr 33) (hm : message.length ≤ 0xffff) :
    createSecp256r1Instruction ssl (derSignature r s) message publicKey none =
      .ok ⟨secp256r1PrecompileId, precompileData (inlineOffsets message) (publicKey.val ++
        (scalarBytes r ++ scalarBytes (min s (p256Order - s))) ++ message), []⟩ := by
  simp only [createSecp256r1Instruction, ensure_pos hm, ok_bind,
    parseDerSignatureToCompact_eq h hr hs, if_pos, precompileData, inlineOffsets,
    List.append_assoc]
  rfl

theorem RustSdk.createSecp256r1Instruction_elsewhere (h : ssl.Reads r s) (hr : r < p256Order)
    (hs : s < p256Order) (publicKey : ByteArr 33) (hm : message.length ≤ 0xffff) (index : UInt8)
    (offset : UInt16) :
    createSecp256r1Instruction ssl (derSignature r s) message publicKey (some (index, offset)) =
      .ok ⟨secp256r1PrecompileId, precompileData (elsewhereOffsets index offset message)
        ((scalarBytes r ++ scalarBytes (min s (p256Order - s))) ++ message), []⟩ := by
  simp only [createSecp256r1Instruction, ensure_pos hm, ok_bind,
    parseDerSignatureToCompact_eq h hr hs, if_neg (toUInt16_ne_max index), precompileData,
    elsewhereOffsets, List.append_assoc, List.nil_append, UInt16.ofNat_toNat]
  rfl

theorem littleEndian_eq (n : Nat) : littleEndian n = leBytes 2 n := by
  have h₁ : n &&& 0xff = n % 256 := Nat.and_two_pow_sub_one_eq_mod n 8
  have h₂ : n >>> 8 &&& 0xff = n / 256 % 256 := by
    rw [Nat.shiftRight_eq_div_pow]
    exact Nat.and_two_pow_sub_one_eq_mod _ 8
  have hmod (k : Nat) : UInt8.ofNat (k % 256) = UInt8.ofNat k := by
    apply UInt8.toNat_inj.mp
    rw [UInt8.toNat_ofNat', UInt8.toNat_ofNat']
    omega
  rw [littleEndian, h₁, h₂, hmod, hmod]
  rfl

theorem bytes_signatureOffsets (o : SignatureOffsets) : (Pod.bytes o).val =
    leBytes 2 o.signatureOffset.toNat ++ (leBytes 2 o.signatureInstructionIndex.toNat ++
      (leBytes 2 o.publicKeyOffset.toNat ++ (leBytes 2 o.publicKeyInstructionIndex.toNat ++
        (leBytes 2 o.messageDataOffset.toNat ++ (leBytes 2 o.messageDataSize.toNat ++
          leBytes 2 o.messageInstructionIndex.toNat))))) := rfl

theorem Sdk.createSecp256r1Instruction_eq (hr : 1 ≤ r ∧ r < p256Order) (hs : 1 ≤ s ∧ s < p256Order)
    (publicKey : ByteArr 33) (hm : message.length ≤ 0xffff) :
    createSecp256r1Instruction ⟨derSignature r s, message, publicKey.val⟩ =
      .ok (secp256r1Instruction (precompileData (inlineOffsets message) (publicKey.val ++
        (scalarBytes r ++ scalarBytes (min s (p256Order - s))) ++ message))) := by
  have hparse : parseDerSignatureToCompact (derSignature r s) =
      .ok (scalarBytes r ++ scalarBytes (min s (p256Order - s))) :=
    mapError_eq_ok.mpr (readDerSignature_eq_ok.mpr ⟨r, s, hr, hs, rfl, rfl⟩)
  have hmessage (label : String) : expectMaxLength message 0xffff label = .ok message :=
    bind_eq_ok.mpr ⟨(), ensure_eq_ok.mpr hm, rfl⟩
  have hkey (label : String) : expectLength publicKey.val 33 label = .ok publicKey.val :=
    bind_eq_ok.mpr ⟨(), ensure_eq_ok.mpr publicKey.property, rfl⟩
  simp only [createSecp256r1Instruction, hparse, hmessage, hkey, ok_bind, length_compact, publicKey.property, littleEndian_eq, precompileData,
    bytes_signatureOffsets, inlineOffsets, toNat_messageDataSize hm, concatBytes,
    List.flatten_cons, List.flatten_nil, List.append_assoc, List.append_nil]
  rfl

/-- The builders agree on the data of a signature in DER, and the parser gets the compact signature,
the key and the message back from an aligned instruction that holds the data. With the key in
another instruction it gets the 33 bytes that are there. -/
theorem precompile_round_trip (h : ssl.Reads r s) (hr : 1 ≤ r ∧ r < p256Order)
    (hs : 1 ≤ s ∧ s < p256Order) (publicKey : ByteArr 33) (hm : message.length ≤ 0xffff) :
    (∃ data,
      RustSdk.createSecp256r1Instruction ssl (derSignature r s) message publicKey none =
        .ok ⟨secp256r1PrecompileId, data, []⟩ ∧
      Sdk.createSecp256r1Instruction ⟨derSignature r s, message, publicKey.val⟩ =
        .ok ⟨secp256r1PrecompileId, [], data⟩ ∧
      ∀ (ixs : Instructions) (ix : IntrospectedInstruction), ix.data = data → ix.address % 2 = 0 →
        (PrecompileParser.mk ix ixs).getSignaturePayload 0 =
          .ok ⟨scalarBytes r ++ scalarBytes (min s (p256Order - s)), publicKey.val, message⟩) ∧
    ∀ (index : UInt8) (offset : UInt16), ∃ data,
      RustSdk.createSecp256r1Instruction ssl (derSignature r s) message publicKey
        (some (index, offset)) = .ok ⟨secp256r1PrecompileId, data, []⟩ ∧
      ∀ (ixs : Instructions) (ix instruction : IntrospectedInstruction), ix.data = data →
        ix.address % 2 = 0 → ixs[index.toNat]? = some instruction →
        offset.toNat + 33 ≤ instruction.data.length →
          (PrecompileParser.mk ix ixs).getSignaturePayload 0 =
            .ok ⟨scalarBytes r ++ scalarBytes (min s (p256Order - s)),
              (instruction.data.drop offset.toNat).take 33, message⟩ := by
  have hlength := length_compact r (min s (p256Order - s))
  constructor
  · refine ⟨_, RustSdk.createSecp256r1Instruction_inline h hr.2 hs.2 publicKey hm,
      Sdk.createSecp256r1Instruction_eq hr hs publicKey hm, fun ixs ix hdata heven => ?_⟩
    have hone := @oneSignature_inline _ _ ixs publicKey hlength hm
    rw [← hdata] at hone
    rw [PrecompileParser.getSignaturePayload_eq hone, if_pos heven]
  · intro index offset
    refine ⟨_, RustSdk.createSecp256r1Instruction_elsewhere h hr.2 hs.2 publicKey hm index offset,
      fun ixs ix instruction hdata heven hi hle => ?_⟩
    have hone := oneSignature_elsewhere hlength hm hi hle
    rw [← hdata] at hone
    rw [PrecompileParser.getSignaturePayload_eq hone, if_pos heven]

end

/-- OpenSSL on the signature `(1, 5)`. -/
def Sample.openSsl : RustSdk.OpenSsl where
  fromDer := fun der => if der = derSignature 1 5 then some (1, 5) else none
  toVec := bigEndian

theorem precompile_round_trip_sample : ∃ data,
    RustSdk.createSecp256r1Instruction Sample.openSsl (derSignature 1 5) (ascii "test message")
      Sample.passkey none = .ok ⟨secp256r1PrecompileId, data, []⟩ ∧
    Sdk.createSecp256r1Instruction ⟨derSignature 1 5, ascii "test message", Sample.passkey.val⟩ =
      .ok ⟨secp256r1PrecompileId, [], data⟩ := by
  have h : Sample.openSsl.Reads 1 5 := ⟨by simp [Sample.openSsl], fun _ => rfl⟩
  have hm : (ascii "test message").length ≤ 0xffff := by decide
  obtain ⟨data, hrust, hts, -⟩ :=
    (precompile_round_trip h (by decide) (by decide) Sample.passkey hm).1
  exact ⟨data, hrust, hts⟩

end ExternalSignature
