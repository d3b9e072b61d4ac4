import ExternalSignature.Lib.Borsh

/-!
# `SmallVec`

A vector whose length is written as a `u8` or `u16`. It is only ever built by `try_from` or by
the decoder, and both bound the length, so a `SmallVec` carries the bound (`fits`). Its encoding
is lawful whatever the items are (`LawfulBorsh (SmallVec L T)`); in particular writing it never
fails.
-/

namespace ExternalSignature

open Lib Lib.Borsh

/-- The unsigned integers that can hold a length. -/
class LenPrefix (L : Type) where
  intoU32 : L → Nat
  tryFromUsize : Nat → Option L
  tryFrom_eq_some : ∀ {n l}, tryFromUsize n = some l ↔ intoU32 l = n

export LenPrefix (intoU32 tryFromUsize)

instance : LenPrefix UInt8 where
  intoU32 := UInt8.toNat
  tryFromUsize n := if n < 256 then some (.ofNat n) else none
  tryFrom_eq_some {n l} := by
    have := l.toNat_lt
    split <;> simp only [Option.some.injEq, reduceCtorEq, false_iff, ← UInt8.toNat_inj,
      UInt8.toNat_ofNat'] <;> omega

instance : LenPrefix UInt16 where
  intoU32 := UInt16.toNat
  tryFromUsize n := if n < 65536 then some (.ofNat n) else none
  tryFrom_eq_some {n l} := by
    have := l.toNat_lt
    split <;> simp only [Option.some.injEq, reduceCtorEq, false_iff, ← UInt16.toNat_inj,
      UInt16.toNat_ofNat'] <;> omega

structure SmallVec (L T : Type) [LenPrefix L] where
  toList : List T
  fits : (tryFromUsize (L := L) toList.length).isSome
  deriving DecidableEq

variable {L T : Type} [LenPrefix L]

namespace SmallVec

@[ext] theorem ext {v w : SmallVec L T} (h : v.toList = w.toList) : v = w := by
  cases v; cases w; cases h; rfl

/-- `TryFrom<Vec<T>>`. -/
def tryFrom (val : List T) : Except String (SmallVec L T) :=
  if h : (tryFromUsize (L := L) val.length).isSome then .ok ⟨val, h⟩
  else .error "Vector length exceeds SmallVec capacity"

theorem tryFrom_eq_ok {val : List T} {v : SmallVec L T} : tryFrom val = .ok v ↔ v.toList = val := by
  unfold tryFrom
  split
  · simp only [Except.ok.injEq]
    exact ⟨fun h => h ▸ rfl, fun h => SmallVec.ext h.symm⟩
  · rename_i h
    simp only [reduceCtorEq, false_iff]
    rintro rfl
    exact h v.fits

theorem exists_len (v : SmallVec L T) : ∃ len : L, intoU32 len = v.toList.length := by
  obtain ⟨len, hlen⟩ := Option.isSome_iff_exists.mp v.fits
  exact ⟨len, LenPrefix.tryFrom_eq_some.mp hlen⟩

theorem length_u8 (v : SmallVec UInt8 T) : v.toList.length ≤ 255 := by
  obtain ⟨len, hlen⟩ := v.exists_len
  exact hlen ▸ Nat.le_of_lt_succ len.toNat_lt

theorem length_u16 (v : SmallVec UInt16 T) : v.toList.length ≤ 65535 := by
  obtain ⟨len, hlen⟩ := v.exists_len
  exact hlen ▸ Nat.le_of_lt_succ len.toNat_lt

end SmallVec

/-- `serialize_slice`. -/
def serializeSlice [BorshSerialize T] (data : List T) : Except IoError Bytes :=
  match u8Slice data with
  | some bs => .ok bs
  | none => serializeItems data

instance [BorshSerialize L] [BorshSerialize T] : BorshSerialize (SmallVec L T) where
  serialize v := do
    let len ← okOr .invalidInput (tryFromUsize (L := L) v.toList.length)
    let marker ← serialize len
    return marker ++ (← serializeSlice v.toList)

/-- The items of a vector: in bulk where `T` can be read in bulk, else one by one. -/
def readVec [BorshDeserialize T] (len : Nat) : Reader (Items T len) :=
  if h : len = 0 then pure ⟨[], by simp [h]⟩
  else do
    match ← vecFromReader len with
    | some vecBytes => pure vecBytes
    | none => readItems len

instance [BorshDeserialize L] [BorshDeserialize T] : BorshDeserialize (SmallVec L T) where
  deserializeReader := do
    let len : L ← deserializeReader
    let vec ← readVec (intoU32 len)
    return ⟨vec.val, by rw [vec.property, LenPrefix.tryFrom_eq_some.mpr rfl]; rfl⟩

section Lawful

variable [BorshSerialize T] [BorshDeserialize T] [LawfulBorsh T]

theorem serializeSlice_ok {data : List T} {bs : Bytes} :
    serializeSlice data = .ok bs ↔ serializeItems data = .ok bs := by
  unfold serializeSlice
  split
  · rename_i bs' h
    rw [LawfulBorsh.bulk_write h]
  · rfl

theorem readVec_ok {n : Nat} {as : Items T n} {i r : Bytes} :
    readVec n i = .ok (as, r) ↔ readItems n i = .ok (as, r) := by
  unfold readVec
  split
  · subst n
    simp [readItems]
  · rw [reader_bind_ok]
    constructor
    · rintro ⟨bulk, m, hb, h⟩
      obtain ⟨rfl, rfl⟩ | ⟨l, rfl, hl⟩ := LawfulBorsh.bulk_read hb
      · exact h
      · obtain ⟨rfl, rfl⟩ := reader_pure_ok.mp h
        exact hl
    · intro h
      obtain ⟨bulk, m, hb⟩ := LawfulBorsh.bulk_complete h
      refine ⟨bulk, m, hb, ?_⟩
      obtain ⟨rfl, rfl⟩ | ⟨l, rfl, hl⟩ := LawfulBorsh.bulk_read hb
      · exact h
      · rw [hl] at h
        cases h
        rfl

variable [BorshSerialize L]

/-- What the encoding of a vector is. -/
theorem serialize_smallVec_ok {v : SmallVec L T} {bs : Bytes} :
    serialize v = .ok bs ↔ ∃ (len : L) (x y : Bytes), intoU32 len = v.toList.length ∧
      serialize len = .ok x ∧ serializeItems v.toList = .ok y ∧ bs = x ++ y := by
  show (do
    let len ← okOr IoError.invalidInput (tryFromUsize (L := L) v.toList.length)
    let marker ← serialize len
    return marker ++ (← serializeSlice v.toList)) = .ok bs ↔ _
  simp only [bind_eq_ok, okOr_eq_ok, pure_eq_ok, serializeSlice_ok, LenPrefix.tryFrom_eq_some]
  constructor
  · rintro ⟨len, hl, x, hx, y, hy, rfl⟩
    exact ⟨len, x, y, hl, hx, hy, rfl⟩
  · rintro ⟨len, x, y, hl, hx, hy, rfl⟩
    exact ⟨len, hl, x, hx, y, hy, rfl⟩

variable [BorshDeserialize L] [LawfulBorsh L]

instance : LawfulBorsh (SmallVec L T) := by
  refine .ofItem ?_ ?_ ?_ (fun _ => rfl) (fun _ => rfl)
  · intro v
    obtain ⟨len, hl⟩ := v.exists_len
    obtain ⟨x, hx⟩ := LawfulBorsh.total len
    obtain ⟨y, hy⟩ := serializeItems_total v.toList
    exact ⟨_, serialize_smallVec_ok.mpr ⟨len, x, y, hl, hx, hy, rfl⟩⟩
  · intro v bs rest h
    obtain ⟨len, x, y, hl, hx, hy, rfl⟩ := serialize_smallVec_ok.mp h
    rw [List.append_assoc]
    refine reader_bind_ok.mpr ⟨len, y ++ rest, LawfulBorsh.read_write _ hx, ?_⟩
    refine reader_bind_ok.mpr ⟨⟨v.toList, hl.symm⟩, rest, ?_, reader_pure_ok.mpr ⟨rfl, rfl⟩⟩
    exact readVec_ok.mpr (readItems_serializeItems rest hy)
  · intro v i rest h
    obtain ⟨len, m, hlen, h⟩ := reader_bind_ok.mp h
    obtain ⟨vec, m', hvec, h⟩ := reader_bind_ok.mp h
    obtain ⟨rfl, rfl⟩ := reader_pure_ok.mp h
    obtain ⟨x, hx, rfl⟩ := LawfulBorsh.write_read hlen
    obtain ⟨y, hy, rfl⟩ := serializeItems_readItems (readVec_ok.mp hvec)
    refine ⟨x ++ y, ?_, by simp⟩
    exact serialize_smallVec_ok.mpr ⟨len, x, y, vec.property.symm, hx, hy, rfl⟩

end Lawful

example : tryFromSlice (SmallVec UInt16 UInt8) [2, 0, 5, 9] = .ok ⟨[5, 9], rfl⟩ := by decide

end ExternalSignature
