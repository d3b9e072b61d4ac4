import ExternalSignature.Lib.Pod
import ExternalSignature.Lib.Result

/-!
# Borsh

The borsh encoding of integers, byte arrays, `Option` and structs, as a writer and a reader for
each type. `LawfulBorsh` says what a pair of them must satisfy: every value has an encoding, the
reader takes exactly that encoding off the front of any input, and accepts nothing else. It gives
the round trip of `tryFromSlice` (`tryFromSlice_serialize`), canonicity
(`serialize_tryFromSlice`), and that encodings can be told apart inside a longer string
(`serialize_append_inj`).

A struct is encoded as the tuple of its fields (`serializeAs`, `deserializeAs`, `lawfulAs`), and a
wider integer as its little-endian bytes.
-/

namespace Lib.Borsh

/-- The kinds of `std::io::Error` that the codecs raise. -/
inductive IoError where
  | invalidInput | invalidData
  deriving DecidableEq, Repr

abbrev Reader := StateT Bytes (Except IoError)

/-- A vector of `n` items. -/
abbrev Items (α : Type) (n : Nat) := { as : List α // as.length = n }

class BorshSerialize (α : Type) where
  serialize : α → Except IoError Bytes
  /-- `u8_slice`: the items as one slice, for the types that can be written in bulk. -/
  u8Slice : List α → Option Bytes := fun _ => none

class BorshDeserialize (α : Type) where
  deserializeReader : Reader α
  /-- `vec_from_reader`: a vector of the given length, for the types that can be read in bulk. -/
  vecFromReader (n : Nat) : Reader (Option (Items α n)) := pure none

export BorshSerialize (serialize u8Slice)
export BorshDeserialize (deserializeReader vecFromReader)

variable {α β σ : Type}

@[simp] theorem reader_bind_ok {x : Reader α} {f : α → Reader β} {i r : Bytes} {b : β} :
    (x >>= f) i = .ok (b, r) ↔ ∃ a m, x i = .ok (a, m) ∧ f a m = .ok (b, r) := by
  simp only [bind, StateT.bind]
  exact bind_eq_ok.trans Prod.exists

@[simp] theorem reader_pure_ok {a b : α} {i r : Bytes} :
    (pure a : Reader α) i = .ok (b, r) ↔ a = b ∧ i = r := by
  show Except.ok (a, i) = Except.ok (b, r) ↔ _
  rw [Except.ok.injEq, Prod.mk.injEq]

/-- Take `n` bytes off the input; an input that ends before is "Unexpected length of input". -/
def readBytes (n : Nat) : Reader (ByteArr n) := fun i => okOr .invalidData (split n i)

@[simp] theorem readBytes_ok {n : Nat} {a : ByteArr n} {i r : Bytes} :
    readBytes n i = .ok (a, r) ↔ i = a.val ++ r := by
  unfold readBytes
  rw [okOr_eq_ok]
  exact ⟨split_eq_some, fun h => h ▸ split_append a r⟩

/-- `try_from_slice`: the whole input is one encoding. -/
def tryFromSlice (α : Type) [BorshDeserialize α] (bs : Bytes) : Except IoError α := do
  let (a, rest) ← deserializeReader bs
  ensure (rest = []) .invalidData
  return a

theorem tryFromSlice_ok [BorshDeserialize α] {bs : Bytes} {a : α} :
    tryFromSlice α bs = .ok a ↔ deserializeReader bs = .ok (a, []) := by
  simp only [tryFromSlice, bind_eq_ok, ensure_eq_ok, pure_eq_ok, exists_unit, Prod.exists]
  constructor
  · rintro ⟨_, _, h, rfl, rfl⟩
    exact h
  · intro h
    exact ⟨a, [], h, rfl, rfl⟩

/-! ## Sequences of items -/

/-- `serialize_slice`: the items without a length marker. -/
def serializeItems [BorshSerialize α] (as : List α) : Except IoError Bytes := do
  return (← as.mapM serialize).flatten

/-- `n` items, one after the other. -/
def readItems [BorshDeserialize α] : (n : Nat) → Reader (Items α n)
  | 0 => pure ⟨[], rfl⟩
  | n + 1 => do
    let a ← deserializeReader
    let as ← readItems n
    return ⟨a :: as.val, by simp [as.property]⟩

theorem serializeItems_cons [BorshSerialize α] {a : α} {as : List α} {bs : Bytes} :
    serializeItems (a :: as) = .ok bs ↔
      ∃ x y, serialize a = .ok x ∧ serializeItems as = .ok y ∧ bs = x ++ y := by
  simp only [serializeItems, List.mapM_cons, bind_eq_ok, pure_eq_ok]
  constructor
  · rintro ⟨_, ⟨x, hx, l, hl, rfl⟩, rfl⟩
    exact ⟨x, _, hx, ⟨l, hl, rfl⟩, rfl⟩
  · rintro ⟨x, _, hx, ⟨l, hl, rfl⟩, rfl⟩
    exact ⟨_, ⟨x, hx, l, hl, rfl⟩, rfl⟩

/-! ## Lawful encodings -/

class LawfulBorsh (α : Type) [BorshSerialize α] [BorshDeserialize α] : Prop where
  total : ∀ a : α, ∃ bs, serialize a = .ok bs
  read_write : ∀ {a : α} {bs : Bytes} (rest : Bytes), serialize a = .ok bs →
    deserializeReader (bs ++ rest) = .ok (a, rest)
  write_read : ∀ {a : α} {i rest : Bytes}, deserializeReader i = .ok (a, rest) →
    ∃ bs, serialize a = .ok bs ∧ i = bs ++ rest
  /-- The bulk writer, where there is one, writes what the items write. -/
  bulk_write : ∀ {as : List α} {bs : Bytes}, u8Slice as = some bs → serializeItems as = .ok bs
  /-- The bulk reader, where there is one, reads what the item reader reads; where there is
  none it reads nothing. -/
  bulk_read : ∀ {n : Nat} {as : Option (Items α n)} {i r : Bytes},
    vecFromReader n i = .ok (as, r) →
      as = none ∧ r = i ∨ ∃ l, as = some l ∧ readItems n i = .ok (l, r)
  bulk_complete : ∀ {n : Nat} {l : Items α n} {i r : Bytes}, readItems n i = .ok (l, r) →
    ∃ (as : Option (Items α n)) (r' : Bytes), vecFromReader n i = .ok (as, r')

section Lawful

variable [BorshSerialize α] [BorshDeserialize α] [LawfulBorsh α]

/-- Two encodings that start the same string are the same encoding of the same value. -/
theorem serialize_append_inj {a b : α} {x y r s : Bytes} (ha : serialize a = .ok x)
    (hb : serialize b = .ok y) (h : x ++ r = y ++ s) : a = b ∧ x = y ∧ r = s := by
  have h₁ := LawfulBorsh.read_write r ha
  have h₂ := LawfulBorsh.read_write s hb
  rw [h, h₂] at h₁
  cases h₁
  exact ⟨rfl, List.append_cancel_right h, rfl⟩

theorem serialize_inj {a b : α} {x : Bytes} (ha : serialize a = .ok x) (hb : serialize b = .ok x) :
    a = b :=
  (serialize_append_inj ha hb (r := []) (s := []) rfl).1

theorem tryFromSlice_serialize {a : α} {bs : Bytes} (h : serialize a = .ok bs) :
    tryFromSlice α bs = .ok a := by
  rw [tryFromSlice_ok]
  simpa using LawfulBorsh.read_write [] h

theorem serialize_tryFromSlice {a : α} {bs : Bytes} (h : tryFromSlice α bs = .ok a) :
    serialize a = .ok bs := by
  rw [tryFromSlice_ok] at h
  obtain ⟨bs', hs, rfl⟩ := LawfulBorsh.write_read h
  simpa using hs

theorem serializeItems_total (as : List α) : ∃ bs, serializeItems as = .ok bs := by
  induction as with
  | nil => exact ⟨[], rfl⟩
  | cons a as ih =>
    obtain ⟨x, hx⟩ := LawfulBorsh.total a
    obtain ⟨y, hy⟩ := ih
    exact ⟨_, serializeItems_cons.mpr ⟨x, y, hx, hy, rfl⟩⟩

theorem readItems_serializeItems {n : Nat} {as : Items α n} {bs : Bytes} (rest : Bytes)
    (h : serializeItems as.val = .ok bs) : readItems n (bs ++ rest) = .ok (as, rest) := by
  obtain ⟨as, rfl⟩ := as
  induction as generalizing bs with
  | nil => cases h; rfl
  | cons a as ih =>
    obtain ⟨x, y, hx, hy, rfl⟩ := serializeItems_cons.mp h
    refine reader_bind_ok.mpr ⟨a, y ++ rest, ?_, ?_⟩
    · rw [List.append_assoc]
      exact LawfulBorsh.read_write _ hx
    · exact reader_bind_ok.mpr ⟨⟨as, rfl⟩, rest, ih hy, reader_pure_ok.mpr ⟨rfl, rfl⟩⟩

theorem serializeItems_readItems {n : Nat} {as : Items α n} {i rest : Bytes}
    (h : readItems n i = .ok (as, rest)) :
    ∃ bs, serializeItems as.val = .ok bs ∧ i = bs ++ rest := by
  induction n generalizing i with
  | zero =>
    obtain ⟨rfl, rfl⟩ := reader_pure_ok.mp h
    exact ⟨[], rfl, rfl⟩
  | succ n ih =>
    obtain ⟨a, m, ha, h⟩ := reader_bind_ok.mp h
    obtain ⟨as', m', has, h⟩ := reader_bind_ok.mp h
    obtain ⟨rfl, rfl⟩ := reader_pure_ok.mp h
    obtain ⟨x, hx, rfl⟩ := LawfulBorsh.write_read ha
    obtain ⟨y, hy, rfl⟩ := ih has
    exact ⟨_, serializeItems_cons.mpr ⟨x, y, hx, hy, rfl⟩, by simp⟩

/-- The items are told apart without their number, if it is the same. -/
theorem serializeItems_inj {as bs : List α} {x : Bytes} (hl : as.length = bs.length)
    (ha : serializeItems as = .ok x) (hb : serializeItems bs = .ok x) : as = bs := by
  have h₁ : readItems as.length (x ++ []) = .ok (⟨as, rfl⟩, []) := readItems_serializeItems [] ha
  have h₂ : readItems as.length (x ++ []) = .ok (⟨bs, hl.symm⟩, []) :=
    readItems_serializeItems [] hb
  rw [h₂] at h₁
  cases h₁
  rfl

end Lawful

/-! ## Byte arrays and integers -/

instance (n : Nat) : BorshSerialize (ByteArr n) where
  serialize a := .ok a.val

instance (n : Nat) : BorshDeserialize (ByteArr n) where
  deserializeReader := readBytes n

instance (n : Nat) : LawfulBorsh (ByteArr n) where
  total a := ⟨a.val, rfl⟩
  read_write rest h := by cases h; exact readBytes_ok.mpr rfl
  write_read h := ⟨_, rfl, readBytes_ok.mp h⟩
  bulk_write h := by cases h
  bulk_read h := by cases h; exact .inl ⟨rfl, rfl⟩
  bulk_complete _ := ⟨_, _, rfl⟩

instance : BorshSerialize UInt8 where
  serialize b := .ok [b]
  u8Slice bs := some bs

instance : BorshDeserialize UInt8 where
  deserializeReader
    | [] => .error .invalidData
    | b :: bs => .ok (b, bs)
  vecFromReader n := do return some (← readBytes n)

theorem serializeItems_u8 (bs : Bytes) : serializeItems bs = .ok bs := by
  induction bs with
  | nil => rfl
  | cons b bs ih => exact serializeItems_cons.mpr ⟨[b], bs, rfl, ih, rfl⟩

theorem readItems_u8 {n : Nat} {l : Items UInt8 n} {i r : Bytes} :
    readItems n i = .ok (l, r) ↔ i = l.val ++ r := by
  induction n generalizing i r with
  | zero =>
    obtain ⟨l, hl⟩ := l
    obtain rfl := List.length_eq_zero_iff.mp hl
    simp [readItems]
  | succ n ih =>
    simp only [readItems, reader_bind_ok, reader_pure_ok, ih]
    constructor
    · rintro ⟨b, m, hb, l', r', rfl, rfl, rfl⟩
      cases i with
      | nil => cases hb
      | cons c i => cases hb; rfl
    · rintro rfl
      obtain ⟨l, hl⟩ := l
      cases l with
      | nil => cases hl
      | cons b l => exact ⟨b, l ++ r, rfl, ⟨l, by simpa using hl⟩, r, rfl, rfl, rfl⟩

instance : LawfulBorsh UInt8 where
  total b := ⟨[b], rfl⟩
  read_write rest h := by cases h; rfl
  write_read {_ i _} h := by
    cases i with
    | nil => cases h
    | cons b i => cases h; exact ⟨[_], rfl, rfl⟩
  bulk_write h := by cases h; exact serializeItems_u8 _
  bulk_read {n as i r} h := by
    obtain ⟨a, m, ha, h⟩ := reader_bind_ok.mp h
    obtain ⟨rfl, rfl⟩ := reader_pure_ok.mp h
    exact .inr ⟨a, rfl, readItems_u8.mpr (readBytes_ok.mp ha)⟩
  bulk_complete {n l i r} h := by
    obtain rfl := readItems_u8.mp h
    exact ⟨some l, r, reader_bind_ok.mpr ⟨l, r, readBytes_ok.mpr rfl, reader_pure_ok.mpr ⟨rfl, rfl⟩⟩⟩

/-! ## Instances without a bulk path -/

/-- The laws of a type whose readers and writers have no bulk path. -/
theorem LawfulBorsh.ofItem [BorshSerialize α] [BorshDeserialize α]
    (total : ∀ a : α, ∃ bs, serialize a = .ok bs)
    (read_write : ∀ {a : α} {bs : Bytes} (rest : Bytes), serialize a = .ok bs →
      deserializeReader (bs ++ rest) = .ok (a, rest))
    (write_read : ∀ {a : α} {i rest : Bytes}, deserializeReader i = .ok (a, rest) →
      ∃ bs, serialize a = .ok bs ∧ i = bs ++ rest)
    (hw : ∀ as : List α, u8Slice as = none)
    (hr : ∀ n, (vecFromReader n : Reader (Option (Items α n))) = pure none) : LawfulBorsh α where
  total := total
  read_write := read_write
  write_read := write_read
  bulk_write h := by rw [hw] at h; cases h
  bulk_read h := by
    rw [hr] at h
    obtain ⟨rfl, rfl⟩ := reader_pure_ok.mp h
    exact .inl ⟨rfl, rfl⟩
  bulk_complete _ := ⟨none, _, by rw [hr]; rfl⟩

/-! ### Types encoded as another type -/

@[reducible] def serializeAs [BorshSerialize β] (e : α ≃ β) : BorshSerialize α where
  serialize a := serialize (e a)

@[reducible] def deserializeAs [BorshDeserialize β] (e : α ≃ β) : BorshDeserialize α where
  deserializeReader := do return e.symm (← deserializeReader)

theorem lawfulAs [BorshSerialize β] [BorshDeserialize β] [LawfulBorsh β] (e : α ≃ β) :
    @LawfulBorsh α (serializeAs e) (deserializeAs e) := by
  let _ := serializeAs e
  let _ := deserializeAs e
  refine .ofItem (fun a => LawfulBorsh.total (e a)) ?_ ?_ (fun _ => rfl) (fun _ => rfl)
  · intro a bs rest h
    refine reader_bind_ok.mpr ⟨e a, rest, LawfulBorsh.read_write rest h, ?_⟩
    exact reader_pure_ok.mpr ⟨e.symm_apply_apply a, rfl⟩
  · intro a i rest h
    obtain ⟨b, m, hb, h⟩ := reader_bind_ok.mp h
    obtain ⟨rfl, rfl⟩ := reader_pure_ok.mp h
    obtain ⟨bs, hs, rfl⟩ := LawfulBorsh.write_read hb
    refine ⟨bs, ?_, rfl⟩
    show serialize (e (e.symm b)) = .ok bs
    rw [e.apply_symm_apply, hs]

instance : BorshSerialize UInt16 := serializeAs Pod.bytes
instance : BorshDeserialize UInt16 := deserializeAs Pod.bytes
instance : LawfulBorsh UInt16 := lawfulAs Pod.bytes

instance : BorshSerialize UInt64 := serializeAs Pod.bytes
instance : BorshDeserialize UInt64 := deserializeAs Pod.bytes
instance : LawfulBorsh UInt64 := lawfulAs Pod.bytes

/-! ### `Option` -/

instance [BorshSerialize α] : BorshSerialize (Option α) where
  serialize
    | none => .ok [0]
    | some a => do return 1 :: (← serialize a)

instance [BorshDeserialize α] : BorshDeserialize (Option α) where
  deserializeReader := do
    let flag : UInt8 ← deserializeReader
    if flag = 0 then return none
    else if flag = 1 then return some (← deserializeReader)
    else fun _ => .error .invalidData

instance [BorshSerialize α] [BorshDeserialize α] [LawfulBorsh α] : LawfulBorsh (Option α) := by
  refine .ofItem ?_ ?_ ?_ (fun _ => rfl) (fun _ => rfl)
  · intro a
    cases a with
    | none => exact ⟨[0], rfl⟩
    | some a =>
      obtain ⟨bs, h⟩ := LawfulBorsh.total a
      exact ⟨1 :: bs, bind_eq_ok.mpr ⟨bs, h, rfl⟩⟩
  · intro a bs rest h
    cases a with
    | none => cases h; rfl
    | some a =>
      obtain ⟨x, hx, h⟩ := bind_eq_ok.mp h
      cases h
      refine reader_bind_ok.mpr ⟨1, x ++ rest, rfl, ?_⟩
      exact reader_bind_ok.mpr ⟨a, rest, LawfulBorsh.read_write rest hx, rfl⟩
  · intro a i rest h
    obtain ⟨flag, m, hf, h₁⟩ := reader_bind_ok.mp h
    obtain ⟨_, hs, rfl⟩ := LawfulBorsh.write_read hf
    cases hs
    split at h₁
    · subst flag
      obtain ⟨rfl, rfl⟩ := reader_pure_ok.mp h₁
      exact ⟨[0], rfl, rfl⟩
    · split at h₁
      · subst flag
        obtain ⟨b, m', hb, h₂⟩ := reader_bind_ok.mp h₁
        obtain ⟨rfl, rfl⟩ := reader_pure_ok.mp h₂
        obtain ⟨bs, hs, rfl⟩ := LawfulBorsh.write_read hb
        exact ⟨1 :: bs, bind_eq_ok.mpr ⟨bs, hs, rfl⟩, rfl⟩
      · cases h₁

/-! ### Tuples, the encoding of structs -/

instance [BorshSerialize α] [BorshSerialize β] : BorshSerialize (α × β) where
  serialize p := do return (← serialize p.1) ++ (← serialize p.2)

instance [BorshDeserialize α] [BorshDeserialize β] : BorshDeserialize (α × β) where
  deserializeReader := do return (← deserializeReader, ← deserializeReader)

theorem serialize_pair_ok [BorshSerialize α] [BorshSerialize β] {p : α × β} {bs : Bytes} :
    serialize p = .ok bs ↔ ∃ x y, serialize p.1 = .ok x ∧ serialize p.2 = .ok y ∧ bs = x ++ y := by
  show (do return (← serialize p.1) ++ (← serialize p.2)) = .ok bs ↔ _
  simp only [bind_eq_ok, pure_eq_ok]
  constructor
  · rintro ⟨x, hx, y, hy, rfl⟩
    exact ⟨x, y, hx, hy, rfl⟩
  · rintro ⟨x, y, hx, hy, rfl⟩
    exact ⟨x, hx, y, hy, rfl⟩

instance [BorshSerialize α] [BorshDeserialize α] [LawfulBorsh α] [BorshSerialize β]
    [BorshDeserialize β] [LawfulBorsh β] : LawfulBorsh (α × β) := by
  refine .ofItem ?_ ?_ ?_ (fun _ => rfl) (fun _ => rfl)
  · intro p
    obtain ⟨x, hx⟩ := LawfulBorsh.total p.1
    obtain ⟨y, hy⟩ := LawfulBorsh.total p.2
    exact ⟨_, serialize_pair_ok.mpr ⟨x, y, hx, hy, rfl⟩⟩
  · intro p bs rest h
    obtain ⟨x, y, hx, hy, rfl⟩ := serialize_pair_ok.mp h
    rw [List.append_assoc]
    refine reader_bind_ok.mpr ⟨p.1, y ++ rest, LawfulBorsh.read_write _ hx, ?_⟩
    exact reader_bind_ok.mpr ⟨p.2, rest, LawfulBorsh.read_write _ hy, rfl⟩
  · intro p i rest h
    obtain ⟨a, m, ha, h⟩ := reader_bind_ok.mp h
    obtain ⟨b, m', hb, h⟩ := reader_bind_ok.mp h
    obtain ⟨rfl, rfl⟩ := reader_pure_ok.mp h
    obtain ⟨x, hx, rfl⟩ := LawfulBorsh.write_read ha
    obtain ⟨y, hy, rfl⟩ := LawfulBorsh.write_read hb
    exact ⟨x ++ y, serialize_pair_ok.mpr ⟨x, y, hx, hy, rfl⟩, by simp⟩

end Lib.Borsh
