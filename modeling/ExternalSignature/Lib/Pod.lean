import ExternalSignature.Lib.Bytes
import Mathlib.Logic.Equiv.Prod

/-!
# Plain data

A `Pod` type is laid out in a fixed number of bytes, and every byte string of that length is one
of its values (`bytemuck::Pod` with no implicit padding). A struct is laid out as the tuple of its
fields (`Pod.ofEquiv`). `Pod.read` looks at the front of a buffer and `Pod.write` overwrites it.
-/

namespace Lib

class Pod (α : Type) where
  size : Nat
  bytes : α ≃ ByteArr size

namespace Pod

variable {α β : Type}

instance (n : Nat) : Pod (ByteArr n) := ⟨n, Equiv.refl _⟩

instance : Pod UInt8 where
  size := 1
  bytes := {
    toFun b := ⟨[b], rfl⟩
    invFun bs := bs.val.headD 0
    left_inv _ := rfl
    right_inv := fun ⟨bs, h⟩ => by
      obtain ⟨b, rfl⟩ := List.length_eq_one_iff.mp h
      rfl }

/-- An integer of `n` little-endian bytes. -/
@[reducible] def ofNat (n : Nat) (toNat : α → Nat) (mk : Nat → α) (lt : ∀ a, toNat a < 256 ^ n)
    (mk_toNat : ∀ a, mk (toNat a) = a) (toNat_mk : ∀ k < 256 ^ n, toNat (mk k) = k) : Pod α where
  size := n
  bytes := {
    toFun a := ⟨leBytes n (toNat a), length_leBytes n _⟩
    invFun bs := mk (leNat bs.val)
    left_inv a := by
      show mk (leNat (leBytes n (toNat a))) = a
      rw [leNat_leBytes (lt a), mk_toNat]
    right_inv := fun ⟨bs, h⟩ => by
      subst h
      apply Subtype.ext
      show leBytes bs.length (toNat (mk (leNat bs))) = bs
      rw [toNat_mk _ (leNat_lt bs), leBytes_leNat] }

instance : Pod UInt16 := .ofNat 2 UInt16.toNat UInt16.ofNat (fun a => a.toNat_lt)
  (fun _ => UInt16.ofNat_toNat) (fun _ h => by rw [UInt16.toNat_ofNat']; exact Nat.mod_eq_of_lt h)

instance : Pod UInt64 := .ofNat 8 UInt64.toNat UInt64.ofNat (fun a => a.toNat_lt)
  (fun _ => UInt64.ofNat_toNat) (fun _ h => by rw [UInt64.toNat_ofNat']; exact Nat.mod_eq_of_lt h)

/-- Two byte arrays, one after the other. -/
def append (m n : Nat) : ByteArr m × ByteArr n ≃ ByteArr (m + n) where
  toFun p := ⟨p.1.val ++ p.2.val, by rw [List.length_append, p.1.property, p.2.property]⟩
  invFun bs := (⟨bs.val.take m, by simp [bs.property]⟩, ⟨bs.val.drop m, by simp [bs.property]⟩)
  left_inv := fun ⟨⟨a, ha⟩, ⟨b, hb⟩⟩ => by subst ha; simp
  right_inv bs := Subtype.ext (List.take_append_drop m bs.val)

instance [Pod α] [Pod β] : Pod (α × β) where
  size := size α + size β
  bytes := (Equiv.prodCongr bytes bytes).trans (append _ _)

@[reducible] def ofEquiv [Pod β] (e : α ≃ β) : Pod α where
  size := size β
  bytes := e.trans bytes

/-! ## Buffers -/

/-- `bytemuck::from_bytes` on the first `size` bytes. -/
def read (α : Type) [Pod α] (buf : Bytes) : Option α :=
  (split (size α) buf).map fun p => bytes.symm p.1

/-- Store a value in the first `size` bytes, through `bytemuck::from_bytes_mut`. -/
def write [Pod α] (a : α) (buf : Bytes) : Bytes := (bytes a).val ++ buf.drop (size α)

variable [Pod α]

@[simp] theorem read_write (a : α) (buf : Bytes) : read α (write a buf) = some a := by
  simp [read, write, split_append]

@[simp] theorem write_write (a b : α) (buf : Bytes) : write a (write b buf) = write a buf := by
  simp [write, (bytes b).property]

theorem length_write (a : α) {buf : Bytes} (h : size α ≤ buf.length) :
    (write a buf).length = buf.length := by
  rw [write, List.length_append, (bytes a).property, List.length_drop, Nat.add_sub_cancel' h]

/-- A buffer of the exact size is overwritten as a whole. -/
theorem write_eq_bytes (a : α) {buf : Bytes} (h : buf.length = size α) :
    write a buf = (bytes a).val := by
  rw [write, List.drop_of_length_le (Nat.le_of_eq h), List.append_nil]

theorem read_eq_some {buf : Bytes} {a : α} :
    read α buf = some a ↔ ∃ rest, buf = (bytes a).val ++ rest := by
  simp only [read, Option.map_eq_some_iff]
  constructor
  · rintro ⟨⟨bs, rest⟩, h, rfl⟩
    exact ⟨rest, by simpa using split_eq_some h⟩
  · rintro ⟨rest, rfl⟩
    exact ⟨(bytes a, rest), split_append _ _, by simp⟩

/-- The first field of a struct is at its start. -/
theorem read_fst [Pod β] {buf : Bytes} {p : α × β} (h : read (α × β) buf = some p) :
    read α buf = some p.1 := by
  obtain ⟨rest, rfl⟩ := read_eq_some.mp h
  exact read_eq_some.mpr ⟨(bytes p.2).val ++ rest, List.append_assoc _ _ _⟩

theorem drop_bytes (a : α) (rest : Bytes) (k : Nat) :
    ((bytes a).val ++ rest).drop (size α + k) = rest.drop k := by
  have h := @List.drop_length_add_append _ (bytes a).val rest k
  rwa [(bytes a).property] at h

/-- Values that are laid out one after the other are read at the multiples of the size. -/
theorem read_flatMap {items : List α} (rest : Bytes) {i : Nat} {a : α} (h : items[i]? = some a) :
    read α ((items.flatMap (fun a => (bytes a).val) ++ rest).drop (i * size α)) = some a := by
  induction items generalizing i with
  | nil => cases h
  | cons b items ih =>
    rw [List.flatMap_cons, List.append_assoc]
    cases i with
    | zero =>
      obtain rfl : b = a := Option.some.inj h
      rw [Nat.zero_mul, List.drop_zero]
      exact read_eq_some.mpr ⟨_, rfl⟩
    | succ i =>
      rw [Nat.succ_mul, Nat.add_comm, drop_bytes]
      exact ih h

end Pod

end Lib
