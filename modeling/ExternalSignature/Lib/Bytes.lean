import Mathlib.Algebra.Group.Int.Defs
import Mathlib.Algebra.Group.Nat.Defs
import Mathlib.Data.List.Basic

/-!
# Byte strings

`Bytes` is a byte string, `ByteArr n` one of exactly `n` bytes (`[u8; n]`). `leBytes`/`leNat`
are the fixed-width little-endian encoding of a number and its inverse, `beNat` the big-endian
reading. `split n` cuts the first `n` bytes off a string. A reader that keeps an offset looks at
`bytes.drop offset`.
-/

namespace Lib

abbrev Bytes := List UInt8

/-- `[u8; n]`. -/
abbrev ByteArr (n : Nat) := { bs : Bytes // bs.length = n }

/-- The bytes of an ASCII literal. -/
def ascii (s : String) : Bytes := s.toByteArray.data.toList

namespace ByteArr

/-- `[0u8; n]`. -/
def zero (n : Nat) : ByteArr n := ⟨List.replicate n 0, List.length_replicate⟩

end ByteArr

/-! ## Splitting -/

/-- The first `n` bytes and the rest. -/
def split (n : Nat) (bs : Bytes) : Option (ByteArr n × Bytes) :=
  if h : n ≤ bs.length then some (⟨bs.take n, by simp [h]⟩, bs.drop n) else none

theorem split_append {n : Nat} (a : ByteArr n) (rest : Bytes) :
    split n (a.val ++ rest) = some (a, rest) := by
  have h := a.property
  unfold split
  rw [dif_pos (by simp [h])]
  simp [← h]

theorem split_eq_some {n : Nat} {bs rest : Bytes} {a : ByteArr n} (h : split n bs = some (a, rest)) :
    bs = a.val ++ rest := by
  unfold split at h
  split at h
  · cases h; simp
  · cases h

/-! ## Numbers -/

/-- The `w` little-endian bytes of `n`. -/
def leBytes : Nat → Nat → Bytes
  | 0, _ => []
  | w + 1, n => UInt8.ofNat n :: leBytes w (n / 256)

/-- The number that little-endian bytes spell. -/
def leNat : Bytes → Nat
  | [] => 0
  | b :: bs => b.toNat + 256 * leNat bs

/-- The number that big-endian bytes spell. -/
def beNat (bs : Bytes) : Nat := leNat bs.reverse

@[simp] theorem length_leBytes (w n : Nat) : (leBytes w n).length = w := by
  induction w generalizing n with
  | zero => rfl
  | succ w ih => simp [leBytes, ih]

theorem leNat_lt (bs : Bytes) : leNat bs < 256 ^ bs.length := by
  induction bs with
  | nil => simp [leNat]
  | cons b bs ih =>
    have hb := b.toNat_lt
    simp only [leNat, List.length_cons, Nat.pow_succ]
    omega

theorem leNat_leBytes {w n : Nat} (h : n < 256 ^ w) : leNat (leBytes w n) = n := by
  induction w generalizing n with
  | zero => simp at h; simp [leBytes, leNat, h]
  | succ w ih =>
    rw [Nat.pow_succ] at h
    rw [leBytes, leNat, ih (by omega), UInt8.toNat_ofNat']
    omega

theorem leBytes_leNat (bs : Bytes) : leBytes bs.length (leNat bs) = bs := by
  induction bs with
  | nil => rfl
  | cons b bs ih =>
    have hb := b.toNat_lt
    have hm : (b.toNat + 256 * leNat bs) / 256 = leNat bs := by omega
    have hr : UInt8.ofNat (b.toNat + 256 * leNat bs) = b := by
      apply UInt8.toNat_inj.mp
      rw [UInt8.toNat_ofNat']; omega
    rw [leNat, List.length_cons, leBytes, hm, hr, ih]

/-- The `n` big-endian bytes of a number. -/
def ByteArr.ofNat (n k : Nat) : ByteArr n := ⟨(leBytes n k).reverse, by simp⟩

/-- Big-endian bytes are the encoding of their number. -/
theorem ByteArr.ofNat_beNat {n : Nat} {bs : Bytes} (h : bs.length = n) :
    (ByteArr.ofNat n (beNat bs)).val = bs := by
  have hle := leBytes_leNat bs.reverse
  rw [List.length_reverse, h] at hle
  show (leBytes n (leNat bs.reverse)).reverse = bs
  rw [hle, List.reverse_reverse]

theorem beNat_lt (bs : Bytes) : beNat bs < 256 ^ bs.length := by
  simpa [beNat] using leNat_lt bs.reverse

/-! ## Behind an offset -/

section Drop

variable {bytes rest : Bytes} {offset i j : Nat}

theorem getD_add (h : bytes.drop offset = rest) :
    bytes.getD (offset + i) 0 = rest.getD i 0 := by
  rw [← h, List.getD_eq_getElem?_getD, List.getD_eq_getElem?_getD, List.getElem?_drop]

theorem getD_offset (h : bytes.drop offset = rest) : bytes.getD offset 0 = rest.getD 0 0 :=
  getD_add (i := 0) h

theorem extract_add (h : bytes.drop offset = rest) :
    bytes.extract (offset + i) (offset + j) = rest.extract i j := by
  rw [← h, List.extract_eq_take_drop, List.extract_eq_take_drop, List.drop_drop,
    Nat.add_sub_add_left]

theorem length_drop_eq (h : bytes.drop offset = rest) : bytes.length - offset = rest.length := by
  rw [← h, List.length_drop]

/-- The byte at an offset in range, and the rest. -/
theorem drop_eq_cons (h : offset < bytes.length) :
    bytes.drop offset = bytes.getD offset 0 :: bytes.drop (offset + 1) := by
  rw [List.drop_eq_getElem_cons h, List.getD_eq_getElem?_getD, List.getElem?_eq_getElem h,
    Option.getD_some]

/-- A piece in range, and the rest. -/
theorem drop_eq_extract_append (bytes : Bytes) {stop : Nat} (h : offset ≤ stop) :
    bytes.drop offset = bytes.extract offset stop ++ bytes.drop stop := by
  have hstop : bytes.drop stop = (bytes.drop offset).drop (stop - offset) := by
    rw [List.drop_drop, Nat.add_sub_cancel' h]
  rw [hstop, List.extract_eq_take_drop, List.take_append_drop]

theorem length_extract_of_le (start : Nat) {stop : Nat} (h : stop ≤ bytes.length) :
    (bytes.extract start stop).length = stop - start := by
  rw [List.extract_eq_take_drop, List.length_take, List.length_drop]
  omega

theorem drop_of_append {a b : Bytes} (h : bytes.drop offset = a ++ b) :
    bytes.drop (offset + a.length) = b := by
  rw [← List.drop_drop, h, List.drop_left]

theorem extract_of_append {a b : Bytes} (h : bytes.drop offset = a ++ b) :
    bytes.extract offset (offset + a.length) = a := by
  rw [← Nat.add_zero offset, Nat.add_assoc, extract_add h, List.extract_eq_take_drop]
  simp

end Drop

/-! ## Text -/

/-- Text before a delimiter that it does not contain can be read back. -/
theorem append_delimiter_inj {α : Type} {d : α} {a b x y : List α} (ha : d ∉ a) (hb : d ∉ b)
    (h : a ++ d :: x = b ++ d :: y) : a = b ∧ x = y := by
  induction a generalizing b with
  | nil =>
    cases b with
    | nil => exact ⟨rfl, List.tail_eq_of_cons_eq h⟩
    | cons c b => exact absurd (List.head_eq_of_cons_eq h ▸ List.mem_cons_self) hb
  | cons c a ih =>
    cases b with
    | nil => exact absurd (List.head_eq_of_cons_eq h ▸ List.mem_cons_self) ha
    | cons c' b =>
      obtain ⟨rfl, htail⟩ := List.cons.inj h
      obtain ⟨rfl, hxy⟩ := ih (List.not_mem_of_not_mem_cons ha) (List.not_mem_of_not_mem_cons hb) htail
      exact ⟨rfl, hxy⟩

theorem ascii_ofList {l : List Char} (h : ∀ c ∈ l, c.toNat < 128) :
    ascii (String.ofList l) = l.map fun c => .ofNat c.toNat := by
  have he : ∀ c ∈ l, String.utf8EncodeChar c = [.ofNat c.toNat] := by
    intro c hc
    have hle : c.val.toNat ≤ 127 := Nat.le_of_lt_succ (h c hc)
    simp only [String.utf8EncodeChar, if_pos hle]
    rfl
  rw [ascii, String.toByteArray_ofList, List.utf8Encode, List.data_toByteArray,
    List.flatMap_congr he]
  exact List.flatMap_pure_eq_map _ _

/-- A number is written in decimal digits. -/
theorem mem_ascii_repr {n : Nat} {b : UInt8} (h : b ∈ ascii (Nat.repr n)) : 48 ≤ b ∧ b ≤ 57 := by
  have hdigit : ∀ c ∈ Nat.toDigits 10 n, 48 ≤ c.toNat ∧ c.toNat ≤ 57 := by
    intro c hc
    have hd := Nat.isDigit_of_mem_toDigits (by decide) (by decide) hc
    simp only [Char.isDigit, Bool.and_eq_true, decide_eq_true_eq] at hd
    exact ⟨UInt32.le_iff_toNat_le.mp hd.1, UInt32.le_iff_toNat_le.mp hd.2⟩
  rw [Nat.repr_eq_ofList_toDigits, ascii_ofList fun c hc => by have := hdigit c hc; omega] at h
  obtain ⟨c, hc, rfl⟩ := List.mem_map.mp h
  obtain ⟨h₁, h₂⟩ := hdigit c hc
  rw [UInt8.le_iff_toNat_le, UInt8.le_iff_toNat_le, UInt8.toNat_ofNat']
  exact ⟨by show 48 ≤ _; omega, by show _ ≤ 57; omega⟩

end Lib
