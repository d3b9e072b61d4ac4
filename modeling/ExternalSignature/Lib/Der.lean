import ExternalSignature.Lib.Bytes
import Mathlib.Data.Nat.Digits.Defs
import Mathlib.Data.Nat.Digits.Lemmas

/-!
# Distinguished encoding rules

A DER element is a tag, the length of its content and the content. A length has one encoding: one
byte below 128, and above it a count of bytes and that many big-endian bytes without a leading
zero (`Der.length`). Integers are big-endian two's complement without a superfluous leading byte;
only the ones of natural numbers are here. An object identifier packs its arcs into groups of
seven bits.
-/

namespace Lib

/-! ## Minimal big-endian numbers -/

/-- The big-endian bytes of a number, none of them a leading zero. -/
def bigEndian (n : Nat) : Bytes := ((Nat.digits 256 n).map UInt8.ofNat).reverse

theorem leNat_eq_ofDigits (bs : Bytes) : leNat bs = Nat.ofDigits 256 (bs.map UInt8.toNat) := by
  induction bs with
  | nil => rfl
  | cons b bs ih => rw [leNat, ih, List.map_cons, Nat.ofDigits_cons]

/-- The digits of a number survive as bytes. -/
theorem map_toNat_digits (n : Nat) :
    ((Nat.digits 256 n).map UInt8.ofNat).map UInt8.toNat = Nat.digits 256 n := by
  rw [List.map_map]
  apply (List.map_congr_left _).trans (List.map_id _)
  intro d hd
  have := Nat.digits_lt_base (by omega) hd
  show (UInt8.ofNat d).toNat = d
  rw [UInt8.toNat_ofNat']
  omega

theorem beNat_bigEndian (n : Nat) : beNat (bigEndian n) = n := by
  rw [beNat, bigEndian, List.reverse_reverse, leNat_eq_ofDigits, map_toNat_digits,
    Nat.ofDigits_digits]

/-- Bytes without a leading zero are the encoding of their number. -/
theorem bigEndian_beNat {bs : Bytes} (h : bs.head? ≠ some 0) : bigEndian (beNat bs) = bs := by
  have hdigits : Nat.digits 256 (beNat bs) = bs.reverse.map UInt8.toNat := by
    rw [beNat, leNat_eq_ofDigits]
    apply Nat.digits_ofDigits 256 (by omega)
    · intro d hd
      obtain ⟨b, -, rfl⟩ := List.mem_map.mp hd
      exact b.toNat_lt
    · intro hne hlast
      rw [List.getLast_map, List.getLast_reverse] at hlast
      apply h
      rw [List.head?_eq_some_head (by simpa using hne), UInt8.toNat_inj.mp (hlast.trans UInt8.toNat_zero.symm)]
  rw [bigEndian, hdigits, List.map_map]
  have hid : UInt8.ofNat ∘ UInt8.toNat = id := by
    funext b
    exact UInt8.ofNat_toNat
  rw [hid, List.map_id, List.reverse_reverse]

theorem head?_bigEndian (n : Nat) : (bigEndian n).head? ≠ some 0 := by
  intro h
  by_cases hn : n = 0
  · subst hn
    simp [bigEndian] at h
  · have hne := (Nat.digits_ne_nil_iff_ne_zero (b := 256)).mpr hn
    have hlast := Nat.getLast_digit_ne_zero 256 hn
    rw [bigEndian, List.head?_reverse, List.getLast?_map, List.getLast?_eq_some_getLast hne,
      Option.map_some, Option.some.injEq] at h
    have hlt := Nat.digits_lt_base (b := 256) (by omega) (List.getLast_mem hne)
    have := congrArg UInt8.toNat h
    rw [UInt8.toNat_ofNat'] at this
    change _ = 0 at this
    omega

@[simp] theorem beNat_nil : beNat [] = 0 := rfl

theorem leNat_append (bs cs : Bytes) :
    leNat (bs ++ cs) = leNat bs + 256 ^ bs.length * leNat cs := by
  induction bs with
  | nil => simp [leNat]
  | cons b bs ih => rw [List.cons_append, leNat, leNat, ih, List.length_cons, Nat.pow_succ]; ring

theorem beNat_cons (b : UInt8) (bs : Bytes) :
    beNat (b :: bs) = b.toNat * 256 ^ bs.length + beNat bs := by
  rw [beNat, List.reverse_cons, leNat_append, List.length_reverse, leNat, leNat, beNat]
  ring

/-- A byte more on the right. -/
theorem beNat_snoc (bs : Bytes) (b : UInt8) : beNat (bs ++ [b]) = beNat bs * 256 + b.toNat := by
  rw [beNat, List.reverse_append, List.reverse_singleton, List.singleton_append, leNat, beNat]
  ring

theorem length_bigEndian_le {n k : Nat} (h : n < 256 ^ k) : (bigEndian n).length ≤ k := by
  rw [bigEndian, List.length_reverse, List.length_map, Nat.digits_length_le_iff (by omega)]
  exact h

namespace Der

/-! ## Elements -/

/-- The encoding of a length, for lengths of at most 126 bytes. -/
def length (n : Nat) : Bytes :=
  if n < 128 then [.ofNat n] else .ofNat (128 + (bigEndian n).length) :: bigEndian n

theorem length_of_lt {n : Nat} (h : n < 128) : length n = [.ofNat n] := if_pos h

theorem length_of_ge {n : Nat} (h : 128 ≤ n) :
    length n = .ofNat (128 + (bigEndian n).length) :: bigEndian n := if_neg (by omega)

/-- Tag, length, content. -/
def element (tag : UInt8) (content : Bytes) : Bytes := tag :: (length content.length ++ content)

/-- An element with a length of one byte. -/
theorem element_of_lt {tag : UInt8} {content : Bytes} (h : content.length < 128) :
    element tag content = tag :: .ofNat content.length :: content := by
  rw [element, length_of_lt h]
  rfl

def sequence (content : Bytes) : Bytes := element 0x30 content

/-- A bit string of whole bytes: no unused bits. -/
def bitString (content : Bytes) : Bytes := element 0x03 (0 :: content)

/-! ## Integers -/

/-- The content of a natural number: a leading zero keeps the sign bit clear. -/
def naturalContent (n : Nat) : Bytes :=
  match bigEndian n with
  | [] => [0]
  | b :: bs => if b < 0x80 then b :: bs else 0 :: b :: bs

def natural (n : Nat) : Bytes := element 0x02 (naturalContent n)

/-- The content is that of a natural number: not empty, not negative and without a superfluous
leading zero. -/
def Canonical : Bytes → Prop
  | [] => False
  | [b] => b < 0x80
  | b :: c :: _ => b < 0x80 ∧ (b = 0 → 0x80 ≤ c)

@[simp] theorem beNat_zero_cons (bs : Bytes) : beNat (0 :: bs) = beNat bs := by
  rw [beNat_cons]
  simp

theorem beNat_naturalContent (n : Nat) : beNat (naturalContent n) = n := by
  have hn := beNat_bigEndian n
  unfold naturalContent
  split
  · rename_i h
    rw [← hn, h, beNat_zero_cons]
  · rename_i b bs h
    rw [h] at hn
    split
    · exact hn
    · rw [beNat_zero_cons, hn]

theorem canonical_naturalContent (n : Nat) : Canonical (naturalContent n) := by
  have hhead := head?_bigEndian n
  unfold naturalContent
  split
  · exact UInt8.lt_iff_toNat_lt.mpr (by decide)
  · rename_i b bs h
    rw [h] at hhead
    split
    · rename_i hb
      cases bs with
      | nil => exact hb
      | cons c cs => exact ⟨hb, fun h0 => absurd (congrArg some h0) hhead⟩
    · rename_i hb
      exact ⟨UInt8.lt_iff_toNat_lt.mpr (by decide), fun _ => UInt8.not_lt.mp hb⟩

/-- A canonical content is the one of its number. -/
theorem naturalContent_beNat {bs : Bytes} (h : Canonical bs) : naturalContent (beNat bs) = bs := by
  cases bs with
  | nil => exact h.elim
  | cons b bs =>
    by_cases hb : b = 0
    · subst hb
      cases bs with
      | nil => rfl
      | cons c cs =>
        have hc : 0x80 ≤ c := h.2 rfl
        have hne : (c :: cs).head? ≠ some 0 := by
          intro h0
          cases h0
          exact absurd hc (by decide)
        rw [beNat_zero_cons, naturalContent, bigEndian_beNat hne]
        exact if_neg (UInt8.not_lt.mpr hc)
    · have hne : (b :: bs).head? ≠ some 0 := fun h0 => hb (Option.some.inj h0)
      have hlt : b < 0x80 := by
        cases bs with
        | nil => exact h
        | cons c cs => exact h.1
      rw [naturalContent, bigEndian_beNat hne]
      exact if_pos hlt

/-- A number below `2 ^ (8 * k)` takes at most one byte more than `k`. -/
theorem length_naturalContent_le {n k : Nat} (h : n < 256 ^ k) :
    (naturalContent n).length ≤ k + 1 := by
  have hlen := length_bigEndian_le h
  unfold naturalContent
  split
  · simp
  · rename_i b bs hb
    rw [hb] at hlen
    split
    · exact Nat.le_succ_of_le hlen
    · exact Nat.succ_le_succ hlen

/-! ## Object identifiers -/

/-- Groups of seven bits, all but the last one marked. -/
def base128 (n : Nat) : Bytes :=
  match Nat.digits 128 n with
  | [] => [0]
  | d :: ds => (ds.map fun d => .ofNat (128 + d)).reverse ++ [.ofNat d]

/-- The content of an object identifier: its first two arcs share a group. -/
def oidContent : List Nat → Bytes
  | a :: b :: arcs => base128 (40 * a + b) ++ arcs.flatMap base128
  | _ => []

def oid (arcs : List Nat) : Bytes := element 0x06 (oidContent arcs)

end Der

end Lib
