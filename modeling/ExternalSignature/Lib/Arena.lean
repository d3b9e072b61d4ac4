import Mathlib.Algebra.Group.Nat.Defs
import Mathlib.Data.List.Basic

/-!
# Bump allocation

A `Span` is a half-open range of addresses and `alignUp` the first multiple of an alignment at or
above an address, also as machine code computes it (`toNat_maskUp`). An `Arena` hands out spans
upward from a cursor and takes none back: spans placed one after another lie inside it and apart
(`Arena.Holds.place`), and a span is refused only when it does not fit (`Arena.place_eq_none`).
-/

namespace Lib

/-! ## Ranges -/

/-- The `size` addresses from `start`. -/
structure Span where
  start : Nat
  size : Nat
  deriving DecidableEq

namespace Span

/-- The address behind the last one. -/
def stop (s : Span) : Nat := s.start + s.size

/-- One of the two ranges ends before the other one starts. -/
def Apart (s t : Span) : Prop := s.stop ≤ t.start ∨ t.stop ≤ s.start

/-- The range lies between two addresses. -/
def Within (s : Span) (bottom top : Nat) : Prop := bottom ≤ s.start ∧ s.stop ≤ top

theorem Apart.symm {s t : Span} (h : s.Apart t) : t.Apart s := Or.symm h

theorem Within.mono {s : Span} {bottom top top' : Nat} (h : s.Within bottom top) (ht : top ≤ top') :
    s.Within bottom top' := ⟨h.1, Nat.le_trans h.2 ht⟩

end Span

/-! ## Alignment -/

/-- The first multiple of `align` at or above `pos`. -/
def alignUp (align pos : Nat) : Nat := (pos + align - 1) / align * align

variable {align pos : Nat}

theorem dvd_alignUp : align ∣ alignUp align pos := Nat.dvd_mul_left align _

theorem le_alignUp (h : 0 < align) : pos ≤ alignUp align pos := by
  have hm := Nat.mod_lt (pos + align - 1) h
  have hd := Nat.div_add_mod' (pos + align - 1) align
  unfold alignUp
  omega

/-- No multiple of the alignment is skipped. -/
theorem alignUp_least {n : Nat} (h : 0 < align) (hd : align ∣ n) (hn : pos ≤ n) :
    alignUp align pos ≤ n := by
  obtain ⟨k, rfl⟩ := hd
  have hk : (pos + align - 1) / align ≤ k := by
    rw [Nat.div_le_iff_le_mul_add_pred h]
    omega
  rw [alignUp, Nat.mul_comm align k]
  exact Nat.mul_le_mul_right align hk

/-- Clearing the low `k` bits of a word. -/
theorem land_highBits {x k : Nat} (hx : x < 2 ^ 64) :
    x &&& (2 ^ 64 - 1 - (2 ^ k - 1)) = x / 2 ^ k * 2 ^ k := by
  have hk : 2 ^ 64 - 1 - (2 ^ k - 1) = 2 ^ 64 - ((2 ^ k - 1) + 1) := by omega
  apply Nat.eq_of_testBit_eq
  intro i
  by_cases hlow : 2 ^ k - 1 < 2 ^ 64
  · rw [hk, Nat.testBit_and, Nat.testBit_two_pow_sub_succ hlow, Nat.testBit_mul_two_pow,
      Nat.testBit_div_two_pow, Nat.testBit_two_pow_sub_one]
    by_cases hi : k ≤ i
    · by_cases hi' : i < 64
      · simp [hi, hi', Nat.sub_add_cancel hi, Nat.not_lt.mpr hi]
      · have := Nat.testBit_lt_two_pow (Nat.lt_of_lt_of_le hx (Nat.pow_le_pow_right (by omega)
          (Nat.not_lt.mp hi')))
        simp [hi, Nat.sub_add_cancel hi, this]
    · simp [hi, Nat.lt_of_not_le hi]
  · have hz : x / 2 ^ k = 0 := Nat.div_eq_of_lt (by omega)
    rw [show 2 ^ 64 - 1 - (2 ^ k - 1) = 0 by omega, Nat.and_zero, hz, Nat.zero_mul]

/-- `(pos + align - 1) & !(align - 1)` on words, where nothing wraps. -/
theorem toNat_maskUp {pos align : UInt64} {k : Nat} (ha : align.toNat = 2 ^ k)
    (h : pos.toNat + align.toNat < 2 ^ 64) :
    ((pos + align - 1) &&& ~~~(align - 1)).toNat = alignUp align.toNat pos.toNat := by
  have hpos : 0 < align.toNat := by rw [ha]; exact Nat.two_pow_pos k
  have hsum : (pos + align - 1).toNat = pos.toNat + align.toNat - 1 := by
    rw [UInt64.toNat_sub_of_le _ _, UInt64.toNat_add, Nat.mod_eq_of_lt h]
    · rfl
    · rw [UInt64.le_iff_toNat_le, UInt64.toNat_add, Nat.mod_eq_of_lt h]
      show 1 ≤ _
      omega
  have hmask : (align - 1).toNat = 2 ^ k - 1 := by
    rw [UInt64.toNat_sub_of_le _ _, ha]
    · rfl
    · rw [UInt64.le_iff_toNat_le]
      exact hpos
  have hsize : UInt64.size = 2 ^ 64 := rfl
  rw [UInt64.toNat_and, UInt64.toNat_not, hsum, hmask, hsize, land_highBits (by omega), alignUp, ha]

/-! ## Arenas -/

/-- Addresses from `bottom` to `top`, of which those from `cursor` on are free. -/
structure Arena where
  bottom : Nat
  top : Nat
  cursor : Nat
  bottom_le : bottom ≤ cursor
  cursor_le : cursor ≤ top

namespace Arena

/-- Where the next span of that size goes. -/
def next (a : Arena) (align size : Nat) : Span := ⟨alignUp align a.cursor, size⟩

/-- Hand out a span, when it fits. -/
def place (a : Arena) (align size : Nat) (h : 0 < align) : Option (Span × Arena) :=
  if ht : (a.next align size).stop ≤ a.top then
    some (a.next align size,
      { bottom := a.bottom, top := a.top, cursor := (a.next align size).stop
        bottom_le := Nat.le_trans a.bottom_le (Nat.le_trans (le_alignUp h) (Nat.le_add_right _ _))
        cursor_le := ht })
  else none

/-- The spans handed out so far lie below the cursor and apart. -/
structure Holds (a : Arena) (spans : List Span) : Prop where
  within : ∀ s ∈ spans, s.Within a.bottom a.cursor
  apart : spans.Pairwise Span.Apart

theorem Holds.nil (a : Arena) : a.Holds [] := ⟨by simp, .nil⟩

variable {a b : Arena} {align size : Nat} {h : 0 < align} {s : Span}

theorem place_eq_some (hp : a.place align size h = some (s, b)) :
    s = a.next align size ∧ b.bottom = a.bottom ∧ b.top = a.top ∧ b.cursor = s.stop ∧
      a.cursor ≤ s.start := by
  unfold place at hp
  split at hp
  · cases hp
    exact ⟨rfl, rfl, rfl, rfl, le_alignUp h⟩
  · cases hp

/-- A span is refused only when no aligned range of its size is left. -/
theorem place_eq_none : a.place align size h = none ↔
    ∀ t : Span, align ∣ t.start → t.size = size → ¬ t.Within a.cursor a.top := by
  unfold place
  constructor
  · intro hn t hd rfl ht
    have := alignUp_least h hd ht.1
    split at hn
    · cases hn
    · rename_i hlt
      have hstop := ht.2
      simp only [next, Span.stop] at hlt hstop
      omega
  · intro hn
    have := hn (a.next align size) dvd_alignUp rfl
    rw [dif_neg fun ht => this ⟨le_alignUp h, ht⟩]

/-- A new span is apart from the ones before it. -/
theorem Holds.apart_place {spans : List Span} (hh : a.Holds spans)
    (hp : a.place align size h = some (s, b)) : ∀ t ∈ spans, t.Apart s := by
  intro t ht
  obtain ⟨-, -, -, -, hc⟩ := place_eq_some hp
  exact .inl (Nat.le_trans (hh.within t ht).2 hc)

theorem Holds.place {spans : List Span} (hh : a.Holds spans)
    (hp : a.place align size h = some (s, b)) : b.Holds (s :: spans) := by
  obtain ⟨-, hb, -, hc, hle⟩ := place_eq_some hp
  have hcs : a.cursor ≤ b.cursor := by
    rw [hc]
    exact Nat.le_trans hle (Nat.le_add_right _ _)
  constructor
  · intro t ht
    rcases List.mem_cons.mp ht with rfl | ht
    · rw [hb, hc]
      exact ⟨Nat.le_trans a.bottom_le hle, Nat.le_refl _⟩
    · rw [hb]
      exact (hh.within t ht).mono hcs
  · exact .cons (fun t ht => (hh.apart_place hp t ht).symm) hh.apart

end Arena

end Lib
