import ExternalSignature.Lib.Der

/-!
# Hexadecimal text

`hexValue` reads hexadecimal digits, most significant first, `padStart` fills a text up from the
left, and `hexPairs` cuts one into bytes. Writing a number and reading it back, directly or byte by
byte, gives the number (`hexValue_hex`, `beNat_hexBytes`).
-/

namespace Lib

/-- The value of a hexadecimal digit. -/
def hexDigit (c : Char) : Nat :=
  if '0' ≤ c ∧ c ≤ '9' then c.toNat - '0'.toNat
  else if 'a' ≤ c ∧ c ≤ 'f' then c.toNat - 'a'.toNat + 10
  else 0

/-- The number that hexadecimal digits spell. -/
def hexValue (digits : List Char) : Nat := digits.foldl (fun n c => 16 * n + hexDigit c) 0

/-- The hexadecimal digits of a number. -/
def hex (n : Nat) : List Char := Nat.toDigits 16 n

/-- `String.prototype.padStart` with `'0'`. -/
def padStart (length : Nat) (text : List Char) : List Char :=
  List.replicate (length - text.length) '0' ++ text

/-- The text in pieces of two, the last one shorter if the length is odd. -/
def hexPairs : List Char → List (List Char)
  | c :: d :: text => [c, d] :: hexPairs text
  | [c] => [[c]]
  | [] => []

/-- The bytes that pairs of digits spell. -/
def hexBytes (text : List Char) : Bytes := (hexPairs text).map fun pair => .ofNat (hexValue pair)

theorem hexDigit_lt (c : Char) : hexDigit c < 16 := by
  unfold hexDigit
  split
  · rename_i h
    have h9 : c.toNat ≤ 57 := h.2
    have h0 : '0'.toNat = 48 := rfl
    omega
  · split
    · rename_i h
      have hf : c.toNat ≤ 102 := h.2
      have ha : 'a'.toNat = 97 := rfl
      omega
    · omega

theorem hexDigit_digitChar {d : Nat} (h : d < 16) : hexDigit (Nat.digitChar d) = d := by
  have hall : ∀ d : Fin 16, hexDigit (Nat.digitChar d) = d := by decide
  exact hall ⟨d, h⟩

@[simp] theorem hexValue_nil : hexValue [] = 0 := rfl

theorem hexValue_snoc (text : List Char) (c : Char) :
    hexValue (text ++ [c]) = 16 * hexValue text + hexDigit c := by
  unfold hexValue
  rw [List.foldl_append]
  rfl

theorem hexValue_append (a b : List Char) :
    hexValue (a ++ b) = 16 ^ b.length * hexValue a + hexValue b := by
  induction b using List.reverseRecOn with
  | nil => simp
  | append_singleton b c ih =>
    rw [← List.append_assoc, hexValue_snoc, ih, hexValue_snoc, List.length_append,
      List.length_singleton, Nat.pow_succ]
    ring

theorem hexValue_hex (n : Nat) : hexValue (hex n) = n := by
  induction n using Nat.strongRecOn with
  | ind n ih =>
    unfold hex at ih ⊢
    by_cases h : n < 16
    · rw [Nat.toDigits_of_lt_base h]
      show 16 * 0 + hexDigit n.digitChar = n
      rw [hexDigit_digitChar h]
      omega
    · have hlt := Nat.mod_lt n (show 16 > 0 by omega)
      rw [Nat.toDigits_of_base_le (by omega) (by omega), hexValue_snoc, ih _ (by omega),
        hexDigit_digitChar hlt]
      omega

theorem hexValue_padStart (length : Nat) (text : List Char) :
    hexValue (padStart length text) = hexValue text := by
  have hz : ∀ k, hexValue (List.replicate k '0') = 0 := by
    intro k
    induction k with
    | zero => rfl
    | succ k ih => rw [List.replicate_succ', hexValue_snoc, ih]; rfl
  rw [padStart, hexValue_append, hz]
  omega

theorem length_hex_le {n k : Nat} (hk : 0 < k) (h : n < 16 ^ k) : (hex n).length ≤ k :=
  (Nat.length_toDigits_le_iff (by omega) hk).mpr h

theorem length_padStart {length : Nat} {text : List Char} (h : text.length ≤ length) :
    (padStart length text).length = length := by
  rw [padStart, List.length_append, List.length_replicate]
  omega

/-- Two digits spell a byte. -/
theorem toNat_hexPair (c d : Char) : (UInt8.ofNat (hexValue [c, d])).toNat = hexValue [c, d] := by
  have hc := hexDigit_lt c
  have hd := hexDigit_lt d
  have hv : hexValue [c, d] = 16 * (16 * 0 + hexDigit c) + hexDigit d := rfl
  rw [UInt8.toNat_ofNat']
  omega

theorem length_hexBytes {n : Nat} (text : List Char) (h : text.length = 2 * n) :
    (hexBytes text).length = n := by
  unfold hexBytes
  rw [List.length_map]
  induction text using hexPairs.induct generalizing n with
  | case1 c d text ih =>
    cases n with
    | zero => simp at h
    | succ n =>
      have hlen : text.length = 2 * n := by simp only [List.length_cons] at h; omega
      rw [hexPairs, List.length_cons, ih hlen]
  | case2 c => simp only [List.length_singleton] at h; omega
  | case3 => simp only [List.length_nil] at h; simp only [hexPairs, List.length_nil]; omega

/-- Bytes of pairs of digits spell the same number as the digits. -/
theorem beNat_hexBytes {n : Nat} (text : List Char) (h : text.length = 2 * n) :
    beNat (hexBytes text) = hexValue text := by
  induction text using hexPairs.induct generalizing n with
  | case1 c d text ih =>
    cases n with
    | zero => simp at h
    | succ n =>
      have hlen : text.length = 2 * n := by simp only [List.length_cons] at h; omega
      have hbytes : hexBytes (c :: d :: text) = .ofNat (hexValue [c, d]) :: hexBytes text := rfl
      rw [hbytes, beNat_cons, ih hlen, length_hexBytes text hlen, toNat_hexPair,
        show c :: d :: text = [c, d] ++ text from rfl, hexValue_append, hlen, Nat.pow_mul]
      ring
  | case2 c => simp only [List.length_singleton] at h; omega
  | case3 => rfl

/-- Hexadecimal digits of each byte spell the bytes' number. -/
theorem hexValue_flatMap (bs : Bytes) :
    hexValue (bs.flatMap fun b => padStart 2 (hex b.toNat)) = beNat bs := by
  induction bs with
  | nil => rfl
  | cons b bs ih =>
    have hlen : (bs.flatMap fun b => padStart 2 (hex b.toNat)).length = 2 * bs.length := by
      rw [List.length_flatMap, List.map_congr_left (g := fun _ => 2)]
      · simp [Nat.mul_comm]
      · intro b _
        exact length_padStart (length_hex_le (by omega) b.toNat_lt)
    rw [List.flatMap_cons, hexValue_append, ih, hexValue_padStart, hexValue_hex, hlen, Nat.pow_mul,
      beNat_cons]
    ring

end Lib
