import ExternalSignature.Lib.Bytes

/-!
# Base64url without padding

`encode` writes each three bytes as four characters of the URL-safe alphabet, and a last group of
one or two bytes as two or three characters. The length of an encoding tells the length of the
string (`length_encode`), and strings have the same encoding only if they are equal
(`encode_injective`).
-/

namespace Lib.Base64Url

/-- The character of a number below 64. -/
def char (n : Nat) : UInt8 :=
  if n < 26 then .ofNat (65 + n)
  else if n < 52 then .ofNat (71 + n)
  else if n < 62 then .ofNat (n - 4)
  else if n = 62 then 45
  else 95

theorem char_inj : ∀ {m n : Nat}, m < 64 → n < 64 → char m = char n → m = n := by
  have h : ∀ m < 64, ∀ n < 64, char m = char n → m = n := by decide +kernel
  exact fun {m n} hm hn => h m hm n hn

def encode : Bytes → Bytes
  | a :: b :: c :: rest =>
    char (a.toNat / 4) :: char (a.toNat % 4 * 16 + b.toNat / 16) ::
    char (b.toNat % 16 * 4 + c.toNat / 64) :: char (c.toNat % 64) :: encode rest
  | [a, b] =>
    [char (a.toNat / 4), char (a.toNat % 4 * 16 + b.toNat / 16), char (b.toNat % 16 * 4)]
  | [a] => [char (a.toNat / 4), char (a.toNat % 4 * 16)]
  | [] => []

theorem length_encode (x : Bytes) : (encode x).length = (4 * x.length + 2) / 3 := by
  induction x using encode.induct with
  | case1 a b c rest ih =>
    simp only [encode, List.length_cons, ih]
    omega
  | case2 => simp [encode]
  | case3 => simp [encode]
  | case4 => rfl

theorem length_encode_eq {x y : Bytes} (h : x.length = y.length) :
    (encode x).length = (encode y).length := by
  rw [length_encode, length_encode, h]

theorem mem_encode {x : Bytes} {c : UInt8} (h : c ∈ encode x) : ∃ n < 64, c = char n := by
  induction x using encode.induct with
  | case1 a b d rest ih =>
    have := a.toNat_lt; have := b.toNat_lt; have := d.toNat_lt
    simp only [encode, List.mem_cons] at h
    rcases h with h | h | h | h | h
    · exact ⟨_, by omega, h⟩
    · exact ⟨_, by omega, h⟩
    · exact ⟨_, by omega, h⟩
    · exact ⟨_, by omega, h⟩
    · exact ih h
  | case2 a b =>
    have := a.toNat_lt; have := b.toNat_lt
    simp only [encode, List.mem_cons, List.not_mem_nil, or_false] at h
    rcases h with h | h | h <;> exact ⟨_, by omega, h⟩
  | case3 a =>
    have := a.toNat_lt
    simp only [encode, List.mem_cons, List.not_mem_nil, or_false] at h
    rcases h with h | h <;> exact ⟨_, by omega, h⟩
  | case4 => cases h

/-- The alphabet has no quotation mark. -/
theorem quote_notMem_encode (x : Bytes) : 0x22 ∉ encode x := by
  intro h
  obtain ⟨n, hn, hc⟩ := mem_encode h
  have hne : ∀ n < 64, (0x22 : UInt8) ≠ char n := by decide
  exact hne n hn hc

theorem encode_inj {x y : Bytes} (hl : x.length = y.length) (h : encode x = encode y) : x = y := by
  -- the characters give back the six-bit digits, and the digits the bytes
  have digit : ∀ {m n : Nat}, m < 64 → n < 64 → char m = char n → m = n := char_inj
  induction x using encode.induct generalizing y with
  | case1 a b c rest ih =>
    match y, hl, h with
    | a' :: b' :: c' :: rest', hl, h =>
      have := a.toNat_lt; have := b.toNat_lt; have := c.toNat_lt
      have := a'.toNat_lt; have := b'.toNat_lt; have := c'.toNat_lt
      simp only [encode, List.cons.injEq] at h
      obtain ⟨h₁, h₂, h₃, h₄, hr⟩ := h
      have h₁ := digit (by omega) (by omega) h₁
      have h₂ := digit (by omega) (by omega) h₂
      have h₃ := digit (by omega) (by omega) h₃
      have h₄ := digit (by omega) (by omega) h₄
      have ha : a = a' := UInt8.toNat_inj.mp (by omega)
      have hb : b = b' := UInt8.toNat_inj.mp (by omega)
      have hc : c = c' := UInt8.toNat_inj.mp (by omega)
      rw [ha, hb, hc, ih (by simpa using hl) hr]
  | case2 a b =>
    match y, hl, h with
    | [a', b'], _, h =>
      have := a.toNat_lt; have := b.toNat_lt; have := a'.toNat_lt; have := b'.toNat_lt
      simp only [encode, List.cons.injEq, and_true] at h
      obtain ⟨h₁, h₂, h₃⟩ := h
      have h₁ := digit (by omega) (by omega) h₁
      have h₂ := digit (by omega) (by omega) h₂
      have h₃ := digit (by omega) (by omega) h₃
      have ha : a = a' := UInt8.toNat_inj.mp (by omega)
      have hb : b = b' := UInt8.toNat_inj.mp (by omega)
      rw [ha, hb]
  | case3 a =>
    match y, hl, h with
    | [a'], _, h =>
      have := a.toNat_lt; have := a'.toNat_lt
      simp only [encode, List.cons.injEq, and_true] at h
      have h₁ := digit (by omega) (by omega) h.1
      have h₂ := digit (by omega) (by omega) h.2
      have ha : a = a' := UInt8.toNat_inj.mp (by omega)
      rw [ha]
  | case4 => match y, hl with | [], _ => rfl

theorem encode_injective : Function.Injective encode := by
  intro x y h
  refine encode_inj ?_ h
  have hl := congrArg List.length h
  rw [length_encode, length_encode] at hl
  omega

example : encode (ascii "hello_world") = ascii "aGVsbG9fd29ybGQ" := by decide +kernel

end Lib.Base64Url
