import ExternalSignature.Sdk.WebAuthn

/-!
# The DER readers

`readDerLength` and `readDerElement` accept exactly the DER encodings at an offset, up to lengths
of 31 bits: no second encoding of a length gets through, neither a padded one nor one that
overflows the 32-bit accumulator (`readDerLength_eq_ok`, `readDerElement_eq_ok`). From this
the two parsers built on them accept exactly their grammar (`decodeSpkiP256PublicKey_eq_ok`,
`parseDerSignatureToCompact_eq_ok`).
-/

namespace ExternalSignature.Sdk

open Lib

/-! ## Lengths -/

/-- The accumulator holds the number of the bytes so far, modulo `2 ^ 32`. -/
theorem foldl_shiftIn (bs : Bytes) : bs.foldl shiftIn 0 = BitVec.ofNat 32 (beNat bs) := by
  induction bs using List.reverseRecOn with
  | nil => rfl
  | append_singleton bs b ih =>
    have hb := b.toNat_lt
    apply BitVec.eq_of_toNat_eq
    rw [List.foldl_append, ih, List.foldl_cons, List.foldl_nil, beNat_snoc, shiftIn,
      BitVec.toNat_or, BitVec.toNat_shiftLeft, BitVec.toNat_setWidth, BitVec.toNat_ofNat,
      BitVec.toNat_ofNat, UInt8.toNat_toBitVec, ← Nat.or_mod_two_pow,
      ← Nat.shiftLeft_add_eq_or_of_lt (i := 8) hb, Nat.shiftLeft_eq]
    omega

/-- Four bytes as a signed number: what fits in 31 bits is exact and the rest negative. -/
theorem toInt_foldl_shiftIn {bs : Bytes} (h : bs.length ≤ 4) :
    (bs.foldl shiftIn 0).toInt =
      if beNat bs < 2 ^ 31 then (beNat bs : Int) else beNat bs - 2 ^ 32 := by
  have hlt : beNat bs < 2 ^ 32 :=
    Nat.lt_of_lt_of_le (beNat_lt bs) (Nat.pow_le_pow_right (n := 256) (by omega) h)
  rw [foldl_shiftIn, BitVec.toInt_eq_toNat_cond, BitVec.toNat_ofNat, Nat.mod_eq_of_lt hlt]
  split <;> split <;> omega

theorem toNat_and_0x7f (b : UInt8) : (b &&& 0x7f).toNat = b.toNat % 128 := by
  rw [UInt8.toNat_and]
  exact Nat.and_two_pow_sub_one_eq_mod b.toNat 7

/-- Digits start with no zero exactly when the byte that is read for the first one is not zero. -/
theorem getD_ne_zero_iff {digits rest : Bytes} (h : digits ≠ []) :
    (digits ++ rest).getD 0 0 ≠ 0 ↔ digits.head? ≠ some 0 := by
  cases digits with
  | nil => exact absurd rfl h
  | cons b bs => exact not_congr (Option.some_inj (a := b)).symm

/-- What is read is the DER encoding of a length of 31 bits. -/
theorem readDerLength_ok {bytes : Bytes} {offset : Nat} {l : DerLength}
    (h : readDerLength bytes offset = .ok l) : l.length < 2 ^ 31 ∧
      (∃ rest, bytes.drop offset = Der.length l.length ++ rest) ∧
      l.nextOffset = offset + (Der.length l.length).length := by
  simp only [readDerLength, bind_eq_ok, ensure_eq_ok, exists_unit] at h
  obtain ⟨hoff, h⟩ := h
  have hcons := drop_eq_cons hoff
  set first := bytes.getD offset 0 with hfirst
  have hlt := first.toNat_lt
  split at h
  · rename_i hshort
    cases h
    have hshort : first.toNat < 128 := hshort
    rw [Der.length_of_lt hshort, UInt8.ofNat_toNat]
    exact ⟨by show first.toNat < _; omega, ⟨_, hcons⟩, rfl⟩
  · rename_i hlong
    have hlong : 128 ≤ first.toNat := Nat.not_lt.mp hlong
    simp only [bind_eq_ok, ensure_eq_ok, exists_unit, pure_eq_ok] at h
    obtain ⟨hpos, hle, hend, hmin, hge, rfl⟩ := h
    rw [toNat_and_0x7f] at hpos hle hend hge ⊢
    set k := first.toNat % 128 with hk
    set digits := bytes.extract (offset + 1) (offset + 1 + k) with hdigits
    have hlen : digits.length = k := by
      rw [hdigits, length_extract_of_le _ hend]
      omega
    have hdrop := drop_eq_extract_append bytes (Nat.le_add_right (offset + 1) k)
    rw [← hdigits] at hdrop
    have hhead : digits.head? ≠ some 0 := by
      rw [getD_offset hdrop] at hmin
      exact (getD_ne_zero_iff (List.length_pos_iff.mp (hlen ▸ hpos))).mp hmin
    rw [toInt_foldl_shiftIn (by omega)] at hge ⊢
    have hnum := beNat_lt digits
    rw [hlen] at hnum
    have hpow : 256 ^ k ≤ 2 ^ 32 := Nat.pow_le_pow_right (n := 256) (by omega) hle
    split at hge
    · rename_i hsmall
      have hmark : UInt8.ofNat (128 + digits.length) = first := by
        apply UInt8.toNat_inj.mp
        rw [UInt8.toNat_ofNat']
        omega
      have henc : Der.length (beNat digits) = first :: digits := by
        rw [Der.length_of_ge (by omega), bigEndian_beNat hhead, hmark]
      rw [if_pos hsmall, Int.toNat_natCast, henc]
      refine ⟨hsmall, ⟨bytes.drop (offset + 1 + k), ?_⟩, ?_⟩
      · rw [hcons, hdrop]
        rfl
      · show offset + 1 + k = offset + (first :: digits).length
        rw [List.length_cons, hlen]
        omega
    · -- a number with the highest bit set is negative
      omega

/-- The encoding of a length in the short form is read. -/
theorem readDerLength_short {bytes rest : Bytes} {offset n : Nat} (h : n < 128)
    (hdrop : bytes.drop offset = Der.length n ++ rest) :
    readDerLength bytes offset = .ok ⟨n, offset + (Der.length n).length⟩ := by
  rw [Der.length_of_lt h] at hdrop ⊢
  have hfirst : (UInt8.ofNat n).toNat = n := by
    rw [UInt8.toNat_ofNat']
    omega
  have hrest := length_drop_eq hdrop
  rw [List.length_append, List.length_singleton] at hrest
  have hget : bytes.getD offset 0 = UInt8.ofNat n := getD_offset hdrop
  simp only [readDerLength, bind_eq_ok, ensure_eq_ok, exists_unit]
  rw [hget, if_pos (by rw [UInt8.lt_iff_toNat_lt, hfirst]; exact h), hfirst]
  exact ⟨by omega, rfl⟩

/-- The encoding of a length of 31 bits in the long form is read. -/
theorem readDerLength_long {bytes rest : Bytes} {offset n : Nat} (h : 128 ≤ n) (hlt : n < 2 ^ 31)
    (hdrop : bytes.drop offset = Der.length n ++ rest) :
    readDerLength bytes offset = .ok ⟨n, offset + (Der.length n).length⟩ := by
  have hn := beNat_bigEndian n
  have hlen := length_bigEndian_le (n := n) (k := 4) (by omega)
  have hhead := head?_bigEndian n
  rw [Der.length_of_ge h] at hdrop ⊢
  set digits := bigEndian n with hdigits
  have hne : digits ≠ [] := by
    intro h0
    rw [h0] at hn
    simp at hn
    omega
  have hpos := List.length_pos_iff.mpr hne
  have hfirst : (UInt8.ofNat (128 + digits.length)).toNat = 128 + digits.length := by
    rw [UInt8.toNat_ofNat']
    omega
  have hrest := length_drop_eq hdrop
  simp only [List.length_append, List.length_cons] at hrest
  have hdrop' : bytes.drop (offset + 1) = digits ++ rest := by
    rw [← List.drop_drop, hdrop]
    rfl
  have hget : bytes.getD offset 0 = UInt8.ofNat (128 + digits.length) := getD_offset hdrop
  have hk : (UInt8.ofNat (128 + digits.length) &&& 0x7f).toNat = digits.length := by
    rw [toNat_and_0x7f, hfirst]
    omega
  have hint : (digits.foldl shiftIn 0).toInt = n := by
    rw [toInt_foldl_shiftIn hlen, hn, if_pos hlt]
  simp only [readDerLength, bind_eq_ok, ensure_eq_ok, exists_unit]
  rw [hget, if_neg (by rw [UInt8.lt_iff_toNat_lt, hfirst]; simp), hk, extract_of_append hdrop', hint]
  simp only [bind_eq_ok, ensure_eq_ok, exists_unit]
  refine ⟨by omega, hpos, hlen, by omega, ?_, by omega, ?_⟩
  · rw [getD_offset hdrop']
    exact (getD_ne_zero_iff hne).mpr hhead
  · rw [pure_eq_ok, Int.toNat_natCast, List.length_cons, Nat.add_right_comm, Nat.add_assoc]

/-- A length field is read exactly when it is the DER encoding of a length of 31 bits. -/
theorem readDerLength_eq_ok {bytes : Bytes} {offset : Nat} {l : DerLength} :
    readDerLength bytes offset = .ok l ↔ l.length < 2 ^ 31 ∧
      (∃ rest, bytes.drop offset = Der.length l.length ++ rest) ∧
      l.nextOffset = offset + (Der.length l.length).length := by
  refine ⟨readDerLength_ok, ?_⟩
  rintro ⟨hlt, ⟨rest, hdrop⟩, hnext⟩
  obtain ⟨n, next⟩ := l
  obtain rfl : next = offset + (Der.length n).length := hnext
  rcases Nat.lt_or_ge n 128 with h | h
  · exact readDerLength_short h hdrop
  · exact readDerLength_long h hlt hdrop

/-! ## Elements -/

/-- The offsets of an element that starts at an offset. -/
def elementAt (offset : Nat) (content : Bytes) : DerElement where
  valueOffset := offset + 1 + (Der.length content.length).length
  nextOffset := offset + 1 + (Der.length content.length).length + content.length

section Element

variable {bytes content rest : Bytes} {offset : Nat} {tag : UInt8}

theorem drop_length (h : bytes.drop offset = Der.element tag content ++ rest) :
    bytes.drop (offset + 1) = Der.length content.length ++ (content ++ rest) := by
  rw [← List.drop_drop, h, Der.element, List.cons_append, List.append_assoc]
  rfl

theorem drop_valueOffset (h : bytes.drop offset = Der.element tag content ++ rest) :
    bytes.drop (elementAt offset content).valueOffset = content ++ rest :=
  drop_of_append (drop_length h)

theorem drop_nextOffset (h : bytes.drop offset = Der.element tag content ++ rest) :
    bytes.drop (elementAt offset content).nextOffset = rest :=
  drop_of_append (drop_valueOffset h)

theorem extract_value (h : bytes.drop offset = Der.element tag content ++ rest) :
    bytes.extract (elementAt offset content).valueOffset (elementAt offset content).nextOffset =
      content :=
  extract_of_append (drop_valueOffset h)

/-- The end of an element, seen from the end of the input. -/
theorem nextOffset_add_length (h : bytes.drop offset = Der.element tag content ++ rest) :
    (elementAt offset content).nextOffset + rest.length = bytes.length := by
  have hlen := length_drop_eq h
  rw [List.length_append, Der.element, List.length_cons, List.length_append] at hlen
  show offset + 1 + _ + _ + _ = _
  omega

theorem nextOffset_of_nil (h : bytes.drop offset = Der.element tag content ++ []) :
    (elementAt offset content).nextOffset = bytes.length := by
  have hend := nextOffset_add_length h
  rwa [List.length_nil, Nat.add_zero] at hend

/-- A tag and a length within the input are read exactly when an element stands at the offset. -/
theorem readDerLength_element {l : DerLength} :
    (offset < bytes.length ∧ bytes.getD offset 0 = tag ∧
      readDerLength bytes (offset + 1) = .ok l ∧ l.nextOffset + l.length ≤ bytes.length) ↔
    ∃ content rest, bytes.drop offset = Der.element tag content ++ rest ∧
      content.length < 2 ^ 31 ∧ l = ⟨content.length, (elementAt offset content).valueOffset⟩ := by
  constructor
  · rintro ⟨hoff, htag, hl, hend⟩
    obtain ⟨hlt, ⟨rest, hdrop⟩, hnext⟩ := readDerLength_eq_ok.mp hl
    have hsplit := drop_eq_extract_append bytes (Nat.le_add_right l.nextOffset l.length)
    set content := bytes.extract l.nextOffset (l.nextOffset + l.length) with hcontent
    have hlen : content.length = l.length := by
      rw [hcontent, length_extract_of_le _ hend]
      omega
    have hvalue : bytes.drop l.nextOffset = rest := by
      rw [hnext]
      exact drop_of_append hdrop
    refine ⟨content, bytes.drop (l.nextOffset + l.length), ?_, by omega, ?_⟩
    · rw [drop_eq_cons hoff, htag, hdrop, ← hvalue, hsplit, Der.element, hlen]
      simp
    · rw [elementAt, hlen, ← hnext]
  · rintro ⟨content, rest, hdrop, hlt, rfl⟩
    have hend := nextOffset_add_length hdrop
    have hoff : offset < bytes.length := by
      change offset + 1 + _ + _ + _ = _ at hend
      omega
    refine ⟨hoff, getD_offset hdrop, ?_, Nat.le.intro hend⟩
    exact readDerLength_eq_ok.mpr ⟨hlt, ⟨_, drop_length hdrop⟩, rfl⟩

/-- An element is read exactly when its DER encoding stands at the offset. -/
theorem readDerElement_eq_ok {label : String} {e : DerElement} :
    readDerElement bytes offset tag label = .ok e ↔ ∃ content rest,
      bytes.drop offset = Der.element tag content ++ rest ∧ content.length < 2 ^ 31 ∧
        e = elementAt offset content := by
  simp only [readDerElement, bind_eq_ok, ensure_eq_ok, exists_unit, pure_eq_ok]
  constructor
  · rintro ⟨hoff, htag, l, hl, hend, rfl⟩
    obtain ⟨content, rest, hdrop, hlt, rfl⟩ := readDerLength_element.mp ⟨hoff, htag, hl, hend⟩
    exact ⟨content, rest, hdrop, hlt, rfl⟩
  · rintro ⟨content, rest, hdrop, hlt, rfl⟩
    obtain ⟨hoff, htag, hl, hend⟩ := readDerLength_element.mpr ⟨content, rest, hdrop, hlt, rfl⟩
    exact ⟨hoff, htag, _, hl, hend, rfl⟩

end Element

/-! ## The public key -/

/-- `SubjectPublicKeyInfo` of the P-256 point with coordinates `x` and `y`, uncompressed. -/
def subjectPublicKeyInfo (x y : ByteArr 32) : Bytes :=
  Der.sequence
    (Der.sequence (Der.oid [1, 2, 840, 10045, 2, 1] ++ Der.oid [1, 2, 840, 10045, 3, 1, 7]) ++
      Der.bitString (0x04 :: x.val ++ y.val))

/-- The two forms of the point: its sign is the parity of the last byte. -/
def spkiKey (x y : ByteArr 32) : SpkiKey where
  compressed := (if (y.val.getLastD 0).toNat % 2 = 0 then 0x02 else 0x03) :: x.val
  uncompressed := x.val ++ y.val

theorem oidContent_ecPublicKey : Der.oidContent [1, 2, 840, 10045, 2, 1] = ecPublicKeyOid := by
  decide

theorem oidContent_prime256v1 : Der.oidContent [1, 2, 840, 10045, 3, 1, 7] = prime256v1Oid := by
  decide

theorem length_element {tag : UInt8} {content : Bytes} (h : content.length < 128) :
    (Der.element tag content).length = content.length + 2 := by
  rw [Der.element_of_lt h]
  rfl

/-- The two identifiers of the algorithm. -/
def algorithmContent : Bytes := Der.element 0x06 ecPublicKeyOid ++ Der.element 0x06 prime256v1Oid

/-- The bit string's content: no unused bits, then the point. -/
def pointContent (x y : ByteArr 32) : Bytes := 0 :: 0x04 :: (x.val ++ y.val)

theorem length_pointContent (x y : ByteArr 32) : (pointContent x y).length = 66 := by
  rw [pointContent, List.length_cons, List.length_cons, List.length_append, x.property, y.property]

theorem subjectPublicKeyInfo_eq (x y : ByteArr 32) : subjectPublicKeyInfo x y =
    Der.element 0x30 (Der.element 0x30 algorithmContent ++ Der.element 0x03 (pointContent x y)) := by
  rw [subjectPublicKeyInfo, Der.oid, Der.oid, oidContent_ecPublicKey, oidContent_prime256v1]
  rfl

theorem length_spkiContent (x y : ByteArr 32) :
    (Der.element 0x30 algorithmContent ++ Der.element 0x03 (pointContent x y)).length = 89 := by
  have ha : (Der.element 0x30 algorithmContent).length = 21 := by decide
  rw [List.length_append, ha, length_element (by rw [length_pointContent]; omega),
    length_pointContent]

theorem length_subjectPublicKeyInfo (x y : ByteArr 32) :
    (subjectPublicKeyInfo x y).length = 91 := by
  rw [subjectPublicKeyInfo_eq, length_element (by rw [length_spkiContent]; omega),
    length_spkiContent]

/-- The parity of a byte. -/
theorem and_one_eq_zero (b : UInt8) : b &&& 1 = 0 ↔ b.toNat % 2 = 0 := by
  have h := Nat.and_two_pow_sub_one_eq_mod b.toNat 1
  rw [← UInt8.toNat_inj, UInt8.toNat_and]
  show b.toNat &&& 1 = 0 ↔ _
  rw [show (1 : Nat) = 2 ^ 1 - 1 from rfl, h]

/-- What the parser makes of the bit string's content. -/
theorem spkiKey_eq (x y : ByteArr 32) :
    SpkiKey.mk ((if ((x.val ++ y.val).extract 32 64).getD 31 0 &&& 1 = 0 then 0x02 else 0x03) ::
      (x.val ++ y.val).extract 0 32) (x.val ++ y.val) = spkiKey x y := by
  have hx : (x.val ++ y.val).extract 0 32 = x.val := by
    rw [List.extract_eq_take_drop, List.drop_zero, List.take_left' x.property]
  have hy : (x.val ++ y.val).extract 32 64 = y.val := by
    rw [List.extract_eq_take_drop, List.drop_left' x.property]
    exact List.take_of_length_le (Nat.le_of_eq y.property)
  have hlast : y.val.getLastD 0 = y.val.getD 31 0 := by
    rw [List.getLastD_eq_getLast?, List.getLast?_eq_getElem?, y.property,
      List.getD_eq_getElem?_getD]
  rw [hx, hy, spkiKey, hlast]
  simp only [and_one_eq_zero]

/-- The bit string's content, when the parser's checks hold of it. -/
theorem pointContent_of_checks {content : Bytes} (hlen : (content.drop 1).length = 65)
    (h0 : content.getD 0 0 = 0x00) (h4 : (content.drop 1).getD 0 0 = 0x04) :
    ∃ x y : ByteArr 32, content = pointContent x y := by
  match content, hlen, h0, h4 with
  | b :: c :: u, hlen, h0, h4 =>
    have hu : u.length = 64 := by simpa using hlen
    change b = 0 at h0
    change c = 4 at h4
    refine ⟨⟨u.take 32, by rw [List.length_take]; omega⟩,
      ⟨u.drop 32, by rw [List.length_drop]; omega⟩, ?_⟩
    rw [h0, h4, pointContent, List.take_append_drop]

/-- The public key parser accepts exactly the 91 bytes of a P-256 key in uncompressed form. -/
theorem decodeSpkiP256PublicKey_eq_ok (bytes : Bytes) (key : SpkiKey) :
    decodeSpkiP256PublicKey bytes = .ok key ↔ ∃ x y : ByteArr 32,
      bytes = subjectPublicKeyInfo x y ∧ bytes.length = 91 ∧ key = spkiKey x y := by
  simp only [decodeSpkiP256PublicKey, bind_eq_ok, ensure_eq_ok, exists_unit, pure_eq_ok]
  constructor
  · rintro ⟨spki, hspki, hend, algorithm, halgorithm, subject, hsubject, hsubjectEnd, oid, hoid,
      curve, hcurve, hcurveEnd, hoidValue, hcurveValue, -, h0, hlen, h4, rfl⟩
    obtain ⟨c₁, r₁, d₁, -, rfl⟩ := readDerElement_eq_ok.mp hspki
    obtain ⟨c₂, r₂, d₂, -, rfl⟩ := readDerElement_eq_ok.mp halgorithm
    obtain ⟨c₃, r₃, d₃, -, rfl⟩ := readDerElement_eq_ok.mp hsubject
    obtain ⟨c₄, r₄, d₄, -, rfl⟩ := readDerElement_eq_ok.mp hoid
    obtain ⟨c₅, r₅, d₅, -, rfl⟩ := readDerElement_eq_ok.mp hcurve
    rw [extract_value d₃] at h0 hlen h4 ⊢
    rw [extract_value d₄] at hoidValue
    rw [extract_value d₅] at hcurveValue
    -- the outer element and the bit string end with the input
    have hr₁ : r₁ = [] := List.eq_nil_of_length_eq_zero (by
      have := nextOffset_add_length d₁
      omega)
    have hr₃ : r₃ = [] := List.eq_nil_of_length_eq_zero (by
      have := nextOffset_add_length d₃
      omega)
    -- the curve identifier ends where the algorithm does
    have hr₅ : r₅ = r₂ := by rw [← drop_nextOffset d₅, hcurveEnd, drop_nextOffset d₂]
    have e₁ : c₁ = Der.element 0x30 c₂ ++ r₂ := by
      rw [← d₂, drop_valueOffset d₁, hr₁, List.append_nil]
    have e₂ : r₂ = Der.element 0x03 c₃ := by rw [← drop_nextOffset d₂, d₃, hr₃, List.append_nil]
    have e₄ : r₄ = Der.element 0x06 c₅ ++ r₂ := by rw [← drop_nextOffset d₄, d₅, hr₅]
    have hc₂ : c₂ = algorithmContent := by
      have happ : c₂ ++ r₂ = algorithmContent ++ r₂ := by
        rw [← drop_valueOffset d₂, d₄, e₄, hoidValue, hcurveValue, algorithmContent,
          List.append_assoc]
      exact List.append_cancel_right happ
    obtain ⟨x, y, rfl⟩ := pointContent_of_checks hlen h0 h4
    have hbytes : bytes = subjectPublicKeyInfo x y := by
      rw [← List.drop_zero (l := bytes), d₁, hr₁, e₁, e₂, hc₂, subjectPublicKeyInfo_eq,
        List.append_nil]
    refine ⟨x, y, hbytes, ?_, spkiKey_eq x y⟩
    rw [hbytes, length_subjectPublicKeyInfo]
  · rintro ⟨x, y, rfl, -, rfl⟩
    rw [subjectPublicKeyInfo_eq]
    set algorithm := Der.element 0x30 algorithmContent
    set point := Der.element 0x03 (pointContent x y)
    set bytes := Der.element 0x30 (algorithm ++ point) with hbytes
    have d₁ : bytes.drop 0 = bytes ++ [] := by rw [List.drop_zero, List.append_nil]
    have d₂ := (drop_valueOffset d₁).trans (List.append_nil _)
    have d₃ := (drop_nextOffset d₂).trans (List.append_nil _).symm
    have d₄ := (drop_valueOffset d₂).trans (List.append_assoc ..)
    have d₅ := drop_nextOffset d₄
    refine ⟨_, readDerElement_eq_ok.mpr ⟨_, _, d₁, by rw [length_spkiContent]; omega, rfl⟩, ?_,
      _, readDerElement_eq_ok.mpr ⟨_, _, d₂, by decide, rfl⟩,
      _, readDerElement_eq_ok.mpr ⟨_, _, d₃, by rw [length_pointContent]; omega, rfl⟩, ?_,
      _, readDerElement_eq_ok.mpr ⟨_, _, d₄, by decide, rfl⟩,
      _, readDerElement_eq_ok.mpr ⟨_, _, d₅, by decide, rfl⟩, ?_⟩
    · exact nextOffset_of_nil d₁
    · rw [nextOffset_of_nil d₃, nextOffset_of_nil d₁]
    · have hnext := (nextOffset_add_length d₅).trans (nextOffset_add_length d₂).symm
      rw [extract_value d₃, extract_value d₄, extract_value d₅]
      have hlen : ((pointContent x y).drop 1).length = 65 := by
        rw [List.length_drop, length_pointContent]
      refine ⟨Nat.add_right_cancel hnext, rfl, rfl, ?_, rfl, hlen, rfl, spkiKey_eq x y⟩
      rw [length_pointContent]
      omega

/-! ## Integers -/

theorem and_0x80_eq_zero (b : UInt8) : b &&& 0x80 = 0 ↔ b < 0x80 := by
  have hall : ∀ n : Fin 256, UInt8.ofNat n &&& 0x80 = 0 ↔ UInt8.ofNat n < 0x80 := by
    decide +kernel
  have h := hall ⟨b.toNat, b.toNat_lt⟩
  rwa [UInt8.ofNat_toNat] at h

theorem and_0x80_eq_self (b : UInt8) : b &&& 0x80 = 0x80 ↔ 0x80 ≤ b := by
  have hall : ∀ n : Fin 256, UInt8.ofNat n &&& 0x80 = 0x80 ↔ 0x80 ≤ UInt8.ofNat n := by
    decide +kernel
  have h := hall ⟨b.toNat, b.toNat_lt⟩
  rwa [UInt8.ofNat_toNat] at h

theorem assertCanonicalDerInteger_eq_ok {bytes : Bytes} {label : String} {u : Unit} :
    assertCanonicalDerInteger bytes label = .ok u ↔ Der.Canonical bytes := by
  unfold assertCanonicalDerInteger
  simp only [bind_eq_ok, ensure_eq_ok, exists_unit]
  rcases bytes with _ | ⟨b, _ | ⟨c, bs⟩⟩
  · simp [Der.Canonical]
  · have hb : [b].getD 0 0 = b := rfl
    rw [hb, and_0x80_eq_zero, if_neg (by simp)]
    simp [Der.Canonical]
  · have hb : (b :: c :: bs).getD 0 0 = b := rfl
    have hc : (b :: c :: bs).getD 1 0 = c := rfl
    rw [hb, hc, and_0x80_eq_zero]
    by_cases h0 : b = 0
    · rw [if_pos ⟨by simp, h0⟩, ensure_eq_ok, and_0x80_eq_self]
      simp [Der.Canonical, h0]
    · rw [if_neg (by simp [h0])]
      simp [Der.Canonical, h0]

theorem beNat_dropWhile (bs : Bytes) : beNat (bs.dropWhile (· = 0)) = beNat bs := by
  induction bs with
  | nil => rfl
  | cons b bs ih =>
    by_cases h : b = 0
    · rw [List.dropWhile_cons_of_pos (by simpa using h), ih, h, Der.beNat_zero_cons]
    · rw [List.dropWhile_cons_of_neg (by simpa using h)]

/-- The value that goes through hexadecimal text is the big-endian number. -/
theorem derIntegerToBigInt_eq (bytes : Bytes) : derIntegerToBigInt bytes = beNat bytes := by
  have hvalue := hexValue_flatMap (bytes.dropWhile (· = 0))
  rw [beNat_dropWhile] at hvalue
  simp only [derIntegerToBigInt]
  split
  · rename_i h
    rw [h] at hvalue
    rw [← hvalue]
    rfl
  · exact hvalue

theorem bigIntTo32Bytes_eq_ok {value : Nat} {bytes : Bytes} :
    bigIntTo32Bytes value = .ok bytes ↔
      value < p256Order ∧ bytes = (ByteArr.ofNat 32 value).val := by
  have hkey (h : value < p256Order) : (padStart 64 (hex value)).length = 2 * 32 ∧
      hexBytes (padStart 64 (hex value)) = (ByteArr.ofNat 32 value).val := by
    have hlen := length_padStart (length_hex_le (k := 64) (by omega)
      (Nat.lt_trans h (by decide)))
    refine ⟨hlen, ?_⟩
    have hof := ByteArr.ofNat_beNat (length_hexBytes (n := 32) _ hlen)
    rw [beNat_hexBytes (n := 32) _ hlen, hexValue_padStart, hexValue_hex] at hof
    exact hof.symm
  simp only [bigIntTo32Bytes, bind_eq_ok, ensure_eq_ok, exists_unit, pure_eq_ok]
  constructor
  · rintro ⟨hlt, -, rfl⟩
    exact ⟨hlt, (hkey hlt).2⟩
  · rintro ⟨hlt, rfl⟩
    exact ⟨hlt, Nat.le_of_eq (hkey hlt).1, (hkey hlt).2⟩

/-- An integer is read exactly when the DER encoding of a scalar stands at the offset. -/
theorem readDerInteger_eq_ok {bytes : Bytes} {offset : Nat} {label : String} {i : DerInteger} :
    readDerInteger bytes offset label = .ok i ↔ (1 ≤ i.value ∧ i.value < p256Order) ∧
      (∃ rest, bytes.drop offset = Der.natural i.value ++ rest) ∧
      i.nextOffset = (elementAt offset (Der.naturalContent i.value)).nextOffset := by
  simp only [readDerInteger, bind_eq_ok, ensure_eq_ok, exists_unit, pure_eq_ok]
  constructor
  · rintro ⟨hoff, htag, l, hl, -, hend, hcanon, hrange, rfl⟩
    obtain ⟨content, rest, hdrop, -, rfl⟩ := readDerLength_element.mp ⟨hoff, htag, hl, hend⟩
    have hext := extract_value hdrop
    change bytes.extract _ ((elementAt offset content).valueOffset + content.length) = _ at hext
    rw [hext] at hcanon hrange ⊢
    rw [derIntegerToBigInt_eq] at hrange ⊢
    have hcontent := Der.naturalContent_beNat (assertCanonicalDerInteger_eq_ok.mp hcanon)
    refine ⟨hrange, ⟨rest, ?_⟩, ?_⟩
    · show _ = Der.natural (beNat content) ++ rest
      rw [Der.natural, hcontent, hdrop]
    · show _ = (elementAt offset (Der.naturalContent (beNat content))).nextOffset
      rw [hcontent]
      rfl
  · obtain ⟨value, next⟩ := i
    rintro ⟨hrange, ⟨rest, hdrop⟩, hi⟩
    change 1 ≤ value ∧ value < p256Order at hrange
    change bytes.drop offset = Der.natural value ++ rest at hdrop
    change next = (elementAt offset (Der.naturalContent value)).nextOffset at hi
    subst hi
    have hlen := Der.length_naturalContent_le (n := value) (k := 32)
      (Nat.lt_trans hrange.2 (by decide))
    have hcanon := Der.canonical_naturalContent value
    have hpos : 0 < (Der.naturalContent value).length := by
      cases hc : Der.naturalContent value with
      | nil => rw [hc] at hcanon; exact hcanon.elim
      | cons b bs => exact Nat.zero_lt_succ _
    obtain ⟨hoff, htag, hl, hend⟩ := readDerLength_element.mpr ⟨_, rest, hdrop, by omega, rfl⟩
    have hext := extract_value hdrop
    change bytes.extract _ ((elementAt offset (Der.naturalContent value)).valueOffset +
      (Der.naturalContent value).length) = _ at hext
    refine ⟨hoff, htag, _, hl, hpos, hend, ?_⟩
    rw [hext, derIntegerToBigInt_eq, Der.beNat_naturalContent]
    exact ⟨assertCanonicalDerInteger_eq_ok.mpr hcanon, hrange, rfl⟩

/-! ## Signatures -/

/-- A scalar as the precompile reads it. -/
def scalarBytes (k : Nat) : Bytes := (ByteArr.ofNat 32 k).val

/-- The DER form of a signature. -/
def derSignature (r s : Nat) : Bytes := Der.sequence (Der.natural r ++ Der.natural s)

theorem length_natural_le {k : Nat} (h : k < p256Order) : (Der.natural k).length ≤ 35 := by
  have hlen := Der.length_naturalContent_le (n := k) (k := 32) (Nat.lt_trans h (by decide))
  rw [Der.natural, length_element (by omega)]
  omega

/-- The `s` that the SDK writes is the lower one of the two that verify. -/
theorem lowS (s : Nat) (h : s < p256Order) :
    (if p256HalfOrder < s then p256Order - s else s) = min s (p256Order - s) := by
  have horder : p256Order = 2 * p256HalfOrder + 1 := by decide
  split <;> omega

/-- A signature is read exactly when it is the DER form of two scalars. -/
theorem readDerSignature_eq_ok {bytes compact : Bytes} :
    readDerSignature bytes = .ok compact ↔ ∃ r s : Nat,
      (1 ≤ r ∧ r < p256Order) ∧ (1 ≤ s ∧ s < p256Order) ∧ bytes = derSignature r s ∧
        compact = scalarBytes r ++ scalarBytes (min s (p256Order - s)) := by
  simp only [readDerSignature, bind_eq_ok, ensure_eq_ok, exists_unit, pure_eq_ok]
  constructor
  · rintro ⟨hlen, htag, l, hl, hend, r, hr, s, hs, hnext, _, hr32, _, hs32, rfl⟩
    obtain ⟨content, rest, d, -, rfl⟩ :=
      readDerLength_element.mp ⟨by omega, htag, hl, by omega⟩
    have hstop : (elementAt 0 content).nextOffset =
      (elementAt 0 content).valueOffset + content.length := rfl
    change (content.length : Int) = bytes.length - (elementAt 0 content).valueOffset at hend
    have hrest : rest = [] := List.eq_nil_of_length_eq_zero (by
      have := nextOffset_add_length d
      omega)
    obtain ⟨hrange, ⟨rest₁, d₁⟩, hafterR⟩ := readDerInteger_eq_ok.mp hr
    obtain ⟨hsRange, ⟨rest₂, d₂⟩, hafterS⟩ := readDerInteger_eq_ok.mp hs
    have hrest₂ : rest₂ = [] := List.eq_nil_of_length_eq_zero (by
      have := nextOffset_add_length d₂
      omega)
    have e₁ : rest₁ = Der.natural s.value := by
      rw [← drop_nextOffset d₁, ← hafterR, d₂, hrest₂, List.append_nil]
    have e : content = Der.natural r.value ++ Der.natural s.value := by
      rw [← e₁, ← d₁, drop_valueOffset d, hrest, List.append_nil]
    refine ⟨r.value, s.value, hrange, hsRange, ?_, ?_⟩
    · rw [← List.drop_zero (l := bytes), d, hrest, List.append_nil, e, derSignature, Der.sequence]
    · rw [(bigIntTo32Bytes_eq_ok.mp hr32).2, (bigIntTo32Bytes_eq_ok.mp hs32).2,
        lowS s.value hsRange.2, scalarBytes, scalarBytes]
  · rintro ⟨r, s, hrRange, hsRange, rfl, rfl⟩
    have hr := length_natural_le hrRange.2
    have hs := length_natural_le hsRange.2
    have hcontent : (Der.natural r ++ Der.natural s).length < 128 := by
      rw [List.length_append]
      omega
    set content := Der.natural r ++ Der.natural s with hc
    have d : (derSignature r s).drop 0 = Der.element 0x30 content ++ [] := by
      rw [List.drop_zero, List.append_nil, derSignature, Der.sequence]
    have d₁ := (drop_valueOffset d).trans (List.append_nil _)
    have d₂ := (drop_nextOffset d₁).trans (List.append_nil _).symm
    obtain ⟨hoff, htag, hl, hend⟩ := readDerLength_element.mpr ⟨_, _, d, by omega, rfl⟩
    have hstop : (elementAt 0 content).valueOffset + content.length = (derSignature r s).length :=
      nextOffset_of_nil d
    have hlen : (derSignature r s).length = content.length + 2 := length_element hcontent
    refine ⟨by omega, htag, _, hl, ?_, ⟨r, _⟩,
      readDerInteger_eq_ok.mpr ⟨hrRange, ⟨_, d₁⟩, rfl⟩, ⟨s, _⟩,
      readDerInteger_eq_ok.mpr ⟨hsRange, ⟨_, d₂⟩, rfl⟩, nextOffset_of_nil d₂,
      _, bigIntTo32Bytes_eq_ok.mpr ⟨hrRange.2, rfl⟩, _, bigIntTo32Bytes_eq_ok.mpr ⟨?_, rfl⟩, ?_⟩
    · show (content.length : Int) = (derSignature r s).length - (elementAt 0 content).valueOffset
      omega
    · rw [lowS s hsRange.2]
      omega
    · rw [lowS s hsRange.2, scalarBytes, scalarBytes]

/-- The signature parser accepts exactly the DER form of two scalars, and writes the first one
and the lower one of the second and its negation. -/
theorem parseDerSignatureToCompact_eq_ok (bytes compact : Bytes) :
    parseDerSignatureToCompact bytes = .ok compact ↔ ∃ r s : Nat,
      (1 ≤ r ∧ r < p256Order) ∧ (1 ≤ s ∧ s < p256Order) ∧ bytes = derSignature r s ∧
        compact = scalarBytes r ++ scalarBytes (min s (p256Order - s)) := by
  rw [parseDerSignatureToCompact, mapError_eq_ok, readDerSignature_eq_ok]

end ExternalSignature.Sdk
