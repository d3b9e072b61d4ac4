import ExternalSignature.Lib.Cbor
import ExternalSignature.Sdk.WebAuthn

/-!
# Skipping CBOR items

`Reads` says that whatever a reader skips is a number of data items, and `Accepts` that it skips
every number of items up to a length. Both compose along loops (`Reads.times`, `Accepts.times`),
so that one step of `skipCborItem` keeps both (`Reads.body`, `Accepts.body`) and the induction
is on how deep its calls nest. The depth never runs out (`skipCborItem_unfold`).
-/

namespace ExternalSignature.Sdk

open Lib Cbor

/-- One item, as the SDK supports it. -/
abbrev CborItem : Bytes → Prop := IsItem maxSafeInteger

/-! ## The initial byte -/

theorem toNat_shiftRight_5 (b : UInt8) : (b >>> 5).toNat = b.toNat / 32 := by
  rw [UInt8.toNat_shiftRight, Nat.shiftRight_eq_div_pow]
  rfl

theorem toNat_and_0x1f (b : UInt8) : (b &&& 0x1f).toNat = b.toNat % 32 := by
  rw [UInt8.toNat_and]
  exact Nat.and_two_pow_sub_one_eq_mod b.toNat 5

section Head

variable {bytes : Bytes} {offset : Nat} {major : Fin 8} {a : Argument} {rest : Bytes}

/-- The initial byte of a head. -/
theorem toNat_head (major : Fin 8) (a : Argument) :
    (UInt8.ofNat (32 * major + a.info)).toNat = 32 * major + a.info := by
  have ha := a.info_lt
  rw [UInt8.toNat_ofNat']
  omega

/-- A head is an initial byte and an argument behind it. -/
theorem drop_head (hoff : offset < bytes.length)
    (hm : (bytes.getD offset 0 >>> 5).toNat = major)
    (hi : a.info = (bytes.getD offset 0 &&& 0x1f).toNat)
    (h : bytes.drop (offset + 1) = a.following ++ rest) :
    bytes.drop offset = head major a ++ rest := by
  have hbyte : UInt8.ofNat (32 * major + a.info) = bytes.getD offset 0 := by
    apply UInt8.toNat_inj.mp
    rw [toNat_head, hi, ← hm, toNat_shiftRight_5, toNat_and_0x1f]
    omega
  rw [drop_eq_cons hoff, h, head, hbyte, List.cons_append]

/-- What `skipCborItem` sees of a head. -/
theorem of_drop_head (h : bytes.drop offset = head major a ++ rest) :
    offset < bytes.length ∧ (bytes.getD offset 0 >>> 5).toNat = major ∧
      a.info = (bytes.getD offset 0 &&& 0x1f).toNat ∧
      bytes.drop (offset + 1) = a.following ++ rest := by
  have hlen := length_drop_eq h
  have ha := a.info_lt
  have hget : bytes.getD offset 0 = .ofNat (32 * major + a.info) := getD_offset h
  rw [List.length_append, length_head] at hlen
  rw [hget, toNat_shiftRight_5, toNat_and_0x1f, toNat_head]
  refine ⟨by omega, by omega, by omega, ?_⟩
  rw [← List.drop_drop, h]
  rfl

end Head

/-! ## Arguments -/

section Argument

variable {bytes : Bytes} {offset info : Nat}

/-- A range of bytes inside the payload. -/
theorem range_iff {n : Nat} (h : 0 < n) : offset + n ≤ bytes.length ↔
    ∃ (piece : ByteArr n) (rest : Bytes), bytes.drop offset = piece.val ++ rest ∧
      piece.val = bytes.extract offset (offset + n) := by
  constructor
  · intro hle
    have hlen := length_extract_of_le offset hle
    rw [Nat.add_sub_cancel_left] at hlen
    exact ⟨⟨_, hlen⟩, _, drop_eq_extract_append bytes (Nat.le_add_right offset n), rfl⟩
  · rintro ⟨piece, rest, hdrop, -⟩
    have hlen := length_drop_eq hdrop
    have hp := piece.property
    rw [List.length_append] at hlen
    omega

theorem drop_of_piece {n : Nat} {piece : ByteArr n} {rest : Bytes}
    (h : bytes.drop offset = piece.val ++ rest) : bytes.drop (offset + n) = rest := by
  have hdrop := drop_of_append h
  rwa [piece.property] at hdrop

theorem extract_piece {n : Nat} {piece : ByteArr n} {rest : Bytes}
    (h : bytes.drop offset = piece.val ++ rest) : bytes.extract offset (offset + n) = piece.val := by
  have hext := extract_of_append h
  rwa [piece.property] at hext

/-- The number of up to four bytes is a safe integer. -/
theorem beNat_extract_le {n : Nat} (hn : n ≤ 4) :
    beNat (bytes.extract offset (offset + n)) ≤ maxSafeInteger := by
  have hlt := beNat_lt (bytes.extract offset (offset + n))
  have hlen : (bytes.extract offset (offset + n)).length ≤ 4 := by
    rw [List.extract_eq_take_drop, List.length_take]
    omega
  have hpow := Nat.pow_le_pow_right (n := 256) (by omega) hlen
  have hmax : 256 ^ 4 ≤ maxSafeInteger := by decide
  omega

theorem toNat_getD_eq_beNat (h : offset + 1 ≤ bytes.length) :
    (bytes.getD offset 0).toNat = beNat (bytes.extract offset (offset + 1)) := by
  have hext : bytes.extract offset (offset + 1) = [bytes.getD offset 0] := by
    rw [← Nat.add_zero offset, Nat.add_assoc, extract_add (drop_eq_cons h)]
    rfl
  rw [hext]
  rfl

theorem readCborArgument_wide (width : Width) {arg : CborArgument} :
    readCborArgument bytes offset width.info = .ok arg ↔
      offset + width.size ≤ bytes.length ∧
        beNat (bytes.extract offset (offset + width.size)) ≤ maxSafeInteger ∧
        arg = { value := beNat (bytes.extract offset (offset + width.size)),
                nextOffset := offset + width.size } := by
  unfold readCborArgument
  cases width with
  | one =>
    rw [if_neg (by decide), if_pos (by decide)]
    simp only [Width.size, bind_eq_ok, ensure_eq_ok, exists_unit, pure_eq_ok]
    constructor
    · rintro ⟨h, rfl⟩
      rw [toNat_getD_eq_beNat h]
      exact ⟨h, beNat_extract_le (by omega), rfl⟩
    · rintro ⟨h, -, rfl⟩
      exact ⟨h, by rw [toNat_getD_eq_beNat h]⟩
  | two =>
    rw [if_neg (by decide), if_neg (by decide), if_pos (by decide)]
    simp only [Width.size, bind_eq_ok, ensure_eq_ok, exists_unit, pure_eq_ok]
    constructor
    · rintro ⟨h, rfl⟩
      exact ⟨h, beNat_extract_le (by omega), rfl⟩
    · rintro ⟨h, -, rfl⟩
      exact ⟨h, rfl⟩
  | four =>
    rw [if_neg (by decide), if_neg (by decide), if_neg (by decide), if_pos (by decide)]
    simp only [Width.size, bind_eq_ok, ensure_eq_ok, exists_unit, pure_eq_ok]
    constructor
    · rintro ⟨h, rfl⟩
      exact ⟨h, beNat_extract_le (Nat.le_refl 4), rfl⟩
    · rintro ⟨h, -, rfl⟩
      exact ⟨h, rfl⟩
  | eight =>
    rw [if_neg (by decide), if_neg (by decide), if_neg (by decide), if_neg (by decide),
      if_pos (by decide)]
    simp only [Width.size, bind_eq_ok, ensure_eq_ok, exists_unit, pure_eq_ok]
    constructor
    · rintro ⟨h, hmax, rfl⟩
      exact ⟨h, hmax, rfl⟩
    · rintro ⟨h, hmax, rfl⟩
      exact ⟨h, hmax, rfl⟩

theorem info_cases (info : Nat) : info < 24 ∨ (∃ width : Width, width.info = info) ∨ 28 ≤ info := by
  by_cases h : info < 24 ∨ 28 ≤ info
  · omega
  · have hcases : info = 24 ∨ info = 25 ∨ info = 26 ∨ info = 27 := by omega
    rcases hcases with rfl | rfl | rfl | rfl
    · exact .inr (.inl ⟨.one, rfl⟩)
    · exact .inr (.inl ⟨.two, rfl⟩)
    · exact .inr (.inl ⟨.four, rfl⟩)
    · exact .inr (.inl ⟨.eight, rfl⟩)

theorem Width.size_pos (width : Width) : 0 < width.size := by cases width <;> decide

/-- An argument is read exactly when one in range of a safe integer stands at the offset. -/
theorem readCborArgument_eq_ok {arg : CborArgument} :
    readCborArgument bytes offset info = .ok arg ↔ ∃ a : Argument, a.info = info ∧
      (∃ rest, bytes.drop offset = a.following ++ rest) ∧ a.value ≤ maxSafeInteger ∧
      arg = { value := a.value, nextOffset := offset + a.following.length } := by
  constructor
  · intro h
    rcases info_cases info with hi | ⟨width, rfl⟩ | hi
    · rw [readCborArgument, if_pos hi, pure_eq_ok] at h
      subst h
      have hmax : 24 ≤ maxSafeInteger := by decide
      exact ⟨.direct ⟨info, hi⟩, rfl, ⟨_, rfl⟩, by show info ≤ _; omega, rfl⟩
    · obtain ⟨hle, hmax, rfl⟩ := (readCborArgument_wide width).mp h
      obtain ⟨piece, rest, hdrop, hpiece⟩ := (range_iff (Width.size_pos width)).mp hle
      rw [← hpiece] at hmax ⊢
      refine ⟨.wide width piece, rfl, ⟨rest, hdrop⟩, hmax, ?_⟩
      show _ = CborArgument.mk (beNat piece.val) (offset + piece.val.length)
      rw [piece.property]
    · rw [readCborArgument, if_neg (by omega), if_neg (by omega), if_neg (by omega),
        if_neg (by omega), if_neg (by omega)] at h
      exact (throw_ne_ok h).elim
  · rintro ⟨a, rfl, ⟨rest, hdrop⟩, hmax, rfl⟩
    cases a with
    | direct value => exact if_pos value.isLt
    | wide width piece =>
      change bytes.drop offset = piece.val ++ rest at hdrop
      have hext := extract_piece hdrop
      refine (readCborArgument_wide width).mpr ⟨?_, by rw [hext]; exact hmax, ?_⟩
      · exact (range_iff (Width.size_pos width)).mpr ⟨piece, rest, hdrop, hext.symm⟩
      · rw [hext]
        show CborArgument.mk (beNat piece.val) (offset + piece.val.length) = _
        rw [piece.property]

theorem skipCborSimple_wide (width : Width) {next : Nat} :
    skipCborSimple bytes offset width.info = .ok next ↔
      offset + width.size ≤ bytes.length ∧ offset + width.size = next := by
  unfold skipCborSimple
  cases width with
  | one =>
    rw [if_neg (by decide), if_pos (by decide)]
    simp only [Width.size, bind_eq_ok, ensure_eq_ok, exists_unit, pure_eq_ok]
  | two =>
    rw [if_neg (by decide), if_neg (by decide), if_pos (by decide)]
    simp only [Width.size, bind_eq_ok, ensure_eq_ok, exists_unit, pure_eq_ok]
  | four =>
    rw [if_neg (by decide), if_neg (by decide), if_neg (by decide), if_pos (by decide)]
    simp only [Width.size, bind_eq_ok, ensure_eq_ok, exists_unit, pure_eq_ok]
  | eight =>
    rw [if_neg (by decide), if_neg (by decide), if_neg (by decide), if_neg (by decide),
      if_pos (by decide)]
    simp only [Width.size, bind_eq_ok, ensure_eq_ok, exists_unit, pure_eq_ok]

/-- A simple value or a float is skipped exactly when its argument stands at the offset. -/
theorem skipCborSimple_eq_ok {next : Nat} :
    skipCborSimple bytes offset info = .ok next ↔ ∃ a : Argument, a.info = info ∧
      (∃ rest, bytes.drop offset = a.following ++ rest) ∧ next = offset + a.following.length := by
  constructor
  · intro h
    rcases info_cases info with hi | ⟨width, rfl⟩ | hi
    · rw [skipCborSimple, if_pos hi, pure_eq_ok] at h
      exact ⟨.direct ⟨info, hi⟩, rfl, ⟨_, rfl⟩, h.symm⟩
    · obtain ⟨hle, rfl⟩ := (skipCborSimple_wide width).mp h
      obtain ⟨piece, rest, hdrop, -⟩ := (range_iff (Width.size_pos width)).mp hle
      refine ⟨.wide width piece, rfl, ⟨rest, hdrop⟩, ?_⟩
      show _ = offset + piece.val.length
      rw [piece.property]
    · rw [skipCborSimple, if_neg (by omega), if_neg (by omega), if_neg (by omega),
        if_neg (by omega), if_neg (by omega)] at h
      exact (throw_ne_ok h).elim
  · rintro ⟨a, rfl, ⟨rest, hdrop⟩, rfl⟩
    cases a with
    | direct value => exact if_pos value.isLt
    | wide width piece =>
      change bytes.drop offset = piece.val ++ rest at hdrop
      refine (skipCborSimple_wide width).mpr ⟨?_, ?_⟩
      · exact (range_iff (Width.size_pos width)).mpr ⟨piece, rest, hdrop, (extract_piece hdrop).symm⟩
      · show _ = offset + piece.val.length
        rw [piece.property]

end Argument

/-! ## Readers of items -/

/-- What the reader skips is `n` data items. -/
def Reads (bytes : Bytes) (n : Nat) (skip : Nat → Except String Nat) : Prop :=
  ∀ offset stop, skip offset = .ok stop → ∃ items rest, bytes.drop offset = items ++ rest ∧
    AreItems maxSafeInteger n items ∧ stop = offset + items.length

/-- The reader skips every `n` data items of up to `bound` bytes. -/
def Accepts (bytes : Bytes) (bound n : Nat) (skip : Nat → Except String Nat) : Prop :=
  ∀ offset items rest, bytes.drop offset = items ++ rest → AreItems maxSafeInteger n items →
    items.length ≤ bound → skip offset = .ok (offset + items.length)

variable {bytes : Bytes} {bound m n : Nat} {skip skip' : Nat → Except String Nat}

theorem Reads.comp (h : Reads bytes m skip) (ha : Reads bytes n skip') :
    Reads bytes (m + n) (fun offset => do skip' (← skip offset)) := by
  intro offset stop hok
  obtain ⟨middle, hskip, hafter⟩ := bind_eq_ok.mp hok
  obtain ⟨items, rest, hdrop, hitems, rfl⟩ := h offset middle hskip
  obtain ⟨items', rest', hdrop', hitems', rfl⟩ := ha _ stop hafter
  rw [drop_of_append hdrop] at hdrop'
  refine ⟨items ++ items', rest', ?_, hitems.append hitems', ?_⟩
  · rw [hdrop, hdrop', List.append_assoc]
  · rw [List.length_append, Nat.add_assoc]

theorem Accepts.comp (h : Accepts bytes bound m skip) (ha : Accepts bytes bound n skip') :
    Accepts bytes bound (m + n) (fun offset => do skip' (← skip offset)) := by
  intro offset items rest hdrop hitems hle
  obtain ⟨as, bs, rfl, has, hbs⟩ := hitems.split
  rw [List.length_append] at hle ⊢
  rw [List.append_assoc] at hdrop
  refine bind_eq_ok.mpr ⟨_, h offset as _ hdrop has (by omega), ?_⟩
  rw [ha _ bs rest (drop_of_append hdrop) hbs (by omega), Nat.add_assoc]

/-- A loop of `k` turns reads `k` times as many items. -/
theorem Reads.times (h : Reads bytes m skip) (k : Nat) :
    Reads bytes (m * k) (skipTimes skip k) := by
  induction k with
  | zero =>
    intro offset stop hok
    rw [skipTimes, pure_eq_ok] at hok
    subst hok
    exact ⟨[], _, rfl, .nil, rfl⟩
  | succ k ih =>
    rw [Nat.mul_succ, Nat.add_comm]
    exact h.comp ih

theorem Accepts.times (h : Accepts bytes bound m skip) (k : Nat) :
    Accepts bytes bound (m * k) (skipTimes skip k) := by
  induction k with
  | zero =>
    intro offset items rest _ hitems _
    cases hitems
    rfl
  | succ k ih =>
    rw [Nat.mul_succ, Nat.add_comm]
    exact h.comp ih

/-! ## One step -/

/-- A reader of single items skips to the end of the item in front of it. -/
theorem reads_one : Reads bytes 1 skip ↔ ∀ offset stop, skip offset = .ok stop →
    ∃ item rest, bytes.drop offset = item ++ rest ∧ CborItem item ∧ stop = offset + item.length := by
  simp only [Reads, areItems_one]

theorem accepts_one : Accepts bytes bound 1 skip ↔ ∀ offset item rest,
    bytes.drop offset = item ++ rest → CborItem item → item.length ≤ bound →
      skip offset = .ok (offset + item.length) := by
  simp only [Accepts, areItems_one]

section Head

variable {offset stop : Nat} {major : Fin 8} {a : Argument} {content rest : Bytes}

/-- What a reader skips behind a head, together with the head. -/
theorem Reads.behind_head (h : Reads bytes n skip) (major : Fin 8) (hoff : offset < bytes.length)
    (hm : (bytes.getD offset 0 >>> 5).toNat = major)
    (hi : a.info = (bytes.getD offset 0 &&& 0x1f).toNat)
    (hdrop : bytes.drop (offset + 1) = a.following ++ rest)
    (hok : skip (offset + 1 + a.following.length) = .ok stop) :
    ∃ content rest', bytes.drop offset = head major a ++ content ++ rest' ∧
      AreItems maxSafeInteger n content ∧ stop = offset + (head major a ++ content).length := by
  obtain ⟨content, rest', hcontent, hitems, rfl⟩ := h _ _ hok
  rw [drop_of_append hdrop] at hcontent
  subst hcontent
  refine ⟨content, rest', ?_, hitems, ?_⟩
  · rw [List.append_assoc]
    exact drop_head hoff hm hi hdrop
  · rw [List.length_append, length_head]
    omega

theorem Accepts.behind_head (h : Accepts bytes bound n skip)
    (hd : bytes.drop (offset + 1) = a.following ++ (content ++ rest))
    (hitems : AreItems maxSafeInteger n content)
    (hle : (head major a ++ content).length ≤ bound + 1) :
    skip (offset + 1 + a.following.length) = .ok (offset + (head major a ++ content).length) := by
  rw [List.length_append, length_head] at hle ⊢
  rw [h _ _ rest (drop_of_append hd) hitems (by omega)]
  congr 1
  omega

end Head

theorem Reads.body (h : Reads bytes 1 skip) : Reads bytes 1 (skipCborItemBody skip bytes) := by
  refine reads_one.mpr fun offset stop hok => ?_
  have hmajor := toNat_shiftRight_5 (bytes.getD offset 0)
  have hbyte := (bytes.getD offset 0).toNat_lt
  have hlt : (bytes.getD offset 0 >>> 5).toNat < 8 := by omega
  have hself : (bytes.getD offset 0 >>> 5).toNat = (⟨_, hlt⟩ : Fin 8) := rfl
  simp only [skipCborItemBody, bind_eq_ok, ensure_eq_ok, exists_unit] at hok
  obtain ⟨hoff, hok⟩ := hok
  split at hok
  · rename_i hm
    simp only [bind_eq_ok, pure_eq_ok] at hok
    obtain ⟨arg, harg, rfl⟩ := hok
    obtain ⟨a, hi, ⟨rest, hdrop⟩, hmax, rfl⟩ := readCborArgument_eq_ok.mp harg
    refine ⟨_, rest, drop_head hoff hself hi hdrop, ?_, ?_⟩
    · exact .integer (Fin.le_def.mpr hm) hmax
    · rw [length_head, Nat.add_assoc]
  split at hok
  · rename_i hm
    simp only [bind_eq_ok, ensure_eq_ok, exists_unit, pure_eq_ok] at hok
    obtain ⟨arg, harg, hle, rfl⟩ := hok
    obtain ⟨a, hi, ⟨rest, hdrop⟩, hmax, rfl⟩ := readCborArgument_eq_ok.mp harg
    -- the string is what the argument announces of the bytes behind it
    have hrest := drop_of_append hdrop
    have hlen := length_drop_eq hrest
    change offset + 1 + a.following.length + a.value ≤ bytes.length at hle
    have htake : (rest.take a.value).length = a.value := by
      rw [List.length_take]
      omega
    have hstring : (⟨_, hlt⟩ : Fin 8) = 2 ∨ (⟨_, hlt⟩ : Fin 8) = 3 := hm.imp Fin.ext Fin.ext
    rw [← List.take_append_drop a.value rest] at hdrop
    refine ⟨_, rest.drop a.value, ?_, .string hstring hmax htake, ?_⟩
    · rw [List.append_assoc]
      exact drop_head hoff hself hi hdrop
    · rw [List.length_append, length_head, htake]
      show offset + 1 + a.following.length + a.value = _
      omega
  split at hok
  · rename_i hm
    obtain ⟨arg, harg, hok⟩ := bind_eq_ok.mp hok
    obtain ⟨a, hi, ⟨rest, hdrop⟩, hmax, rfl⟩ := readCborArgument_eq_ok.mp harg
    obtain ⟨items, rest', hitem, hitems, rfl⟩ :=
      (h.times a.value).behind_head 4 hoff hm hi hdrop hok
    rw [Nat.one_mul] at hitems
    exact ⟨_, rest', hitem, .array hmax hitems, rfl⟩
  split at hok
  · rename_i hm
    obtain ⟨arg, harg, hok⟩ := bind_eq_ok.mp hok
    obtain ⟨a, hi, ⟨rest, hdrop⟩, hmax, rfl⟩ := readCborArgument_eq_ok.mp harg
    obtain ⟨entries, rest', hitem, hentries, rfl⟩ :=
      ((h.comp h).times a.value).behind_head 5 hoff hm hi hdrop hok
    exact ⟨_, rest', hitem, .map hmax hentries, rfl⟩
  split at hok
  · rename_i hm
    obtain ⟨arg, harg, hok⟩ := bind_eq_ok.mp hok
    obtain ⟨a, hi, ⟨rest, hdrop⟩, hmax, rfl⟩ := readCborArgument_eq_ok.mp harg
    obtain ⟨tagged, rest', hitem, htagged, rfl⟩ := h.behind_head 6 hoff hm hi hdrop hok
    exact ⟨_, rest', hitem, .tag hmax (areItems_one.mp htagged), rfl⟩
  · obtain ⟨a, hi, ⟨rest, hdrop⟩, rfl⟩ := skipCborSimple_eq_ok.mp hok
    have hm : (bytes.getD offset 0 >>> 5).toNat = (7 : Fin 8) := by
      show _ = 7
      omega
    refine ⟨_, rest, drop_head hoff hm hi hdrop, .simple, ?_⟩
    rw [length_head, Nat.add_assoc]

theorem Accepts.body (h : Accepts bytes bound 1 skip) :
    Accepts bytes (bound + 1) 1 (skipCborItemBody skip bytes) := by
  refine accepts_one.mpr fun offset item rest hdrop hitem hle => ?_
  simp only [skipCborItemBody, bind_eq_ok, ensure_eq_ok, exists_unit]
  cases hitem with
  | integer hm ha =>
    obtain ⟨hoff, hmajor, hi, hd⟩ := of_drop_head hdrop
    have harg := readCborArgument_eq_ok.mpr ⟨_, hi, ⟨rest, hd⟩, ha, rfl⟩
    refine ⟨hoff, ?_⟩
    rw [hmajor, if_pos (show _ ≤ 1 from hm), bind_eq_ok]
    refine ⟨_, harg, ?_⟩
    rw [length_head, ← Nat.add_assoc]
    rfl
  | string hm ha hc =>
    rw [List.append_assoc] at hdrop
    obtain ⟨hoff, hmajor, hi, hd⟩ := of_drop_head hdrop
    have harg := readCborArgument_eq_ok.mpr ⟨_, hi, ⟨_, hd⟩, ha, rfl⟩
    have hlen := length_drop_eq hd
    rw [List.length_append, List.length_append] at hlen
    refine ⟨hoff, ?_⟩
    have hm' : ¬ (bytes.getD offset 0 >>> 5).toNat ≤ 1 ∧
        ((bytes.getD offset 0 >>> 5).toNat = 2 ∨ (bytes.getD offset 0 >>> 5).toNat = 3) := by
      rcases hm with rfl | rfl
      · exact ⟨by rw [hmajor]; decide, .inl hmajor⟩
      · exact ⟨by rw [hmajor]; decide, .inr hmajor⟩
    rw [if_neg hm'.1, if_pos hm'.2, bind_eq_ok]
    refine ⟨_, harg, ?_⟩
    simp only [bind_eq_ok, ensure_eq_ok, exists_unit, pure_eq_ok]
    rw [List.length_append, length_head, hc]
    constructor <;> omega
  | array ha hitems =>
    rw [List.append_assoc] at hdrop
    obtain ⟨hoff, hmajor, hi, hd⟩ := of_drop_head hdrop
    have harg := readCborArgument_eq_ok.mpr ⟨_, hi, ⟨_, hd⟩, ha, rfl⟩
    refine ⟨hoff, ?_⟩
    rw [hmajor, if_neg (by decide), if_neg (by decide), if_pos (by decide), bind_eq_ok]
    refine ⟨_, harg, ?_⟩
    rw [← Nat.one_mul (Argument.value _)] at hitems
    exact (h.times _).behind_head hd hitems hle
  | map ha hentries =>
    rw [List.append_assoc] at hdrop
    obtain ⟨hoff, hmajor, hi, hd⟩ := of_drop_head hdrop
    have harg := readCborArgument_eq_ok.mpr ⟨_, hi, ⟨_, hd⟩, ha, rfl⟩
    refine ⟨hoff, ?_⟩
    rw [hmajor, if_neg (by decide), if_neg (by decide), if_neg (by decide), if_pos (by decide),
      bind_eq_ok]
    refine ⟨_, harg, ?_⟩
    exact ((h.comp h).times _).behind_head hd hentries hle
  | tag ha hitem =>
    rw [List.append_assoc] at hdrop
    obtain ⟨hoff, hmajor, hi, hd⟩ := of_drop_head hdrop
    have harg := readCborArgument_eq_ok.mpr ⟨_, hi, ⟨_, hd⟩, ha, rfl⟩
    refine ⟨hoff, ?_⟩
    rw [hmajor, if_neg (by decide), if_neg (by decide), if_neg (by decide), if_neg (by decide),
      if_pos (by decide), bind_eq_ok]
    refine ⟨_, harg, ?_⟩
    exact h.behind_head hd (areItems_one.mpr hitem) hle
  | simple =>
    obtain ⟨hoff, hmajor, hi, hd⟩ := of_drop_head hdrop
    refine ⟨hoff, ?_⟩
    rw [hmajor, if_neg (by decide), if_neg (by decide), if_neg (by decide), if_neg (by decide),
      if_neg (by decide)]
    refine skipCborSimple_eq_ok.mpr ⟨_, hi, ⟨rest, hd⟩, ?_⟩
    rw [length_head, Nat.add_assoc]

/-! ## Runs -/

theorem reads_skipCborItemWithin (depth : Nat) :
    Reads bytes 1 (skipCborItemWithin bytes depth) := by
  induction depth with
  | zero => exact fun _ _ h => (throw_ne_ok h).elim
  | succ depth ih => exact ih.body

theorem accepts_skipCborItemWithin (depth : Nat) :
    Accepts bytes depth 1 (skipCborItemWithin bytes depth) := by
  induction depth with
  | zero =>
    refine accepts_one.mpr fun offset item rest _ hitem hle => ?_
    have := hitem.length_pos
    omega
  | succ depth ih => exact ih.body

/-- An item is skipped exactly when it stands at the offset. -/
theorem skipCborItem_eq_ok {offset stop : Nat} : skipCborItem bytes offset = .ok stop ↔
    ∃ item rest, bytes.drop offset = item ++ rest ∧ CborItem item ∧ stop = offset + item.length := by
  constructor
  · exact reads_one.mp (reads_skipCborItemWithin _) offset stop
  · rintro ⟨item, rest, hdrop, hitem, rfl⟩
    have hlen := length_drop_eq hdrop
    rw [List.length_append] at hlen
    exact accepts_one.mp (accepts_skipCborItemWithin _) offset item rest hdrop hitem (by omega)

/-! ## The depth -/

section Depth

variable {offset : Nat}

theorem Reads.le (h : Reads bytes 1 skip) {o stop : Nat} (hok : skip o = .ok stop) : o ≤ stop := by
  obtain ⟨_, _, _, _, rfl⟩ := h o stop hok
  exact Nat.le_add_right _ _

/-- A loop only looks further on. -/
theorem skipTimes_congr (hle : ∀ o stop, skip o = .ok stop → o ≤ stop) (k : Nat)
    (h : ∀ o, offset ≤ o → skip o = skip' o) :
    skipTimes skip k offset = skipTimes skip' k offset := by
  induction k generalizing offset with
  | zero => rfl
  | succ k ih =>
    rw [skipTimes, skipTimes, ← h offset (Nat.le_refl _)]
    cases hs : skip offset with
    | error e => rfl
    | ok stop => exact ih fun o ho => h o (Nat.le_trans (hle offset stop hs) ho)

theorem lt_nextOffset {info : Nat} {arg : CborArgument}
    (h : readCborArgument bytes (offset + 1) info = .ok arg) : offset < arg.nextOffset := by
  obtain ⟨a, -, -, -, rfl⟩ := readCborArgument_eq_ok.mp h
  show offset < offset + 1 + _
  omega

/-- One step only looks further on. -/
theorem skipCborItemBody_congr (hr : Reads bytes 1 skip)
    (h : ∀ o, offset < bytes.length → offset < o → skip o = skip' o) :
    skipCborItemBody skip bytes offset = skipCborItemBody skip' bytes offset := by
  unfold skipCborItemBody
  by_cases hoff : offset < bytes.length
  · have hfar (arg : CborArgument) (o : Nat) (ho : arg.nextOffset ≤ o)
        (hlt : offset < arg.nextOffset) : skip o = skip' o := h o hoff (Nat.lt_of_lt_of_le hlt ho)
    refine bind_congr fun _ => ite_congr rfl (fun _ => rfl) fun _ => ite_congr rfl (fun _ => rfl)
      fun _ => ite_congr rfl (fun _ => ?_) fun _ => ite_congr rfl (fun _ => ?_) fun _ =>
      ite_congr rfl (fun _ => ?_) fun _ => rfl
    all_goals
      cases harg : readCborArgument bytes (offset + 1) (bytes.getD offset 0 &&& 0x1f).toNat with
      | error e => rfl
      | ok arg => ?_
    · exact skipTimes_congr (fun _ _ => hr.le) _ fun o ho => hfar arg o ho (lt_nextOffset harg)
    · refine skipTimes_congr (fun o stop hok => ?_) _ fun o ho => ?_
      · obtain ⟨middle, h₁, h₂⟩ := bind_eq_ok.mp hok
        exact Nat.le_trans (hr.le h₁) (hr.le h₂)
      · show skip o >>= skip = skip' o >>= skip'
        rw [← hfar arg o ho (lt_nextOffset harg)]
        cases hs : skip o with
        | error e => rfl
        | ok middle => exact hfar arg middle (Nat.le_trans ho (hr.le hs)) (lt_nextOffset harg)
    · exact hfar arg _ (Nat.le_refl _) (lt_nextOffset harg)
  · rw [ensure, if_neg hoff]
    rfl

theorem skipCborItemWithin_congr (d d' : Nat) (hd : bytes.length - offset < d)
    (hd' : bytes.length - offset < d') :
    skipCborItemWithin bytes d offset = skipCborItemWithin bytes d' offset := by
  induction d generalizing d' offset with
  | zero => omega
  | succ d ih =>
    cases d' with
    | zero => omega
    | succ d' =>
      exact skipCborItemBody_congr (reads_skipCborItemWithin d) fun o hoff ho =>
        ih d' (by omega) (by omega)

/-- The depth never runs out: `skipCborItem` is its body calling itself. -/
theorem skipCborItem_unfold (bytes : Bytes) (offset : Nat) :
    skipCborItem bytes offset = skipCborItemBody (skipCborItem bytes) bytes offset := by
  refine skipCborItemBody_congr (reads_skipCborItemWithin _) fun o hoff ho => ?_
  exact skipCborItemWithin_congr _ _ (by omega) (by omega)

end Depth

/-! ## Attested credential data -/

/-- Authenticator data with attested credential data: one item as the public key, and what is
left. -/
structure AttestedCredentialData where
  rpIdHash : ByteArr 32
  flags : UInt8
  signCount : ByteArr 4
  aaguid : ByteArr 16
  credentialId : Bytes
  short : credentialId.length < 2 ^ 16
  key : Bytes
  isItem : CborItem key
  extensions : Bytes

namespace AttestedCredentialData

def encode (d : AttestedCredentialData) : Bytes :=
  d.rpIdHash.val ++ (d.flags :: (d.signCount.val ++ (d.aaguid.val ++
    ((ByteArr.ofNat 2 d.credentialId.length).val ++ (d.credentialId ++ (d.key ++ d.extensions))))))

/-- What the parser returns, given the decoded key. -/
def parsed (d : AttestedCredentialData) (key : CoseKey) : ParsedAttestedCredentialData where
  rpIdHash := d.rpIdHash.val
  flags := d.flags
  signCount := beNat d.signCount.val
  aaguid := d.aaguid.val
  credentialId := d.credentialId
  publicKey := key.compressed
  publicKeyUncompressed := key.uncompressed

end AttestedCredentialData

/-- Two bytes as the parser combines them. -/
theorem shiftLeft_or (b c : UInt8) : b.toNat <<< 8 ||| c.toNat = beNat [b, c] := by
  have hc := c.toNat_lt
  rw [← Nat.shiftLeft_add_eq_or_of_lt hc, Nat.shiftLeft_eq, beNat_cons, beNat_cons]
  simp

/-- The two bytes at an offset. -/
theorem extract_two {offset : Nat} (h : offset + 2 ≤ bytes.length) :
    bytes.extract offset (offset + 2) = [bytes.getD offset 0, bytes.getD (offset + 1) 0] := by
  rw [← Nat.add_zero offset, Nat.add_assoc, extract_add (drop_eq_cons (by omega)),
    drop_eq_cons (show offset + 1 < bytes.length by omega)]
  rfl

section Parse

variable {decodeCbor : DecodeCbor}

/-- Accepted data is attested credential data, in whose key the parser finds one item. -/
theorem parseAttestedCredentialData_ok {authData : Bytes} {parsed : ParsedAttestedCredentialData}
    (h : parseAttestedCredentialData decodeCbor authData = .ok parsed) :
    ∃ (d : AttestedCredentialData) (key : CoseKey), authData = d.encode ∧
      d.flags &&& flagAttestedCredentialData ≠ 0 ∧
      (d.flags &&& flagExtensionData = 0 → d.extensions = []) ∧
      decodeCoseP256PublicKey decodeCbor d.key = .ok key ∧ parsed = d.parsed key := by
  simp only [parseAttestedCredentialData, bind_eq_ok, ensure_eq_ok, exists_unit, pure_eq_ok] at h
  obtain ⟨-, hflag, hlen, hid, stop, hskip, -, hext, key, hkey, rfl⟩ := h
  obtain ⟨item, rest, hdrop, hitem, rfl⟩ := skipCborItem_eq_ok.mp hskip
  rw [extract_of_append hdrop] at hkey
  have h53 := extract_two (show 53 + 2 ≤ authData.length by omega)
  have hcount := shiftLeft_or (authData.getD 53 0) (authData.getD 54 0)
  rw [← h53] at hcount
  rw [hcount] at hid hdrop hext ⊢
  have hpiece (start stop : Nat) (h : stop ≤ authData.length) :=
    length_extract_of_le start h
  set n := beNat (authData.extract 53 55) with hn
  have hn' : n < 2 ^ 16 := by
    have hlt := beNat_lt (authData.extract 53 55)
    rw [hpiece 53 55 (by omega)] at hlt
    exact hlt
  refine ⟨{ rpIdHash := ⟨authData.extract 0 32, hpiece 0 32 (by omega)⟩
            flags := authData.getD 32 0
            signCount := ⟨authData.extract 33 37, hpiece 33 37 (by omega)⟩
            aaguid := ⟨authData.extract 37 53, hpiece 37 53 (by omega)⟩
            credentialId := authData.extract 55 (55 + n)
            short := by rw [hpiece 55 (55 + n) hid]; omega
            key := item
            isItem := hitem
            extensions := rest }, key, ?_, hflag, fun h0 => ?_, hkey, rfl⟩
  · have hof : (ByteArr.ofNat 2 (authData.extract 55 (55 + n)).length).val =
        authData.extract 53 55 := by
      rw [hpiece 55 (55 + n) hid, Nat.add_sub_cancel_left, hn]
      exact ByteArr.ofNat_beNat (hpiece 53 55 (by omega))
    show authData = authData.extract 0 32 ++ (authData.getD 32 0 :: (authData.extract 33 37 ++
      (authData.extract 37 53 ++ ((ByteArr.ofNat 2 (authData.extract 55 (55 + n)).length).val ++
        (authData.extract 55 (55 + n) ++ (item ++ rest))))))
    rw [hof, ← hdrop, ← drop_eq_extract_append _ (by omega),
      ← drop_eq_extract_append _ (by omega), ← drop_eq_extract_append _ (by omega),
      ← drop_eq_extract_append _ (by omega), ← drop_eq_cons (by omega),
      ← drop_eq_extract_append _ (by omega), List.drop_zero]
  · have hend := length_drop_eq hdrop
    have := hext h0
    rw [List.length_append] at hend
    show rest = []
    exact List.eq_nil_of_length_eq_zero (by omega)

theorem AttestedCredentialData.length_encode (d : AttestedCredentialData) : d.encode.length =
    55 + (d.credentialId.length + (d.key.length + d.extensions.length)) := by
  simp only [encode, List.length_append, List.length_cons, d.rpIdHash.property,
    d.signCount.property, d.aaguid.property, (ByteArr.ofNat 2 d.credentialId.length).property]
  omega

theorem parseAttestedCredentialData_encode {d : AttestedCredentialData} {key : CoseKey}
    (hflag : d.flags &&& flagAttestedCredentialData ≠ 0)
    (hext : d.flags &&& flagExtensionData = 0 → d.extensions = [])
    (hkey : decodeCoseP256PublicKey decodeCbor d.key = .ok key) :
    parseAttestedCredentialData decodeCbor d.encode = .ok (d.parsed key) := by
  simp only [parseAttestedCredentialData, bind_eq_ok, ensure_eq_ok, exists_unit, pure_eq_ok]
  have hlen := d.length_encode
  have d₀ : d.encode.drop 0 = d.rpIdHash.val ++ _ := rfl
  have d₃₂ := drop_of_piece d₀
  have d₃₃ := drop_of_append (a := [d.flags]) d₃₂
  have d₃₇ := drop_of_piece d₃₃
  have d₅₃ := drop_of_piece d₃₇
  have d₅₅ := drop_of_piece d₅₃
  have dkey := drop_of_append d₅₅
  have hflags : d.encode.getD 32 0 = d.flags := getD_offset d₃₂
  have hcount : (d.encode.getD 53 0).toNat <<< 8 ||| (d.encode.getD 54 0).toNat =
      d.credentialId.length := by
    rw [shiftLeft_or, ← extract_two (by omega)]
    have hid := extract_piece d₅₃
    change d.encode.extract 53 (53 + 2) = _ at hid
    rw [hid]
    show beNat (leBytes 2 d.credentialId.length).reverse = _
    rw [beNat, List.reverse_reverse, leNat_leBytes d.short]
  have hskip : skipCborItem d.encode (55 + d.credentialId.length) =
      .ok (55 + d.credentialId.length + d.key.length) :=
    skipCborItem_eq_ok.mpr ⟨_, _, dkey, d.isItem, rfl⟩
  rw [hflags, hcount]
  refine ⟨by omega, hflag, by omega, by omega, _, hskip, by omega, fun h0 => ?_, key, ?_, ?_⟩
  · rw [hlen, hext h0]
    simp only [List.length_nil]
    omega
  · have hitem := extract_of_append dkey
    change d.encode.extract (55 + d.credentialId.length)
      (55 + d.credentialId.length + d.key.length) = _ at hitem
    rw [hitem]
    exact hkey
  · have hrp := extract_piece d₀
    have hsign := extract_piece d₃₃
    have haaguid := extract_piece d₃₇
    have hid := extract_of_append d₅₅
    change d.encode.extract 0 32 = _ at hrp
    change d.encode.extract 33 37 = _ at hsign
    change d.encode.extract 37 53 = _ at haaguid
    change d.encode.extract 55 (55 + d.credentialId.length) = _ at hid
    rw [hrp, hsign, haaguid, hid]
    rfl

/-- Attested credential data is accepted exactly when one item follows the credential id, nothing
follows that item unless extensions are announced, and the item decodes to a key. -/
theorem parseAttestedCredentialData_iff (decodeCbor : DecodeCbor) (authData : Bytes)
    (parsed : ParsedAttestedCredentialData) :
    parseAttestedCredentialData decodeCbor authData = .ok parsed ↔
      ∃ (d : AttestedCredentialData) (key : CoseKey), authData = d.encode ∧
        d.flags &&& flagAttestedCredentialData ≠ 0 ∧
        (d.flags &&& flagExtensionData = 0 → d.extensions = []) ∧
        decodeCoseP256PublicKey decodeCbor d.key = .ok key ∧ parsed = d.parsed key := by
  constructor
  · exact parseAttestedCredentialData_ok
  · rintro ⟨d, key, rfl, hflag, hext, hkey, rfl⟩
    exact parseAttestedCredentialData_encode hflag hext hkey

end Parse

/-- `skipCborItem` returns the end of the item at its offset, whatever stands around it, and
nothing else; so the public key of attested credential data is cut out exactly, and bytes behind
it need the extension flag. -/
theorem skipCborItem_exact (decodeCbor : DecodeCbor) :
    (∀ (bytes : Bytes) (offset stop : Nat), skipCborItem bytes offset = .ok stop ↔
      ∃ before item after, bytes = before ++ item ++ after ∧ CborItem item ∧
        offset = before.length ∧ stop = offset + item.length) ∧
    (∀ (authData : Bytes) (parsed : ParsedAttestedCredentialData),
      parseAttestedCredentialData decodeCbor authData = .ok parsed ↔
        ∃ (d : AttestedCredentialData) (key : CoseKey), authData = d.encode ∧
          d.flags &&& flagAttestedCredentialData ≠ 0 ∧
          (d.flags &&& flagExtensionData = 0 → d.extensions = []) ∧
          decodeCoseP256PublicKey decodeCbor d.key = .ok key ∧ parsed = d.parsed key) := by
  refine ⟨fun bytes offset stop => ?_, parseAttestedCredentialData_iff decodeCbor⟩
  rw [skipCborItem_eq_ok]
  constructor
  · rintro ⟨item, rest, hdrop, hitem, rfl⟩
    have hpos := hitem.length_pos
    have hlen := length_drop_eq hdrop
    rw [List.length_append] at hlen
    refine ⟨bytes.take offset, item, rest, ?_, hitem, ?_, rfl⟩
    · rw [List.append_assoc, ← hdrop, List.take_append_drop]
    · rw [List.length_take]
      omega
  · rintro ⟨before, item, after, rfl, hitem, rfl, rfl⟩
    refine ⟨item, after, ?_, hitem, rfl⟩
    rw [List.append_assoc, List.drop_left]

end ExternalSignature.Sdk
