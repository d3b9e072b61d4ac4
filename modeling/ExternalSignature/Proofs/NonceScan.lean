import ExternalSignature.Utils.Nonce

/-!
# The nonce lookup is a full scan

The slots of the SlotHashes sysvar strictly decrease, so the slot `d` behind the newest one stands
at index `d` or before it (`StrictlyDecreasing.index_le`). The direct probe and the search below it
therefore find every slot that the sysvar has (`findSlotHashWithFallback_iff`), and `validateNonce`
accepts exactly the truncated slots that a scan of the whole sysvar finds (`validateNonce_scan`).
-/

namespace ExternalSignature

open Lib

/-! ## Strictly decreasing slots -/

def StrictlyDecreasing (slothashes : SlotHashes) : Prop :=
  slothashes.Pairwise fun a b => b.height < a.height

namespace StrictlyDecreasing

variable {slothashes : SlotHashes} {newest entry entry' : SlotHash}

theorem lt (h : StrictlyDecreasing slothashes) {i j : Nat} (hij : i < j)
    (hi : slothashes[i]? = some entry) (hj : slothashes[j]? = some entry') :
    entry'.height < entry.height := by
  obtain ⟨hi', rfl⟩ := List.getElem?_eq_some_iff.mp hi
  obtain ⟨hj', rfl⟩ := List.getElem?_eq_some_iff.mp hj
  exact List.pairwise_iff_getElem.mp h i j hi' hj' hij

/-- One entry for each slot. -/
theorem entry_unique (h : StrictlyDecreasing slothashes) (he : entry ∈ slothashes)
    (he' : entry' ∈ slothashes) (heq : entry.height = entry'.height) : entry = entry' := by
  obtain ⟨i, hi⟩ := List.mem_iff_getElem?.mp he
  obtain ⟨j, hj⟩ := List.mem_iff_getElem?.mp he'
  rcases Nat.lt_trichotomy i j with hij | rfl | hij
  · have := h.lt hij hi hj
    exact absurd (heq ▸ this) (UInt64.lt_irrefl _)
  · exact Option.some.inj (hi.symm.trans hj)
  · have := h.lt hij hj hi
    exact absurd (heq ▸ this) (UInt64.lt_irrefl _)

/-- A slot is at least as far behind the newest one as its entry. -/
theorem index_le (h : StrictlyDecreasing slothashes) (h0 : slothashes[0]? = some newest) {i : Nat}
    (hi : slothashes[i]? = some entry) : entry.height.toNat + i ≤ newest.height.toNat := by
  induction i generalizing entry with
  | zero =>
    obtain rfl := Option.some.inj (h0.symm.trans hi)
    exact Nat.le_refl _
  | succ i ih =>
    have hlt := (List.getElem?_eq_some_iff.mp hi).1
    have hprev := List.getElem?_eq_getElem (Nat.lt_of_succ_lt hlt)
    have hstep := UInt64.lt_iff_toNat_lt.mp (h.lt (Nat.lt_succ_self i) hprev hi)
    have := ih hprev
    omega

end StrictlyDecreasing

/-! ## The search -/

variable {slothashes : SlotHashes} {newest entry : SlotHash} {expectedSlot : UInt64}

/-- The search succeeds if there is something to find. -/
theorem reverseLinearSearchSlotHash_exists {i searchEnd : Nat} (hi : slothashes[i]? = some entry)
    (hheight : entry.height = expectedSlot) (hlt : i < searchEnd)
    (hend : searchEnd ≤ slothashes.length) :
    ∃ found, reverseLinearSearchSlotHash slothashes expectedSlot searchEnd = .ok found := by
  induction searchEnd with
  | zero => exact absurd hlt (Nat.not_lt_zero i)
  | succ index ih =>
    have hcandidate := List.getElem?_eq_getElem (Nat.lt_of_succ_le hend)
    rw [reverseLinearSearchSlotHash, getSlotHash_ok.mpr hcandidate]
    by_cases hfound : slothashes[index].height = expectedSlot
    · exact ⟨_, if_pos hfound⟩
    · have hne : i ≠ index := by
        rintro rfl
        rw [hcandidate] at hi
        exact hfound (Option.some.inj hi ▸ hheight)
      obtain ⟨found, hf⟩ := ih (by omega) (by omega)
      exact ⟨found, (if_neg hfound).trans hf⟩

/-- In the sysvar, the slot `expectedIndex` behind the newest one is found exactly when it has an
entry. -/
theorem findSlotHashWithFallback_iff (h : StrictlyDecreasing slothashes)
    (h0 : slothashes[0]? = some newest) {expectedIndex : Nat}
    (hindex : expectedSlot.toNat + expectedIndex = newest.height.toNat) :
    findSlotHashWithFallback slothashes expectedSlot expectedIndex = .ok entry ↔
      entry ∈ slothashes ∧ entry.height = expectedSlot := by
  constructor
  · exact findSlotHashWithFallback_ok
  · rintro ⟨hmem, hheight⟩
    -- whatever is found is the entry, so it remains to find something
    suffices hex : ∃ found,
        findSlotHashWithFallback slothashes expectedSlot expectedIndex = .ok found by
      obtain ⟨found, hf⟩ := hex
      obtain ⟨hmem', hheight'⟩ := findSlotHashWithFallback_ok hf
      rw [hf, h.entry_unique hmem' hmem (hheight'.trans hheight.symm)]
    obtain ⟨i, hi⟩ := List.mem_iff_getElem?.mp hmem
    have hle := h.index_le h0 hi
    rw [hheight] at hle
    have hlen := (List.getElem?_eq_some_iff.mp hi).1
    have hsearch (hlt : i < expectedIndex) : ∃ found, (do
        let searchEnd := min expectedIndex slothashes.length
        ensure (searchEnd ≠ 0) (Fault.custom .invalidSlothashIndex)
        reverseLinearSearchSlotHash slothashes expectedSlot searchEnd) = .ok found := by
      obtain ⟨found, hf⟩ := reverseLinearSearchSlotHash_exists hi hheight
        (show i < min expectedIndex slothashes.length by omega) (Nat.min_le_right _ _)
      exact ⟨found, bind_eq_ok.mpr ⟨(), ensure_eq_ok.mpr (by omega), hf⟩⟩
    unfold findSlotHashWithFallback
    by_cases hdirect : expectedIndex < slothashes.length
    · have hcandidate := List.getElem?_eq_getElem hdirect
      rw [if_pos hdirect, getSlotHash_ok.mpr hcandidate]
      by_cases hfound : slothashes[expectedIndex].height = expectedSlot
      · exact ⟨_, if_pos hfound⟩
      · have hne : i ≠ expectedIndex := by
          rintro rfl
          rw [hcandidate] at hi
          exact hfound (Option.some.inj hi ▸ hheight)
        obtain ⟨found, hf⟩ := hsearch (by omega)
        exact ⟨found, (if_neg hfound).trans hf⟩
    · rw [if_neg hdirect]
      exact hsearch (by omega)

/-! ## The lookup -/

theorem toNat_new (height : UInt64) : (TruncatedSlot.new height).slot.toNat = height.toNat % 1000 := by
  show (height % 1000).toUInt16.toNat = _
  rw [UInt64.toNat_toUInt16, UInt64.toNat_mod]
  show height.toNat % 1000 % 2 ^ 16 = _
  omega

/-- The distance on the circle of truncated slots; no subtraction fails. -/
theorem getIndexDifference_iff {height : UInt64} {slot : TruncatedSlot} {d : UInt16}
    (h : slot.slot.toNat < 1000) : (TruncatedSlot.new height).getIndexDifference slot = .ok d ↔
      d.toNat = (height.toNat % 1000 + (1000 - slot.slot.toNat)) % 1000 := by
  have hnew := toNat_new height
  unfold TruncatedSlot.getIndexDifference
  by_cases hle : slot.slot ≤ (TruncatedSlot.new height).slot
  · have hsub := UInt16.toNat_sub_of_le _ _ hle
    have hle' := UInt16.le_iff_toNat_le.mp hle
    rw [if_pos hle, checkedSub, if_pos hle, okOr_eq_ok, Option.some.injEq, ← UInt16.toNat_inj, hsub]
    omega
  · have hlt := Nat.not_le.mp (mt UInt16.le_iff_toNat_le.mpr hle)
    have h1000 : slot.slot ≤ 1000 := UInt16.le_iff_toNat_le.mpr (by show _ ≤ 1000; omega)
    have hsub : (1000 - slot.slot).toNat = 1000 - slot.slot.toNat :=
      UInt16.toNat_sub_of_le _ _ h1000
    rw [if_neg hle, checkedSub, if_pos h1000]
    simp only [okOr, bind_eq_ok, Except.ok.injEq, exists_eq_left', checkedAdd, hsub]
    rw [if_pos (by omega), Except.ok.injEq, ← UInt16.toNat_inj, UInt16.toNat_add, hsub]
    omega

/-- A scan of the whole sysvar: the entry, less than 150 slots behind the newest one, whose slot
ends in the truncated slot's digits. -/
structure Scanned (slothashes : SlotHashes) (slot : TruncatedSlot) (entry : SlotHash) : Prop where
  valid : slot.slot.toNat < 1000
  mem : entry ∈ slothashes
  digits : entry.height.toNat % 1000 = slot.slot.toNat
  recent : ∃ newest, slothashes[0]? = some newest ∧
    (newest.height.toNat : Int) - 150 < entry.height.toNat ∧
      entry.height.toNat ≤ newest.height.toNat

/-- For a signer at the top level, the nonce of a sysvar with strictly decreasing slots is valid
exactly when a scan finds its slot, and gives the hash of the entry that the scan finds. -/
theorem validateNonce_scan {rt : Runtime} {slot : TruncatedSlot} {nonceSigner : AccountInfo}
    (h : StrictlyDecreasing slothashes) (htop : rt.stackHeight ≤ 1)
    (hsigned : nonceSigner.isSigner) (nonceData : NonceData) :
    validateNonce rt slothashes slot nonceSigner = .ok nonceData ↔
      ∃ entry, Scanned slothashes slot entry ∧ nonceData = ⟨nonceSigner.key, entry.hash⟩ := by
  simp only [validateNonce, bind_eq_ok, ensure_eq_ok, exists_unit, getSlotHash_ok, pure_eq_ok]
  have h1000 : slot.slot < 1000 ↔ slot.slot.toNat < 1000 := UInt16.lt_iff_toNat_lt
  constructor
  · rintro ⟨hslot, -, -, newest, h0, d, hd, hlt, hle, entry, hfound, rfl⟩
    rw [h1000] at hslot
    rw [getIndexDifference_iff hslot] at hd
    have hlt : d.toNat < 150 := UInt16.lt_iff_toNat_lt.mp hlt
    have hle' := UInt64.le_iff_toNat_le.mp hle
    have hsub := UInt64.toNat_sub_of_le _ _ hle
    rw [UInt16.toNat_toUInt64] at hle' hsub
    obtain ⟨hmem, hheight⟩ := (findSlotHashWithFallback_iff h h0 (by omega)).mp hfound
    rw [← hheight] at hsub
    exact ⟨entry, ⟨hslot, hmem, by omega, newest, h0, by omega, by omega⟩, rfl⟩
  · rintro ⟨entry, ⟨hslot, hmem, hdigits, newest, h0, hrecent, hle⟩, rfl⟩
    set d := UInt16.ofNat (newest.height.toNat - entry.height.toNat) with hd
    have hdn : d.toNat = newest.height.toNat - entry.height.toNat := by
      rw [hd, UInt16.toNat_ofNat']
      omega
    have hsub : d.toUInt64 ≤ newest.height := by
      rw [UInt64.le_iff_toNat_le, UInt16.toNat_toUInt64]
      omega
    have hexpected : newest.height - d.toUInt64 = entry.height := by
      apply UInt64.toNat_inj.mp
      rw [UInt64.toNat_sub_of_le _ _ hsub, UInt16.toNat_toUInt64]
      omega
    refine ⟨h1000.mpr hslot, htop, hsigned, newest, h0, d, ?_, ?_, hsub, entry, ?_, rfl⟩
    · rw [getIndexDifference_iff hslot]
      omega
    · exact UInt16.lt_iff_toNat_lt.mpr (by show d.toNat < 150; omega)
    · rw [hexpected]
      exact (findSlotHashWithFallback_iff h h0 (by omega)).mpr ⟨hmem, rfl⟩

/-- A hash or a key of one byte, repeated. -/
def Sample.repeated (b : UInt8) : ByteArr 32 := ⟨List.replicate 32 b, List.length_replicate⟩

/-- A sysvar with skipped slots between its entries. -/
def Sample.skippedSlots : SlotHashes :=
  [⟨14, repeated 0x66⟩, ⟨10, repeated 0x55⟩, ⟨9, repeated 0x44⟩]

/-- A runtime at the top level with that sysvar. -/
def Sample.skippedRuntime : Runtime where
  unixTimestamp := 0
  stackHeight := 1
  slotHashes := Sample.skippedSlots
  instructions := []
  minimumBalance := fun _ => 0
  system := fun _ => .ok ()
  sliceInvokeSigned := fun _ _ => .ok ()

/-- A signer of the transaction. -/
def Sample.nonceSigner : AccountInfo :=
  ⟨repeated 0x11, true, true, systemProgramId, []⟩

/-- Slot 10 is four behind the newest slot and at index 1, three entries having been skipped. -/
theorem validateNonce_scan_skipped :
    validateNonce Sample.skippedRuntime Sample.skippedSlots ⟨10⟩ Sample.nonceSigner =
      .ok ⟨Sample.nonceSigner.key, ⟨List.replicate 32 0x55, rfl⟩⟩ := by
  have hdec : StrictlyDecreasing Sample.skippedSlots := by
    unfold StrictlyDecreasing
    decide
  exact (validateNonce_scan hdec (by decide) rfl _).mpr ⟨⟨10, ⟨List.replicate 32 0x55, rfl⟩⟩,
    ⟨by decide, .tail _ (.head _), by decide, _, rfl, by decide, by decide⟩, rfl⟩

end ExternalSignature
