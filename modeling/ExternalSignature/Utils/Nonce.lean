import ExternalSignature.Lib.Borsh
import ExternalSignature.Runtime

/-!
# The nonce

A signed payload names a recent slot by its last three digits. `validateNonce` finds that slot in
the SlotHashes sysvar and checks that it is less than 150 slots old (`validateNonce_ok`), that the
program is called at the top level and that the nonce signer has signed.
-/

namespace ExternalSignature

open Lib Lib.Borsh

/-! ## Slot hashes -/

/-- `SlotHashes<Ref<[u8]>>`, newest slot first. -/
abbrev SlotHashes := List SlotHash

/-- `SlotHashes::try_from`. -/
def Runtime.slotHashesSysvar (rt : Runtime) (info : AccountInfo) : Outcome SlotHashes := do
  ensure (info.key = slotHashesId) (.err .unsupportedSysvar)
  return rt.slotHashes

def SlotHashes.getSlotHash (slothashes : SlotHashes) (index : Nat) : Outcome SlotHash :=
  okOr (.custom .invalidSlothashIndex) slothashes[index]?

/-! ## Truncated slots -/

structure TruncatedSlot where
  slot : UInt16
  deriving DecidableEq

namespace TruncatedSlot

def fields : TruncatedSlot ≃ UInt16 where
  toFun s := s.slot
  invFun s := ⟨s⟩
  left_inv _ := rfl
  right_inv _ := rfl

instance : BorshSerialize TruncatedSlot := serializeAs fields
instance : BorshDeserialize TruncatedSlot := deserializeAs fields
instance : LawfulBorsh TruncatedSlot := lawfulAs fields

def new (untruncatedSlot : UInt64) : TruncatedSlot := ⟨(untruncatedSlot % 1000).toUInt16⟩

end TruncatedSlot

/-- `u16::checked_sub`. -/
def checkedSub (a b : UInt16) : Option UInt16 := if b ≤ a then some (a - b) else none

/-- `u16::checked_add`. -/
def checkedAdd (a b : UInt16) : Option UInt16 :=
  if a.toNat + b.toNat < 65536 then some (a + b) else none

/-- How many slots `other` is behind `self`, on the circle of 1000 truncated slots. -/
def TruncatedSlot.getIndexDifference (self other : TruncatedSlot) : Outcome UInt16 :=
  if other.slot ≤ self.slot then
    okOr (.custom .invalidTruncatedSlot) (checkedSub self.slot other.slot)
  else do
    let wraparoundDistance ← okOr (.custom .invalidTruncatedSlot) (checkedSub 1000 other.slot)
    okOr (.custom .invalidTruncatedSlot) (checkedAdd self.slot wraparoundDistance)

/-! ## The search for the slot -/

/-- Entries `0 .. searchEnd` from the last one down. -/
def reverseLinearSearchSlotHash (slothashes : SlotHashes) (expectedSlot : UInt64) :
    (searchEnd : Nat) → Outcome SlotHash
  | 0 => .error (.custom .invalidSlothashIndex)
  | index + 1 => do
    let candidate ← slothashes.getSlotHash index
    if candidate.height = expectedSlot then return candidate
    else reverseLinearSearchSlotHash slothashes expectedSlot index

def findSlotHashWithFallback (slothashes : SlotHashes) (expectedSlot : UInt64)
    (expectedIndex : Nat) : Outcome SlotHash := do
  let search := do
    let searchEnd := min expectedIndex slothashes.length
    ensure (searchEnd ≠ 0) (.custom .invalidSlothashIndex)
    reverseLinearSearchSlotHash slothashes expectedSlot searchEnd
  if expectedIndex < slothashes.length then
    let candidate ← slothashes.getSlotHash expectedIndex
    if candidate.height = expectedSlot then return candidate else search
  else search

structure NonceData where
  signerKey : Pubkey
  slothash : ByteArr 32

def validateNonce (rt : Runtime) (slothashes : SlotHashes) (slot : TruncatedSlot)
    (nonceSigner : AccountInfo) : Outcome NonceData := do
  ensure (slot.slot < 1000) (.custom .invalidTruncatedSlot)
  -- the signer's signature must be in the runtime's signature cache, so no call by CPI
  ensure (rt.stackHeight ≤ 1) (.custom .cpiNotAllowed)
  ensure nonceSigner.isSigner (.custom .missingNonceSignature)
  let mostRecentSlotHash ← slothashes.getSlotHash 0
  let truncatedMostRecentSlot := TruncatedSlot.new mostRecentSlotHash.height
  let indexDifference ← truncatedMostRecentSlot.getIndexDifference slot
  ensure (indexDifference < 150) (.custom .expiredSlothash)
  -- `checked_sub`
  ensure (indexDifference.toUInt64 ≤ mostRecentSlotHash.height) (.custom .invalidTruncatedSlot)
  let expectedSlot := mostRecentSlotHash.height - indexDifference.toUInt64
  let slotHash ← findSlotHashWithFallback slothashes expectedSlot indexDifference.toNat
  return ⟨nonceSigner.key, slotHash.hash⟩

/-! ## What a valid nonce is -/

theorem getSlotHash_ok {slothashes : SlotHashes} {index : Nat} {entry : SlotHash} :
    slothashes.getSlotHash index = .ok entry ↔ slothashes[index]? = some entry := by
  simp [SlotHashes.getSlotHash]

theorem reverseLinearSearchSlotHash_ok {slothashes : SlotHashes} {expectedSlot : UInt64}
    {searchEnd : Nat} {entry : SlotHash}
    (h : reverseLinearSearchSlotHash slothashes expectedSlot searchEnd = .ok entry) :
    entry ∈ slothashes ∧ entry.height = expectedSlot := by
  induction searchEnd with
  | zero => cases h
  | succ index ih =>
    simp only [reverseLinearSearchSlotHash, bind_eq_ok, getSlotHash_ok] at h
    obtain ⟨candidate, hc, h⟩ := h
    split at h
    · rename_i hh
      obtain rfl := pure_eq_ok.mp h
      exact ⟨List.mem_of_getElem? hc, hh⟩
    · exact ih h

theorem findSlotHashWithFallback_ok {slothashes : SlotHashes} {expectedSlot : UInt64}
    {expectedIndex : Nat} {entry : SlotHash}
    (h : findSlotHashWithFallback slothashes expectedSlot expectedIndex = .ok entry) :
    entry ∈ slothashes ∧ entry.height = expectedSlot := by
  have fallback : ∀ {n}, (do
      ensure (n ≠ 0) (Fault.custom .invalidSlothashIndex)
      reverseLinearSearchSlotHash slothashes expectedSlot n) = .ok entry →
        entry ∈ slothashes ∧ entry.height = expectedSlot := by
    intro n h
    obtain ⟨_, -, h⟩ := bind_eq_ok.mp h
    exact reverseLinearSearchSlotHash_ok h
  unfold findSlotHashWithFallback at h
  split at h
  · obtain ⟨candidate, hc, h⟩ := bind_eq_ok.mp h
    split at h
    · rename_i hh
      obtain rfl := pure_eq_ok.mp h
      exact ⟨List.mem_of_getElem? (getSlotHash_ok.mp hc), hh⟩
    · exact fallback h
  · exact fallback h

/-- What `validateNonce` has checked: `entry` is the slot that the payload names. -/
structure ValidNonce (rt : Runtime) (slothashes : SlotHashes) (nonceSigner : AccountInfo)
    (nonceData : NonceData) where
  newest : SlotHash
  entry : SlotHash
  topLevel : rt.stackHeight ≤ 1
  signed : nonceSigner.isSigner
  signerKey : nonceData.signerKey = nonceSigner.key
  newest_head : slothashes[0]? = some newest
  entry_mem : entry ∈ slothashes
  slothash : nonceData.slothash = entry.hash
  not_future : entry.height.toNat ≤ newest.height.toNat
  not_expired : newest.height.toNat < entry.height.toNat + 150

theorem validateNonce_ok {rt : Runtime} {slothashes : SlotHashes} {slot : TruncatedSlot}
    {nonceSigner : AccountInfo} {nonceData : NonceData}
    (h : validateNonce rt slothashes slot nonceSigner = .ok nonceData) :
    Nonempty (ValidNonce rt slothashes nonceSigner nonceData) := by
  simp only [validateNonce, bind_eq_ok, ensure_eq_ok, exists_unit, getSlotHash_ok,
    pure_eq_ok] at h
  obtain ⟨-, htop, hsigned, newest, hnew, diff, -, hdiff, hsub, entry, hentry, rfl⟩ := h
  obtain ⟨hmem, hheight⟩ := findSlotHashWithFallback_ok hentry
  have hd : diff.toUInt64.toNat = diff.toNat := by simp
  have hlt : diff.toNat < 150 := UInt16.lt_iff_toNat_lt.mp hdiff
  have hle : diff.toUInt64.toNat ≤ newest.height.toNat := UInt64.le_iff_toNat_le.mp hsub
  have he : entry.height.toNat = newest.height.toNat - diff.toUInt64.toNat := by
    rw [hheight, UInt64.toNat_sub_of_le _ _ hsub]
  exact ⟨newest, entry, htop, hsigned, rfl, hnew, hmem, rfl, by omega, by omega⟩

end ExternalSignature
