import ExternalSignature.Proofs.Build
import ExternalSignature.Proofs.Complete
import ExternalSignature.Proofs.Replay
import ExternalSignature.Utils.SlotHashes
import ExternalSignature.Webapp

/-!
# The life of a challenge

The application reads a slot and its hash from the data of the sysvar, and the passkey signs a
challenge over them. Meanwhile the runtime adds slots. The program accepts the slot and finds the
same hash exactly as long as the newest slot is less than 150 ahead (`challenge_context_lifetime`).
-/

namespace ExternalSignature

open Lib Webapp

variable {rt : Runtime} {data : Bytes} {first newest : SlotHash} {rest news : List SlotHash}

/-! ## What the application reads -/

/-- Past the safe integers, numbers are rounded to ones that are not safe either. -/
theorem Webapp.toNumber_isSafe {n : Nat} :
    (Sdk.Numeric.number (toNumber n)).isSafe ↔ n < 2 ^ 53 := by
  show -(2 ^ 53) < toNumber n ∧ toNumber n < 2 ^ 53 ↔ _
  unfold toNumber
  split
  · omega
  · rename_i hle
    have hlog : 2 ^ n.log2 ≤ n := Nat.log2_self_le (by omega)
    have hlarge : 53 ≤ n.log2 := (Nat.le_log2 (by omega)).mpr (by omega)
    have hunit : 2 ^ 1 ≤ 2 ^ (n.log2 - 52) := Nat.pow_le_pow_right (by decide) (by omega)
    -- the quotient has 53 binary digits
    have hquotient : 2 ^ 52 ≤ n / 2 ^ (n.log2 - 52) := by
      rw [Nat.le_div_iff_mul_le (Nat.two_pow_pos _), ← Nat.pow_add]
      exact (Nat.pow_le_pow_right (by decide) (by omega)).trans hlog
    generalize 2 ^ (n.log2 - 52) = unit at hunit hquotient
    have hrounded (up : Bool) : 2 ^ 53 ≤ unit * (if up then n / unit + 1 else n / unit) :=
      calc
        2 ^ 53 = 2 ^ 1 * 2 ^ 52 := rfl
        _ ≤ unit * (if up then n / unit + 1 else n / unit) := Nat.mul_le_mul hunit (by split <;> omega)
    refine iff_of_false ?_ (by omega)
    rintro ⟨-, hlt⟩
    dsimp only at hlt
    exact Nat.not_lt.mpr (hrounded _) (by exact_mod_cast hlt)

/-- The bytes of the first slot. -/
theorem SlotHashesData.Layout.first_eq (h : (SlotHashesData.mk data).Layout (first :: rest)) :
    48 ≤ data.length ∧ readU64LE data 8 = first.height.toNat ∧
      data.extract 16 48 = first.hash.val := by
  obtain ⟨-, after, hdata⟩ := h
  have hentry : (Pod.bytes first).val = (Pod.bytes first.height).val ++ first.hash.val := rfl
  have d₀ : data.drop 0 = _ := hdata
  rw [List.flatMap_cons, hentry, List.append_assoc, List.append_assoc] at d₀
  have d₈ : data.drop 8 = _ := drop_of_append d₀
  have d₁₆ : data.drop 16 = _ := drop_of_append d₈
  have hheight : data.extract 8 16 = (Pod.bytes first.height).val := extract_of_append d₈
  have hhash : data.extract 16 (16 + first.hash.val.length) = first.hash.val := extract_of_append d₁₆
  rw [first.hash.property] at hhash
  refine ⟨?_, ?_, hhash⟩
  · have hlength := congrArg List.length hhash
    rw [List.extract_eq_take_drop, List.length_take, List.length_drop, first.hash.property] at hlength
    omega
  · rw [readU64LE, hheight]
    exact leNat_leBytes first.height.toNat_lt

/-- The application takes the newest slot, truncated, and its hash. -/
theorem Webapp.getChallengeContext_ok (hlayout : (SlotHashesData.mk data).Layout (first :: rest))
    {context : ChallengeContext} (h : getChallengeContext (some data) = .ok context) :
    context.slot = first.height.toNat % 1000 ∧ context.recentSlotHash = first.hash.val := by
  obtain ⟨hlength, hheight, hhash⟩ := hlayout.first_eq
  simp only [getChallengeContext, okOr, ok_bind, ensure_pos hlength, hheight, hhash,
    Sdk.truncateSlotForValidator, Sdk.truncateSlot, bind_eq_ok, exists_unit, ensure_eq_ok,
    pure_eq_ok] at h
  obtain ⟨_, ⟨hsafe, -, rfl⟩, rfl⟩ := h
  refine ⟨?_, rfl⟩
  show toNumber _ % 1000 = _
  rw [toNumber, if_pos (toNumber_isSafe.mp hsafe)]

/-! ## What the runtime has later -/

/-- The slots come in order, and each has a hash of its own. -/
structure InOrder (slothashes : SlotHashes) : Prop where
  decreasing : StrictlyDecreasing slothashes
  hash_inj : ∀ a ∈ slothashes, ∀ b ∈ slothashes, a.hash = b.hash → a = b

/-- The slot is recent until the newest one is 150 ahead: the sysvar keeps it longer than that. -/
theorem recent_run {w : SlotWindow} (hfirst : w.toList[0]? = some first)
    (horder : StrictlyDecreasing (news.reverse ++ w.toList))
    (hnewest : (run Window.push w news).toList[0]? = some newest)
    (hahead : newest.height.toNat < first.height.toNat + 150) :
    Recent (run Window.push w news).toList first := by
  have hhead : (news.reverse ++ w.toList)[0]? = some newest := by
    rw [Window.toList_run, List.getElem?_take_of_lt (by decide)] at hnewest
    exact hnewest
  have hat : (news.reverse ++ w.toList)[news.length]? = some first := by
    rw [List.getElem?_append_right (by simp)]
    simpa using hfirst
  have hle := horder.index_le hhead hat
  refine ⟨Window.pairwise_run horder, Window.mem_run hfirst (by omega), ?_⟩
  intro newest' h
  obtain rfl := Option.some.inj (hnewest.symm.trans h)
  exact hahead

/-- A challenge over the slot that the application has read can be used exactly until the newest slot
is 150 slots ahead of it. -/
theorem challenge_context_lifetime {w : SlotWindow}
    (hlayout : (SlotHashesData.mk data).Layout w.toList) (hne : w.toList ≠ [])
    {context : ChallengeContext} (h : getChallengeContext (some data) = .ok context)
    (horder : InOrder (news.reverse ++ w.toList))
    (hnewest : (run Window.push w news).toList[0]? = some newest) (htop : rt.stackHeight ≤ 1)
    {nonceSigner : AccountInfo} (hsigned : nonceSigner.isSigner) :
    ∃ first, w.toList[0]? = some first ∧ context.recentSlotHash = first.hash.val ∧
      (Sdk.Numeric.number context.slot).Names first ∧
      ((∃ nonceData, validateNonce rt (run Window.push w news).toList ⟨.ofNat context.slot.toNat⟩
          nonceSigner = .ok nonceData ∧ nonceData.slothash.val = context.recentSlotHash) ↔
        newest.height.toNat < first.height.toNat + 150) := by
  obtain ⟨first, rest, hw⟩ := List.exists_cons_of_ne_nil hne
  have hfirst : w.toList[0]? = some first := by rw [hw, List.getElem?_cons_zero]
  obtain ⟨hslot, hhash⟩ := getChallengeContext_ok (hw ▸ hlayout) h
  have hslot16 : (UInt16.ofNat context.slot.toNat).toNat = first.height.toNat % 1000 := by
    rw [hslot]
    exact Sdk.toNat_truncated first
  refine ⟨first, hfirst, hhash, ⟨?_, ?_, ?_⟩, ?_⟩
  · show -(2 ^ 53) < context.slot ∧ context.slot < 2 ^ 53
    omega
  · show 0 ≤ context.slot
    omega
  · show context.slot % 1000 = _
    omega
  constructor
  · rintro ⟨nonceData, hnonce, heq⟩
    obtain ⟨n⟩ := validateNonce_ok hnonce
    -- the hash is the one of `first`, so the slot that was found is `first`
    have hmem := Window.mem_of_mem_run n.entry_mem
    have hentry : n.entry = first := horder.hash_inj _
      (by simpa using hmem) _ (List.mem_append_right _ (List.mem_of_getElem? hfirst))
      (n.slothash.symm.trans (Subtype.ext (heq.trans hhash)))
    have hnewest' := Option.some.inj (n.newest_head.symm.trans hnewest)
    rw [← hentry, ← hnewest']
    exact n.not_expired
  · intro hahead
    have hrecent := recent_run hfirst horder.decreasing hnewest hahead
    exact ⟨_, validateNonce_recent hrecent hslot16 htop hsigned, hhash.symm⟩

namespace Sample

def slotWindow : SlotWindow := ⟨[slot], by decide⟩

/-- The sysvar with one slot. -/
def slotHashesData : Bytes :=
  (Pod.bytes (1 : UInt64)).val ++ ((Pod.bytes slot).val ++ [])

theorem slotHashesData_layout : (SlotHashesData.mk slotHashesData).Layout slotWindow.toList :=
  ⟨by decide, [], rfl⟩

theorem slotHashesData_context : getChallengeContext (some slotHashesData) =
    .ok ⟨1, slot.hash.val⟩ := by
  decide +kernel

theorem laterSlot_inOrder : InOrder ([laterSlot].reverse ++ slotWindow.toList) where
  decreasing := by
    unfold StrictlyDecreasing
    decide +kernel
  hash_inj := by decide +kernel

end Sample

/-- A hundred slots later the nonce is accepted. -/
theorem challenge_context_lifetime_later : ∃ nonceData,
    validateNonce (Sample.runtime 1700000000 [] []) (run Window.push Sample.slotWindow
      [Sample.laterSlot]).toList ⟨1⟩ ⟨Sample.payer, true, true, systemProgramId, []⟩ =
        .ok nonceData ∧ nonceData.slothash.val = Sample.slot.hash.val := by
  obtain ⟨first, hfirst, -, -, hiff⟩ := @challenge_context_lifetime
    (Sample.runtime 1700000000 [] []) _ Sample.laterSlot _ _ Sample.slotHashesData_layout
    (by decide) _ Sample.slotHashesData_context Sample.laterSlot_inOrder rfl (by decide)
    ⟨Sample.payer, true, true, systemProgramId, []⟩ rfl
  obtain rfl : Sample.slot = first := Option.some.inj hfirst
  exact hiff.mpr (by decide)

end ExternalSignature
