import ExternalSignature.Lib.Pod
import ExternalSignature.Lib.Window
import ExternalSignature.Utils.Nonce

/-!
# The SlotHashes sysvar

The nonce is checked against a list of slots (`SlotHashes`). The program reads them from the data of
the sysvar: a length, and entries of 40 bytes behind it, which it finds by their index. On data that
are laid out so, the two are the same (`Layout.getSlotHash_eq`). The runtime puts a new slot in front
and keeps 512 (`SlotWindow`).
-/

namespace ExternalSignature

open Lib

namespace SlotHash

def fields : SlotHash ≃ UInt64 × ByteArr 32 where
  toFun s := (s.height, s.hash)
  invFun s := ⟨s.1, s.2⟩
  left_inv _ := rfl
  right_inv _ := rfl

instance : Pod SlotHash := .ofEquiv fields

end SlotHash

/-! ## The data -/

/-- The data of `SlotHashes<T>`. A read that leaves the data, which is unchecked in the program, is
`none` here. -/
structure SlotHashesData where
  data : Bytes

namespace SlotHashesData

variable (self : SlotHashesData)

def getSlothashesLen : Option UInt64 := Pod.read UInt64 self.data

def getSlotHashUnchecked (index : Nat) : Option SlotHash :=
  Pod.read SlotHash (self.data.drop (8 + index * Pod.size SlotHash))

def getSlotHash (index : Nat) : Outcome SlotHash := do
  let len ← okOr .panic self.getSlothashesLen
  ensure (index < len.toNat) (.custom .invalidSlothashIndex)
  okOr .panic (self.getSlotHashUnchecked index)

/-- The data have the slots, and possibly more bytes behind them. -/
def Layout (slothashes : SlotHashes) : Prop :=
  slothashes.length < 2 ^ 64 ∧ ∃ rest, self.data =
    (Pod.bytes (UInt64.ofNat slothashes.length)).val ++
      (slothashes.flatMap (fun entry => (Pod.bytes entry).val) ++ rest)

variable {self} {slothashes : SlotHashes}

namespace Layout

theorem getSlothashesLen_eq (h : self.Layout slothashes) :
    self.getSlothashesLen = some (.ofNat slothashes.length) := by
  obtain ⟨-, rest, hdata⟩ := h
  exact Pod.read_eq_some.mpr ⟨_, hdata⟩

theorem getSlotHashUnchecked_eq (h : self.Layout slothashes) {index : Nat} {entry : SlotHash}
    (hentry : slothashes[index]? = some entry) : self.getSlotHashUnchecked index = some entry := by
  obtain ⟨-, rest, hdata⟩ := h
  rw [getSlotHashUnchecked, hdata]
  have hdrop := Pod.drop_bytes (UInt64.ofNat slothashes.length)
    (slothashes.flatMap (fun entry => (Pod.bytes entry).val) ++ rest) (index * Pod.size SlotHash)
  exact (congrArg (Pod.read SlotHash) hdrop).trans (Pod.read_flatMap rest hentry)

/-- The program reads the slots of the list, and refuses every other index. -/
theorem getSlotHash_eq (h : self.Layout slothashes) (index : Nat) :
    self.getSlotHash index = slothashes.getSlotHash index := by
  have hlen : (UInt64.ofNat slothashes.length).toNat = slothashes.length :=
    UInt64.toNat_ofNat_of_lt' h.1
  rw [getSlotHash, h.getSlothashesLen_eq, okOr, ok_bind, hlen, SlotHashes.getSlotHash]
  by_cases hlt : index < slothashes.length
  · rw [ensure_pos hlt, ok_bind, h.getSlotHashUnchecked_eq (List.getElem?_eq_getElem hlt),
      List.getElem?_eq_getElem hlt]
    rfl
  · rw [List.getElem?_eq_none (Nat.le_of_not_lt hlt), ensure, if_neg hlt]
    rfl

end Layout

end SlotHashesData

/-! ## Over time -/

/-- The slots of the sysvar, of which the runtime keeps 512. -/
abbrev SlotWindow := Window SlotHash 512

end ExternalSignature
