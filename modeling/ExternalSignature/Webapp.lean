import ExternalSignature.Sdk.Instructions

/-!
# The example application

The minimal web application asks for a challenge over the newest slot that the SlotHashes sysvar has
when it looks (`getChallengeContext`).
-/

namespace ExternalSignature.Webapp

open Lib Sdk

/-- `Number(n)`: the nearest double, and of two the even one. -/
def toNumber (n : Nat) : Int :=
  if n < 2 ^ 53 then n
  else
    let unit := 2 ^ (n.log2 - 52)
    let roundsUp : Bool := unit < 2 * (n % unit) || (unit = 2 * (n % unit) && n / unit % 2 = 1)
    unit * (if roundsUp then n / unit + 1 else n / unit)

example : toNumber (2 ^ 53 + 1) = 2 ^ 53 ∧ toNumber (2 ^ 53 + 3) = 2 ^ 53 + 4 := by decide

/-- `view.getBigUint64(offset, true)`, within the data. -/
def readU64LE (data : Bytes) (offset : Nat) : Nat := leNat (data.extract offset (offset + 8))

structure ChallengeContext where
  slot : Int
  recentSlotHash : Bytes
  deriving DecidableEq

/-- The account of the sysvar may be missing. -/
def getChallengeContext (slotHashesAccount : Option Bytes) : Except String ChallengeContext := do
  let data ← okOr "failed to fetch slot hashes sysvar" slotHashesAccount
  ensure (48 ≤ data.length) "slot hashes sysvar account is unexpectedly small"
  let mostRecentSlot := .number (toNumber (readU64LE data 8))
  let recentSlotHash := data.extract 16 48
  return { slot := ← truncateSlotForValidator mostRecentSlot, recentSlotHash }

end ExternalSignature.Webapp
