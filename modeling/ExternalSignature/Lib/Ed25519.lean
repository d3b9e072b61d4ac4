import ExternalSignature.Lib.Bytes

/-!
# Points of Edwards25519

Whether 32 bytes are the compressed form of a point of the curve `-x² + y² = 1 + d x² y²`.
-/

namespace Lib.Ed25519

/-- `2 ^ 255 - 19`. -/
def p : Nat := 57896044618658097711785492504343953926634992332820282019728792003956564819949

def d : Nat := 37095705934669439343138083508754565189542113879843219016388785533085940283555

/-- `b ^ e` modulo `p`, of an exponent below `2 ^ fuel`. -/
def powMod : (fuel : Nat) → (b e : Nat) → Nat
  | 0, _, _ => 1
  | fuel + 1, b, e =>
    let half := powMod fuel (b * b % p) (e / 2)
    if e % 2 = 1 then b * half % p else half

/-- `x² = (y² - 1) / (d y² + 1)` has a solution; the last bit is the sign of `x`. -/
def isOnCurve (bs : ByteArr 32) : Bool :=
  let y := leNat bs.val % 2 ^ 255
  let u := (y * y + (p - 1)) % p
  let v := (d * y * y + 1) % p
  powMod 255 (u * v % p) ((p - 1) / 2) ≠ p - 1

end Lib.Ed25519
