import ExternalSignature.Lib.Bytes

/-!
# Definite-length CBOR

A CBOR data item starts with a byte that holds a major type in its upper three bits and, in the
lower five, an argument or the width of one that follows (`Argument`). `IsItem limit` is the
grammar of the definite-length items, as strings of bytes: integers, byte and text strings, arrays
and maps with their counts, tags, and simple values and floats. `limit` bounds the arguments that
are numbers.
-/

namespace Lib.Cbor

/-! ## Arguments -/

/-- How many bytes of argument follow. -/
inductive Width where
  | one
  | two
  | four
  | eight

namespace Width

def size : Width → Nat
  | one => 1
  | two => 2
  | four => 4
  | eight => 8

/-- The additional information that announces the width. -/
def info : Width → Nat
  | one => 24
  | two => 25
  | four => 26
  | eight => 27

end Width

/-- An argument in the initial byte or behind it. -/
inductive Argument where
  | direct (value : Fin 24)
  | wide (width : Width) (bytes : ByteArr width.size)

namespace Argument

def value : Argument → Nat
  | direct value => value
  | wide _ bytes => beNat bytes.val

def info : Argument → Nat
  | direct value => value
  | wide width _ => width.info

/-- The bytes behind the initial byte. -/
def following : Argument → Bytes
  | direct _ => []
  | wide _ bytes => bytes.val

theorem info_lt (a : Argument) : a.info < 28 := by
  cases a with
  | direct value => exact Nat.lt_trans value.isLt (by omega)
  | wide width _ =>
    show width.info < 28
    cases width <;> decide

end Argument

/-- The head of an item: its major type and argument. -/
def head (major : Fin 8) (a : Argument) : Bytes := .ofNat (32 * major + a.info) :: a.following

theorem length_head (major : Fin 8) (a : Argument) :
    (head major a).length = 1 + a.following.length := by
  rw [head, List.length_cons, Nat.add_comm]

/-! ## Items -/

mutual

/-- One data item. -/
inductive IsItem (limit : Nat) : Bytes → Prop where
  /-- An unsigned or negative integer. -/
  | integer {major : Fin 8} {a : Argument} (hm : major ≤ 1) (ha : a.value ≤ limit) :
    IsItem limit (head major a)
  /-- A byte or text string. -/
  | string {major : Fin 8} {a : Argument} {content : Bytes} (hm : major = 2 ∨ major = 3)
    (ha : a.value ≤ limit) (hc : content.length = a.value) : IsItem limit (head major a ++ content)
  | array {a : Argument} {items : Bytes} (ha : a.value ≤ limit) (hi : AreItems limit a.value items) :
    IsItem limit (head 4 a ++ items)
  /-- Keys and values in turn. -/
  | map {a : Argument} {entries : Bytes} (ha : a.value ≤ limit)
    (he : AreItems limit (2 * a.value) entries) : IsItem limit (head 5 a ++ entries)
  | tag {a : Argument} {item : Bytes} (ha : a.value ≤ limit) (hi : IsItem limit item) :
    IsItem limit (head 6 a ++ item)
  /-- A simple value or a float. -/
  | simple {a : Argument} : IsItem limit (head 7 a)

/-- A number of data items, one after another. -/
inductive AreItems (limit : Nat) : Nat → Bytes → Prop where
  | nil : AreItems limit 0 []
  | cons {n : Nat} {item items : Bytes} (hi : IsItem limit item) (hs : AreItems limit n items) :
    AreItems limit (n + 1) (item ++ items)

end

variable {limit : Nat}

/-- Every item has an initial byte. -/
theorem IsItem.length_pos {item : Bytes} (h : IsItem limit item) : 0 < item.length := by
  cases h <;> simp only [List.length_append, length_head] <;> omega

/-- Two runs of items are one. -/
theorem AreItems.append {m n : Nat} {as bs : Bytes} (ha : AreItems limit m as)
    (hb : AreItems limit n bs) : AreItems limit (m + n) (as ++ bs) := by
  match m, as, ha with
  | _, _, .nil => simpa using hb
  | _, _, .cons (n := k) hi hs =>
    rw [List.append_assoc, Nat.add_right_comm]
    exact .cons hi (hs.append hb)

theorem AreItems.split {m n : Nat} {bs : Bytes} (h : AreItems limit (m + n) bs) :
    ∃ as cs, bs = as ++ cs ∧ AreItems limit m as ∧ AreItems limit n cs := by
  induction m generalizing bs with
  | zero => exact ⟨[], bs, rfl, .nil, by rwa [Nat.zero_add] at h⟩
  | succ m ih =>
    rw [Nat.add_right_comm] at h
    cases h with
    | cons hi hs =>
      obtain ⟨as, cs, rfl, has, hcs⟩ := ih hs
      exact ⟨_, cs, (List.append_assoc ..).symm, .cons hi has, hcs⟩

theorem areItems_one {item : Bytes} : AreItems limit 1 item ↔ IsItem limit item := by
  constructor
  · intro h
    cases h with
    | cons hi hs =>
      cases hs
      rwa [List.append_nil]
  · intro h
    have hone := AreItems.cons h .nil
    rwa [List.append_nil] at hone

end Lib.Cbor
