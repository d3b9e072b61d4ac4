import ExternalSignature.Lib.Bytes

/-!
# JSON

JSON values, and the text of an object of strings and booleans as `JSON.stringify` writes it,
without whitespace and, for strings of printable characters other than the quotation mark and the
backslash, without escapes.
-/

namespace Lib

inductive Json where
  | null
  | bool (b : Bool)
  | number (literal : Bytes)
  | string (s : Bytes)
  | array (items : List Json)
  | object (members : List (Bytes × Json))

namespace Json

/-- A boolean or a string. -/
inductive Scalar where
  | bool (b : Bool)
  | string (s : Bytes)

namespace Scalar

def toJson : Scalar → Json
  | bool b => .bool b
  | string s => .string s

def text : Scalar → Bytes
  | bool b => if b then ascii "true" else ascii "false"
  | string s => ascii "\"" ++ s ++ ascii "\""

end Scalar

abbrev Members := List (Bytes × Scalar)

namespace Members

/-- The object that the text spells. -/
def toJson (members : Members) : Json := .object (members.map fun m => (m.1, m.2.toJson))

def memberText (m : Bytes × Scalar) : Bytes := ascii "\"" ++ m.1 ++ ascii "\":" ++ m.2.text

def text (members : Members) : Bytes :=
  ascii "\x7b" ++ (ascii ",").intercalate (members.map memberText) ++ ascii "\x7d"

/-- A member after the first. -/
def further (m : Bytes × Scalar) : Bytes := ascii "," ++ memberText m

theorem text_cons (m : Bytes × Scalar) (members : Members) :
    text (m :: members) =
      ascii "\x7b" ++ (memberText m ++ (members.flatMap further ++ ascii "\x7d")) := by
  have hcomma (m : Bytes × Scalar) (members : Members) :
      (ascii ",").intercalate ((m :: members).map memberText) =
        memberText m ++ members.flatMap further := by
    induction members generalizing m with
    | nil => simp
    | cons n members ih =>
      have ih := ih n
      rw [List.map_cons] at ih
      rw [List.map_cons, List.map_cons, List.intercalate_cons_cons, ih, List.flatMap_cons, further,
        List.append_assoc, List.append_assoc]
  rw [text, hcomma, List.append_assoc, List.append_assoc]

end Members

example : Members.text [(ascii "a", .string (ascii "b")), (ascii "c", .bool true)] =
    ascii "\x7b\"a\":\"b\",\"c\":true\x7d" := by
  decide

end Json

end Lib
