-- SUMMARY: Python strings as lists of code points, and the JSON values `json.loads` builds.
import Mathlib.Algebra.GroupWithZero.Nat
import Mathlib.Data.List.Basic

/-!
# Python values

`PyStr` is a Python `str`: a list of code points. `json.loads` accepts lone
surrogates, so a code point is a number and not a `Char`. `Json` is what
`json.loads` returns.
-/

abbrev PyStr := List Nat

/-- A string literal of the source. -/
def py (s : String) : PyStr := s.toList.map Char.toNat

/-- The code points Python's `str.isspace` accepts, which `str.strip` removes. -/
def isSpace (c : Nat) : Bool :=
  (0x09 ≤ c && c ≤ 0x0D) || (0x1C ≤ c && c ≤ 0x20) || c == 0x85 || c == 0xA0 || c == 0x1680 ||
    (0x2000 ≤ c && c ≤ 0x200A) || c == 0x2028 || c == 0x2029 || c == 0x202F || c == 0x205F ||
    c == 0x3000

/-- What `json.loads` reads beyond JSON: `NaN`, `Infinity`, `-Infinity`. -/
inductive NonFinite where
  | nan
  | inf
  | negInf

/-- A JSON value. `num m e` is the number `m * 10^e` with the digits it was written with. Python
makes an `int` or a `float` of it; nothing in the gateway computes with either, and all that is
asked of one is whether it is zero. -/
inductive Json where
  | null
  | bool (b : Bool)
  | num (m e : Int)
  | nonFinite (x : NonFinite)
  | str (s : PyStr)
  | arr (items : List Json)
  | obj (fields : List (PyStr × Json))

/-- A Python `dict` read from JSON. -/
abbrev PyDict := List (PyStr × Json)

/-- `d.get(key)`: a missing key reads as `None`, which is also what JSON `null` loads as. -/
def PyDict.get (d : PyDict) (key : String) : Json := (d.lookup (py key)).getD .null

/-- `d.get(key, default)`: only a missing key reads as the default. -/
def PyDict.getOr (d : PyDict) (key : String) (default : Json) : Json :=
  (d.lookup (py key)).getD default

namespace Json

/-- `value == "…"` against a string literal. -/
def isStr (value : Json) (s : String) : Bool :=
  match value with
  | .str t => t == py s
  | _ => false

/-- `isinstance(value, str)`. -/
def str? : Json → Option PyStr
  | .str s => some s
  | _ => none

/-- `isinstance(value, dict)`. -/
def dict? : Json → Option PyDict
  | .obj fields => some fields
  | _ => none

/-- `value is None`. -/
def isNone : Json → Bool
  | .null => true
  | _ => false

/-- `m * 10^e` is zero, or a `float` that underflows to 0.0: it is at most half of the least
positive one, `2^-1074`. -/
def roundsToZero (m e : Int) : Bool := m == 0 || e < 0 && m.natAbs * 2 ^ 1075 ≤ 10 ^ e.natAbs

/-- The value of a numeral. -/
def number (m e : Int) : Json := if roundsToZero m e then .num 0 0 else .num m e

theorem number_dict? (m e : Int) : (number m e).dict? = none := by
  unfold number
  split
  · rfl
  · rfl

/-- `bool(value)`. -/
def truthy : Json → Bool
  | .null => false
  | .bool b => b
  | .num m e => !roundsToZero m e
  | .nonFinite _ => true
  | .str s => !s.isEmpty
  | .arr items => !items.isEmpty
  | .obj fields => !fields.isEmpty

/-- `1e-400` is falsy, and the least positive `float` is not. -/
example : (number 1 (-400)).truthy = false ∧ (number 5 (-324)).truthy = true := by decide +kernel

end Json
