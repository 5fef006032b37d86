-- SUMMARY: `base64.b64decode` as CPython computes it without `validate`, and `base64.b64encode`.
import JotaGateway.Python.Value

/-!
# Base64

`a2b_base64` takes one character at a time. It skips what is not in the
alphabet, and stops at the pads that complete a quad.
-/

namespace Base64

abbrev Bytes := List UInt8

/-- `=` -/
def PAD : Nat := 61

/-- The six bits of a character of the alphabet. -/
def value (c : Nat) : Option Nat :=
  if 65 ≤ c ∧ c ≤ 90 then some (c - 65)
  else if 97 ≤ c ∧ c ≤ 122 then some (c - 71)
  else if 48 ≤ c ∧ c ≤ 57 then some (c + 4)
  else if c = 43 then some 62
  else if c = 47 then some 63
  else none

/-- The rest of the input, from position `quadPos` of a quad with `leftchar` the bits left over
and `pads` pads seen. -/
def a2b (quadPos leftchar pads : Nat) : List Nat → Option Bytes
  | [] => if quadPos = 0 then some [] else none
  | c :: rest =>
    if c = PAD then
      if 2 ≤ quadPos ∧ 4 ≤ quadPos + (pads + 1) then some []
      else a2b quadPos leftchar (if 2 ≤ quadPos then pads + 1 else pads) rest
    else
      match value c with
      | none => a2b quadPos leftchar pads rest
      | some v =>
        match quadPos with
        | 0 => a2b 1 v 0 rest
        | 1 => (a2b 2 (v % 16) 0 rest).map (UInt8.ofNat (leftchar * 4 + v / 16) :: ·)
        | 2 => (a2b 3 (v % 4) 0 rest).map (UInt8.ofNat (leftchar * 16 + v / 4) :: ·)
        | _ => (a2b 0 0 0 rest).map (UInt8.ofNat (leftchar * 64 + v) :: ·)

/-- `base64.b64decode(s)`; `none` is `binascii.Error`, and `ValueError` for a `str` that is not
ASCII. -/
def b64decode (s : PyStr) : Option Bytes := if s.all (· < 128) then a2b 0 0 0 s else none

/-- The character for six bits. -/
def digit (v : Nat) : Nat :=
  if v < 26 then v + 65
  else if v < 52 then v + 71
  else if v < 62 then v - 4
  else if v = 62 then 43
  else 47

/-- `base64.b64encode` -/
def b64encode : Bytes → PyStr
  | [] => []
  | [a] => [digit (a.toNat / 4), digit (a.toNat % 4 * 16), PAD, PAD]
  | [a, b] =>
    [digit (a.toNat / 4), digit (a.toNat % 4 * 16 + b.toNat / 16), digit (b.toNat % 16 * 4), PAD]
  | a :: b :: c :: rest =>
    digit (a.toNat / 4) :: digit (a.toNat % 4 * 16 + b.toNat / 16) ::
      digit (b.toNat % 16 * 4 + c.toNat / 64) :: digit (c.toNat % 64) :: b64encode rest

end Base64
