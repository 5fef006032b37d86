-- SUMMARY: `config.env` as text: `_edit` of `config set` and `config unset`, and `_convert_env` of the Docker migration.
import JotaGateway.Base.MarkedPieces
import JotaGateway.Python.Value

/-!
# The configuration file

A setting is edited in the text of the file: the lines that assign it are
found by a pattern and replaced or dropped. `splitlines` cuts the text into
lines; it cuts at more than `\n`.
-/

namespace ConfigFile

open Cuts

def nl : Nat := 0x0A

-- ---------------------------------------------------------------------------
-- Lines
-- ---------------------------------------------------------------------------

/-- Where `str.splitlines` cuts. -/
def isBreak (c : Nat) : Bool :=
  (0x0A ≤ c && c ≤ 0x0D) || (0x1C ≤ c && c ≤ 0x1E) || c == 0x85 || c == 0x2028 || c == 0x2029

/-- After each break, but not between `\r` and `\n`. -/
def breaks (c : Nat) (next : Option Nat) : Bool := isBreak c && !(c == 0x0D && next == some nl)

/-- `text.splitlines(keepends=True)` -/
def splitlines (text : PyStr) : List PyStr := cut breaks text

def newlines (c : Nat) (_ : Option Nat) : Bool := c == nl

/-- The lines of a text, each but the last with its `\n`. -/
def lines (text : PyStr) : List PyStr := cut newlines text

/-- `line.endswith("\n")` -/
def endsNl (line : PyStr) : Bool := line.getLast? == some nl

-- ---------------------------------------------------------------------------
-- Names and values
-- ---------------------------------------------------------------------------

def isNameChar (c : Nat) : Bool := (0x41 ≤ c && c ≤ 0x5A) || (0x30 ≤ c && c ≤ 0x39) || c == 0x5F

/-- The name of a setting. -/
structure Name where
  text : PyStr
  nonempty : text ≠ []
  chars : ∀ c ∈ text, isNameChar c = true

/-- A value without newlines. -/
structure Value where
  text : PyStr
  noNewline : nl ∉ text

def isBareChar (c : Nat) : Bool :=
  isNameChar c || (0x61 ≤ c && c ≤ 0x7A) || (py "./:@%+,-").contains c

/-- `\` and `'` get a `\`. -/
def escape (c : Nat) : PyStr := if c == 0x5C || c == 0x27 then [0x5C, c] else [c]

def quote (value : PyStr) : PyStr :=
  if !value.isEmpty && value.all isBareChar then value
  else 0x27 :: value.flatMap escape ++ [0x27]

/-- `f"{key}={_quote(value)}\n"` -/
def assignment (key : Name) (value : PyStr) : PyStr := key.text ++ 0x3D :: (quote value ++ [nl])

-- ---------------------------------------------------------------------------
-- The pattern of an assignment
-- ---------------------------------------------------------------------------

/-- The lower case of an ASCII letter. -/
def lower (c : Nat) : Nat := if 0x41 ≤ c && c ≤ 0x5A then c + 0x20 else c

/-- `re.IGNORECASE` for the ASCII character `c` of a pattern: four letters beyond ASCII match
one of it. -/
def ignoreCase (c d : Nat) : Bool :=
  lower c == lower d || (lower c == 0x69 && (d == 0x130 || d == 0x131)) ||
    (lower c == 0x6B && d == 0x212A) || (lower c == 0x73 && d == 0x17F)

/-- What follows a word at the start of `s`. -/
def stripWord : PyStr → PyStr → Option PyStr
  | [], s => some s
  | _ :: _, [] => none
  | c :: word, d :: s => if ignoreCase c d then stripWord word s else none

/-- `\s*` -/
def dropSpace (s : PyStr) : PyStr := s.dropWhile isSpace

/-- `(name)\s*=`: the name as it stands in `s`. -/
def nameThen (name s : PyStr) : Option PyStr :=
  match stripWord name s with
  | some rest => if (dropSpace rest).head? == some 0x3D then some (s.take name.length) else none
  | none => none

/-- `\s*(?:export\s+)?(name)\s*=` -/
def lineMatch (name line : PyStr) : Option PyStr :=
  let s := dropSpace line
  let exported :=
    match stripWord (py "export") s with
    | some rest => if rest.head?.any isSpace then nameThen name (dropSpace rest) else none
    | none => none
  exported.or (nameThen name s)

theorem ignoreCase_self (c : Nat) : ignoreCase c c = true := by
  simp only [ignoreCase, BEq.rfl, Bool.true_or]

/-- A newline matches nothing else. -/
theorem ignoreCase_nl {c : Nat} (h : c ≠ nl) : ignoreCase c nl = false := by
  have hlower : lower c ≠ nl := by
    unfold lower nl at *
    split
    · rename_i hupper
      simp only [Bool.and_eq_true, decide_eq_true_eq] at hupper
      omega
    · exact h
  simp only [ignoreCase, show lower nl = nl from rfl, beq_eq_false_iff_ne.mpr hlower]
  simp [nl]

theorem stripWord_append (word s : PyStr) : stripWord word (word ++ s) = some s := by
  induction word with
  | nil => rfl
  | cons c word ih =>
    rw [List.cons_append, stripWord, if_pos (ignoreCase_self c)]
    exact ih

theorem stripWord_snoc {word : PyStr} (s : PyStr) (h : nl ∉ word) :
    stripWord word (s ++ [nl]) = (stripWord word s).map (· ++ [nl]) := by
  induction word generalizing s with
  | nil => rfl
  | cons c word ih =>
    rw [List.mem_cons, not_or] at h
    cases s with
    | nil => simp only [List.nil_append, stripWord, ignoreCase_nl (Ne.symm h.1), Bool.false_eq_true,
        if_false, Option.map_none]
    | cons d s =>
      simp only [List.cons_append, stripWord]
      split
      · exact ih s h.2
      · rfl

theorem dropSpace_snoc (s : PyStr) :
    dropSpace (s ++ [nl]) = if dropSpace s = [] then [] else dropSpace s ++ [nl] := by
  simp only [dropSpace, List.dropWhile_append, List.isEmpty_iff]
  rfl

theorem isSome_nameThen (name s : PyStr) : (nameThen name s).isSome =
    (stripWord name s).any fun rest => (dropSpace rest).head? == some 0x3D := by
  unfold nameThen
  split
  · rename_i rest heq
    rw [heq, Option.any_some]
    split
    · rename_i hequals
      rw [hequals]
      rfl
    · rename_i hequals
      rw [Bool.eq_false_iff.mpr hequals]
      rfl
  · rename_i heq
    rw [heq]
    rfl

theorem nameThen_snoc {name : PyStr} (s : PyStr) (h : nl ∉ name) :
    (nameThen name (s ++ [nl])).isSome = (nameThen name s).isSome := by
  rw [isSome_nameThen, isSome_nameThen, stripWord_snoc s h, Option.any_map]
  refine congrArg (Option.any · _) (funext fun rest => ?_)
  rw [dropSpace_snoc]
  split
  · rename_i hnil
    rw [hnil]
  · rename_i hne
    rw [List.head?_append_of_ne_nil _ hne]

theorem nameThen_nil {name : PyStr} (h : name ≠ []) : nameThen name [] = none := by
  obtain ⟨c, rest, rfl⟩ := List.exists_cons_of_ne_nil h
  rfl

theorem isSome_lineMatch (name line : PyStr) : (lineMatch name line).isSome =
    ((stripWord (py "export") (dropSpace line)).any (fun rest =>
      rest.head?.any isSpace && (nameThen name (dropSpace rest)).isSome) ||
      (nameThen name (dropSpace line)).isSome) := by
  unfold lineMatch
  dsimp only
  rw [Option.isSome_or]
  cases stripWord (py "export") (dropSpace line) with
  | none => rfl
  | some rest =>
    dsimp only
    rw [Option.any_some]
    split
    · rename_i hspace
      rw [hspace, Bool.true_and]
    · rename_i hspace
      rw [Bool.eq_false_iff.mpr hspace]
      rfl

theorem lineMatch_nil {name : PyStr} (h : name ≠ []) : lineMatch name [] = none := by
  have hname : nameThen name (dropSpace []) = none := nameThen_nil h
  unfold lineMatch
  dsimp only
  rw [hname, Option.or_none]
  rfl

/-- The end of the line makes no difference. -/
theorem lineMatch_snoc {name : PyStr} (line : PyStr) (hne : name ≠ []) (hnl : nl ∉ name) :
    (lineMatch name (line ++ [nl])).isSome = (lineMatch name line).isSome := by
  rw [isSome_lineMatch, isSome_lineMatch, dropSpace_snoc]
  split
  · rename_i hnil
    rw [hnil]
  · rw [nameThen_snoc _ hnl, stripWord_snoc _ (by decide), Option.any_map]
    refine congrArg (· || _) (congrArg (Option.any · _) (funext fun rest => ?_))
    rw [dropSpace_snoc]
    cases rest with
    | nil =>
      rw [show dropSpace [] = [] from rfl, if_pos rfl, nameThen_nil hne]
      rfl
    | cons c rest =>
      split
      · rename_i hnil
        rw [hnil]
        rfl
      · rw [nameThen_snoc _ hnl]
        rfl

/-- `_line_re(key).match(line)` -/
def assigns (key : Name) (line : PyStr) : Bool := (lineMatch key.text line).isSome

-- ---------------------------------------------------------------------------
-- `config set` and `config unset`
-- ---------------------------------------------------------------------------

structure Editing where
  out : List PyStr := []
  done : Bool

def editLine (key : Name) (value : PyStr) (e : Editing) (line : PyStr) : Editing :=
  if !assigns key line then { e with out := e.out ++ [line] }
  else if !e.done then { out := e.out ++ [assignment key value], done := true }
  else e

/-- `if out and not out[-1].endswith("\n"): out[-1] += "\n"` -/
def completeLast (out : List PyStr) : List PyStr :=
  match out.getLast? with
  | some last => if endsNl last then out else out.dropLast ++ [last ++ [nl]]
  | none => out

/-- `_edit` -/
def edit (text : PyStr) (key : Name) (value : Option PyStr) : PyStr :=
  let e := (splitlines text).foldl (editLine key (value.getD [])) { done := value.isNone }
  let out := if e.done then e.out else completeLast e.out ++ [assignment key (value.getD [])]
  out.flatten

-- ---------------------------------------------------------------------------
-- The Docker migration
-- ---------------------------------------------------------------------------

def drop : List PyStr := [py "DATABASE_URL", py "GATEWAY_UID", py "GATEWAY_GID"]

def added : PyStr := py "LOG_FORMAT=json"

/-- `_DROP_RE.match(line)`: its group 1. -/
def dropMatch (line : PyStr) : Option PyStr := drop.findSome? (lineMatch · line)

def dropped (line : PyStr) : Bool := (dropMatch line).isSome

/-- `_ADD_RE.match(line)` -/
def assignsAdded (line : PyStr) : Bool := (lineMatch (py "LOG_FORMAT") line).isSome

structure Converted where
  text : PyStr
  dropped : List PyStr
  added : List PyStr

/-- `_convert_env` -/
def convertEnv (text : PyStr) : Converted :=
  let kept := (splitlines text).filter fun line => (dropMatch line).isNone
  let dropped := (splitlines text).filterMap dropMatch
  if kept.any assignsAdded then { text := kept.flatten, dropped := dropped, added := [] }
  else
    { text := (completeLast kept ++ [added ++ [nl]]).flatten
      dropped := dropped
      added := [added] }

end ConfigFile
