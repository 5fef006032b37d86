-- SUMMARY: `json.loads` on any text: the tokens, the scanner as a machine with a stack, and the limits of the interpreter that it runs into.
import JotaGateway.Base.LimitedRun
import JotaGateway.Python.JsonText
import Mathlib.Data.List.TakeDrop

/-!
# `json.loads`

The C scanner calls itself for the items of a container. Here the open containers
are a stack, so that a call too deep is a stack too high. The texts it cannot read
raise `JSONDecodeError`; a text that is too deep raises `RecursionError` where the
bracket is met, and an integer of too many digits `ValueError`, whatever follows.
-/

namespace JsonLoads

open JsonText Transition LimitedRun

-- ---------------------------------------------------------------------------
-- Tokens
-- ---------------------------------------------------------------------------

inductive Token where
  | lbrace
  | rbrace
  | lbracket
  | rbracket
  | colon
  | comma
  | str (s : PyStr)
  /-- an integer, and of how many digits -/
  | int (n : Int) (digits : Nat)
  /-- any other value that is no container -/
  | scalar (v : Json)
  | bad

def isDigit (c : Nat) : Bool := 0x30 ≤ c && c ≤ 0x39

def digitsValue (digits : PyStr) : Nat := digits.foldl (fun n c => 10 * n + (c - 0x30)) 0

def signed (negative : Bool) (n : Nat) : Int := if negative then -n else n

/-- The integer part of a number: a zero, or digits that do not start with one. -/
def scanInteger : PyStr → Option (PyStr × PyStr)
  | [] => none
  | c :: rest =>
    if c = 0x30 then some ([c], rest)
    else if isDigit c then some ((c :: rest).span isDigit)
    else none

/-- The digits behind a point; a point without any is not part of the number. -/
def scanFraction (text : PyStr) : PyStr × PyStr :=
  match text with
  | 0x2E :: rest => if (rest.takeWhile isDigit).isEmpty then ([], text) else rest.span isDigit
  | _ => ([], text)

/-- The exponent; an `e` without digits is not part of the number. -/
def scanExponent (text : PyStr) : Option Int × PyStr :=
  match text with
  | [] => (none, text)
  | e :: rest =>
    if e = 0x65 ∨ e = 0x45 then
      let (negative, rest) :=
        match rest with
        | 0x2D :: rest => (true, rest)
        | 0x2B :: rest => (false, rest)
        | _ => (false, rest)
      if (rest.takeWhile isDigit).isEmpty then (none, text)
      else
        (some (signed negative (digitsValue (rest.takeWhile isDigit))), rest.dropWhile isDigit)
    else (none, text)

/-- `_match_number_unicode`; a `float` that underflows is read as zero. -/
def scanNumber (text : PyStr) : Option (Token × PyStr) :=
  let (negative, body) :=
    match text with
    | 0x2D :: rest => (true, rest)
    | _ => (false, text)
  (scanInteger body).map fun (integer, rest) =>
    let (fraction, rest) := scanFraction rest
    let (exponent, rest) := scanExponent rest
    let m := signed negative (digitsValue (integer ++ fraction))
    if fraction.isEmpty && exponent.isNone then (.int m integer.length, rest)
    else (.scalar (.number m (exponent.getD 0 - fraction.length)), rest)

/-- The names of `_scan_once_unicode`. -/
def constants : List (PyStr × Json) :=
  [(py "null", .null), (py "true", .bool true), (py "false", .bool false),
    (py "NaN", .nonFinite .nan), (py "Infinity", .nonFinite .inf),
    (py "-Infinity", .nonFinite .negInf)]

def scanScalar (text : PyStr) : Token × PyStr :=
  match constants.find? fun (name, _) => name.isPrefixOf text with
  | some (name, v) => (.scalar v, text.drop name.length)
  | none => (scanNumber text).getD (.bad, [])

/-- The token that starts with `c`, and what follows it. -/
def token (c : Nat) (rest : PyStr) : Token × PyStr :=
  if c = 0x7B then (.lbrace, rest)
  else if c = 0x7D then (.rbrace, rest)
  else if c = 0x5B then (.lbracket, rest)
  else if c = 0x5D then (.rbracket, rest)
  else if c = 0x3A then (.colon, rest)
  else if c = 0x2C then (.comma, rest)
  else if c = 0x22 then
    match scanString rest with
    | some (s, rest) => (.str s, rest)
    | none => (.bad, [])
  else scanScalar (c :: rest)

/-- The tokens of a text whose first `skip` characters are part of the last one. -/
def tokensFrom (skip : Nat) : PyStr → List Token
  | [] => []
  | c :: rest =>
    match skip with
    | skip + 1 => tokensFrom skip rest
    | 0 =>
      if isBlank c then tokensFrom 0 rest
      else (token c rest).1 :: tokensFrom (rest.length - (token c rest).2.length) rest

def tokens (text : PyStr) : List Token := tokensFrom 0 text

-- ---------------------------------------------------------------------------
-- The scanner
-- ---------------------------------------------------------------------------

/-- `d[key] = value`: a key that is there keeps its place. -/
def setItem (d : PyDict) (key : PyStr) (value : Json) : PyDict :=
  match d with
  | [] => [(key, value)]
  | (k, v) :: rest => if k = key then (k, value) :: rest else (k, v) :: setItem rest key value

/-- A container that is open, with what was read of it. -/
inductive Frame where
  | arr (items : List Json)
  | obj (fields : PyDict)
  /-- an object, the value of `key` being read -/
  | member (fields : PyDict) (key : PyStr)

/-- What is expected next. -/
inductive Position where
  | value
  /-- a value, or the end of an array that has none -/
  | item
  /-- a key, or the end of an object that has none -/
  | firstKey
  | key
  | colon
  /-- what may follow the value `v` -/
  | after (v : Json)

structure State where
  /-- the innermost container comes first -/
  stack : List Frame := []
  pos : Position := .value

/-- `_scan_once_unicode` -/
def scanOnce (stack : List Frame) : Token → Option State
  | .lbrace => some { stack := .obj [] :: stack, pos := .firstKey }
  | .lbracket => some { stack := .arr [] :: stack, pos := .item }
  | .str s => some { stack, pos := .after (.str s) }
  | .int n _ => some { stack, pos := .after (.num n 0) }
  | .scalar v => some { stack, pos := .after v }
  | _ => none

/-- A key of the innermost object. -/
def scanKey : List Frame → Token → Option State
  | .obj fields :: stack, .str key => some { stack := .member fields key :: stack, pos := .colon }
  | _, _ => none

/-- What follows a value in the innermost container. -/
def scanAfter (v : Json) : List Frame → Token → Option State
  | .arr items :: stack, .comma => some { stack := .arr (items ++ [v]) :: stack, pos := .value }
  | .arr items :: stack, .rbracket => some { stack, pos := .after (.arr (items ++ [v])) }
  | .member fields key :: stack, .comma =>
    some { stack := .obj (setItem fields key v) :: stack, pos := .key }
  | .member fields key :: stack, .rbrace =>
    some { stack, pos := .after (.obj (setItem fields key v)) }
  | _, _ => none

/-- Takes the next token; `none` is a `JSONDecodeError`. -/
def State.next (s : State) (t : Token) : Option State :=
  match s.pos with
  | .value => scanOnce s.stack t
  | .item =>
    match s.stack, t with
    | .arr items :: stack, .rbracket => some { stack, pos := .after (.arr items) }
    | stack, t => scanOnce stack t
  | .firstKey =>
    match s.stack, t with
    | .obj fields :: stack, .rbrace => some { stack, pos := .after (.obj fields) }
    | stack, t => scanKey stack t
  | .key => scanKey s.stack t
  | .colon =>
    match t with
    | .colon => some { s with pos := .value }
    | _ => none
  | .after v => scanAfter v s.stack t

/-- The value, where nothing is open any more. -/
def State.value? (s : State) : Option Json :=
  match s.stack, s.pos with
  | [], .after v => some v
  | _, _ => none

/-- Of the interpreter: how many containers may be open at once, and how many digits an integer
may have. -/
structure Limits where
  depth : Nat
  digits : Option Nat

inductive Limit where
  | depth
  | digits
  deriving DecidableEq, Repr

/-- The limit that is exceeded in `s`, where `t` was read last. -/
def Limits.exceeded (limits : Limits) (s : State) (t : Token) : Option Limit :=
  if limits.depth < s.stack.length then some .depth
  else
    match t, limits.digits with
    | .int _ n, some most => if most < n then some .digits else none
    | _, _ => none

inductive LoadsError where
  | decodeError
  | recursionError
  | valueError
  deriving DecidableEq, Repr

def LoadsError.of : Stop Limit → LoadsError
  | .stuck => .decodeError
  | .limit .depth => .recursionError
  | .limit .digits => .valueError

/-- `json.loads(text)` -/
def loads (limits : Limits) (text : PyStr) : Except LoadsError Json :=
  match limited State.next limits.exceeded {} (tokens text) with
  | .error stop => .error (.of stop)
  | .ok s =>
    match s.value? with
    | some v => .ok v
    | none => .error .decodeError

/-- What the text says, whatever the limits; `none` if it is no JSON text. -/
def read (text : PyStr) : Option Json := (run State.next {} (tokens text)).bind State.value?

/-- A limit is exceeded in what can be read of the text. -/
def TooMuch (limits : Limits) (text : PyStr) : Prop :=
  Exceeds State.next limits.exceeded {} (tokens text)

variable {limits : Limits} {text : PyStr} {s s' : State} {t : Token} {v : Json}

-- ---------------------------------------------------------------------------
-- Limits
-- ---------------------------------------------------------------------------

/-- What `json.loads` returns is what the text says, within the limits. -/
theorem loads_eq_ok : loads limits text = .ok v ↔ read text = some v ∧ ¬ TooMuch limits text := by
  unfold loads read TooMuch
  cases hlimited : limited State.next limits.exceeded {} (tokens text) with
  | ok s =>
    obtain ⟨hrun, hwithin⟩ := limited_eq_ok.1 hlimited
    rw [hrun, Option.bind_some]
    dsimp only
    cases s.value? with
    | none => simp
    | some v' => simp [hwithin]
  | error stop =>
    simp only [reduceCtorEq, false_iff, not_and, not_not]
    intro hread
    obtain ⟨s, hrun, -⟩ := Option.bind_eq_some_iff.1 hread
    by_contra hwithin
    cases (limited_eq_ok.2 ⟨hrun, hwithin⟩).symm.trans hlimited

/-- An error that is no `JSONDecodeError` comes from a limit. -/
theorem loads_eq_limit :
    (∃ e, e ≠ .decodeError ∧ loads limits text = .error e) ↔ TooMuch limits text := by
  unfold TooMuch
  rw [← limited_eq_limit]
  unfold loads
  cases limited State.next limits.exceeded {} (tokens text) with
  | ok s =>
    dsimp only
    cases s.value? with
    | none => simp
    | some v => simp
  | error stop =>
    cases stop with
    | stuck => simp [LoadsError.of]
    | limit e => cases e <;> simp [LoadsError.of]

/-- A text that cannot be read raises `JSONDecodeError`, if no limit comes first. -/
theorem loads_eq_decodeError :
    loads limits text = .error .decodeError ↔ read text = none ∧ ¬ TooMuch limits text := by
  unfold loads read TooMuch
  cases hlimited : limited State.next limits.exceeded {} (tokens text) with
  | ok s =>
    obtain ⟨hrun, hwithin⟩ := limited_eq_ok.1 hlimited
    rw [hrun, Option.bind_some]
    dsimp only
    cases s.value? with
    | none => simp [hwithin]
    | some v => simp
  | error stop =>
    cases stop with
    | stuck =>
      obtain ⟨hrun, hwithin⟩ := limited_eq_stuck.1 hlimited
      simp [LoadsError.of, hrun, hwithin]
    | limit e =>
      have hmuch := limited_eq_limit.1 ⟨e, hlimited⟩
      cases e with
      | depth | digits => simp [LoadsError.of, hmuch]

/-- The number of tokens is at most that of the characters. -/
theorem tokensFrom_length (skip : Nat) (text : PyStr) :
    (tokensFrom skip text).length ≤ text.length := by
  induction text generalizing skip with
  | nil => exact Nat.le_refl 0
  | cons c rest ih =>
    cases skip with
    | succ skip => exact Nat.le_succ_of_le (ih skip)
    | zero =>
      simp only [tokensFrom]
      split
      · exact Nat.le_succ_of_le (ih 0)
      · exact Nat.succ_le_succ (ih _)

theorem scanOnce_length {stack : List Frame} (h : scanOnce stack t = some s') :
    s'.stack.length ≤ stack.length + 1 := by
  cases t <;> cases h <;> simp

theorem scanKey_length {stack : List Frame} (h : scanKey stack t = some s') :
    s'.stack.length ≤ stack.length := by
  unfold scanKey at h
  split at h
  · cases h
    exact Nat.le_refl _
  · cases h

theorem scanAfter_length {stack : List Frame} (h : scanAfter v stack t = some s') :
    s'.stack.length ≤ stack.length := by
  unfold scanAfter at h
  split at h <;> cases h <;> simp

/-- A token opens one container at most. -/
theorem next_length (h : s.next t = some s') : s'.stack.length ≤ s.stack.length + 1 := by
  obtain ⟨stack, pos⟩ := s
  cases pos with
  | value => exact scanOnce_length h
  | key => exact Nat.le_succ_of_le (scanKey_length h)
  | after v => exact Nat.le_succ_of_le (scanAfter_length h)
  | colon =>
    cases t with
    | colon =>
      cases h
      exact Nat.le_succ _
    | _ => cases h
  | item =>
    simp only [State.next] at h
    split at h
    · cases h
      simp only [List.length_cons]
      omega
    · exact scanOnce_length h
  | firstKey =>
    simp only [State.next] at h
    split at h
    · cases h
      simp only [List.length_cons]
      omega
    · exact Nat.le_succ_of_le (scanKey_length h)

theorem run_length {input : List Token} (h : run State.next s input = some s') :
    s'.stack.length ≤ s.stack.length + input.length := by
  induction input generalizing s with
  | nil =>
    obtain rfl : s = s' := Option.some.inj h
    exact Nat.le_refl _
  | cons t rest ih =>
    simp only [run, Option.bind_eq_some_iff] at h
    obtain ⟨s₁, hnext, hrest⟩ := h
    have hlength := next_length hnext
    have hrun := ih hrest
    rw [List.length_cons]
    omega

theorem scanInteger_length {body integer rest : PyStr}
    (h : scanInteger body = some (integer, rest)) : integer.length ≤ body.length := by
  cases body with
  | nil => cases h
  | cons c more =>
    simp only [scanInteger] at h
    split at h
    · cases h
      exact Nat.succ_le_succ (Nat.zero_le _)
    · split at h
      · rw [List.span_eq_takeWhile_dropWhile] at h
        cases h
        exact (List.takeWhile_sublist _).length_le
      · cases h

theorem scanNumber_digits {n : Int} {digits : Nat} {rest : PyStr}
    (h : scanNumber text = some (.int n digits, rest)) : digits ≤ text.length := by
  obtain ⟨⟨integer, more⟩, hinteger, heq⟩ := Option.map_eq_some_iff.1 h
  have hlength := scanInteger_length hinteger
  have hbody : ∀ negative body, (match text with
      | 0x2D :: rest => (true, rest)
      | _ => (false, text)) = (negative, body) → body.length ≤ text.length := by
    intro negative body hbody
    split at hbody
    · cases hbody
      exact Nat.le_succ _
    · cases hbody
      exact Nat.le_refl _
  dsimp only at heq
  split at heq
  · cases heq
    exact Nat.le_trans hlength (hbody _ _ rfl)
  · cases heq

/-- An integer has no more digits than its text has characters. -/
theorem token_digits {c : Nat} {rest : PyStr} {n : Int} {digits : Nat}
    (h : (token c rest).1 = .int n digits) : digits ≤ rest.length + 1 := by
  unfold token at h
  repeat' split at h
  all_goals try cases h
  unfold scanScalar at h
  split at h
  · cases h
  · cases hnumber : scanNumber (c :: rest) with
    | none =>
      rw [hnumber] at h
      cases h
    | some found =>
      obtain ⟨t, more⟩ := found
      rw [hnumber] at h
      obtain rfl : t = .int n digits := h
      exact scanNumber_digits hnumber

theorem digits_le_length {skip : Nat} {n : Int} {digits : Nat}
    (h : .int n digits ∈ tokensFrom skip text) : digits ≤ text.length := by
  induction text generalizing skip with
  | nil => cases h
  | cons c rest ih =>
    cases skip with
    | succ skip => exact Nat.le_succ_of_le (ih h)
    | zero =>
      simp only [tokensFrom] at h
      split at h
      · exact Nat.le_succ_of_le (ih h)
      · rcases List.mem_cons.1 h with heq | hrest
        · exact token_digits heq.symm
        · exact Nat.le_succ_of_le (ih hrest)

/-- Only a text that is longer than a limit exceeds it. -/
theorem TooMuch.longer (h : TooMuch limits text) :
    limits.depth < text.length ∨ ∃ most, limits.digits = some most ∧ most < text.length := by
  obtain ⟨before, t, after, s₁, s₂, htokens, hrun, hnext, hexceeded⟩ := h
  unfold Limits.exceeded at hexceeded
  split at hexceeded
  · left
    have hcount := tokensFrom_length 0 text
    have hbefore := run_length hrun
    have hstep := next_length hnext
    change (tokens text).length ≤ _ at hcount
    rw [htokens, List.length_append, List.length_cons] at hcount
    dsimp only [List.length_nil] at hbefore
    omega
  · right
    split at hexceeded
    · rename_i n digits most hmost
      split at hexceeded
      · rename_i hlt
        have hmem : .int n digits ∈ tokens text := by
          rw [htokens]
          exact List.mem_append_right _ List.mem_cons_self
        exact ⟨most, hmost, Nat.lt_of_lt_of_le hlt (digits_le_length hmem)⟩
      · cases hexceeded
    · cases hexceeded

theorem tokensFrom_brackets (n : Nat) :
    tokensFrom 0 (List.replicate n 0x5B) = List.replicate n .lbracket := by
  induction n with
  | zero => rfl
  | succ n ih =>
    have htoken : token 0x5B (List.replicate n 0x5B) = (.lbracket, List.replicate n 0x5B) := rfl
    rw [List.replicate_succ, List.replicate_succ, tokensFrom, ← ih, htoken, if_neg (by decide),
      Nat.sub_self]

/-- Where a value may start, a bracket opens an array. -/
theorem next_lbracket (h : s.pos = .value ∨ s.pos = .item) :
    s.next .lbracket = some { stack := .arr [] :: s.stack, pos := .item } := by
  unfold State.next
  rcases h with hpos | hpos
  · rw [hpos]
    rfl
  · rw [hpos]
    cases s.stack with
    | nil => rfl
    | cons frame stack => cases frame <;> rfl

theorem run_brackets (n : Nat) (h : s.pos = .value ∨ s.pos = .item) :
    ∃ s', run State.next s (List.replicate n .lbracket) = some s' ∧
      s'.stack.length = s.stack.length + n ∧ (s'.pos = .value ∨ s'.pos = .item) := by
  induction n generalizing s with
  | zero => exact ⟨s, rfl, rfl, h⟩
  | succ n ih =>
    obtain ⟨s', hrun, hlength, hpos⟩ :=
      ih (s := { stack := .arr [] :: s.stack, pos := .item }) (.inr rfl)
    refine ⟨s', ?_, ?_, hpos⟩
    · simp only [List.replicate_succ, run, next_lbracket h, Option.bind_some]
      exact hrun
    · rw [hlength, List.length_cons]
      omega

/-- One bracket more than may be open is too much, with nothing behind it. -/
theorem brackets_tooMuch (limits : Limits) :
    TooMuch limits (List.replicate (limits.depth + 1) 0x5B) := by
  obtain ⟨s, hrun, hlength, hpos⟩ := run_brackets (s := {}) limits.depth (.inl rfl)
  have hdeep : limits.depth < (Frame.arr [] :: s.stack).length := by
    rw [List.length_cons, hlength]
    exact Nat.lt_succ_of_le (Nat.le_add_left ..)
  refine ⟨List.replicate limits.depth .lbracket, .lbracket, [], s, _, ?_, hrun,
    next_lbracket hpos, ?_⟩
  · rw [tokens, tokensFrom_brackets, List.replicate_succ']
  · simp only [Limits.exceeded, if_pos hdeep, Option.isSome_some]

-- ---------------------------------------------------------------------------
-- Objects
-- ---------------------------------------------------------------------------

/-- The text starts like an object. -/
def opensObject (text : PyStr) : Bool := (skipBlanks text).head? == some 0x7B

def Frame.isObj : Frame → Bool
  | .arr _ => false
  | .obj _ | .member _ _ => true

/-- Something was read. -/
def State.Begun (s : State) : Prop := s.stack ≠ [] ∨ ∃ v, s.pos = .after v

/-- Whether the outermost container is an object; `default` where none is open. -/
def rootIsObj (default : Bool) : List Frame → Bool
  | [] => default
  | frame :: stack => rootIsObj frame.isObj stack

/-- What the text starts with is an object: the outermost container, or the value that was
read. -/
def State.rootIsObj (s : State) : Bool :=
  JsonLoads.rootIsObj (match s.pos with
    | .after v => v.dict?.isSome
    | _ => false) s.stack

/-- A token that starts no object. -/
def Token.Plain : Token → Prop
  | .lbrace => False
  | .scalar v => v.dict? = none
  | _ => True

/-- A number or a name is no container. -/
theorem scanScalar_plain (text : PyStr) : (scanScalar text).1.Plain := by
  unfold scanScalar
  split
  · rename_i name v hfind
    have hmem := List.mem_of_find?_eq_some hfind
    change v.dict? = none
    simp only [constants, List.mem_cons, Prod.mk.injEq, List.not_mem_nil, or_false] at hmem
    obtain ⟨-, rfl⟩ | ⟨-, rfl⟩ | ⟨-, rfl⟩ | ⟨-, rfl⟩ | ⟨-, rfl⟩ | ⟨-, rfl⟩ := hmem
    all_goals rfl
  · cases hnumber : scanNumber text with
    | none => exact trivial
    | some found =>
      rw [Option.getD_some]
      obtain ⟨⟨integer, more⟩, -, heq⟩ := Option.map_eq_some_iff.1 hnumber
      dsimp only at heq
      split at heq
      · cases heq
        exact trivial
      · cases heq
        exact Json.number_dict? _ _

/-- Only a brace starts an object. -/
theorem token_first (c : Nat) (rest : PyStr) :
    (c = 0x7B ∧ (token c rest).1 = .lbrace) ∨ (c ≠ 0x7B ∧ (token c rest).1.Plain) := by
  by_cases hbrace : c = 0x7B
  · left
    refine ⟨hbrace, ?_⟩
    rw [token, if_pos hbrace]
  · right
    refine ⟨hbrace, ?_⟩
    rw [token, if_neg hbrace]
    repeat' split
    all_goals first
      | exact trivial
      | exact scanScalar_plain _

/-- The first token of a text. -/
theorem tokens_first (text : PyStr) :
    tokens text = [] ∨ ∃ t rest, tokens text = t :: rest ∧
      ((opensObject text = true ∧ t = .lbrace) ∨ (opensObject text = false ∧ t.Plain)) := by
  unfold tokens opensObject skipBlanks
  induction text with
  | nil => exact .inl rfl
  | cons c rest ih =>
    simp only [tokensFrom, List.dropWhile_cons]
    split
    · exact ih
    · right
      refine ⟨_, _, rfl, ?_⟩
      obtain ⟨hbrace, hfirst⟩ | ⟨hother, hplain⟩ := token_first c rest
      · left
        rw [List.head?_cons, hbrace]
        exact ⟨rfl, hbrace ▸ hfirst⟩
      · right
        refine ⟨?_, hplain⟩
        rw [List.head?_cons, beq_eq_false_iff_ne, ne_eq, Option.some.injEq]
        exact hother

/-- The first token decides what the text is. -/
theorem next_first (h : State.next {} t = some s) :
    s.Begun ∧ (t = .lbrace → s.rootIsObj = true) ∧ (t.Plain → s.rootIsObj = false) := by
  cases t with
  | lbrace =>
    cases h
    exact ⟨.inl (List.cons_ne_nil _ _), fun _ => rfl, False.elim⟩
  | lbracket =>
    cases h
    exact ⟨.inl (List.cons_ne_nil _ _), nofun, fun _ => rfl⟩
  | str value =>
    cases h
    exact ⟨.inr ⟨_, rfl⟩, nofun, fun _ => rfl⟩
  | int n digits =>
    cases h
    exact ⟨.inr ⟨_, rfl⟩, nofun, fun _ => rfl⟩
  | scalar v =>
    cases h
    refine ⟨.inr ⟨v, rfl⟩, nofun, fun hplain => ?_⟩
    exact Option.isSome_eq_false_iff.2 (Option.isNone_iff_eq_none.2 hplain)
  | _ => cases h

theorem rootIsObj_open {stack : List Frame} (hopen : stack ≠ []) (a b : Bool) :
    rootIsObj a stack = rootIsObj b stack := by
  cases stack with
  | nil => exact absurd rfl hopen
  | cons frame stack => rfl

theorem scanOnce_root {stack : List Frame} (hopen : stack ≠ [])
    (h : scanOnce stack t = some s') : s'.Begun ∧ s'.rootIsObj = rootIsObj false stack := by
  cases t with
  | lbrace | lbracket =>
    cases h
    exact ⟨.inl (List.cons_ne_nil _ _), rootIsObj_open hopen _ _⟩
  | str | int | scalar =>
    cases h
    exact ⟨.inr ⟨_, rfl⟩, rootIsObj_open hopen _ _⟩
  | _ => cases h

theorem scanKey_root {stack : List Frame} (h : scanKey stack t = some s') :
    s'.Begun ∧ s'.rootIsObj = rootIsObj false stack := by
  unfold scanKey at h
  split at h
  · cases h
    exact ⟨.inl (List.cons_ne_nil _ _), rfl⟩
  · cases h

theorem scanAfter_root {stack : List Frame} (default : Bool) (h : scanAfter v stack t = some s') :
    s'.Begun ∧ s'.rootIsObj = rootIsObj default stack := by
  unfold scanAfter at h
  split at h
  · cases h
    exact ⟨.inl (List.cons_ne_nil _ _), rfl⟩
  · cases h
    exact ⟨.inr ⟨_, rfl⟩, rfl⟩
  · cases h
    exact ⟨.inl (List.cons_ne_nil _ _), rfl⟩
  · cases h
    exact ⟨.inr ⟨_, rfl⟩, rfl⟩
  · cases h

/-- No token changes what the text starts with. -/
theorem next_root (hbegun : s.Begun) (h : s.next t = some s') :
    s'.Begun ∧ s'.rootIsObj = s.rootIsObj := by
  obtain ⟨stack, pos⟩ := s
  have hopen : (∀ v, pos ≠ .after v) → stack ≠ [] := by
    intro hpos
    rcases hbegun with hopen | ⟨v, hafter⟩
    · exact hopen
    · exact absurd hafter (hpos v)
  cases pos with
  | value => exact scanOnce_root (hopen nofun) h
  | key => exact scanKey_root h
  | after v => exact scanAfter_root _ h
  | colon =>
    cases t with
    | colon =>
      cases h
      exact ⟨.inl (hopen nofun), rfl⟩
    | _ => cases h
  | item =>
    simp only [State.next] at h
    split at h
    · cases h
      exact ⟨.inr ⟨_, rfl⟩, rfl⟩
    · exact scanOnce_root (hopen nofun) h
  | firstKey =>
    simp only [State.next] at h
    split at h
    · cases h
      exact ⟨.inr ⟨_, rfl⟩, rfl⟩
    · exact scanKey_root h

theorem run_root {input : List Token} (hbegun : s.Begun) (h : run State.next s input = some s') :
    s'.rootIsObj = s.rootIsObj := by
  induction input generalizing s with
  | nil =>
    obtain rfl : s = s' := Option.some.inj h
    rfl
  | cons t rest ih =>
    simp only [run, Option.bind_eq_some_iff] at h
    obtain ⟨s₁, hnext, hrest⟩ := h
    obtain ⟨hbegun₁, hroot⟩ := next_root hbegun hnext
    exact (ih hbegun₁ hrest).trans hroot

/-- A JSON text says an object exactly if it starts like one. -/
theorem read_object (h : read text = some v) : v.dict?.isSome = opensObject text := by
  obtain ⟨s, hrun, hvalue⟩ := Option.bind_eq_some_iff.1 h
  have hroot : s.rootIsObj = v.dict?.isSome := by
    unfold State.value? at hvalue
    split at hvalue
    · rename_i hstack hpos
      cases hvalue
      rw [State.rootIsObj, hstack, hpos]
      rfl
    · cases hvalue
  rcases tokens_first text with hnone | ⟨t, rest, htokens, hfirst⟩
  · rw [hnone] at hrun
    obtain rfl := Option.some.inj hrun
    cases hvalue
  · rw [htokens] at hrun
    simp only [run, Option.bind_eq_some_iff] at hrun
    obtain ⟨s₁, hnext, hrest⟩ := hrun
    obtain ⟨hbegun, hbrace, hplain⟩ := next_first hnext
    rw [← hroot, run_root hbegun hrest]
    rcases hfirst with ⟨hopens, ht⟩ | ⟨hopens, ht⟩
    · rw [hopens]
      exact hbrace ht
    · rw [hopens]
      exact hplain ht

end JsonLoads
