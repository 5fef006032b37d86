-- SUMMARY: `json.dumps` and `json.loads` on lists of strings: ASCII escapes, surrogate pairs, and the round trip.
import JotaGateway.Python.Value

/-!
# JSON text of a list of strings

`json.dumps` writes ASCII only: any other code point becomes one `\u` escape,
or a pair of surrogates. `json.loads` joins such a pair again. `loads` here
reads the texts of lists of strings; any other text is `none`.
-/

namespace JsonText

/-- A Unicode scalar value: what a valid `str` is made of. -/
def isScalar (c : Nat) : Bool := c < 0xD800 || (0xE000 ≤ c && c < 0x110000)

-- ---------------------------------------------------------------------------
-- Writing
-- ---------------------------------------------------------------------------

def hexDigit (n : Nat) : Nat := if n < 10 then 0x30 + n else 0x57 + n

/-- `'\\u{0:04x}'.format(n)`. -/
def escapeUnit (n : Nat) : PyStr :=
  [0x5C, 0x75, hexDigit (n / 0x1000), hexDigit (n / 0x100 % 16), hexDigit (n / 0x10 % 16),
    hexDigit (n % 16)]

/-- The escapes that have a letter of their own. -/
def escapeLetter? (c : Nat) : Option Nat :=
  if c = 0x22 then some 0x22
  else if c = 0x5C then some 0x5C
  else if c = 0x08 then some 0x62
  else if c = 0x0C then some 0x66
  else if c = 0x0A then some 0x6E
  else if c = 0x0D then some 0x72
  else if c = 0x09 then some 0x74
  else none

def highSurrogate (c : Nat) : Nat := 0xD800 + (c - 0x10000) / 0x400

def lowSurrogate (c : Nat) : Nat := 0xDC00 + (c - 0x10000) % 0x400

def escapeChar (c : Nat) : PyStr :=
  match escapeLetter? c with
  | some letter => [0x5C, letter]
  | none =>
    if 0x20 ≤ c ∧ c ≤ 0x7E then [c]
    else if c < 0x10000 then escapeUnit c
    else escapeUnit (highSurrogate c) ++ escapeUnit (lowSurrogate c)

/-- `json.dumps(s)` -/
def dumpsString (s : PyStr) : PyStr := 0x22 :: s.flatMap escapeChar ++ [0x22]

/-- The items of a list and its closing bracket. -/
def dumpsItems : List PyStr → PyStr
  | [] => [0x5D]
  | [item] => dumpsString item ++ [0x5D]
  | item :: items => dumpsString item ++ 0x2C :: 0x20 :: dumpsItems items

/-- `json.dumps(items)` -/
def dumps (items : List PyStr) : PyStr := 0x5B :: dumpsItems items

-- ---------------------------------------------------------------------------
-- Reading
-- ---------------------------------------------------------------------------

def hexDigit? (c : Nat) : Option Nat :=
  if 0x30 ≤ c ∧ c ≤ 0x39 then some (c - 0x30)
  else if 0x61 ≤ c ∧ c ≤ 0x66 then some (c - 0x57)
  else if 0x41 ≤ c ∧ c ≤ 0x46 then some (c - 0x37)
  else none

def unit? (a b c d : Nat) : Option Nat :=
  (hexDigit? a).bind fun a => (hexDigit? b).bind fun b => (hexDigit? c).bind fun c =>
    (hexDigit? d).map fun d => a * 0x1000 + b * 0x100 + c * 0x10 + d

/-- What follows a backslash, but for `u`. -/
def unescapeLetter? (letter : Nat) : Option Nat :=
  if letter = 0x22 then some 0x22
  else if letter = 0x5C then some 0x5C
  else if letter = 0x2F then some 0x2F
  else if letter = 0x62 then some 0x08
  else if letter = 0x66 then some 0x0C
  else if letter = 0x6E then some 0x0A
  else if letter = 0x72 then some 0x0D
  else if letter = 0x74 then some 0x09
  else none

/-- A part of a string literal: a character, or the unit of a `\u` escape. -/
inductive Piece where
  | char (c : Nat)
  | unit (u : Nat)

def isHigh (u : Nat) : Bool := 0xD800 ≤ u && u ≤ 0xDBFF

def isLow (u : Nat) : Bool := 0xDC00 ≤ u && u ≤ 0xDFFF

/-- Two escaped surrogates that follow one another are one character. -/
def join : List Piece → PyStr
  | .unit u :: .unit v :: rest =>
    if isHigh u && isLow v then (0x10000 + (u - 0xD800) * 0x400 + (v - 0xDC00)) :: join rest
    else u :: join (.unit v :: rest)
  | .unit u :: rest => u :: join rest
  | .char c :: rest => c :: join rest
  | [] => []

/-- The literal up to its closing quote, and what follows it. -/
def scanPieces : PyStr → Option (List Piece × PyStr)
  | [] => none
  | c :: rest =>
    if c = 0x22 then some ([], rest)
    else if c = 0x5C then
      match rest with
      | [] => none
      | letter :: rest =>
        if letter = 0x75 then
          match rest with
          | a :: b :: c :: d :: rest =>
            (unit? a b c d).bind fun u =>
              (scanPieces rest).map fun (pieces, rest) => (.unit u :: pieces, rest)
          | _ => none
        else
          (unescapeLetter? letter).bind fun c =>
            (scanPieces rest).map fun (pieces, rest) => (.char c :: pieces, rest)
    else if c < 0x20 then none
    else (scanPieces rest).map fun (pieces, rest) => (.char c :: pieces, rest)

def scanString (text : PyStr) : Option (PyStr × PyStr) :=
  (scanPieces text).map fun (pieces, rest) => (join pieces, rest)

def isBlank (c : Nat) : Bool := c == 0x20 || c == 0x09 || c == 0x0A || c == 0x0D

def skipBlanks (text : PyStr) : PyStr := text.dropWhile isBlank

/-- The items of a list, the first of at most `n`, up to the closing bracket. -/
def scanItems : Nat → PyStr → Option (List PyStr × PyStr)
  | 0, _ => none
  | n + 1, text =>
    match skipBlanks text with
    | 0x22 :: rest =>
      (scanString rest).bind fun (item, rest) =>
        match skipBlanks rest with
        | 0x5D :: rest => some ([item], rest)
        | 0x2C :: rest => (scanItems n rest).map fun (items, rest) => (item :: items, rest)
        | _ => none
    | _ => none

/-- `json.loads(text)` -/
def loads (text : PyStr) : Option (List PyStr) :=
  match skipBlanks text with
  | 0x5B :: rest =>
    let items :=
      match skipBlanks rest with
      | 0x5D :: rest => some ([], rest)
      | _ => scanItems rest.length rest
    items.bind fun (items, rest) => if (skipBlanks rest).isEmpty then some items else none
  | _ => none

-- ---------------------------------------------------------------------------
-- The round trip
-- ---------------------------------------------------------------------------

theorem hexDigit?_hexDigit {n : Nat} (h : n < 16) : hexDigit? (hexDigit n) = some n := by
  unfold hexDigit hexDigit?
  split
  · rw [if_pos (by omega)]
    congr 1
    omega
  · rw [if_neg (by omega), if_pos (by omega)]
    congr 1
    omega

/-- Four digits give back their unit. -/
theorem unit?_hex {n : Nat} (h : n < 0x10000) :
    unit? (hexDigit (n / 0x1000)) (hexDigit (n / 0x100 % 16)) (hexDigit (n / 0x10 % 16))
      (hexDigit (n % 16)) = some n := by
  unfold unit?
  rw [hexDigit?_hexDigit (by omega), hexDigit?_hexDigit (by omega), hexDigit?_hexDigit (by omega),
    hexDigit?_hexDigit (by omega)]
  simp only [Option.bind_some, Option.map_some, Option.some.injEq]
  omega

/-- The pieces a character is written as. -/
def piecesOf (c : Nat) : List Piece :=
  match escapeLetter? c with
  | some _ => [.char c]
  | none =>
    if 0x20 ≤ c ∧ c ≤ 0x7E then [.char c]
    else if c < 0x10000 then [.unit c]
    else [.unit (highSurrogate c), .unit (lowSurrogate c)]

theorem unescapeLetter?_escape {c letter : Nat} (h : escapeLetter? c = some letter) :
    unescapeLetter? letter = some c ∧ letter ≠ 0x75 := by
  unfold escapeLetter? at h
  repeat' split at h
  all_goals first
    | (cases h; simp_all [unescapeLetter?])
    | cases h

theorem scanPieces_unit {u : Nat} (h : u < 0x10000) (rest : PyStr) :
    scanPieces (escapeUnit u ++ rest) =
      (scanPieces rest).map fun (pieces, rest) => (.unit u :: pieces, rest) := by
  simp only [escapeUnit, List.cons_append, List.nil_append]
  rw [scanPieces]
  simp only [show (0x5C : Nat) ≠ 0x22 by decide, if_false, if_true, unit?_hex h, Option.bind_some]

/-- Scanning the escapes of a character gives its pieces. -/
theorem scanPieces_char {c : Nat} (h : isScalar c = true) (rest : PyStr) :
    scanPieces (escapeChar c ++ rest) =
      (scanPieces rest).map fun (pieces, rest) => (piecesOf c ++ pieces, rest) := by
  unfold escapeChar piecesOf
  cases hletter : escapeLetter? c with
  | some letter =>
    obtain ⟨hback, hne⟩ := unescapeLetter?_escape hletter
    simp only [List.cons_append, List.nil_append]
    rw [scanPieces.eq_def]
    simp only [show (0x5C : Nat) ≠ 0x22 by decide, if_false, if_true, hne, hback, Option.bind_some]
  | none =>
    have hquote : c ≠ 0x22 := by
      rintro rfl
      cases hletter
    have hbackslash : c ≠ 0x5C := by
      rintro rfl
      cases hletter
    simp only
    split
    · rename_i hascii
      simp only [List.cons_append, List.nil_append]
      rw [scanPieces.eq_def]
      simp only [hquote, hbackslash, if_false, if_neg (Nat.not_lt.mpr hascii.1)]
    · split
      · rename_i hbmp
        rw [scanPieces_unit hbmp]
        rfl
      · rename_i hastral
        have hbound : c < 0x110000 := by
          simp only [isScalar, Bool.or_eq_true, Bool.and_eq_true, decide_eq_true_eq] at h
          omega
        rw [List.append_assoc, scanPieces_unit (by unfold highSurrogate; omega),
          scanPieces_unit (by unfold lowSurrogate; omega), Option.map_map]
        rfl

/-- The pieces of a character in front of others are that character. -/
theorem join_piecesOf {c : Nat} (h : isScalar c = true) (pieces : List Piece) :
    join (piecesOf c ++ pieces) = c :: join pieces := by
  unfold piecesOf
  split
  · rw [List.singleton_append, join]
  · split
    · rw [List.singleton_append, join]
    · split
      · rename_i hbmp
        have hhigh : isHigh c = false := by
          simp only [isScalar, Bool.or_eq_true, Bool.and_eq_true, decide_eq_true_eq] at h
          simp only [isHigh, Bool.and_eq_false_iff, decide_eq_false_iff_not]
          omega
        cases pieces with
        | nil => rfl
        | cons piece pieces =>
          cases piece with
          | char d => rfl
          | unit v => simp only [List.cons_append, List.nil_append, join, hhigh, Bool.false_and,
              Bool.false_eq_true, if_false]
      · rename_i hastral
        simp only [isScalar, Bool.or_eq_true, Bool.and_eq_true, decide_eq_true_eq] at h
        have hhigh : isHigh (highSurrogate c) = true := by
          unfold isHigh highSurrogate
          rw [Bool.and_eq_true]
          exact ⟨decide_eq_true (by omega), decide_eq_true (by omega)⟩
        have hlow : isLow (lowSurrogate c) = true := by
          unfold isLow lowSurrogate
          rw [Bool.and_eq_true]
          exact ⟨decide_eq_true (by omega), decide_eq_true (by omega)⟩
        simp only [List.cons_append, List.nil_append, join, hhigh, hlow, Bool.and_self, if_true,
          List.cons.injEq, and_true]
        simp only [highSurrogate, lowSurrogate]
        omega

/-- A written string reads back, whatever follows it. -/
theorem scanString_dumps {s : PyStr} (h : ∀ c ∈ s, isScalar c = true) (rest : PyStr) :
    scanString (s.flatMap escapeChar ++ 0x22 :: rest) = some (s, rest) := by
  have hpieces : scanPieces (s.flatMap escapeChar ++ 0x22 :: rest) =
      some (s.flatMap piecesOf, rest) := by
    induction s with
    | nil =>
      simp only [List.flatMap_nil, List.nil_append]
      rw [scanPieces.eq_def]
      rfl
    | cons c s ih =>
      rw [List.flatMap_cons, List.append_assoc, scanPieces_char (h c List.mem_cons_self),
        ih fun c hc => h c (List.mem_cons_of_mem _ hc)]
      rfl
  have hjoin : join (s.flatMap piecesOf) = s := by
    clear hpieces
    induction s with
    | nil => rfl
    | cons c s ih =>
      rw [List.flatMap_cons, join_piecesOf (h c List.mem_cons_self),
        ih fun c hc => h c (List.mem_cons_of_mem _ hc)]
  simp only [scanString, hpieces, Option.map_some, hjoin]

theorem dumpsString_append (item rest : PyStr) :
    dumpsString item ++ rest = 0x22 :: (item.flatMap escapeChar ++ 0x22 :: rest) := by
  simp [dumpsString]

/-- The first item of a list is read, and then what follows it. -/
theorem scanItems_string {item : PyStr} (h : ∀ c ∈ item, isScalar c = true) (n : Nat)
    (rest : PyStr) :
    scanItems (n + 1) (dumpsString item ++ rest) =
      match skipBlanks rest with
      | 0x5D :: rest => some ([item], rest)
      | 0x2C :: rest => (scanItems n rest).map fun (items, rest) => (item :: items, rest)
      | _ => none := by
  rw [dumpsString_append]
  have hquote : ∀ text, skipBlanks (0x22 :: text) = 0x22 :: text := fun _ => rfl
  simp only [scanItems, hquote, scanString_dumps h, Option.bind_some]

theorem scanItems_blank (n : Nat) (text : PyStr) : scanItems n (0x20 :: text) = scanItems n text := by
  cases n with
  | zero => rfl
  | succ n => rfl

/-- The items of a written list read back, whatever follows the list. -/
theorem scanItems_dumps {items : List PyStr} (hne : items ≠ [])
    (h : ∀ item ∈ items, ∀ c ∈ item, isScalar c = true) {n : Nat} (hn : items.length ≤ n)
    (rest : PyStr) : scanItems n (dumpsItems items ++ rest) = some (items, rest) := by
  induction items generalizing n with
  | nil => exact absurd rfl hne
  | cons item items ih =>
    have hitem := h item List.mem_cons_self
    cases n with
    | zero => simp at hn
    | succ n =>
      cases items with
      | nil =>
        rw [dumpsItems, List.append_assoc, scanItems_string hitem]
        rfl
      | cons item' items =>
        have hrest := ih (List.cons_ne_nil _ _) (fun i hi => h i (List.mem_cons_of_mem _ hi))
          (Nat.le_of_succ_le_succ hn)
        have hcons : dumpsItems (item :: item' :: items) =
            dumpsString item ++ 0x2C :: 0x20 :: dumpsItems (item' :: items) := rfl
        have hdumps : dumpsItems (item :: item' :: items) ++ rest =
            dumpsString item ++ 0x2C :: 0x20 :: (dumpsItems (item' :: items) ++ rest) := by
          rw [hcons, List.append_assoc]
          rfl
        have hskip : skipBlanks (0x2C :: 0x20 :: (dumpsItems (item' :: items) ++ rest)) =
            0x2C :: 0x20 :: (dumpsItems (item' :: items) ++ rest) := rfl
        rw [hdumps, scanItems_string hitem, hskip]
        simp only [scanItems_blank, hrest, Option.map_some]

theorem length_le_dumpsItems (items : List PyStr) : items.length ≤ (dumpsItems items).length := by
  induction items with
  | nil => simp
  | cons item items ih =>
    cases items with
    | nil => simp [dumpsItems, dumpsString]
    | cons item' items =>
      simp only [dumpsItems, dumpsString, List.length_append, List.length_cons] at ih ⊢
      omega

/-- A list of valid strings that is written as JSON text reads back as it was. -/
theorem loads_dumps {items : List PyStr} (h : ∀ item ∈ items, ∀ c ∈ item, isScalar c = true) :
    loads (dumps items) = some items := by
  have hopen : skipBlanks (dumps items) = 0x5B :: dumpsItems items := rfl
  cases items with
  | nil => rfl
  | cons item items =>
    have hquote : ∃ rest, dumpsItems (item :: items) = 0x22 :: rest := by
      cases items with
      | nil => exact ⟨_, rfl⟩
      | cons item' items => exact ⟨_, rfl⟩
    obtain ⟨rest, hrest⟩ := hquote
    have hitems := scanItems_dumps (List.cons_ne_nil item items) h
      (length_le_dumpsItems (item :: items)) []
    rw [List.append_nil] at hitems
    rw [hrest] at hitems hopen
    have hread : skipBlanks (0x22 :: rest) = 0x22 :: rest := rfl
    simp only [loads, hopen, hread, hitems, Option.bind_some]
    rfl

/-- No text of a list is empty, or `null`. -/
theorem dumps_ne (items : List PyStr) : dumps items ≠ [] ∧ dumps items ≠ py "null" := by
  refine ⟨List.cons_ne_nil _ _, ?_⟩
  intro h
  have hhead := congrArg List.head? h
  simp [dumps, py] at hhead

end JsonText
