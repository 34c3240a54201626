import DecisionSpace.Config.Document
import DecisionSpace.Decimal.Read

/-! # Scalars of TOML

Strings, numbers, truth values, dates and times.  A reader takes the characters
that are left and gives back what it read with the rest, or nothing when they are
not well formed. -/
set_option autoImplicit false
namespace DecisionSpace.Toml

def isBlank (c : Char) : Bool := c = ' ' || c = '\t'

def skipBlanks (cs : List Char) : List Char := cs.dropWhile isBlank

def isText (c : Char) : Bool := c = '\t' || (0x20 ≤ c.toNat && c.toNat ≠ 0x7f)

def newline? : List Char → Option (List Char)
  | '\n' :: rest => some rest
  | '\r' :: '\n' :: rest => some rest
  | _ => none

def skipSpace : List Char → List Char
  | '\r' :: '\n' :: rest => skipSpace rest
  | c :: rest => if isBlank c || c = '\n' then skipSpace rest else c :: rest
  | [] => []

/-! ## Strings -/

def codePoint? (ds : List Char) : Option Char :=
  match Decimal.natural? 16 ds with
  | some n => if h : n.isValidChar then some (Char.ofNatAux n h) else none
  | none => none

def escaped? : Char → Option Char
  | 'b' => some '\x08'
  | 't' => some '\t'
  | 'n' => some '\n'
  | 'f' => some '\x0c'
  | 'r' => some '\r'
  | '"' => some '"'
  | '\\' => some '\\'
  | _ => none

def escape? : List Char → Option (Char × List Char)
  | 'u' :: a :: b :: c :: d :: rest => (codePoint? [a, b, c, d]).map (·, rest)
  | 'U' :: a :: b :: c :: d :: e :: f :: g :: h :: rest =>
      (codePoint? [a, b, c, d, e, f, g, h]).map (·, rest)
  | c :: rest => (escaped? c).map (·, rest)
  | [] => none

/-- What follows a backslash at the end of a line: it hides the space up to the
next character. -/
def afterHidden? (cs : List Char) : Option (List Char) :=
  (newline? (skipBlanks cs)).map skipSpace

def short (mark : Char) : Nat → List Char → Option (List Char × List Char)
  | 0, _ | _, [] => none
  | fuel + 1, c :: rest =>
      if c = mark then some ([], rest)
      else do
        let (x, rest) ←
          if c = '\\' && mark = '"' then escape? rest
          else if isText c then some (c, rest) else none
        let (s, rest) ← short mark fuel rest
        some (x :: s, rest)

/-- The rest of a string between three quotes, which may run over several lines.
Up to two quotes in front of the last three belong to it. -/
def long (mark : Char) : Nat → List Char → Option (List Char × List Char)
  | 0, _ | _, [] => none
  | fuel + 1, c :: rest =>
      let quotes := ((c :: rest).takeWhile (· = mark)).length
      if 5 < quotes then none
      else if 3 ≤ quotes then
        some (List.replicate (quotes - 3) mark, (c :: rest).drop quotes)
      else
        match newline? (c :: rest) with
        | some after => (long mark fuel after).map fun (s, rest) => ('\n' :: s, rest)
        | none => do
            if c = '\\' && mark = '"' then
              match afterHidden? rest with
              | some after => long mark fuel after
              | none =>
                  let (x, after) ← escape? rest
                  let (s, after) ← long mark fuel after
                  some (x :: s, after)
            else if isText c then
              let (s, after) ← long mark fuel rest
              some (c :: s, after)
            else none

def short? : List Char → Option (List Char × List Char)
  | '"' :: rest => short '"' (rest.length + 1) rest
  | '\'' :: rest => short '\'' (rest.length + 1) rest
  | _ => none

/-- The rest of a long string; an end of line at its beginning does not count. -/
def long? (mark : Char) (cs : List Char) : Option (List Char × List Char) :=
  long mark (cs.length + 1) ((newline? cs).getD cs)

def string? : List Char → Option (List Char × List Char)
  | '"' :: '"' :: '"' :: rest => long? '"' rest
  | '\'' :: '\'' :: '\'' :: rest => long? '\'' rest
  | cs => short? cs

/-! ## Dates and times -/

def digits? (width : Nat) (cs : List Char) : Option (Nat × List Char) :=
  let ds := cs.take width
  if ds.length = width then (Decimal.natural? 10 ds).map (·, cs.drop width) else none

def expect? (c : Char) : List Char → Option (List Char)
  | d :: rest => if c = d then some rest else none
  | [] => none

def isLeap (year : Nat) : Bool := year % 4 = 0 && (year % 100 ≠ 0 || year % 400 = 0)

def daysIn (year month : Nat) : Nat :=
  if month = 2 then if isLeap year then 29 else 28
  else if [4, 6, 9, 11].contains month then 30 else 31

def date? (cs : List Char) : Option (List Char) := do
  let (year, cs) ← digits? 4 cs
  let (month, cs) ← digits? 2 (← expect? '-' cs)
  let (day, cs) ← digits? 2 (← expect? '-' cs)
  if 1 ≤ month ∧ month ≤ 12 ∧ 1 ≤ day ∧ day ≤ daysIn year month then some cs else none

def clock? (cs : List Char) : Option (List Char) := do
  let (hour, cs) ← digits? 2 cs
  let (minute, cs) ← digits? 2 (← expect? ':' cs)
  if hour ≤ 23 ∧ minute ≤ 59 then some cs else none

def time? (cs : List Char) : Option (List Char) := do
  let (second, cs) ← digits? 2 (← expect? ':' (← clock? cs))
  if second ≤ 60 then
    match cs with
    | '.' :: c :: rest => some (if c.isDigit then rest.dropWhile Char.isDigit else cs)
    | _ => some cs
  else none

def zone? : List Char → Option (List Char)
  | 'Z' :: rest | 'z' :: rest => some rest
  | '+' :: rest | '-' :: rest => clock? rest
  | _ => none

def timeOfDay? : List Char → Option (List Char)
  | 'T' :: rest | 't' :: rest | ' ' :: rest => (time? rest).map fun cs => (zone? cs).getD cs
  | _ => none

def moment? (cs : List Char) : Option (List Char) :=
  match date? cs with
  | some rest => some ((timeOfDay? rest).getD rest)
  | none => time? cs

/-! ## Numbers and truth values -/

def digitRun : List Char → Option (List Char)
  | [] => none
  | [c] => if c.isAlphanum then some [c] else none
  | c :: '_' :: rest => if c.isAlphanum then (digitRun rest).map (c :: ·) else none
  | c :: rest => if c.isAlphanum then (digitRun rest).map (c :: ·) else none

def wholeRun (cs : List Char) : Option (List Char) :=
  match digitRun cs with
  | some ('0' :: _ :: _) => none
  | run => run

def sign : List Char → Bool × List Char
  | '-' :: rest => (true, rest)
  | '+' :: rest => (false, rest)
  | cs => (false, cs)

def integer? (cs : List Char) : Option Int :=
  match cs with
  | '0' :: 'x' :: rest => (digitRun rest).bind fun ds => (Decimal.natural? 16 ds).map Int.ofNat
  | '0' :: 'o' :: rest => (digitRun rest).bind fun ds => (Decimal.natural? 8 ds).map Int.ofNat
  | '0' :: 'b' :: rest => (digitRun rest).bind fun ds => (Decimal.natural? 2 ds).map Int.ofNat
  | _ => do
      let (negative, rest) := sign cs
      let n ← Decimal.natural? 10 (← wholeRun rest)
      some (if negative then -(n : Int) else n)

def exponent? (cs : List Char) : Option (Option Int) :=
  match cs with
  | [] => some none
  | _ :: rest => do
      let (negative, ds) := sign rest
      let n ← Decimal.natural? 10 (← digitRun ds)
      some (some (if negative then -(n : Int) else n))

def isExponentMark (c : Char) : Bool := c = 'e' || c = 'E'

/-- A float has a fraction or an exponent; one beyond the range is refused. -/
def float? (cs : List Char) : Option Float := do
  let (negative, rest) := sign cs
  if rest = ['i', 'n', 'f'] then some (if negative then -1.0 / 0.0 else 1.0 / 0.0)
  else if rest = ['n', 'a', 'n'] then some (0.0 / 0.0)
  else do
    let mantissa := rest.takeWhile fun c => !isExponentMark c
    let e ← exponent? (rest.dropWhile fun c => !isExponentMark c)
    let whole ← wholeRun (mantissa.takeWhile (· != '.'))
    let fraction ←
      match mantissa.dropWhile (· != '.') with
      | [] => if e.isSome then some [] else none
      | _ :: ds => digitRun ds
    let x ← Decimal.float? negative whole fraction (e.getD 0)
    if x == 1.0 / 0.0 then none else some x

def endsWord (c : Char) : Bool := isBlank c || [',', ']', '}', '#', '\n', '\r'].contains c

/-- A value that is a word: a truth value or a number.  Integers have 64
bits. -/
def word? (cs : List Char) : Option Document :=
  if cs = ['t', 'r', 'u', 'e'] then some (.bool true)
  else if cs = ['f', 'a', 'l', 's', 'e'] then some (.bool false)
  else
    match integer? cs with
    | some i => if Int64.minValue.toInt ≤ i ∧ i ≤ Int64.maxValue.toInt then some (.int i) else none
    | none => (float? cs).map .float

def scalar? (cs : List Char) : Option (Document × List Char) :=
  match cs with
  | '"' :: _ | '\'' :: _ => (string? cs).map fun (s, rest) => (.text (String.ofList s), rest)
  | _ =>
      match moment? cs with
      | some rest => some (.moment, rest)
      | none => (word? (cs.takeWhile (!endsWord ·))).map (·, cs.dropWhile (!endsWord ·))

end DecisionSpace.Toml
