import DecisionSpace.Config.Yaml.Glyph
import DecisionSpace.Decimal.Read

/-! # Scalars as they are written

A scalar is written plain, in quotes, or as a block of lines.  A reader takes the
glyphs after the first mark and gives back the text with the rest.  Where a line
ends inside a plain or quoted scalar the break is folded into a space. -/
set_option autoImplicit false
namespace DecisionSpace.Yaml

inductive Style where
  | plain
  | quoted
  | literal
  | folded
  deriving DecidableEq

inductive Gap where
  | blanks (cs : List Char)
  | breaks (first : Option Char) (more : List Char)

namespace Gap

def empty : Gap := .blanks []

def isBroken : Gap → Bool
  | .blanks _ => false
  | .breaks .. => true

def isEmpty : Gap → Bool
  | .blanks [] => true
  | _ => false

/-- The gap with one more blank or break; blanks around a break are lost. -/
def add (c : Char) : Gap → Gap
  | .blanks cs => if isBreak c then .breaks (some c) [] else .blanks (cs ++ [c])
  | .breaks first more => if isBreak c then .breaks first (more ++ [c]) else .breaks first more

/-- What the gap stands for: a single line feed is a space, and one in front of
other breaks is dropped. -/
def text : Gap → List Char
  | .blanks cs => cs
  | .breaks (some '\n') [] => [' ']
  | .breaks (some '\n') more => more
  | .breaks first more => first.toList ++ more

end Gap

/-! ## Plain scalars -/

def isFlowMark (c : Char) : Bool := [',', '[', ']', '\x7b', '\x7d'].contains c

/-- Whether a plain scalar ends here: at a colon with a gap after it, or at a mark
of the brackets around it. -/
def endsPlain (inFlow : Bool) : List Glyph → Bool
  | [] => true
  | g :: rest => (g.char = ':' && atGap rest) || (inFlow && isFlowMark g.char)

def isColonAtMark : List Glyph → Bool
  | g :: h :: _ => g.char = ':' && (h.char = '?' || isFlowMark h.char)
  | _ => false

/-- The rest of a plain scalar after a gap; with the text comes whether a line
ended behind its last word.  Outside brackets a line that begins left of `floor`
does not belong to it, and no tab may stand there. -/
def plainText (inFlow : Bool) (floor : Nat) :
    Gap → List Glyph → Option (List Char × Bool × List Glyph)
  | gap, [] => some ([], gap.isBroken, [])
  | gap, g :: rest =>
      if isSpace g.char then
        if gap.isBroken && g.char = '\t' && g.column < floor then none
        else plainText inFlow floor (gap.add g.char) rest
      else
        let outside := gap.isBroken && !inFlow && g.column < floor
        let newWord := !gap.isEmpty
        if outside || (newWord && (g.char = '#' || atFence (g :: rest))) then
          some ([], gap.isBroken, g :: rest)
        else if inFlow && isColonAtMark (g :: rest) then none
        else if endsPlain inFlow (g :: rest) then some ([], gap.isBroken, g :: rest)
        else do
          let (s, broken, after) ← plainText inFlow floor .empty rest
          some (gap.text ++ g.char :: s, broken, after)

/-! ## Quoted scalars -/

def singleQuoted : Gap → List Glyph → Option (List Char × List Glyph)
  | _, [] => none
  | gap, g :: rest =>
      if isSpace g.char then singleQuoted (gap.add g.char) rest
      else if atFence (g :: rest) then none
      else if g.char = '\'' then
        match rest with
        | h :: after =>
            if h.char = '\'' then do
              let (s, last) ← singleQuoted .empty after
              some (gap.text ++ '\'' :: s, last)
            else some (gap.text, rest)
        | [] => some (gap.text, [])
      else do
        let (s, after) ← singleQuoted .empty rest
        some (gap.text ++ g.char :: s, after)

def escaped? : Char → Option Char
  | '0' => some '\x00'
  | 'a' => some '\x07'
  | 'b' => some '\x08'
  | 't' | '\t' => some '\t'
  | 'n' => some '\n'
  | 'v' => some '\x0b'
  | 'f' => some '\x0c'
  | 'r' => some '\r'
  | 'e' => some '\x1b'
  | ' ' => some ' '
  | '"' => some '"'
  | '/' => some '/'
  | '\\' => some '\\'
  | 'N' => some '\u0085'
  | '_' => some '\u00a0'
  | 'L' => some '\u2028'
  | 'P' => some '\u2029'
  | _ => none

def codeWidth? : Char → Option Nat
  | 'x' => some 2
  | 'u' => some 4
  | 'U' => some 8
  | _ => none

inductive Pending where
  | gap (gap : Gap)
  | escape
  | code (more value : Nat)

def character? (n : Nat) : Option Char :=
  if h : n.isValidChar then some (Char.ofNatAux n h) else none

def doubleQuoted : Pending → List Glyph → Option (List Char × List Glyph)
  | _, [] => none
  | .gap gap, g :: rest =>
      if isSpace g.char then doubleQuoted (.gap (gap.add g.char)) rest
      else if atFence (g :: rest) then none
      else if g.char = '"' then some (gap.text, rest)
      else if g.char = '\\' then do
        let (s, after) ← doubleQuoted .escape rest
        some (gap.text ++ s, after)
      else do
        let (s, after) ← doubleQuoted (.gap .empty) rest
        some (gap.text ++ g.char :: s, after)
  | .escape, g :: rest =>
      if isBreak g.char then doubleQuoted (.gap (.breaks none [])) rest
      else
        match codeWidth? g.char with
        | some width => doubleQuoted (.code (width - 1) 0) rest
        | none => do
            let c ← escaped? g.char
            let (s, after) ← doubleQuoted (.gap .empty) rest
            some (c :: s, after)
  | .code more value, g :: rest => do
      let value := 16 * value + (← Decimal.digitValue? g.char)
      match more with
      | more + 1 => doubleQuoted (.code more value) rest
      | 0 =>
          let c ← character? value
          let (s, after) ← doubleQuoted (.gap .empty) rest
          some (c :: s, after)

/-! ## Blocks of lines -/

inductive Chomp where
  | strip
  | clip
  | keep
  deriving DecidableEq

def chomp? (gs : List Glyph) : Option Chomp :=
  match gs with
  | g :: _ => if g.char = '+' then some .keep else if g.char = '-' then some .strip else none
  | [] => none

def depthMark? (gs : List Glyph) : Option (Nat × List Glyph) :=
  match gs with
  | g :: rest =>
      if g.char = '0' then none
      else if g.char.isDigit then some (g.char.toNat - '0'.toNat, rest)
      else some (0, g :: rest)
  | [] => some (0, [])

def blockMarks? (gs : List Glyph) : Option (Chomp × Nat × List Glyph) :=
  match chomp? gs with
  | some chomp => (depthMark? (gs.drop 1)).map (chomp, ·)
  | none => do
      let (depth, rest) ← depthMark? gs
      match depth, chomp? rest with
      | _ + 1, some chomp => some (chomp, depth, rest.drop 1)
      | _, _ => some (.clip, depth, rest)

/-- The breaks of the empty lines that come next and the column of the deepest of
them, where `depth` is the indentation, or zero if it is not known yet. -/
def emptyLines (depth : Nat) :
    (deepest : Nat) → (breaks : List Char) → List Glyph → Option (Nat × List Char × List Glyph)
  | deepest, breaks, [] => some (deepest, breaks, [])
  | deepest, breaks, g :: rest =>
      let inside := depth = 0 || g.column < depth
      if g.char = ' ' && inside then emptyLines depth deepest breaks rest
      else if g.char = '\t' && inside then none
      else if isBreak g.char then
        emptyLines depth (max deepest g.column) (breaks ++ [g.char]) rest
      else some (max deepest g.column, breaks, g :: rest)

/-- The end of the line before, the breaks of the empty lines after it, and
whether it began with a blank. -/
structure LineState where
  ending : List Char := []
  empty : List Char := []
  blank : Bool := false

def LineState.joint (folded blank : Bool) (s : LineState) : List Char :=
  if folded && s.ending = ['\n'] && !s.blank && !blank then
    if s.empty.isEmpty then [' '] else s.empty
  else s.ending ++ s.empty

def blockLines (folded : Bool) (depth : Nat) :
    Nat → LineState → List Glyph → Option (List Char × LineState × List Glyph)
  | fuel + 1, state, g :: rest =>
      if g.column = depth then do
        let blank := isBlank g.char
        let line := (g :: rest).takeWhile (!isBreak ·.char)
        let after := skipLine (g :: rest)
        let (_, empty, after) ← emptyLines depth 0 [] (after.drop 1)
        let ending := chars ((skipLine (g :: rest)).take 1)
        let (s, last, after) ← blockLines folded depth fuel ⟨ending, empty, blank⟩ after
        some (state.joint folded blank ++ chars line ++ s, last, after)
      else some ([], state, g :: rest)
  | _, state, gs => some ([], state, gs)

def blockText (folded : Bool) (floor : Nat) (gs : List Glyph) :
    Option (List Char × List Glyph) := do
  let (chomp, mark, rest) ← blockMarks? gs
  let rest ← lineEnd? rest
  let given := if mark = 0 then 0 else floor - 1 + mark
  let (deepest, empty, rest) ← emptyLines given 0 [] rest
  let depth := if given = 0 then max deepest (max floor 1) else given
  let (s, last, rest) ← blockLines folded depth (rest.length + 1) { empty } rest
  let tail :=
    match chomp with
    | .strip => []
    | .clip => last.ending
    | .keep => last.ending ++ last.empty
  some (s ++ tail, rest)

end DecisionSpace.Yaml
