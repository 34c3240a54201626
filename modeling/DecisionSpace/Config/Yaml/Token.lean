import DecisionSpace.Config.Yaml.Scalar

/-! # Tokens of a YAML document

Tokens are the scalars and the marks of structure in the order of the text.
Blocks have no marks of their own: a block opens where an item or a key stands
deeper than the block around it and closes where a line begins less deep.  That
something is a key shows only at the colon after it, so its tokens are put in
front of it then; a key in this place is on one line and not too long. -/
set_option autoImplicit false
namespace DecisionSpace.Yaml

inductive Token where
  | version
  | handle (name text : String)
  | documentStart
  | documentEnd
  | openBlockList
  | openBlockMap
  | closeBlock
  | openList
  | closeList
  | openMap
  | closeMap
  | item
  | comma
  | key
  | colon
  | anchor (name : String)
  | reference (name : String)
  | tag (handle suffix : String)
  | scalar (style : Style) (text : String)
  deriving DecidableEq

/-! ## Names, tags and directives -/

def isNameChar (c : Char) : Bool := c.isAlphanum || c = '_' || c = '-'

def name (gs : List Glyph) : List Char × List Glyph :=
  (chars (gs.takeWhile (isNameChar ·.char)), gs.dropWhile (isNameChar ·.char))

def anchorName? (gs : List Glyph) : Option (String × List Glyph) :=
  let (s, rest) := name gs
  let ends := atGap rest ||
    rest.head?.any fun g => ['?', ':', ',', ']', '\x7d', '%', '@', '\x60'].contains g.char
  if s.isEmpty || !ends then none else some (String.ofList s, rest)

def isTagChar (whole : Bool) (c : Char) : Bool :=
  isNameChar c ||
    [';', '/', '?', ':', '@', '&', '=', '+', '$', '.', '%', '!', '~', '*', '\'', '(',
      ')'].contains c ||
    (whole && [',', '[', ']'].contains c)

def escapedByte? : List Glyph → Option (Nat × List Glyph)
  | a :: b :: c :: rest => do
      let high ← Decimal.digitValue? b.char
      let low ← Decimal.digitValue? c.char
      if a.char = '%' then some (16 * high + low, rest) else none
  | _ => none

def moreBytes? (first : Nat) : Option Nat :=
  if first < 0x80 then some 0
  else if first < 0xc0 then none
  else if first < 0xe0 then some 1
  else if first < 0xf0 then some 2
  else if first < 0xf8 then some 3
  else none

def skipBytes? : Nat → List Glyph → Option (List Glyph)
  | 0, gs => some gs
  | n + 1, gs => do
      let (byte, rest) ← escapedByte? gs
      if 0x80 ≤ byte ∧ byte < 0xc0 then skipBytes? n rest else none

/-- A character that is written byte by byte.  No tag with a meaning has one beyond
the first 128, so that all of these may be the same. -/
def escapedChar? (gs : List Glyph) : Option (Char × List Glyph) := do
  let (first, rest) ← escapedByte? gs
  let rest ← skipBytes? (← moreBytes? first) rest
  some (if first < 0x80 then Char.ofNat first else '\ufffd', rest)

def tagText (whole : Bool) : Nat → List Glyph → Option (List Char × List Glyph)
  | 0, _ => none
  | _, [] => some ([], [])
  | fuel + 1, g :: rest =>
      if isTagChar whole g.char then do
        let (c, rest) ← if g.char = '%' then escapedChar? (g :: rest) else some (g.char, rest)
        let (s, rest) ← tagText whole fuel rest
        some (c :: s, rest)
      else some ([], g :: rest)

def tagText? (whole : Bool) (gs : List Glyph) : Option (String × List Glyph) := do
  let (s, rest) ← tagText whole (gs.length + 1) gs
  if s.isEmpty then none else some (String.ofList s, rest)

/-- A tag after its exclamation mark: a whole one in angle brackets, one with a
named handle, or one with the shortest handle.  An exclamation mark alone is a tag
of its own. -/
def tagParts? (gs : List Glyph) : Option (Token × List Glyph) :=
  match expect? '<' gs with
  | some rest => do
      let (s, rest) ← tagText? true rest
      some (.tag "" s, ← expect? '>' rest)
  | none =>
      let (s, rest) := name gs
      match expect? '!' rest with
      | some rest =>
          (tagText? false rest).map fun (t, rest) => (.tag ("!" ++ String.ofList s ++ "!") t, rest)
      | none => do
          let (t, rest) ← tagText false (rest.length + 1) rest
          let s := String.ofList (s ++ t)
          some (if s = "" then .tag "" "!" else .tag "!" s, rest)

def tag? (inFlow : Bool) (gs : List Glyph) : Option (Token × List Glyph) := do
  let (t, rest) ← tagParts? gs
  if atGap rest || (inFlow && rest.head?.any (·.char = ',')) then some (t, rest) else none

def shortNumber? (gs : List Glyph) : Option (Nat × List Glyph) :=
  let ds := chars (gs.takeWhile (·.char.isDigit))
  if ds.length ≤ 9 then (Decimal.natural? 10 ds).map (·, gs.drop ds.length) else none

def version? (gs : List Glyph) : Option (List Glyph) := do
  let (major, rest) ← shortNumber? gs
  let (minor, rest) ← shortNumber? (← expect? '.' rest)
  if major = 1 ∧ (minor = 1 ∨ minor = 2) then some rest else none

def handleName? (gs : List Glyph) : Option (String × List Glyph) := do
  let (s, rest) := name (← expect? '!' gs)
  match expect? '!' rest with
  | some rest => some ("!" ++ String.ofList s ++ "!", rest)
  | none => if s.isEmpty then some ("!", rest) else none

def handle? (gs : List Glyph) : Option (Token × List Glyph) := do
  let (handle, rest) ← handleName? gs
  if rest.head?.any (isBlank ·.char) then
    let (text, rest) ← tagText? true (skipBlanks rest)
    if atGap rest then some (.handle handle text, rest) else none
  else none

def directive? (gs : List Glyph) : Option (Token × List Glyph) := do
  let (s, rest) := name gs
  let (t, rest) ←
    if !atGap rest then none
    else if s = ['Y', 'A', 'M', 'L'] then (version? (skipBlanks rest)).map (.version, ·)
    else if s = ['T', 'A', 'G'] then handle? (skipBlanks rest)
    else none
  some (t, ← lineEnd? rest)

/-! ## Reading tokens -/

structure KeySpot where
  index : Nat
  glyph : Glyph
  required : Bool

structure Scan where
  tokens : List Token := []
  columns : List Nat := []
  keyAllowed : Bool := true
  spot : Option KeySpot := none
  /-- The spots outside the open brackets, the innermost first. -/
  outer : List (Option KeySpot) := []

namespace Scan

def inFlow (s : Scan) : Bool := !s.outer.isEmpty

def floor (s : Scan) : Nat :=
  match s.columns with
  | [] => 0
  | column :: _ => column + 1

def add (s : Scan) (t : Token) : Scan := { s with tokens := s.tokens ++ [t] }

def closeBlocks (s : Scan) (kept : Nat → Bool) : Scan :=
  if s.inFlow then s
  else
    let closed := s.columns.takeWhile (!kept ·)
    { s with
      tokens := s.tokens ++ closed.map fun _ => .closeBlock
      columns := s.columns.drop closed.length }

/-- Opens a block at a column, with its token at a place among the tokens, unless
the innermost one is as deep. -/
def openBlock (s : Scan) (t : Token) (index column : Nat) : Scan :=
  if s.inFlow || column < s.floor then s
  else
    { s with
      tokens := s.tokens.take index ++ t :: s.tokens.drop index
      columns := column :: s.columns }

def openHere (s : Scan) (t : Token) (g : Glyph) : Scan := s.openBlock t s.tokens.length g.column

def dropSpot (s : Scan) : Option Scan :=
  if s.spot.any (·.required) then none else some { s with spot := none }

def saveSpot (s : Scan) (g : Glyph) : Option Scan := do
  if s.keyAllowed then
    let s ← s.dropSpot
    let required := !s.inFlow && s.floor = g.column + 1
    some { s with spot := some ⟨s.tokens.length, g, required⟩ }
  else some s

def maxKey : Nat := 1024

def isStale (g : Glyph) (spot : KeySpot) : Bool :=
  spot.glyph.line < g.line || spot.glyph.offset + maxKey < g.offset

def dropStale (s : Scan) (g : Glyph) : Option Scan :=
  let fresh (spot : Option KeySpot) : Option KeySpot := spot.filter (!isStale g ·)
  if (s.spot :: s.outer).any fun spot => spot.any fun k => isStale g k && k.required then none
  else some { s with spot := fresh s.spot, outer := s.outer.map fresh }

def endBlocks (s : Scan) : Option Scan := do
  let s ← (s.closeBlocks fun _ => false).dropSpot
  some { s with keyAllowed := false }

def addNode (s : Scan) (g : Glyph) (t : Token) : Option Scan := do
  let s ← s.saveSpot g
  some { s.add t with keyAllowed := false }

def openFlow (s : Scan) (g : Glyph) (t : Token) : Option Scan := do
  let s ← s.saveSpot g
  some { s.add t with keyAllowed := true, spot := none, outer := s.spot :: s.outer }

def closeFlow (s : Scan) (t : Token) : Option Scan := do
  let s ← s.dropSpot
  match s.outer with
  | [] => some { s.add t with keyAllowed := false }
  | spot :: outer => some { s.add t with keyAllowed := false, spot, outer }

/-- Adds the mark of an item or of a key of any kind.  Outside brackets it belongs
to a block, and may only stand where a key may begin. -/
def addMark (s : Scan) (g : Glyph) (block t : Token) (keyAllowed : Bool) : Option Scan := do
  if !s.inFlow && !s.keyAllowed then none
  else
    let s ← (s.openHere block g).dropSpot
    some { s.add t with keyAllowed }

/-- Adds the colon after a key: the key begins at the spot, or else stands behind a
mark of its own. -/
def addColon (s : Scan) (g : Glyph) : Option Scan :=
  match s.spot with
  | some spot =>
      let tokens := s.tokens.take spot.index ++ .key :: s.tokens.drop spot.index
      let s := { s with tokens, spot := none, keyAllowed := false }
      some ((s.openBlock .openBlockMap spot.index spot.glyph.column).add .colon)
  | none =>
      if s.inFlow then some { s.add .colon with keyAllowed := false }
      else s.addMark g .openBlockMap .colon true

def addScalar (s : Scan) (g : Glyph) (style : Style) (text : List Char) : Option Scan :=
  s.addNode g (.scalar style (String.ofList text))

def startsPlain (s : Scan) (g : Glyph) (rest : List Glyph) : Bool :=
  if g.char = '-' then !rest.head?.any (isBlank ·.char)
  else if g.char = '?' || g.char = ':' then !s.inFlow && !atGap rest
  else !(isSpace g.char || isFlowMark g.char ||
    ['#', '&', '*', '!', '|', '>', '\'', '"', '%', '@', '\x60'].contains g.char)

def step (s : Scan) (g : Glyph) (rest : List Glyph) : Option (Scan × List Glyph) := do
  let s ← s.dropStale g
  let s := s.closeBlocks (· ≤ g.column)
  if g.column = 0 && g.char = '%' then
    let (t, rest) ← directive? rest
    some ((← s.endBlocks).add t, rest)
  else if isFence '-' (g :: rest) then some ((← s.endBlocks).add .documentStart, rest.drop 2)
  else if isFence '.' (g :: rest) then some ((← s.endBlocks).add .documentEnd, rest.drop 2)
  else if g.char = '[' then some (← s.openFlow g .openList, rest)
  else if g.char = '\x7b' then some (← s.openFlow g .openMap, rest)
  else if g.char = ']' then some (← s.closeFlow .closeList, rest)
  else if g.char = '\x7d' then some (← s.closeFlow .closeMap, rest)
  else if g.char = ',' then some ({ (← s.dropSpot).add .comma with keyAllowed := true }, rest)
  else if g.char = '-' && atGap rest then
    some (← s.addMark g .openBlockList .item true, rest)
  else if g.char = '?' && (s.inFlow || atGap rest) then
    some (← s.addMark g .openBlockMap .key !s.inFlow, rest)
  else if g.char = ':' && (s.inFlow || atGap rest) then some (← s.addColon g, rest)
  else if g.char = '*' then
    let (n, rest) ← anchorName? rest
    some (← s.addNode g (.reference n), rest)
  else if g.char = '&' then
    let (n, rest) ← anchorName? rest
    some (← s.addNode g (.anchor n), rest)
  else if g.char = '!' then
    let (t, rest) ← tag? s.inFlow rest
    some (← s.addNode g t, rest)
  else if (g.char = '|' || g.char = '>') && !s.inFlow then
    let folded := g.char = '>'
    let (text, rest) ← blockText folded s.floor rest
    let style := if folded then Style.folded else .literal
    let s := (← s.dropSpot).add (.scalar style (String.ofList text))
    some ({ s with keyAllowed := true }, rest)
  else if g.char = '\'' then
    let (text, rest) ← singleQuoted .empty rest
    some (← s.addScalar g .quoted text, rest)
  else if g.char = '"' then
    let (text, rest) ← doubleQuoted (.gap .empty) rest
    some (← s.addScalar g .quoted text, rest)
  else if s.startsPlain g rest then
    let (text, broken, rest) ← plainText s.inFlow s.floor .empty (g :: rest)
    some ({ ← s.addScalar g .plain text with keyAllowed := broken }, rest)
  else none

def finish (s : Scan) : Option (List Token) := s.endBlocks.map (·.tokens)

inductive Lead where
  | space
  | comment

/-- Skips to the next token, and says whether a key may begin there: outside
brackets a new line allows it.  A tab may not stand where a key may begin, and a
byte order mark may begin a line. -/
def skipToToken (inFlow : Bool) : Lead → Bool → List Glyph → Bool × List Glyph
  | _, keyAllowed, [] => (keyAllowed, [])
  | lead, keyAllowed, g :: rest =>
      if isBreak g.char then skipToToken inFlow .space (keyAllowed || !inFlow) rest
      else
        match lead with
        | .comment => skipToToken inFlow .comment keyAllowed rest
        | .space =>
            if g.char = ' ' || (g.char = '\t' && (inFlow || !keyAllowed)) ||
                (g.char = '\ufeff' && g.column = 0) then
              skipToToken inFlow .space keyAllowed rest
            else if g.char = '#' then skipToToken inFlow .comment keyAllowed rest
            else (keyAllowed, g :: rest)

def run : Nat → Scan → List Glyph → Option (List Token)
  | 0, _, _ => none
  | fuel + 1, s, gs =>
      match skipToToken s.inFlow .space s.keyAllowed gs with
      | (_, []) => s.finish
      | (keyAllowed, g :: rest) => do
          let (s, rest) ← { s with keyAllowed }.step g rest
          run fuel s rest

end Scan

def tokens? (gs : List Glyph) : Option (List Token) := Scan.run (gs.length + 1) {} gs

end DecisionSpace.Yaml
