/-! # Characters of a YAML document

A glyph is a character together with the place where it stands, since much
depends on lines and columns.  Line breaks are made alike before the places are
counted, so that three kinds of them are left. -/
set_option autoImplicit false
namespace DecisionSpace.Yaml

structure Glyph where
  char : Char
  line : Nat
  column : Nat
  offset : Nat
  deriving Inhabited

def isBlank (c : Char) : Bool := c = ' ' || c = '\t'

def isBreak (c : Char) : Bool := c = '\n' || c = '\u2028' || c = '\u2029'

def isSpace (c : Char) : Bool := isBlank c || isBreak c

def isPrintable (c : Char) : Bool :=
  ['\t', '\n', '\r', '\u0085'].contains c || (' ' ≤ c && c ≤ '~') ||
    ('\u00a0' ≤ c && c ≠ '\ufffe' && c ≠ '\uffff')

/-- Writes one line feed for each carriage return, with or without a line feed,
and for each next-line character. -/
def unifyBreaks : List Char → List Char
  | [] => []
  | '\r' :: '\n' :: rest => '\n' :: unifyBreaks rest
  | c :: rest => (if c = '\r' || c = '\u0085' then '\n' else c) :: unifyBreaks rest

def placed (line column offset : Nat) : List Char → List Glyph
  | [] => []
  | c :: rest =>
      ⟨c, line, column, offset⟩ ::
        (if isBreak c then placed (line + 1) 0 (offset + c.utf8Size) rest
        else placed line (column + 1) (offset + c.utf8Size) rest)

/-- The glyphs of a text, unless a character may not occur.  A byte order mark in
front is a glyph like any other, so that it takes up a column. -/
def glyphs? (s : String) : Option (List Glyph) :=
  let cs := s.toList
  if cs.all isPrintable then some (placed 0 0 0 (unifyBreaks cs)) else none

def atGap : List Glyph → Bool
  | [] => true
  | g :: _ => isSpace g.char

/-- Whether a line begins with three times the same character and then a gap. -/
def isFence (mark : Char) : List Glyph → Bool
  | a :: b :: c :: rest =>
      a.column = 0 && [a, b, c].all (·.char = mark) && atGap rest
  | _ => false

def atFence (gs : List Glyph) : Bool := isFence '-' gs || isFence '.' gs

def chars (gs : List Glyph) : List Char := gs.map (·.char)

def skipBlanks (gs : List Glyph) : List Glyph := gs.dropWhile (isBlank ·.char)

def skipLine (gs : List Glyph) : List Glyph := gs.dropWhile (!isBreak ·.char)

def lineEnd? (gs : List Glyph) : Option (List Glyph) :=
  let gs :=
    match skipBlanks gs with
    | g :: rest => if g.char = '#' then skipLine rest else g :: rest
    | [] => []
  match gs with
  | [] => some []
  | g :: rest => if isBreak g.char then some rest else none

def expect? (c : Char) : List Glyph → Option (List Glyph)
  | g :: rest => if g.char = c then some rest else none
  | [] => none

end DecisionSpace.Yaml
