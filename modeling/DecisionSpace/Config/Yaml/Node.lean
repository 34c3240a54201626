import DecisionSpace.Config.Yaml.Token

/-! # Nodes of a YAML document

A node is a scalar, a list, a map or a reference to another node.  Composing reads
the tokens of a text with a single document.  An anchor gets the number of names of
anchors in front of it, and a reference stands for the last node of the number that
its name has, so that anchors with a repeated name can hide others. -/
set_option autoImplicit false
namespace DecisionSpace.Yaml

inductive Node where
  | reference (number : Nat)
  | scalar (tag : Option String) (style : Style) (text : String)
  | list (tag : Option String) (items : List Node)
  | map (tag : Option String) (entries : List (Node × Node))
  deriving Inhabited

structure Tree where
  root : Option Node
  targets : List (Nat × Node)
  /-- Number of scalars and references, and of both ends of lists and maps. -/
  size : Nat

structure Progress where
  tokens : List Token
  handles : List (String × String) := []
  numbers : List (String × Nat) := []
  anchors : List Nat := []
  finished : List (Nat × Node) := []
  size : Nat := 0

def Progress.targets (p : Progress) : List (Nat × Node) :=
  (p.anchors.zipIdx.filterMap fun (number, position) =>
    (p.finished.lookup position).map (number, ·)).reverse

abbrev Compose := StateT Progress Option

namespace Compose

def peek : Compose (Option Token) := return (← get).tokens.head?

def skip : Compose Unit := modify fun p => { p with tokens := p.tokens.drop 1 }

def isAt (ts : List Token) : Compose Bool := return (← peek).any ts.contains

def expect (t : Token) : Compose Unit := do
  if ← isAt [t] then skip else failure

def count (n : Nat) : Compose Unit := modify fun p => { p with size := p.size + n }

/-! ## Tags and anchors -/

def defaultHandles : List (String × String) := [("!", "!"), ("!!", "tag:yaml.org,2002:")]

def fullTag (handle suffix : String) : Compose String := do
  if handle = "" then return suffix
  match ((← get).handles ++ defaultHandles).lookup handle with
  | some text => return text ++ suffix
  | none => failure

def anchor? : Compose (Option String) := do
  match ← peek with
  | some (.anchor name) =>
      skip
      return some name
  | _ => return none

def tag? : Compose (Option String) := do
  match ← peek with
  | some (.tag handle suffix) =>
      skip
      return some (← fullTag handle suffix)
  | _ => return none

def properties : Compose (Option String × Option String) := do
  match ← anchor? with
  | some name => return (some name, ← tag?)
  | none =>
      let tag ← tag?
      return (← anchor?, tag)

def enter (name : String) : Compose Nat := do
  let p ← get
  let number := p.numbers.length
  let others := p.numbers.filter (·.1 ≠ name)
  set { p with numbers := (name, number) :: others, anchors := p.anchors ++ [number] }
  return p.anchors.length

def anchored (name : Option String) (read : Compose Node) : Compose Node := do
  match name with
  | none => read
  | some name => do
      let position ← enter name
      let node ← read
      modify fun p => { p with finished := (position, node) :: p.finished }
      return node

def reference (name : String) : Compose Node := do
  match (← get).numbers.lookup name with
  | some number =>
      skip
      count 1
      return .reference number
  | none => failure

/-! ## Nodes -/

def blank (tag : Option String) : Compose Node := do
  count 1
  return .scalar tag .plain ""

def unlessAt (ts : List Token) (read : Compose Node) : Compose Node := do
  if ← isAt ts then blank none else read

def opened {α : Type} (read : Compose α) : Compose α := do
  skip
  count 2
  read

mutual

/-- A node; where `loose`, a list without an indentation of its own may begin.  The
fuel bounds the number of steps. -/
def node (loose : Bool) : Nat → Compose Node
  | 0 => failure
  | fuel + 1 => do
      match ← peek with
      | some (.reference name) => reference name
      | _ => do
          let (name, tag) ← properties
          anchored name (content loose (name.isSome || tag.isSome) tag fuel)

def content (loose marked : Bool) (tag : Option String) : Nat → Compose Node
  | 0 => failure
  | fuel + 1 => do
      match ← peek, loose with
      | some (.scalar style text), _ => do
          skip
          count 1
          return .scalar tag style text
      | some .openList, _ => return .list tag (← opened (flowItems true fuel))
      | some .openMap, _ => return .map tag (← opened (flowEntries true fuel))
      | some .openBlockList, _ => return .list tag (← opened (blockItems fuel))
      | some .openBlockMap, _ => return .map tag (← opened (blockEntries fuel))
      | some .item, true => do
          count 2
          return .list tag (← looseItems fuel)
      | _, _ => if marked then blank tag else failure

def blockItems : Nat → Compose (List Node)
  | 0 => failure
  | fuel + 1 => do
      if ← isAt [.item] then
        skip
        let d ← unlessAt [.item, .closeBlock] (node false fuel)
        return d :: (← blockItems fuel)
      else
        expect .closeBlock
        return []

/-- A list that is as deep as the key in front of it, and so has no end of its own. -/
def looseItems : Nat → Compose (List Node)
  | 0 => failure
  | fuel + 1 => do
      if ← isAt [.item] then
        skip
        let d ← unlessAt [.item, .key, .colon, .closeBlock] (node false fuel)
        return d :: (← looseItems fuel)
      else return []

def blockEntries : Nat → Compose (List (Node × Node))
  | 0 => failure
  | fuel + 1 => do
      if ← isAt [.key] then
        skip
        let k ← unlessAt [.key, .colon, .closeBlock] (node true fuel)
        let d ←
          if ← isAt [.colon] then
            skip
            unlessAt [.key, .colon, .closeBlock] (node true fuel)
          else blank none
        return (k, d) :: (← blockEntries fuel)
      else
        expect .closeBlock
        return []

def flowValue (close : Token) : Nat → Compose Node
  | 0 => failure
  | fuel + 1 => do
      if ← isAt [.colon] then
        skip
        unlessAt [.comma, close] (node false fuel)
      else blank none

/-- The rest of a list in brackets; an entry in it is a map of its own.  A blank key
takes up the token after it. -/
def flowItems (first : Bool) : Nat → Compose (List Node)
  | 0 => failure
  | fuel + 1 => do
      if !first && !(← isAt [.closeList]) then expect .comma
      if ← isAt [.closeList] then
        skip
        return []
      else if ← isAt [.key] then
        skip
        count 2
        let k ←
          if ← isAt [.colon, .comma, .closeList] then
            skip
            blank none
          else node false fuel
        let d ← flowValue .closeList fuel
        return .map none [(k, d)] :: (← flowItems false fuel)
      else
        let d ← node false fuel
        return d :: (← flowItems false fuel)

def flowEntries (first : Bool) : Nat → Compose (List (Node × Node))
  | 0 => failure
  | fuel + 1 => do
      if !first && !(← isAt [.closeMap]) then expect .comma
      if ← isAt [.closeMap] then
        skip
        return []
      else if ← isAt [.key] then
        skip
        let k ← unlessAt [.colon, .comma, .closeMap] (node false fuel)
        let d ← flowValue .closeMap fuel
        return (k, d) :: (← flowEntries false fuel)
      else
        let k ← node false fuel
        let d ← blank none
        return (k, d) :: (← flowEntries false fuel)

end

/-! ## Documents -/

def isDirective : Token → Bool
  | .version | .handle .. => true
  | _ => false

def handle? : Token → Option (String × String)
  | .handle name text => some (name, text)
  | _ => none

def directives : Compose Unit := do
  let p ← get
  let found := p.tokens.takeWhile isDirective
  let handles := found.filterMap handle?
  let names := handles.map (·.1)
  if 1 < found.count .version || names.eraseDups ≠ names then failure
  set { p with tokens := p.tokens.drop found.length, handles }

def marked (fuel : Nat) : Compose Node := do
  directives
  expect .documentStart
  if (← peek).isNone then blank none else unlessAt [.documentEnd] (node false fuel)

def document (fuel : Nat) : Compose Node := do
  let root ←
    if (← peek).any fun t => isDirective t || t = .documentStart then marked fuel
    else node false fuel
  modify fun p => { p with tokens := p.tokens.dropWhile (· = .documentEnd) }
  if (← peek).isSome then failure
  return root

end Compose

def tree? (s : String) : Option Tree := do
  let tokens ← tokens? (← glyphs? s)
  if tokens.isEmpty then some ⟨none, [], 1⟩
  else
    let (root, p) ← (Compose.document (3 * tokens.length + 3)).run { tokens }
    some ⟨some root, p.targets, p.size⟩

end DecisionSpace.Yaml
