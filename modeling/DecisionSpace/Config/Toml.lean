import DecisionSpace.Config.Toml.Scalar

/-! # TOML documents

A document is a sequence of headers and of keys with values.  Reading works on
the characters that are left; a step that fails refuses the whole document.
Tables know how they came about, since a table may not be defined twice and one
that was made by a dotted key may not be reopened by a header. -/
set_option autoImplicit false
namespace DecisionSpace.Toml

def skipComment : List Char → List Char
  | '#' :: rest => rest.dropWhile isText
  | cs => cs

def lineEnd? (cs : List Char) : Option (List Char) :=
  match skipComment (skipBlanks cs) with
  | [] => some []
  | rest => newline? rest

def skipLines : Nat → List Char → List Char
  | 0, cs => cs
  | fuel + 1, cs =>
      match skipBlanks cs with
      | [] => []
      | c :: rest =>
          match lineEnd? (c :: rest) with
          | some after => skipLines fuel after
          | none => c :: rest

def isKeyChar (c : Char) : Bool := c.isAlphanum || c = '-' || c = '_'

def keyPart (cs : List Char) : Option (String × List Char) :=
  match cs with
  | '"' :: _ | '\'' :: _ => (short? cs).map fun (s, rest) => (String.ofList s, rest)
  | _ =>
      let s := cs.takeWhile isKeyChar
      if s.isEmpty then none else some (String.ofList s, cs.dropWhile isKeyChar)

def keyUpTo : Nat → List Char → Option (List String × List Char)
  | 0, _ => none
  | limit + 1, cs => do
      let (part, rest) ← keyPart (skipBlanks cs)
      match skipBlanks rest with
      | '.' :: rest =>
          let (parts, rest) ← keyUpTo limit rest
          some (part :: parts, rest)
      | rest => some ([part], rest)

def maxDepth : Nat := 79

def key (cs : List Char) : Option (List String × List Char) := keyUpTo maxDepth cs

inductive Node where
  | leaf (d : Document)
  /-- `implicit` tables were only named on the way to another; `dotted` ones
  were made by a key with points. -/
  | table (implicit dotted : Bool) (entries : List (String × Node))
  | array (tables : List Node)
  deriving Inhabited

def Node.root : Node := .table false false []

mutual

def Node.toDocument : Node → Document
  | .leaf d => d
  | .table _ _ entries => .map (entryDocuments entries)
  | .array tables => .list (tableDocuments tables)

def entryDocuments : List (String × Node) → List (Document × Document)
  | [] => []
  | (k, node) :: rest => (.text k, node.toDocument) :: entryDocuments rest

def tableDocuments : List Node → List Document
  | [] => []
  | node :: rest => node.toDocument :: tableDocuments rest

end

def putEntry (k : String) (node : Node) (entries : List (String × Node)) : List (String × Node) :=
  if entries.any (·.1 = k) then entries.map fun e => if e.1 = k then (k, node) else e
  else entries ++ [(k, node)]

/-- Changes the table at the end of a path; tables that are missing on the way
are made.  A key with points only goes through tables that are not defined by a
header. -/
def descend (dotted : Bool) (f : Node → Option Node) : List String → Node → Option Node
  | [], node => f node
  | k :: path, .table implicit isDotted entries => do
      let child ←
        match entries.lookup k with
        | none => descend dotted f path (.table true dotted [])
        | some (.table i d es) =>
            if dotted && !i then none else descend dotted f path (.table i d es)
        | some (.array tables) => do
            let last ← tables.getLast?
            let last ← descend dotted f path last
            some (.array (tables.dropLast ++ [last]))
        | some (.leaf _) => none
      some (.table implicit isDotted (putEntry k child entries))
  | _ :: _, _ => none

/-- Adds a new entry; a key with points adds to tables made by such keys only. -/
def addEntry (viaPoints : Bool) (k : String) (node : Node) : Node → Option Node
  | .table implicit isDotted entries =>
      if viaPoints != isDotted || entries.any (·.1 = k) then none
      else some (.table implicit isDotted (entries ++ [(k, node)]))
  | _ => none

def addValue (parts : List String) (d : Document) (table : Node) : Option Node := do
  let k ← parts.getLast?
  descend true (addEntry (1 < parts.length) k (.leaf d)) parts.dropLast table

/-- Opens the table of a header: a new one, or one that was only named so
far. -/
def openTable (k : String) : Node → Option Node
  | .table implicit isDotted entries =>
      match entries.lookup k with
      | none => some (.table implicit isDotted (entries ++ [(k, .table false false [])]))
      | some (.table true false es) =>
          some (.table implicit isDotted (putEntry k (.table false false es) entries))
      | some _ => none
  | _ => none

def openElement (k : String) : Node → Option Node
  | .table implicit isDotted entries =>
      match entries.lookup k with
      | none => some (.table implicit isDotted (entries ++ [(k, .array [.root])]))
      | some (.array tables) =>
          some (.table implicit isDotted (putEntry k (.array (tables ++ [.root])) entries))
      | some _ => none
  | _ => none

mutual

/-- A value that lies `depth` levels below the deepest; the fuel bounds the number
of steps. -/
def value : Nat → Nat → List Char → Option (Document × List Char)
  | 0, _, _ => none
  | fuel + 1, depth, cs =>
      match cs, depth with
      | '[' :: _, 0 | '\x7b' :: _, 0 => none
      | '[' :: rest, depth + 1 =>
          (elements fuel depth rest).map fun (items, rest) => (.list items, rest)
      | '\x7b' :: rest, depth + 1 =>
          match skipBlanks rest with
          | '\x7d' :: rest => some (.map [], rest)
          | rest =>
              (members fuel depth .root rest).map fun (table, rest) => (table.toDocument, rest)
      | _, _ => scalar? cs

def elements : Nat → Nat → List Char → Option (List Document × List Char)
  | 0, _, _ => none
  | fuel + 1, depth, cs =>
      match skipLines cs.length cs with
      | ']' :: rest => some ([], rest)
      | cs => do
          let (d, rest) ← value fuel depth cs
          match skipLines rest.length rest with
          | ',' :: rest =>
              let (items, rest) ← elements fuel depth rest
              some (d :: items, rest)
          | ']' :: rest => some ([d], rest)
          | _ => none

def members : Nat → Nat → Node → List Char → Option (Node × List Char)
  | 0, _, _, _ => none
  | fuel + 1, depth, table, cs => do
      let (parts, rest) ← key cs
      match rest with
      | '=' :: rest =>
          let (d, rest) ← value fuel depth (skipBlanks rest)
          let table ← addValue parts d table
          match skipBlanks rest with
          | ',' :: rest => members fuel depth table rest
          | '\x7d' :: rest => some (table, rest)
          | _ => none
      | _ => none

end

structure Draft where
  table : Node := .root
  path : List String := []

def header (cs : List Char) : Option (List String × List Char) := do
  let (parts, rest) ← key cs
  match rest with
  | ']' :: rest => some (parts, rest)
  | _ => none

def statement (draft : Draft) : List Char → Option (Draft × List Char)
  | '[' :: '[' :: rest => do
      let (parts, rest) ← header rest
      match rest with
      | ']' :: rest =>
          let k ← parts.getLast?
          let table ← descend false (openElement k) parts.dropLast draft.table
          some (⟨table, parts⟩, rest)
      | _ => none
  | '[' :: rest => do
      let (parts, rest) ← header rest
      let k ← parts.getLast?
      let table ← descend false (openTable k) parts.dropLast draft.table
      some (⟨table, parts⟩, rest)
  | cs => do
      let (parts, rest) ← key cs
      match rest with
      | '=' :: rest =>
          let (d, rest) ← value (cs.length + 1) maxDepth (skipBlanks rest)
          let table ← descend false (addValue parts d) draft.path draft.table
          some (⟨table, draft.path⟩, rest)
      | _ => none

def statements : Nat → Draft → List Char → Option Draft
  | 0, _, _ => none
  | fuel + 1, draft, cs =>
      match skipLines cs.length cs with
      | [] => some draft
      | cs => do
          let (draft, rest) ← statement draft cs
          let rest ← lineEnd? rest
          statements fuel draft rest

/-- Reads a document, if it is well formed.  A byte order mark may stand in
front. -/
def read? (s : String) : Option Document :=
  let cs :=
    match s.toList with
    | '\ufeff' :: cs => cs
    | cs => cs
  (statements (cs.length + 1) {} cs).map fun draft => draft.table.toDocument

end DecisionSpace.Toml
