import DecisionSpace.Declaration

/-! # Example declarations

Small models, each with one trait that a search has to cope with. -/
set_option autoImplicit false
namespace DecisionSpace.Examples

private def ints (values : List Int) : List Value := values.map fun i => .int (Int64.ofInt i)

private def texts (values : List String) : List Value := values.map .text

def tour (name : String) : Declaration where
  name := name
  vars :=
    [("boolean variable", .boolean),
      ("wrapper around constant", .constant (.int 10)),
      ("only one of", .nominal (ints [1, 2, 3, 4, 5])),
      ("any number of", .optionalMultiple (texts ["a", "b", "c"]))]
  limits := [⟨1, ["boolean variable", "any number of"]⟩]
  children := [{ name := "Child model", vars := [("Child model variable", .boolean)] }]

def takenUp : Declaration where
  name := "Root"
  vars := [("b", .boolean), ("n", .nominal (ints [1, 2, 3, 4, 5]))]
  limits := [⟨1, ["b", "n"]⟩]

def exclusive (count limit : Nat) : Declaration :=
  let names := (List.range count).map fun i => "x" ++ toString i
  { name := "Root"
    vars := names.map fun name => (name, .boolean)
    limits := [⟨limit, names⟩] }

/-- Two variables that are always selected, where one may be. -/
def overfull : Declaration where
  name := "Root"
  vars :=
    [("k", .constant (.int 1)), ("n", .nominal (texts ["a", "b"])), ("free", .boolean)]
  limits := [⟨1, ["k", "n", "free"]⟩]

def overfullModel : Model where
  serial := 0
  scopes := [⟨"Root", "", none, [], 0, 3, 3⟩]
  vars :=
    [⟨0, "k", "k", .constant (.int 1)⟩, ⟨0, "n", "n", .nominal (texts ["a", "b"])⟩,
      ⟨0, "free", "free", .boolean⟩]
  constraints := [⟨0, 1, [0, 1, 2]⟩]

/-- A choice that may be the truth value `false`, where nothing may be
selected. -/
def falseChoice : Declaration where
  name := "Root"
  vars := [("n", .nominal [.bool false, .bool true])]
  limits := [⟨0, ["n"]⟩]

def falseChoiceModel : Model where
  serial := 0
  scopes := [⟨"Root", "", none, [], 0, 1, 1⟩]
  vars := [⟨0, "n", "n", .nominal [.bool false, .bool true]⟩]
  constraints := [⟨0, 0, [0]⟩]

/-- Three scopes deep, with repeated local names and a constraint in each
scope. -/
def nested : Declaration where
  name := "Root"
  vars :=
    [("flag", .boolean), ("tags", .multiSelect (texts ["red", "green", "blue"]) 0 2)]
  limits := [⟨1, ["/flag", "tags", "Inner/flag"]⟩]
  children :=
    [{ name := "Inner"
       vars :=
         [("flag", .boolean), ("other", .boolean), ("size", .nominal (texts ["s", "m", "l"]))]
       limits := [⟨1, ["flag", "other"]⟩]
       children :=
         [{ name := "Leaf"
            vars := [("a", .boolean), ("b", .boolean), ("c", .boolean)]
            limits := [⟨1, ["a", "b", "c"]⟩] }] }]

def nestedModel : Model where
  serial := 0
  scopes :=
    [⟨"Root", "", none, [1], 0, 2, 8⟩, ⟨"Inner", "Inner", some 0, [2], 2, 3, 6⟩,
      ⟨"Leaf", "Inner/Leaf", some 1, [], 5, 3, 3⟩]
  vars :=
    [⟨0, "flag", "flag", .boolean⟩,
      ⟨0, "tags", "tags", .multiSelect (texts ["red", "green", "blue"]) 0 2⟩,
      ⟨1, "flag", "Inner/flag", .boolean⟩, ⟨1, "other", "Inner/other", .boolean⟩,
      ⟨1, "size", "Inner/size", .nominal (texts ["s", "m", "l"])⟩,
      ⟨2, "a", "Inner/Leaf/a", .boolean⟩, ⟨2, "b", "Inner/Leaf/b", .boolean⟩,
      ⟨2, "c", "Inner/Leaf/c", .boolean⟩]
  constraints := [⟨0, 1, [0, 1, 2]⟩, ⟨1, 1, [2, 3]⟩, ⟨2, 1, [5, 6, 7]⟩]

def namesakes : Declaration where
  name := "Root"
  children :=
    [{ name := "Child"
       vars := [("flag", .boolean)]
       children := [{ name := "Grand", vars := [("flag", .boolean), ("leaf", .boolean)] }] }]

def namesakesModel : Model where
  serial := 0
  scopes :=
    [⟨"Root", "", none, [1], 0, 0, 3⟩, ⟨"Child", "Child", some 0, [2], 0, 1, 3⟩,
      ⟨"Grand", "Child/Grand", some 1, [], 1, 2, 2⟩]
  vars :=
    [⟨1, "flag", "Child/flag", .boolean⟩, ⟨2, "flag", "Child/Grand/flag", .boolean⟩,
      ⟨2, "leaf", "Child/Grand/leaf", .boolean⟩]
  constraints := []

/-- Sibling scopes of which one has a name that begins like that of the other, which is also the
name of a variable. -/
def siblings : Declaration where
  name := "Root"
  vars := [("A", .boolean)]
  children :=
    [{ name := "A"
       vars := [("x", .boolean)]
       children := [{ name := "Ä", vars := [("x", .boolean)] }] },
      { name := "AB", vars := [("x", .boolean)] }]

def siblingsModel : Model where
  serial := 0
  scopes :=
    [⟨"Root", "", none, [1, 3], 0, 1, 4⟩, ⟨"A", "A", some 0, [2], 1, 1, 2⟩,
      ⟨"Ä", "A/Ä", some 1, [], 2, 1, 1⟩, ⟨"AB", "AB", some 0, [], 3, 1, 1⟩]
  vars :=
    [⟨0, "A", "A", .boolean⟩, ⟨1, "x", "A/x", .boolean⟩, ⟨2, "x", "A/Ä/x", .boolean⟩,
      ⟨3, "x", "AB/x", .boolean⟩]
  constraints := []

/-- Two constraints that share a variable: one on a selection that may not be
empty, one with a constant in it. -/
def overlapping : Declaration where
  name := "Root"
  vars :=
    [("a", .boolean), ("b", .boolean), ("tags", .multiSelect (texts ["x", "y", "z"]) 1 2),
      ("k", .constant (.int 1))]
  limits := [⟨2, ["a", "b", "tags"]⟩, ⟨1, ["a", "k"]⟩]

def overlappingModel : Model where
  serial := 0
  scopes := [⟨"Root", "", none, [], 0, 4, 4⟩]
  vars :=
    [⟨0, "a", "a", .boolean⟩, ⟨0, "b", "b", .boolean⟩,
      ⟨0, "tags", "tags", .multiSelect (texts ["x", "y", "z"]) 1 2⟩,
      ⟨0, "k", "k", .constant (.int 1)⟩]
  constraints := [⟨0, 2, [0, 1, 2]⟩, ⟨0, 1, [0, 3]⟩]

def apart : Declaration where
  name := "Root"
  vars :=
    [("a", .boolean), ("b", .boolean), ("n", .nominal (ints [1, 2])), ("c", .boolean),
      ("d", .boolean), ("e", .boolean)]
  limits := [⟨3, ["c", "n", "b", "a"]⟩, ⟨1, ["e", "d"]⟩]

def apartModel : Model where
  serial := 0
  scopes := [⟨"Root", "", none, [], 0, 6, 6⟩]
  vars :=
    [⟨0, "a", "a", .boolean⟩, ⟨0, "b", "b", .boolean⟩, ⟨0, "n", "n", .nominal (ints [1, 2])⟩,
      ⟨0, "c", "c", .boolean⟩, ⟨0, "d", "d", .boolean⟩, ⟨0, "e", "e", .boolean⟩]
  constraints := [⟨0, 3, [3, 2, 1, 0]⟩, ⟨0, 1, [5, 4]⟩]

end DecisionSpace.Examples
