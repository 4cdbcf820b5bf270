import PiFire.Control.Json

/-!
# The settings tree in memory

In memory the settings are cJSON items. An item has a kind with its value and
a list of children, each under a name or none; the kind does not say whether
there are children, so a child put into a number is kept and found again, and
only printing leaves it out. The characters of a text stand for its bytes.
-/

namespace PiFire.Settings

/-- What an item is, with the value it carries. -/
inductive Kind where
  | null
  | bool (value : Bool)
  | num (value : ℚ)
  | str (text : String)
  | arr
  | obj
  deriving DecidableEq

/-- A cJSON item. -/
inductive Item where
  | node (kind : Kind) (child : List (Option String × Item))

/-- An item with the name it has in its parent. -/
abbrev Child := Option String × Item

namespace Item

def kind : Item → Kind
  | node kind _ => kind

def child : Item → List Child
  | node _ child => child

@[simp] theorem kind_node (k : Kind) (children : List Child) : (node k children).kind = k := rfl

@[simp] theorem child_node (k : Kind) (children : List Child) :
    (node k children).child = children := rfl

/-- A number without children. -/
def number (x : ℚ) : Item := node (.num x) []

/-- A text without children. -/
def text (s : String) : Item := node (.str s) []

/-- A truth value without children. -/
def truth (b : Bool) : Item := node (.bool b) []

def array (items : List Item) : Item := node .arr (items.map fun item => (none, item))

def object (members : List (String × Item)) : Item :=
  node .obj (members.map fun entry => (some entry.1, entry.2))

/-- The items directly inside, in order. -/
def children (item : Item) : List Item := item.child.map Prod.snd

end Item

/-- The first child with exactly this name; a child without a name ends the
search. -/
def findExact (name : String) : List Child → Option Item
  | (some other, item) :: rest => if other = name then some item else findExact name rest
  | _ => none

/-- The first child with this name in any case. -/
def findAnyCase (name : String) : List Child → Option Item
  | [] => none
  | (some other, item) :: rest =>
      if strcasecmp name other then some item else findAnyCase name rest
  | (none, _) :: rest => findAnyCase name rest

/-- The whole number a path token spells, as an int: blanks, a sign, digits and
nothing after them. -/
def strtolIndex (token : String) : Option ℤ :=
  let text := token.toList.dropWhile Char.isWhitespace
  let negative := text.head? == some '-'
  let digits := if negative ∨ text.head? == some '+' then text.tail else text
  if digits.isEmpty ∨ ¬digits.all Char.isDigit then none
  else
    let size := (decimalValue digits).num
    let value := max (-2 ^ 63) (min (2 ^ 63 - 1) (if negative then -size else size))
    some ((value + 2 ^ 31) % 2 ^ 32 - 2 ^ 31)

namespace Item

/-- A child by exact name. -/
def getItem? (name : String) (item : Item) : Option Item := findExact name item.child

/-- A child by name in any case. -/
def getAnyCase? (name : String) (item : Item) : Option Item := findAnyCase name item.child

/-- A child by position. -/
def arrayItem? (index : ℤ) (item : Item) : Option Item :=
  if index < 0 then none else (item.child[index.toNat]?).map Prod.snd

/-- One step of a path: an array is entered by a position, anything else by an
exact name. -/
def enter? (token : String) (item : Item) : Option Item :=
  match item.kind with
  | .arr => (strtolIndex token).bind item.arrayItem?
  | _ => item.getItem? token

/-- The item at a path. -/
def path? : Item → List String → Option Item
  | root, [] => some root
  | root, token :: rest => (root.enter? token).bind fun item => path? item rest

@[simp] theorem path?_nil (root : Item) : root.path? [] = some root := rfl

theorem path?_cons (root : Item) (token : String) (rest : List String) :
    root.path? (token :: rest) = (root.enter? token).bind fun item => item.path? rest := rfl

theorem path?_append (root : Item) (front back : List String) :
    root.path? (front ++ back) = (root.path? front).bind fun item => item.path? back := by
  induction front generalizing root with
  | nil => rfl
  | cons token rest ih =>
      rw [List.cons_append, path?_cons, path?_cons, Option.bind_assoc]
      congr 1
      funext item
      exact ih item

/-- The number an item counts as: a truth value is zero or one, and a text is
read for the number at its start. -/
def asNum? (item : Item) : Option ℚ :=
  match item.kind with
  | .num x => some x
  | .bool b => some (if b then 1 else 0)
  | .str s => strtod s
  | _ => none

/-- The number at a path, if one is there. -/
def num? (root : Item) (path : List String) : Option ℚ := (root.path? path).bind asNum?

/-- The number at a path. -/
def num (root : Item) (path : List String) (dflt : ℚ) : ℚ := (root.num? path).getD dflt

/-- The number at a path, as an int. -/
def int (root : Item) (path : List String) (dflt : ℤ) : ℤ := truncate (root.num path dflt)

/-- The text an item is. -/
def asText? (item : Item) : Option String :=
  match item.kind with
  | .str s => some s
  | _ => none

/-- The text at a path. -/
def str (root : Item) (path : List String) (dflt : String) : String :=
  ((root.path? path).bind asText?).getD dflt

/-- The truth value at a path; an empty text is no value at all. -/
def bool (root : Item) (path : List String) (dflt : Bool) : Bool :=
  match (root.path? path).map kind with
  | some (.bool b) => b
  | some (.num x) => x ≠ 0
  | some (.str s) =>
      if s = "" then dflt else strcasecmp s "true" || s == "1" || strcasecmp s "yes"
  | _ => dflt

end Item

/-- The parts of a dotted path; what does not fit the path buffer is cut off
and empty parts are passed over. -/
def pathTokens (path : String) : List String :=
  ((((path.toList.take 255).splitOn '.').filter fun part => !part.isEmpty)).map String.ofList

example : pathTokens "safety..maxtemp" = ["safety", "maxtemp"] := by decide

end PiFire.Settings
