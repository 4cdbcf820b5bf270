import PiFire.Control.Common

/-!
# JSON trees

The settings, the saved snapshots and a recipe step's ending are JSON trees.
This file models the readers the source uses on them: a member looked up by a
path of exact names, and a value read with a default when it is missing or of
another kind.
-/

namespace PiFire

/-- A parsed JSON value. The members of an object keep their order; a name
given twice is read at its first place. -/
inductive Json where
  | null
  | bool (value : Bool)
  | num (value : ℚ)
  | str (value : String)
  | arr (items : List Json)
  | obj (members : List (String × Json))

/-- The value of a run of decimal digits. -/
def decimalValue (digits : List Char) : ℚ :=
  digits.foldl (fun value d => 10 * value + (d.toNat - '0'.toNat : ℕ)) 0

/-- The exponent after a decimal mantissa: zero unless digits follow it. -/
def decimalExponent : List Char → ℤ
  | e :: rest =>
      if e = 'e' ∨ e = 'E' then
        let negative := rest.head? == some '-'
        let unsigned := if negative ∨ rest.head? == some '+' then rest.tail else rest
        let value := (decimalValue (unsigned.takeWhile Char.isDigit)).num
        if negative then -value else value
      else 0
  | [] => 0

/-- The number at the start of a text, if one is there: blanks, a sign, digits
with a point, an exponent. The spellings of infinities, NaN and hexadecimal
numbers are not read. -/
def strtod (s : String) : Option ℚ :=
  let text := s.toList.dropWhile Char.isWhitespace
  let negative := text.head? == some '-'
  let unsigned := if negative ∨ text.head? == some '+' then text.tail else text
  let whole := unsigned.takeWhile Char.isDigit
  let afterWhole := unsigned.dropWhile Char.isDigit
  let hasPoint := afterWhole.head? == some '.'
  let fraction := if hasPoint then afterWhole.tail.takeWhile Char.isDigit else []
  let afterFraction := if hasPoint then afterWhole.tail.dropWhile Char.isDigit else afterWhole
  if whole.isEmpty ∧ fraction.isEmpty then none
  else
    let mantissa := decimalValue (whole ++ fraction) / 10 ^ fraction.length
    let value := mantissa * (10 : ℚ) ^ decimalExponent afterFraction
    some (if negative then -value else value)

/-- An object's member with exactly this name. -/
def Json.member? (name : String) : Json → Option Json
  | .obj members => members.lookup name
  | _ => none

/-- An object's member with this name in any case. -/
def Json.memberAnyCase? (name : String) : Json → Option Json
  | .obj members => (members.find? fun entry => strcasecmp name entry.1).map Prod.snd
  | _ => none

/-- The values directly inside an array or an object, in order. -/
def Json.children : Json → List Json
  | .arr items => items
  | .obj members => members.map Prod.snd
  | _ => []

/-- One step of a path: an array is entered by a decimal index, an object by
an exact name. -/
def Json.enter? (token : String) : Json → Option Json
  | .arr items =>
      if token.toList.all Char.isDigit then items[(decimalValue token.toList).num.toNat]? else none
  | other => other.member? token

/-- The value at a path. -/
def jsonPath : Json → List String → Option Json
  | root, [] => some root
  | root, token :: rest => (root.enter? token).bind fun child => jsonPath child rest

/-- The number at a path, if one is there; a truth value counts as zero or one,
and a text is read for the number at its start. -/
def jsonNum? (root : Json) (path : List String) : Option ℚ :=
  match jsonPath root path with
  | some (.num x) => some x
  | some (.bool b) => some (if b then 1 else 0)
  | some (.str s) => strtod s
  | _ => none

/-- The number at a path. -/
def jsonNum (root : Json) (path : List String) (dflt : ℚ) : ℚ :=
  (jsonNum? root path).getD dflt

/-- The number at a path, as an int. -/
def jsonInt (root : Json) (path : List String) (dflt : ℤ) : ℤ :=
  truncate (jsonNum root path dflt)

/-- The truth value at a path; an empty text is no value at all. -/
def jsonBool (root : Json) (path : List String) (dflt : Bool) : Bool :=
  match jsonPath root path with
  | some (.bool b) => b
  | some (.num x) => x ≠ 0
  | some (.str s) =>
      if s = "" then dflt else strcasecmp s "true" || s == "1" || strcasecmp s "yes"
  | _ => dflt

/-- The text at a path. -/
def jsonStr (root : Json) (path : List String) (dflt : String) : String :=
  match jsonPath root path with
  | some (.str s) => s
  | _ => dflt

/-- The integer cJSON keeps beside a value. -/
def Json.valueInt : Json → ℤ
  | .num x => clampInt (truncate x)
  | .bool b => if b then 1 else 0
  | _ => 0
where
  /-- Saturation to the range of an int. -/
  clampInt (n : ℤ) : ℤ := max (-2147483648) (min 2147483647 n)

end PiFire
