import Stagecraft.Decimal
import Stagecraft.Json.Basic

/-!
# Writing JSON

Values are written in two styles: compact, without any blank, and indented by two spaces, a
member to a line. A number that is not finite has no text and is written as `null`.
-/

namespace Stagecraft.Json

variable {K : Type}

def hexChar (n : Nat) : Char :=
  if n < 10 then Char.ofNat (48 + n) else Char.ofNat (87 + n)

/-- A character between quotes: quotes, backslashes and control characters are escaped. -/
def escape (c : Char) : List Char :=
  if c = '"' then ['\\', '"']
  else if c = '\\' then ['\\', '\\']
  else if ' ' ≤ c then [c]
  else if c = '\x08' then ['\\', 'b']
  else if c = '\x0c' then ['\\', 'f']
  else if c = '\n' then ['\\', 'n']
  else if c = '\r' then ['\\', 'r']
  else if c = '\t' then ['\\', 't']
  else ['\\', 'u', '0', '0', hexChar (c.toNat / 16), hexChar (c.toNat % 16)]

def quote (s : String) : List Char :=
  '"' :: s.toList.flatMap escape ++ ['"']

def writeInt (i : Int) : List Char :=
  Decimal.signChars (decide (i < 0)) ++ Decimal.digitChars i.natAbs

def writeNumber [Numeral K] : Number K → List Char
  | .int i => writeInt i
  | .real x =>
    match Numeral.shortest .even x with
    | .finite d => d.literal
    | _ => "null".toList

inductive Style where
  | compact
  | indented

/-- What stands before an item at a level of nesting. -/
def Style.gap : Style → Nat → List Char
  | .compact, _ => []
  | .indented, level => '\n' :: List.replicate (2 * level) ' '

def Style.colon : Style → List Char
  | .compact => [':']
  | .indented => [':', ' ']

mutual

def write [Numeral K] (style : Style) (level : Nat) : Json K → List Char
  | .null => "null".toList
  | .bool true => "true".toList
  | .bool false => "false".toList
  | .num n => writeNumber n
  | .str s => quote s
  | .arr [] => ['[', ']']
  | .arr (v :: rest) =>
    '[' :: style.gap (level + 1) ++ write style (level + 1) v ++
      writeItems style (level + 1) rest ++ style.gap level ++ [']']
  | .obj [] => ['\x7b', '\x7d']
  | .obj ((name, v) :: rest) =>
    '\x7b' :: style.gap (level + 1) ++ quote name ++ style.colon ++ write style (level + 1) v ++
      writeMembers style (level + 1) rest ++ style.gap level ++ ['\x7d']

def writeItems [Numeral K] (style : Style) (level : Nat) : List (Json K) → List Char
  | [] => []
  | v :: rest => ',' :: style.gap level ++ write style level v ++ writeItems style level rest

def writeMembers [Numeral K] (style : Style) (level : Nat) : List (String × Json K) → List Char
  | [] => []
  | (name, v) :: rest =>
    ',' :: style.gap level ++ quote name ++ style.colon ++ write style level v ++
      writeMembers style level rest

end

def render [Numeral K] (style : Style) (v : Json K) : String :=
  String.ofList (write style 0 v)

def compact [Numeral K] (v : Json K) : String :=
  v.render .compact

def indented [Numeral K] (v : Json K) : String :=
  v.render .indented

end Stagecraft.Json
