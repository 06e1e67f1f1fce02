/-
# JSON values — what the cache writes

`Value` is the data of a JSON text with integers as its only numbers, which is
all that the cache ever writes.  `Value.chars` is its compact text: no spaces,
members in their given order, and only those characters escaped that a string
cannot hold raw.
-/
import MessageCache.Text.Hex

namespace MessageCache.Json

/-- A JSON value with integers as its numbers. -/
inductive Value where
  | null
  | bool (b : Bool)
  | integer (n : Int)
  | text (s : String)
  | array (items : List Value)
  | object (members : List (String × Value))

/-- A character inside a string. -/
def escapedChar (c : Char) : List Char :=
  match c with
  | '\"' => ['\\', '\"']
  | '\\' => ['\\', '\\']
  | '\x08' => ['\\', 'b']
  | '\x0c' => ['\\', 'f']
  | '\n' => ['\\', 'n']
  | '\r' => ['\\', 'r']
  | '\t' => ['\\', 't']
  | c =>
    if c.toNat < 0x20 then
      ['\\', 'u', '0', '0', Text.hexDigit (c.toNat / 16), Text.hexDigit (c.toNat % 16)]
    else [c]

/-- A string with its quotation marks. -/
def stringChars (s : String) : List Char :=
  '\"' :: (s.toList.flatMap escapedChar ++ ['\"'])

/-- An integer in decimal. -/
def integerChars : Int → List Char
  | .ofNat n => Nat.toDigits 10 n
  | .negSucc n => '-' :: Nat.toDigits 10 (n + 1)

mutual

/-- The compact text of a value. -/
def Value.chars : Value → List Char
  | .null => ['n', 'u', 'l', 'l']
  | .bool true => ['t', 'r', 'u', 'e']
  | .bool false => ['f', 'a', 'l', 's', 'e']
  | .integer n => integerChars n
  | .text s => stringChars s
  | .array [] => ['[', ']']
  | .array (v :: vs) => '[' :: (v.chars ++ itemsChars vs)
  | .object [] => ['{', '}']
  | .object ((k, v) :: ms) => '{' :: (stringChars k ++ ':' :: (v.chars ++ membersChars ms))

/-- The further items of an array, each after a comma, and the closing bracket. -/
def itemsChars : List Value → List Char
  | [] => [']']
  | v :: vs => ',' :: (v.chars ++ itemsChars vs)

/-- The further members of an object, each after a comma, and the closing brace. -/
def membersChars : List (String × Value) → List Char
  | [] => ['}']
  | (k, v) :: ms => ',' :: (stringChars k ++ ':' :: (v.chars ++ membersChars ms))

end

/-- The compact text of a value. -/
def Value.print (v : Value) : String := String.ofList v.chars

/-- A value that may be missing, written as null. -/
def Value.optional (f : α → Value) : Option α → Value
  | some a => f a
  | none => .null

/-- A list of texts. -/
def Value.texts (l : List String) : Value := .array (l.map .text)

end MessageCache.Json
