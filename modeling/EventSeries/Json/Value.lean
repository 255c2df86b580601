import EventSeries.Text.Decimal

/-
  This file defines JSON values and writes them.  An integer
  is a number without fraction and exponent; every other
  number, negative zero included, is kept as it was written.
  A string that holds half of a surrogate pair is valid JSON
  but no text, and an object with such a key is no record;
  both are kept apart as broken.  An object keeps its members
  in order, and may have a key twice.

  Key definitions include:
    * `Json`
    * `Json.compactOnto`
    * `Json.compact`
    * `Json.prettyOnto`
    * `Json.pretty`
-/

namespace EventSeries

/- A JSON value. -/
inductive Json where
  | null
  | bool (b : Bool)
  | integer (n : Int)
  | decimal (literal : List Char)
  | text (s : String)
  | broken
  | array (items : List Json)
  | object (members : List (String × Json))
  deriving Repr

namespace Json

------------------------------------------------------------
-- Strings
------------------------------------------------------------

/- The character of a hexadecimal digit of an escape. -/
def escapeDigit
    (n : Nat) : Char :=
  if n < 10 then digitChar n else Char.ofNat (n - 10 + 97)

/- A control character by its number. -/
def numberedEscape
    (c : Char) : List Char :=
  ['\\', 'u', '0', '0', escapeDigit (c.toNat / 16),
    escapeDigit (c.toNat % 16)]

/- A character as it stands inside a string. -/
def escaped
    (c : Char) : List Char :=
  if c = '\"' then ['\\', '\"']
  else if c = '\\' then ['\\', '\\']
  else if c = '\n' then ['\\', 'n']
  else if c = '\r' then ['\\', 'r']
  else if c = '\t' then ['\\', 't']
  else if c.toNat = 8 then ['\\', 'b']
  else if c.toNat = 12 then ['\\', 'f']
  else if c.toNat < 32 then numberedEscape c
  else [c]

/- The inside of a string and its closing quote. -/
def stringBodyOnto :
    List Char → List Char → List Char
  | [], rest => '\"' :: rest
  | c :: cs, rest => escaped c ++ stringBodyOnto cs rest

/- A string in quotes, in front of what follows it. -/
def stringOnto
    (s : String)
    (rest : List Char) : List Char :=
  '\"' :: stringBodyOnto s.toList rest

------------------------------------------------------------
-- Compact Form
------------------------------------------------------------

/- The name of a truth value. -/
def boolChars : Bool → List Char
  | true => ['t', 'r', 'u', 'e']
  | false => ['f', 'a', 'l', 's', 'e']

/- The name of the null value. -/
def nullChars : List Char :=
  ['n', 'u', 'l', 'l']

/- What cannot be read is written as an empty string. -/
def brokenChars : List Char :=
  ['\"', '\"']

mutual

/- A value without blanks, in front of what follows it. -/
def compactOnto : Json → List Char → List Char
  | .null, rest => nullChars ++ rest
  | .bool b, rest => boolChars b ++ rest
  | .integer n, rest => signedDigits n ++ rest
  | .decimal literal, rest => literal ++ rest
  | .text s, rest => stringOnto s rest
  | .broken, rest => brokenChars ++ rest
  | .array [], rest => '[' :: ']' :: rest
  | .array (item :: items), rest =>
      '[' :: compactOnto item (compactItemsOnto items rest)
  | .object [], rest => '\x7b' :: '\x7d' :: rest
  | .object ((key, value) :: members), rest =>
      '\x7b' :: stringOnto key
        (':' :: compactOnto value
          (compactMembersOnto members rest))

/- The items behind the first, and the end of the array. -/
def compactItemsOnto : List Json → List Char → List Char
  | [], rest => ']' :: rest
  | item :: items, rest =>
      ',' :: compactOnto item (compactItemsOnto items rest)

/- The members behind the first, and the end of the object. -/
def compactMembersOnto :
    List (String × Json) → List Char → List Char
  | [], rest => '\x7d' :: rest
  | (key, value) :: members, rest =>
      ',' :: stringOnto key
        (':' :: compactOnto value
          (compactMembersOnto members rest))

end

/- A value as a string without blanks. -/
def compact
    (j : Json) : String :=
  String.ofList (compactOnto j [])

------------------------------------------------------------
-- Indented Form
------------------------------------------------------------

/- A new line, indented by two blanks for each level. -/
def newLineOnto
    (level : Nat)
    (rest : List Char) : List Char :=
  '\n' :: (List.replicate (2 * level) ' ' ++ rest)

mutual

/- A value with one item a line, at an indentation level. -/
def prettyOnto
    (level : Nat) :
    Json → List Char → List Char
  | .null, rest => nullChars ++ rest
  | .bool b, rest => boolChars b ++ rest
  | .integer n, rest => signedDigits n ++ rest
  | .decimal literal, rest => literal ++ rest
  | .text s, rest => stringOnto s rest
  | .broken, rest => brokenChars ++ rest
  | .array [], rest => '[' :: ']' :: rest
  | .array (item :: items), rest =>
      '[' :: newLineOnto (level + 1)
        (prettyOnto (level + 1) item
          (prettyItemsOnto level items rest))
  | .object [], rest => '\x7b' :: '\x7d' :: rest
  | .object ((key, value) :: members), rest =>
      '\x7b' :: newLineOnto (level + 1)
        (stringOnto key
          (':' :: ' ' :: prettyOnto (level + 1) value
            (prettyMembersOnto level members rest)))

/- The items behind the first, and the end of the array. -/
def prettyItemsOnto
    (level : Nat) :
    List Json → List Char → List Char
  | [], rest => newLineOnto level (']' :: rest)
  | item :: items, rest =>
      ',' :: newLineOnto (level + 1)
        (prettyOnto (level + 1) item
          (prettyItemsOnto level items rest))

/- The members behind the first, and the end of the object. -/
def prettyMembersOnto
    (level : Nat) :
    List (String × Json) → List Char → List Char
  | [], rest => newLineOnto level ('\x7d' :: rest)
  | (key, value) :: members, rest =>
      ',' :: newLineOnto (level + 1)
        (stringOnto key
          (':' :: ' ' :: prettyOnto (level + 1) value
            (prettyMembersOnto level members rest)))

end

/- A value as a string of indented lines. -/
def pretty
    (j : Json) : String :=
  String.ofList (prettyOnto 0 j [])

end Json

end EventSeries
