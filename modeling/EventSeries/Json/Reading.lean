import EventSeries.Identifier
import EventSeries.Json.Value

/-
  This file reads JSON texts.  The grammar is the strict one:
  no comments, no commas behind the last item, no zeros in
  front of a number, and nothing behind the value but blanks.

  A reading takes a piece off the front of a text and returns
  it with the rest of the text.

  Key definitions include:
    * `Json.number?`
    * `Json.stringBody?`
    * `Json.value?`
    * `Json.ofChars?`
    * `Json.ofText?`
-/

namespace EventSeries.Json

/- The four blanks of JSON. -/
def isSpace
    (c : Char) : Bool :=
  c == ' ' || c == '\n' || c == '\r' || c == '\t'

/- A text without its leading blanks. -/
def skipSpace
    (cs : List Char) : List Char :=
  cs.dropWhile isSpace

------------------------------------------------------------
-- Numbers
------------------------------------------------------------

/- The whole part of a number: 0, or digits that start higher. -/
def wholePart? :
    List Char → Option (List Char × List Char)
  | '0' :: rest => some (['0'], rest)
  | cs =>
      let row := cs.takeWhile Char.isDigit
      if row.isEmpty then
        none
      else
        some (row, cs.drop row.length)

/- A row of one digit or more. -/
def digitRow?
    (cs : List Char) : Option (List Char × List Char) :=
  let row := cs.takeWhile Char.isDigit
  if row.isEmpty then
    none
  else
    some (row, cs.drop row.length)

/- The fraction of a number, which may be absent. -/
def fractionPart? :
    List Char → Option (List Char × List Char)
  | '.' :: rest =>
      (digitRow? rest).map fun (row, rest) =>
        ('.' :: row, rest)
  | cs => some ([], cs)

/- The sign of an exponent, which may be absent. -/
def exponentSign : List Char → List Char × List Char
  | '+' :: rest => (['+'], rest)
  | '-' :: rest => (['-'], rest)
  | cs => ([], cs)

/- The exponent of a number, which may be absent. -/
def exponentPart? :
    List Char → Option (List Char × List Char)
  | c :: rest =>
      if c = 'e' ∨ c = 'E' then
        let (sign, rest) := exponentSign rest
        (digitRow? rest).map fun (row, rest) =>
          (c :: sign ++ row, rest)
      else
        some ([], c :: rest)
  | [] => some ([], [])

/- The value of a number, from its sign and its parts. -/
def numberOf
    (negative : Bool)
    (whole tail : List Char) : Json :=
  let sign := if negative then ['-'] else []
  if tail.isEmpty && !(negative && whole == ['0']) then
    .integer (if negative then -(valueOfDigits whole : Int)
      else valueOfDigits whole)
  else
    .decimal (sign ++ whole ++ tail)

/- A number behind its sign. -/
def unsignedNumber?
    (negative : Bool)
    (cs : List Char) : Option (Json × List Char) := do
  let (whole, cs) ← wholePart? cs
  let (fraction, cs) ← fractionPart? cs
  let (exponent, cs) ← exponentPart? cs
  return (numberOf negative whole (fraction ++ exponent), cs)

/- A number. -/
def number? : List Char → Option (Json × List Char)
  | '-' :: rest => unsignedNumber? true rest
  | cs => unsignedNumber? false cs

------------------------------------------------------------
-- Strings
------------------------------------------------------------

/- The number of four hexadecimal digits. -/
def hexUnit? : List Char → Option (Nat × List Char)
  | a :: b :: c :: d :: rest =>
      (valueOfHexDigits? [a, b, c, d]).map (·, rest)
  | _ => none

/- The first and the second half of a surrogate pair. -/
def isHighSurrogate
    (n : Nat) : Bool :=
  0xD800 ≤ n && n ≤ 0xDBFF

def isLowSurrogate
    (n : Nat) : Bool :=
  0xDC00 ≤ n && n ≤ 0xDFFF

/- The character of a surrogate pair. -/
def ofSurrogates
    (high low : Nat) : Char :=
  Char.ofNat
    (0x10000 + (high - 0xD800) * 0x400 + (low - 0xDC00))

/-
  The character of an escape behind its `u`.  Half of a pair
  that stands alone has no character.
-/
def unicodeEscape?
    (cs : List Char) : Option (Option Char × List Char) := do
  let (unit, rest) ← hexUnit? cs
  if isHighSurrogate unit then
    match rest with
    | '\\' :: 'u' :: after =>
        let (low, rest) ← hexUnit? after
        if isLowSurrogate low then
          return (some (ofSurrogates unit low), rest)
        else
          return (none, '\\' :: 'u' :: after)
    | _ => return (none, rest)
  else if isLowSurrogate unit then
    return (none, rest)
  else
    return (some (Char.ofNat unit), rest)

/- The character of an escape behind its backslash. -/
def escape? :
    List Char → Option (Option Char × List Char)
  | '\"' :: rest => some (some '\"', rest)
  | '\\' :: rest => some (some '\\', rest)
  | '/' :: rest => some (some '/', rest)
  | 'b' :: rest => some (some '\x08', rest)
  | 'f' :: rest => some (some '\x0c', rest)
  | 'n' :: rest => some (some '\n', rest)
  | 'r' :: rest => some (some '\r', rest)
  | 't' :: rest => some (some '\t', rest)
  | 'u' :: rest => unicodeEscape? rest
  | _ => none

/-
  The inside of a string up to its closing quote, or nothing
  in its place when it is no text.  The first argument bounds
  the number of characters.
-/
def stringBody? :
    Nat → List Char →
      Option (Option (List Char) × List Char)
  | 0, _ => none
  | _ + 1, [] => none
  | fuel + 1, c :: rest =>
      if c = '\"' then
        some (some [], rest)
      else if c = '\\' then do
        let (first, rest) ← escape? rest
        let (others, rest) ← stringBody? fuel rest
        return (first.bind fun d => others.map (d :: ·), rest)
      else if c.toNat < 32 then
        none
      else do
        let (others, rest) ← stringBody? fuel rest
        return (others.map (c :: ·), rest)

/- The value of a string behind its opening quote. -/
def stringValue?
    (cs : List Char) : Option (Json × List Char) := do
  let (body, rest) ← stringBody? (cs.length + 1) cs
  match body with
  | some body => return (.text (String.ofList body), rest)
  | none => return (.broken, rest)

/-
  A key and the colon behind it, or nothing in place of the
  key when it is no text.
-/
def key? :
    List Char → Option (Option String × List Char)
  | '\"' :: rest => do
      let (body, rest) ← stringBody? (rest.length + 1) rest
      match skipSpace rest with
      | ':' :: rest => return (body.map String.ofList, rest)
      | _ => none
  | _ => none

/- A member in front of others, if all of the keys are texts. -/
def consMember?
    (key : Option String)
    (value : Json)
    (members : Option (List (String × Json))) :
    Option (List (String × Json)) := do
  return (← key, value) :: (← members)

/- The object of some members, if their keys are texts. -/
def ofMembers :
    Option (List (String × Json)) → Json
  | some members => .object members
  | none => .broken

------------------------------------------------------------
-- Values
------------------------------------------------------------

/- The names of JSON and their values. -/
def name? : List Char → Option (Json × List Char)
  | 'n' :: 'u' :: 'l' :: 'l' :: rest => some (.null, rest)
  | 't' :: 'r' :: 'u' :: 'e' :: rest =>
      some (.bool true, rest)
  | 'f' :: 'a' :: 'l' :: 's' :: 'e' :: rest =>
      some (.bool false, rest)
  | _ => none

mutual

/- A value behind blanks; the first argument bounds the work. -/
def value? :
    Nat → List Char → Option (Json × List Char)
  | 0, _ => none
  | fuel + 1, cs =>
      match skipSpace cs with
      | '\"' :: rest => stringValue? rest
      | '[' :: rest =>
          match skipSpace rest with
          | ']' :: rest => some (.array [], rest)
          | rest => (items? fuel rest).map fun (items, rest) =>
              (.array items, rest)
      | '\x7b' :: rest =>
          match skipSpace rest with
          | '\x7d' :: rest => some (.object [], rest)
          | rest =>
              (members? fuel rest).map fun (members, rest) =>
                (ofMembers members, rest)
      | cs => (name? cs).or (number? cs)

/- Items, the commas between them, and the closing bracket. -/
def items? :
    Nat → List Char → Option (List Json × List Char)
  | 0, _ => none
  | fuel + 1, cs => do
      let (item, rest) ← value? fuel cs
      match skipSpace rest with
      | ',' :: rest =>
          let (items, rest) ← items? fuel rest
          return (item :: items, rest)
      | ']' :: rest => return ([item], rest)
      | _ => none

/-
  Members, the commas between them, and the closing brace, or
  nothing in place of the members when a key is no text.
-/
def members? :
    Nat → List Char →
      Option (Option (List (String × Json)) × List Char)
  | 0, _ => none
  | fuel + 1, cs => do
      let (key, rest) ← key? (skipSpace cs)
      let (value, rest) ← value? fuel rest
      match skipSpace rest with
      | ',' :: rest =>
          let (members, rest) ← members? fuel rest
          return (consMember? key value members, rest)
      | '\x7d' :: rest =>
          return (consMember? key value (some []), rest)
      | _ => none

end

/- The value that a text writes. -/
def ofChars?
    (cs : List Char) : Option Json := do
  let (value, rest) ← value? (2 * cs.length + 1) cs
  if (skipSpace rest).isEmpty then return value else none

/- The value that a string writes. -/
def ofText?
    (s : String) : Option Json :=
  ofChars? s.toList

end EventSeries.Json
