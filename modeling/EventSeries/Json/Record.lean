import EventSeries.Identifier
import EventSeries.Json.Value
import EventSeries.Text.Timestamp
import EventSeries.Text.TimestampReading

/-
  This file reads records and their fields from JSON.  A
  record is an object, in which each known key stands at most
  once and other keys are passed over, or an array of the
  fields in their order, whose end may be missing.  Records
  without an identifier draw a fresh one while they are read.

  Key definitions include:
    * `Reading`
    * `Slot`
    * `Record`
    * `Record.read`
    * `Record.required`
    * `Record.withDefault`
    * `Record.nullable`
    * `Record.stated`
    * `readNullOr`
    * `readList`
    * `readName`
-/

namespace EventSeries

/- A reading that may fail, and may draw identifiers. -/
abbrev Reading :=
  StateT IdSource Option

------------------------------------------------------------
-- Scalars
------------------------------------------------------------

/- The value of an option, or failure. -/
def Reading.require
    {α : Type} :
    Option α → Reading α
  | some a => return a
  | none => failure

/- A text. -/
def readText : Json → Reading String
  | .text s => return s
  | _ => failure

/- A truth value. -/
def readBool : Json → Reading Bool
  | .bool b => return b
  | _ => failure

/- A whole number between two bounds. -/
def readInt
    (low high : Int) :
    Json → Reading Int
  | .integer n =>
      if low ≤ n ∧ n ≤ high then return n else failure
  | _ => failure

/- A natural number below a power of two. -/
def readNat
    (width : Nat)
    (j : Json) : Reading Nat := do
  return (← readInt 0 (1 <<< width - 1) j).toNat

/- A parameter of a rule. -/
def readByte
    (j : Json) : Reading UInt8 := do
  return UInt8.ofNat (← readNat 8 j)

/- An instant, in the relaxed form. -/
def readInstant : Json → Reading Instant
  | .text s => Reading.require (Instant.ofText? s)
  | _ => failure

/- A wall time. -/
def readLocalTime : Json → Reading LocalTime
  | .text s => Reading.require (LocalTime.ofText? s)
  | _ => failure

/- A time of day. -/
def readClockTime : Json → Reading ClockTime
  | .text s => Reading.require (ClockTime.ofText? s)
  | _ => failure

/- An identifier. -/
def readId : Json → Reading Id
  | .text s => Reading.require (Id.ofText? s)
  | _ => failure

/- A fresh identifier. -/
def freshId : Reading Id :=
  modifyGet IdSource.draw

/-
  One of some names: as a text, or as the key of an object
  with the value null.
-/
def readName
    {α : Type}
    (names : List (String × α)) :
    Json → Reading α
  | .text s => Reading.require (names.lookup s)
  | .object [(s, .null)] => Reading.require (names.lookup s)
  | _ => failure

/- Null, or a value. -/
def readNullOr
    {α : Type}
    (read : Json → Reading α) :
    Json → Reading (Option α)
  | .null => return none
  | j => some <$> read j

/- An array of values. -/
def readList
    {α : Type}
    (read : Json → Reading α) :
    Json → Reading (List α)
  | .array items => items.mapM read
  | _ => failure

------------------------------------------------------------
-- Records
------------------------------------------------------------

/-
  What stands in the place of a field: a value, nothing, or
  the end of an array that stops before the field.
-/
inductive Slot where
  | given (value : Json)
  | absent
  | cutOff

/- The fields of a record by name. -/
structure Record where
  slots : List (String × Slot)

namespace Record

/- The slot of a key among the members of an object. -/
def slotOfMembers
    (members : List (String × Json))
    (name : String) : Slot :=
  match members.lookup name with
  | some value => .given value
  | none => .absent

/- A key that stands at most once. -/
def isUnambiguous
    (members : List (String × Json))
    (name : String) : Bool :=
  (members.filter (·.1 == name)).length ≤ 1

/- The record of an object. -/
def ofMembers?
    (names : List String)
    (members : List (String × Json)) : Option Record :=
  if names.all (isUnambiguous members) then
    some ⟨names.map fun name =>
      (name, slotOfMembers members name)⟩
  else
    none

/- The record of an array. -/
def ofItems? :
    List String → List Json → Option Record
  | names, [] => some ⟨names.map (·, Slot.cutOff)⟩
  | [], _ :: _ => none
  | name :: names, item :: items => do
      let later ← ofItems? names items
      return ⟨(name, .given item) :: later.slots⟩

/- The record of a value, with fields of the given names. -/
def read
    (names : List String) :
    Json → Reading Record
  | .object members =>
      Reading.require (ofMembers? names members)
  | .array items => Reading.require (ofItems? names items)
  | _ => failure

/- The slot of a field. -/
def slot
    (r : Record)
    (name : String) : Slot :=
  (r.slots.lookup name).getD .absent

variable {α : Type}

/- A field that must be there. -/
def required
    (r : Record)
    (name : String)
    (read : Json → Reading α) : Reading α :=
  match r.slot name with
  | .given value => read value
  | _ => failure

/- A field that is computed when it is not there. -/
def orElse
    (r : Record)
    (name : String)
    (instead : Reading α)
    (read : Json → Reading α) : Reading α :=
  match r.slot name with
  | .given value => read value
  | _ => instead

/- A field with a default value. -/
def withDefault
    (r : Record)
    (name : String)
    (default : α)
    (read : Json → Reading α) : Reading α :=
  r.orElse name (return default) read

/- A field that may be null or not there. -/
def nullable
    (r : Record)
    (name : String)
    (read : Json → Reading α) : Reading (Option α) :=
  r.withDefault name none (readNullOr read)

/- As `nullable`, for an array that reaches to the field. -/
def stated
    (r : Record)
    (name : String)
    (read : Json → Reading α) : Reading (Option α) :=
  match r.slot name with
  | .given value => readNullOr read value
  | .absent => return none
  | .cutOff => failure

end Record

------------------------------------------------------------
-- Writing
------------------------------------------------------------

namespace Json

/- A natural number. -/
def ofNat
    (n : Nat) : Json :=
  .integer n

/- A value, or null. -/
def ofOption
    {α : Type}
    (write : α → Json) :
    Option α → Json
  | some a => write a
  | none => .null

/- An array of values. -/
def ofList
    {α : Type}
    (write : α → Json)
    (as : List α) : Json :=
  .array (as.map write)

/- An instant. -/
def ofInstant
    (t : Instant) : Json :=
  .text t.text

/- An identifier. -/
def ofId
    (id : Id) : Json :=
  .text id.text

/- A parameter of a rule. -/
def ofByte
    (n : UInt8) : Json :=
  .ofNat n.toNat

end Json

end EventSeries
