import EventSeries.Text.Decimal

/-
  This file reads the arguments of the command line.  Options
  for all commands stand before or after the name of the
  command, and its own options after it.  A value is the next
  argument or stands behind an equals sign; an argument that
  starts with a hyphen is no value.

  Key definitions include:
    * `Command`
    * `Invocation`
    * `Request`
    * `Request.ofArguments?`
-/

namespace EventSeries.CommandLine

------------------------------------------------------------
-- Requests
------------------------------------------------------------

/- What to do with an event. -/
inductive Command where
  | series
      (count : Nat)
      (includePast : Bool)
      (horizon : Option String)
  | refresh
      (count : Option Nat)
      (horizon : Option String)
  | clone
      (occurrence : String)
  | describe
  deriving DecidableEq, Repr

/- A command, the file it reads, and the global options. -/
structure Invocation where
  command : Command
  input : Option String
  config : Option String
  timezone : Option String
  now : Option String
  deriving DecidableEq, Repr

/- What the arguments ask for. -/
inductive Request where
  | run (invocation : Invocation)
  | version
  | help
  deriving DecidableEq, Repr

------------------------------------------------------------
-- Options
------------------------------------------------------------

/- The names of commands. -/
inductive CommandName where
  | series
  | refresh
  | clone
  | describe
  deriving DecidableEq, Repr

/- The command of a name. -/
def CommandName.ofText? : String → Option CommandName
  | "series" => some .series
  | "refresh" => some .refresh
  | "clone" => some .clone
  | "describe" => some .describe
  | _ => none

/- All options. -/
inductive OptionName where
  | config
  | timezone
  | now
  | input
  | count
  | includePast
  | horizon
  | occurrence
  | version
  | help
  deriving DecidableEq, Repr

namespace OptionName

/- The option of a name. -/
def ofText? : String → Option OptionName
  | "config" => some config
  | "timezone" => some timezone
  | "now" => some now
  | "input" => some input
  | "count" => some count
  | "include-past" => some includePast
  | "horizon" => some horizon
  | "occurrence" => some occurrence
  | "version" => some version
  | "help" => some help
  | _ => none

/- The option of a letter. -/
def ofLetter? : Char → Option OptionName
  | 'i' => some input
  | 'V' => some version
  | 'h' => some help
  | _ => none

/- Options with a value. -/
def takesValue : OptionName → Bool
  | includePast | version | help => false
  | _ => true

/- Options that may stand before or behind a command's name. -/
def isAllowed :
    Option CommandName → OptionName → Bool
  | _, config | _, timezone | _, now | _, help => true
  | none, version => true
  | some _, input => true
  | some .series, count => true
  | some .series, includePast => true
  | some .series, horizon => true
  | some .refresh, count => true
  | some .refresh, horizon => true
  | some .clone, occurrence => true
  | _, _ => false

end OptionName

/- The options that were given, with their values. -/
abbrev GivenOptions :=
  List (OptionName × String)

/- A count: digits, with a plus sign in front or without. -/
def readCount?
    (s : String) : Option Nat :=
  let row :=
    match s.toList with
    | '+' :: row => row
    | row => row
  if row.isEmpty || !row.all Char.isDigit then
    none
  else if valueOfDigits row < UInt64.size then
    some (valueOfDigits row)
  else
    none

/- The value of an option has the form that it must have. -/
def isValue :
    OptionName → String → Bool
  | .count, value => (readCount? value).isSome
  | _, _ => true

/- The options with one more, which must not be repeated. -/
def addOption?
    (given : GivenOptions)
    (name : OptionName)
    (value : String) : Option GivenOptions :=
  if (given.lookup name).isSome || !isValue name value then
    none
  else
    some ((name, value) :: given)

------------------------------------------------------------
-- Scanning
------------------------------------------------------------

/- How one argument reads. -/
inductive Argument where
  | separator
  | option (name : OptionName) (attached : Option String)
  | unknownOption
  | word (text : String)
  deriving DecidableEq, Repr

/- A text up to an equals sign, and what stands behind it. -/
def splitAtEquals :
    List Char → List Char × Option (List Char)
  | [] => ([], none)
  | '=' :: rest => ([], some rest)
  | c :: rest =>
      let (before, behind) := splitAtEquals rest
      (c :: before, behind)

/- An option by its name, behind two hyphens. -/
def longOption
    (cs : List Char) : Argument :=
  let (name, attached) := splitAtEquals cs
  match OptionName.ofText? (String.ofList name) with
  | some name => .option name (attached.map String.ofList)
  | none => .unknownOption

/- A value behind a letter, with an equals sign or without. -/
def attachedToLetter : List Char → Option String
  | [] => none
  | '=' :: value => some (String.ofList value)
  | value => some (String.ofList value)

/- An option by its letter, behind one hyphen. -/
def shortOption
    (letter : Char)
    (rest : List Char) : Argument :=
  match OptionName.ofLetter? letter with
  | some name =>
      if name.takesValue then
        .option name (attachedToLetter rest)
      else
        .option name none
  | none => .unknownOption

/- The reading of one argument. -/
def Argument.ofText
    (s : String) : Argument :=
  match s.toList with
  | ['-', '-'] => .separator
  | '-' :: '-' :: cs => longOption cs
  | '-' :: letter :: rest => shortOption letter rest
  | _ => .word s

/- An argument that can be the value of the one before it. -/
def isLooseValue
    (s : String) : Bool :=
  match s.toList with
  | '-' :: _ :: _ => false
  | _ => true

/- What a stretch of arguments comes to. -/
inductive Stretch where
  | finished (given : GivenOptions)
  | word (given : GivenOptions) (text : String)
      (rest : List String)
  | version
  | help
  deriving DecidableEq, Repr

/-
  The options up to the first word, where `command` is the
  command whose name stands before them.
-/
def scanStretch?
    (command : Option CommandName) :
    GivenOptions → List String → Option Stretch
  | given, [] => some (.finished given)
  | given, s :: rest =>
      match Argument.ofText s with
      | .separator =>
          if rest.isEmpty then some (.finished given) else none
      | .unknownOption => none
      | .word text => some (.word given text rest)
      | .option name attached =>
          if !name.isAllowed command then
            none
          else if name.takesValue then
            match attached, rest with
            | some value, rest =>
                (addOption? given name value).bind
                  (scanStretch? command · rest)
            | none, value :: rest =>
                if isLooseValue value then
                  (addOption? given name value).bind
                    (scanStretch? command · rest)
                else
                  none
            | none, [] => none
          else if attached.isSome then
            none
          else
            match name with
            | .version => some .version
            | .help => some .help
            | name =>
                (addOption? given name "").bind
                  (scanStretch? command · rest)

------------------------------------------------------------
-- Reading All Arguments
------------------------------------------------------------

/- The command of a name with its options. -/
def commandOf?
    (given : GivenOptions) :
    CommandName → Option Command
  | .series =>
      some (.series
        (((given.lookup .count).bind readCount?).getD 6)
        (given.lookup .includePast).isSome
        (given.lookup .horizon))
  | .refresh =>
      some (.refresh ((given.lookup .count).bind readCount?)
        (given.lookup .horizon))
  | .clone => (given.lookup .occurrence).map .clone
  | .describe => some .describe

/-
  The invocation of a command.  An option that stands both
  before and behind its name has the value behind it.
-/
def invocationOf?
    (outer inner : GivenOptions)
    (name : CommandName) : Option Invocation := do
  let given := inner ++ outer
  return {
    command := ← commandOf? given name
    input := given.lookup .input
    config := given.lookup .config
    timezone := given.lookup .timezone
    now := given.lookup .now }

/- A request for help about commands that there are. -/
def helpOn? : List String → Option Request
  | [] => some .help
  | [name] =>
      if name = "help" ∨ (CommandName.ofText? name).isSome then
        some .help
      else
        none
  | _ => none

/- The arguments behind the name of a command. -/
def requestOf?
    (outer : GivenOptions)
    (name : CommandName)
    (rest : List String) : Option Request :=
  match scanStretch? (some name) [] rest with
  | some (.finished inner) =>
      (invocationOf? outer inner name).map .run
  | some .help => some .help
  | some .version => some .version
  | _ => none

/- What the arguments ask for, unless they are in error. -/
def Request.ofArguments?
    (args : List String) : Option Request :=
  match scanStretch? none [] args with
  | some .version => some .version
  | some .help => some .help
  | some (.word _ "help" rest) =>
      helpOn? rest
  | some (.word outer text rest) =>
      (CommandName.ofText? text).bind (requestOf? outer · rest)
  | _ => none

end EventSeries.CommandLine
