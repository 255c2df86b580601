import Std.Time.DateTime.Timestamp
import EventSeries.CommandLine.Execution

/-
  This file is the command line: it reads the files that a
  command names, carries the command out, and prints what
  comes of it.

  Key definitions include:
    * `main`
-/

namespace EventSeries.CommandLine

/- The text of a file, if it can be read. -/
def fileText?
    (path : String) : IO (Option String) :=
  try
    some <$> IO.FS.readFile path
  catch _ =>
    return none

/- The texts of the files that are named, by their names. -/
def fileTexts
    (paths : List String) : IO (List (String × String)) := do
  let mut texts := []
  for path in paths do
    if let some text ← fileText? path then
      texts := (path, text) :: texts
  return texts

/- The present, to the second. -/
def clockTime : IO Instant := do
  let seconds ← Std.Time.Timestamp.now
  return ⟨seconds.toSecondsSinceUnixEpoch.toInt, 0⟩

/- Identifiers that follow one drawn at random. -/
def randomIds : IO IdSource := do
  let bytes ← IO.getRandomBytes 16
  let start := bytes.toList.foldl
    (fun n byte => 256 * n + byte.toNat) 0
  return { supply := fun n => Id.versionFour (start + n) }

/- The text that is typed, when no file is named. -/
def typedText
    (input : Option String) : IO String := do
  if input.isSome then
    return ""
  else
    (← IO.getStdin).readToEnd

/- Carry out a command. -/
def runInvocation
    (i : Invocation) : IO UInt32 := do
  let files ← fileTexts (i.config.toList ++ i.input.toList)
  let env : Environment := {
    file? := fun path => files.lookup path
    typed := ← typedText i.input
    clock := ← clockTime
    ids := ← randomIds }
  match i.execute env with
  | .ok printed =>
      IO.println printed.pretty
      return 0
  | .error (.outOfRange range) =>
      IO.eprintln (Failure.outOfRange range).message
      return 101
  | .error failure =>
      IO.eprintln ("Error: " ++ failure.message)
      return 1

/- Carry out what the arguments ask for. -/
def runArguments
    (args : List String) : IO UInt32 := do
  match Request.ofArguments? args with
  | some (.run i) => runInvocation i
  | some .version =>
      IO.print versionText
      return 0
  | some .help =>
      IO.print helpText
      return 0
  | none =>
      IO.eprint helpText
      return 2

end EventSeries.CommandLine

def main
    (args : List String) : IO UInt32 :=
  EventSeries.CommandLine.runArguments args
