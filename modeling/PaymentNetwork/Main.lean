import PaymentNetwork.CommandLine.Command

/-!
# The Program

Reads a command line and carries out the command, with the files and the random
bytes of the machine.

## Main definitions

* `main`: The program.
-/

open PaymentNetwork

/-- The text of a file, if it can be read. -/
def readFile? (path : String) : IO (Option String) := do
  try
    return some (← IO.FS.readFile path)
  catch _ => return none

/-- A secret of random bytes. -/
def randomSecret : IO Secret := do
  let bytes ← IO.getRandomBytes 32
  match FixedBytes.ofBytes 32 bytes.toList with
  | .ok secret => return secret
  | .error _ => throw (IO.userError "no random bytes")

/-- Is there something at a path? -/
def isPresent (path : String) : IO Bool := do
  try
    let _ ← IO.FS.Handle.mk path .read
    return true
  catch _ => return false

/-- The file that a command is about. The text of a file that is to be written
    does not matter. -/
def fileOf : Command → IO (Option String)
  | .initConfig _ path => do return if ← isPresent path then some "" else none
  | .checkConfig path => readFile? path
  | .genSecret => return none

/-- Carry out a command. -/
def carryOut (c : Command) : IO UInt32 := do
  let file? ← fileOf c
  match c.run (fun _ => file?) (← randomSecret) with
  | .error e =>
    IO.eprintln e.name
    return 1
  | .ok outcome =>
    IO.print outcome.output
    match outcome.written? with
    | none => return 0
    | some (path, text) =>
      try
        IO.FS.writeFile path text
        return 0
      catch _ =>
        IO.eprintln ConfigError.inaccessible.name
        return 1

/-- Carry out the command of a command line. -/
def main (words : List String) : IO UInt32 := do
  match Command.readWords words with
  | .error e =>
    IO.eprintln e.message
    return 2
  | .ok c => carryOut c
