import PaymentNetwork.CommandLine.Similarity

/-!
# Arguments of a Command

Reads the options of a command from the words of a command line.

An option has a long name after two dashes and may have a short one after one
dash. Its value is the next word, or follows an equals sign, or follows the short
name directly. A word that begins with a dash is never taken for a value, except
for the dash alone. Commands take nothing but options. Asking for help ends the
reading at once; all other complaints about options wait until the words are
used up, and a missing option is complained about first.

## Main definitions

* `OptionRule`: An option that a command takes.
* `UsageError`: What is wrong with a command line.
* `readOptions`: The values of the options, if nothing is wrong.
-/

namespace PaymentNetwork

/-- What is wrong with a command line. Asking for help is not wrong, but no
    command either. -/
inductive UsageError where
  | helpWanted
  | versionWanted
  | noCommand
  | unknownArgument
  /-- A word that is like the name of a command. -/
  | misspelledCommand
  /-- Help is wanted on a command that does not exist. -/
  | unknownCommand
  | missingOption
  | missingValue
  | invalidValue
  | repeatedOption
deriving DecidableEq

/-- An option that a command takes. -/
structure OptionRule where
  long : String
  short? : Option Char
  isRequired : Bool
  accepts : String → Bool

/-- What was said about an option: how often it was named, and its values. -/
structure Mention where
  long : String
  count : Nat
  values : List String

/-- The mentions of options. -/
abbrev Mentions := List Mention

namespace Mentions

/-- What was said about an option. -/
def of (ms : Mentions) (long : String) : Mention :=
  (ms.find? fun m => m.long = long).getD ⟨long, 0, []⟩

/-- Change what was said about an option. -/
def change (ms : Mentions) (long : String) (f : Mention → Mention) : Mentions :=
  f (ms.of long) :: ms.filter fun m => m.long ≠ long

/-- An option is named. -/
def name (ms : Mentions) (long : String) : Mentions :=
  ms.change long fun m => { m with count := m.count + 1 }

/-- An option gets a value. -/
def addValue (ms : Mentions) (long value : String) : Mentions :=
  ms.change long fun m => { m with values := m.values ++ [value] }

/-- The last value of an option. -/
def value? (ms : Mentions) (long : String) : Option String := (ms.of long).values.getLast?

end Mentions

/-- An option is named, with its value if that stands in the same word. An option
    without its value waits for it. -/
def nameOption (ms : Mentions) (long : String) (value? : Option (List Char)) :
    Mentions × Option String :=
  match value? with
  | some cs =>
    ((ms.addValue long (String.ofList (cs.dropWhile (· = '=')))).name long, none)
  | none => (ms.name long, some long)

/-- A word with two dashes in front. -/
def readLong (rules : List OptionRule) (ms : Mentions) (word : List Char) :
    Except UsageError (Mentions × Option String) :=
  let bare := word.dropWhile (· = '-')
  let name := String.ofList (bare.takeWhile (· ≠ '='))
  let value? := if bare.contains '=' then some (bare.dropWhile (· ≠ '=')).tail else none
  if rules.any fun r => r.long = name then .ok (nameOption ms name value?)
  else if name = "help" then .error .helpWanted
  else if name = "version" then .error .versionWanted
  else .error .unknownArgument

/-- A word with one dash in front. -/
def readShort (rules : List OptionRule) (ms : Mentions) (word : List Char) :
    Except UsageError (Mentions × Option String) :=
  match word.dropWhile (· = '-') with
  | [] => .error .unknownArgument
  | c :: rest =>
    match rules.find? fun r => r.short? = some c with
    | some r => .ok (nameOption ms r.long (if rest.isEmpty then none else some rest))
    | none =>
      if c = 'h' then .error .helpWanted
      else if c = 'V' then .error .versionWanted
      else .error .unknownArgument

/-- Does a word begin with a dash and go on after it? -/
def isDashed : List Char → Bool
  | '-' :: _ :: _ => true
  | _ => false

/-- Go through the words of a command line. `pending?` waits for its value. -/
def readWords (rules : List OptionRule) (ms : Mentions) (pending? : Option String)
    (isTrailing : Bool) : List String → Except UsageError (Mentions × Option String)
  | [] => .ok (ms, pending?)
  | word :: rest =>
    let cs := word.toList
    if isTrailing then .error .unknownArgument
    else if cs = ['-', '-'] then readWords rules ms pending? true rest
    else if isDashed cs then
      let read := if cs.tail.head? = some '-' then readLong else readShort
      match read rules ms cs with
      | .error e => .error e
      | .ok (ms', pending?') => readWords rules ms' pending?' false rest
    else match pending? with
      | some long => readWords rules (ms.addValue long word) none false rest
      | none => .error .unknownArgument

/-- What is wrong with what was said about an option. -/
def checkMention (r : OptionRule) (m : Mention) : Except UsageError Unit :=
  if m.count = 0 then .ok ()
  else if m.values.isEmpty then .error .missingValue
  else if !m.values.all r.accepts then .error .invalidValue
  else if 1 < m.count then .error .repeatedOption
  else .ok ()

/-- The values of the options, if nothing is wrong. -/
def readOptions (rules : List OptionRule) (words : List String) :
    Except UsageError Mentions := do
  let (ms, pending?) ← readWords rules [] none false words
  if rules.any fun r => r.isRequired && decide ((ms.of r.long).count = 0) then
    throw .missingOption
  match pending? with
  | some long => if (ms.of long).values.isEmpty then throw .missingValue
  | none => pure ()
  rules.forM fun r => checkMention r (ms.of r.long)
  return ms

end PaymentNetwork
