import PaymentNetwork.CommandLine.Arguments
import PaymentNetwork.Lock
import PaymentNetwork.Node.ConfigFile

/-!
# Commands

The commands for whoever runs a node: write a configuration, check one, and make
a secret.

A configuration that is there is never written over, and none is written that
makes no sense. Checking a configuration shows all of its values, the standard
ones too.

## Main definitions

* `Command`: What can be asked for.
* `Command.read`: The command that a command line asks for.
* `Command.initialConfig`: The configuration to write.
* `Command.describeSecret`: What is shown of a secret.
* `Command.run`: What comes of a command.
-/

namespace PaymentNetwork

/-- What the configuration to write differs in from the standard one. -/
structure InitialSettings where
  ourAddress : Address
  settleTimeout? : Option Height
  revealTimeout? : Option Height
  bootstrapAddress? : Option Address

/-- What can be asked for. -/
inductive Command where
  | initConfig (settings : InitialSettings) (output : String)
  | checkConfig (path : String)
  | genSecret

/-- Read a number of blocks. A plus sign in front is allowed. -/
def readHeight? (s : String) : Option Height :=
  let digits := match s.toList with
    | '+' :: rest => rest
    | cs => cs
  if digits.isEmpty || !digits.all Char.isDigit then none
  else Word.ofNat? (digits.foldl (fun acc c => 10 * acc + (c.toNat - '0'.toNat)) 0)

/-- Read an address. -/
def readAddress? (s : String) : Option Address := (FixedBytes.parse 20 s).toOption

namespace UsageError

/-- The sentence that reports the error. -/
def message : UsageError → String
  | helpWanted => "commands: init-config, check-config, gen-secret"
  | versionWanted => "version 0.1.0"
  | noCommand => "a command is missing"
  | unknownArgument => "there is an unknown argument"
  | misspelledCommand => "there is a misspelled command"
  | unknownCommand => "there is no help on that"
  | missingOption => "a required option is missing"
  | missingValue => "an option has no value"
  | invalidValue => "an option has an invalid value"
  | repeatedOption => "an option is repeated"

end UsageError

namespace Command

/-- The names of the commands, as they are looked through for a misspelling. -/
def names : List String := ["init-config", "check-config", "gen-secret", "help"]

/-- The options for writing a configuration. -/
def initRules : List OptionRule := [
  ⟨"address", some 'a', true, fun s => (readAddress? s).isSome⟩,
  ⟨"output", some 'o', true, fun _ => true⟩,
  ⟨"settle-timeout", none, false, fun s => (readHeight? s).isSome⟩,
  ⟨"reveal-timeout", none, false, fun s => (readHeight? s).isSome⟩,
  ⟨"bootstrap", none, false, fun s => (readAddress? s).isSome⟩]

/-- The options for checking a configuration. -/
def checkRules : List OptionRule := [⟨"config", some 'c', true, fun _ => true⟩]

/-- The command to write a configuration. -/
def ofInitOptions (ms : Mentions) : Except UsageError Command :=
  match (ms.value? "address").bind readAddress?, ms.value? "output" with
  | some ourAddress, some output => .ok (.initConfig {
      ourAddress := ourAddress
      settleTimeout? := (ms.value? "settle-timeout").bind readHeight?
      revealTimeout? := (ms.value? "reveal-timeout").bind readHeight?
      bootstrapAddress? := (ms.value? "bootstrap").bind readAddress? } output)
  | _, _ => .error .missingOption

/-- The command to check a configuration. -/
def ofCheckOptions (ms : Mentions) : Except UsageError Command :=
  match ms.value? "config" with
  | some path => .ok (.checkConfig path)
  | none => .error .missingOption

/-- The request for help on a command. -/
def readHelp : List String → UsageError
  | [] => .helpWanted
  | [word] => if names.contains word then .helpWanted else .unknownCommand
  | _ => .unknownCommand

/-- The command that the words after the name of the program ask for. -/
def readWords : List String → Except UsageError Command
  | [] => .error .noCommand
  | "init-config" :: rest => (readOptions initRules rest).bind ofInitOptions
  | "check-config" :: rest => (readOptions checkRules rest).bind ofCheckOptions
  | "gen-secret" :: rest => (readOptions [] rest).map fun _ => .genSecret
  | "help" :: rest => .error (readHelp rest)
  | ["--"] => .error .noCommand
  | "--" :: _ => .error .unknownArgument
  | word :: _ =>
    if isDashed word.toList then
      let read := if word.toList.tail.head? = some '-' then readLong else readShort
      match read [] [] word.toList with
      | .error e => .error e
      | .ok _ => .error .unknownArgument
    else if names.any fun name => 0.8 < similarity word name then .error .misspelledCommand
    else .error .unknownArgument

/-- The command that a command line asks for. Its first word is the name of the
    program. -/
def read (line : List String) : Except UsageError Command := readWords line.tail

/-- The configuration to write. -/
def initialConfig (i : InitialSettings) : Except ConfigError NodeConfig :=
  let c := NodeConfig.standard i.ourAddress
  let c' := { c with
    settleTimeout := i.settleTimeout?.getD c.settleTimeout
    revealTimeout := i.revealTimeout?.getD c.revealTimeout
    bootstrapAddress := i.bootstrapAddress?.getD c.bootstrapAddress }
  c'.validate.map fun _ => c'

/-- What is shown of a configuration. -/
def describeConfig (c : NodeConfig) : String := c.toText ++ "\n"

/-- What is shown of a secret. -/
def describeSecret (s : Secret) : String :=
  "secret: " ++ s.toText ++ "\nsecret_hash: " ++ (hashSecret s).toText ++ "\n"

/-- Why a command failed. -/
inductive Failure where
  /-- There is a file where one was to be written. -/
  | outputExists
  | config (e : ConfigError)
deriving DecidableEq

/-- The name of the failure. -/
def Failure.name : Failure → String
  | outputExists => "OutputAlreadyExists"
  | config e => e.name

/-- What comes of a command: what it shows, and the file that it writes. -/
structure Outcome where
  output : String
  written? : Option (String × String)

/-- Carry out a command. Files are looked up by path, and a secret is at hand. -/
def run (c : Command) (file? : String → Option String) (secret : Secret) :
    Except Failure Outcome :=
  match c with
  | .initConfig i path =>
    if (file? path).isSome then .error .outputExists
    else match initialConfig i with
      | .error e => .error (.config e)
      | .ok config => .ok ⟨"", some (path, config.toText)⟩
  | .checkConfig path =>
    match NodeConfig.load (file? path) with
    | .error e => .error (.config e)
    | .ok config => .ok ⟨describeConfig config, none⟩
  | .genSecret => .ok ⟨describeSecret secret, none⟩

end Command

end PaymentNetwork
