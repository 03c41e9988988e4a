import DeviceTrust.Text
import DeviceTrust.Tool.Arguments
import DeviceTrust.Tool.Subcommand

/-!
# Commands

The two subcommands of the tool, their options, and what a command line comes to.
-/

namespace DeviceTrust.Tool

/-- A command to run. -/
inductive Command where
  | authenticate (command : Authenticate)
  | sasToken (command : SasToken)
  deriving DecidableEq, Repr

/-! ## Options -/

/-- A lifetime in seconds. -/
def readSeconds? (text : String) : Option UInt64 :=
  (Decimal.read? UInt64.size text.toList).map UInt64.ofNat

/-- An option that takes any text. -/
def textOption (name : String) (short : Char) (required : Bool) (default : Option String) :
    OptionSpec :=
  ⟨name, short, required, default, fun _ => true⟩

/-- The subcommand that authenticates a manifest. -/
def authenticateSpec : SubcommandSpec where
  name := "authenticate"
  options := [
    textOption "manifest" 'm' true none,
    textOption "jws" 'j' true none]

/-- The subcommand that prints credentials. -/
def sasTokenSpec : SubcommandSpec where
  name := "sas-token"
  options := [
    textOption "id-scope" 's' false none,
    textOption "registration-id" 'r' false none,
    textOption "symmetric-key" 'k' false none,
    ⟨"expiry-seconds", 'e', false, some "3600", fun text => (readSeconds? text).isSome⟩,
    textOption "user-agent" 'u' false (some "")]

/-- The command that a subcommand and its options stand for. -/
def Command.ofUses (name : String) (uses : OptionUses) : Command :=
  if name = authenticateSpec.name then
    .authenticate ⟨(uses.value? "manifest").getD "", (uses.value? "jws").getD ""⟩
  else
    .sasToken {
      idScope := uses.value? "id-scope"
      registrationId := uses.value? "registration-id"
      symmetricKey := uses.value? "symmetric-key"
      expirySeconds := ((uses.value? "expiry-seconds").bind readSeconds?).getD 0
      userAgent := (uses.value? "user-agent").getD "" }

/-- Reads a command line. -/
def Command.parse (arguments : List String) : Except UsageError Command := do
  let (name, uses) ← parseArguments [authenticateSpec, sasTokenSpec] arguments
  return .ofUses name uses

/-- Runs a command at time `now` and gives the lines that it prints. -/
def Command.run {m : Type → Type} [Monad m] (command : Command) (environment : Environment)
    (readFile : String → m (Except FileError Bytes)) (now : UInt64) :
    m (Except Error (List String)) := do
  match command with
  | .authenticate command => return (← command.run readFile).map fun _ => []
  | .sasToken command => return command.run environment now

/-! ## The whole tool -/

/-- What a run of the tool leaves: its exit code, and the lines on the standard output and on the error
output. -/
structure Outcome where
  exitCode : UInt32
  output : List String
  errors : List String
  deriving DecidableEq, Repr

/-- The name that the tool goes by. -/
def programName : String := "iotmw-tool"

/-- The version of the tool. -/
def programVersion : String := "0.1.0"

/-- The usage text. -/
def usageText : List String := [
  "Usage: " ++ programName ++ " <SUBCOMMAND>",
  "",
  "Subcommands:",
  "    authenticate -m <manifest> -j <jws>",
  "        Authenticates an update manifest against its signed JWS.",
  "    sas-token [-s <id-scope>] [-r <registration-id>] [-k <symmetric-key>]",
  "              [-e <expiry-seconds>] [-u <user-agent>]",
  "        Prints the MQTT credentials of a device with a symmetric key.",
  "    help",
  "        Prints this text."]

/-- The version text of a subcommand or of the whole tool. -/
def versionText (subcommand : Option String) : String :=
  programName ++ (subcommand.map ("-" ++ ·)).getD "" ++ " " ++ programVersion

/-- The wording of a usage error. -/
def UsageError.message : UsageError → String
  | .helpDisplayed | .versionDisplayed _ => ""
  | .unknownArgument => "error: an argument was not expected"
  | .invalidSubcommand => "error: a word is not a subcommand, but resembles one"
  | .unrecognizedSubcommand => "error: there is no such subcommand"
  | .missingArgumentOrSubcommand => "error: a subcommand is missing"
  | .missingRequiredArgument => "error: a required option is missing"
  | .emptyValue => "error: an option has no value"
  | .valueValidation => "error: the value of an option is invalid"
  | .unexpectedMultipleUsage => "error: an option was given more than once"

/-- What a usage error comes to: a text that was asked for is no failure. -/
def UsageError.outcome (e : UsageError) : Outcome :=
  match e with
  | .helpDisplayed => ⟨0, usageText, []⟩
  | .versionDisplayed subcommand => ⟨0, [versionText subcommand], []⟩
  | _ => ⟨1, [], e.message :: usageText⟩

/-- What a finished command comes to. -/
def Outcome.ofResult : Except Error (List String) → Outcome
  | .ok lines => ⟨0, lines, []⟩
  | .error e => ⟨1, [], ["Command failed: " ++ e.message]⟩

/-- Runs the tool on a command line. -/
def runTool {m : Type → Type} [Monad m] (arguments : List String) (environment : Environment)
    (readFile : String → m (Except FileError Bytes)) (now : UInt64) : m Outcome := do
  match Command.parse arguments with
  | .error e => return e.outcome
  | .ok command => return .ofResult (← command.run environment readFile now)

end DeviceTrust.Tool
