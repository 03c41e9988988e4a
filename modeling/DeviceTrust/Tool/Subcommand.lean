import DeviceTrust.Jws.Authentication
import DeviceTrust.Provisioning.Client
import DeviceTrust.Sha256

/-!
# The commands of the tool

One command authenticates a manifest, the other makes a token. Files, the environment and the time are
given to them from outside.
-/

namespace DeviceTrust.Tool

/-! ## Why a command fails -/

/-- Why a file could not be read. -/
inductive FileError where
  | notFound
  | permissionDenied
  | isDirectory
  | other
  deriving DecidableEq, Repr

/-- The wording of a file error. -/
def FileError.message : FileError → String
  | .notFound => "No such file or directory"
  | .permissionDenied => "Permission denied"
  | .isDirectory => "Is a directory"
  | .other => "The file cannot be read"

/-- The causes of a failed command. -/
inductive Error where
  | file (cause : FileError)
  | jws (cause : Jws.Error)
  | provisioning (cause : Provisioning.Error)
  /-- A setting is neither on the command line nor in the environment. -/
  | missingConfiguration
  /-- The token would expire beyond the dates that can be written. -/
  | invalidExpiry
  deriving DecidableEq, Repr

/-- The wording of an error. -/
def Error.message : Error → String
  | .file cause => cause.message
  | .jws cause => cause.message
  | .provisioning cause => cause.message
  | .missingConfiguration => "Missing configuration"
  | .invalidExpiry => "Token expiry out of range"

/-! ## The authenticate command

The manifest and its JWS are read from files. White space at the end of the JWS file is not part of the
token. The file reader is a parameter, in any monad. -/

/-- Space, tab, line feed, form feed and carriage return. -/
def isAsciiSpace (b : UInt8) : Bool :=
  b == 32 || b == 9 || b == 10 || b == 12 || b == 13

/-- The bytes without the white space at their end. -/
def trimEnd (bytes : Bytes) : Bytes :=
  (bytes.reverse.dropWhile isAsciiSpace).reverse

/-- Authenticates the content of a manifest file against that of a JWS file, with the built-in root keys
and a scratch memory of its own. -/
def authenticateFiles (manifest jws : Bytes) : Except Error Unit :=
  (Jws.authenticateManifest manifest (trimEnd jws) Jws.RootKey.builtIn
    (List.replicate Jws.scratchSize 0)).1.mapError .jws

/-- The options of the command: the names of both files. -/
structure Authenticate where
  manifest : String
  jws : String
  deriving DecidableEq, Repr

/-- Reads both files, the manifest first, and authenticates the manifest. -/
def Authenticate.run {m : Type → Type} [Monad m] (command : Authenticate)
    (readFile : String → m (Except FileError Bytes)) : m (Except Error Unit) := do
  match ← readFile command.manifest with
  | .error e => return .error (.file e)
  | .ok manifest =>
    match ← readFile command.jws with
    | .error e => return .error (.file e)
    | .ok jws => return authenticateFiles manifest jws

/-! ## Dates of the calendar

A time in seconds since 1970 as a date and time of day, in universal time. Years are counted from March,
so that the leap day is the last day of a year; 400 years have 146097 days. -/

/-- A day of the calendar. -/
structure Day where
  year : Nat
  month : Nat
  day : Nat
  deriving DecidableEq, Repr

/-- The day that lies `days` days after the first of January 1970. -/
def Day.ofDays (days : Nat) : Day :=
  let shifted := days + 719468
  let era := shifted / 146097
  let dayOfEra := shifted % 146097
  let yearOfEra := (dayOfEra - dayOfEra / 1460 + dayOfEra / 36524 - dayOfEra / 146096) / 365
  let dayOfYear := dayOfEra - (365 * yearOfEra + yearOfEra / 4 - yearOfEra / 100)
  let monthFromMarch := (5 * dayOfYear + 2) / 153
  let day := dayOfYear - (153 * monthFromMarch + 2) / 5 + 1
  let month := if monthFromMarch < 10 then monthFromMarch + 3 else monthFromMarch - 9
  let year := yearOfEra + era * 400 + (if month ≤ 2 then 1 else 0)
  ⟨year, month, day⟩

/-- A number with zeros in front up to `width` digits. -/
def padNumber (width n : Nat) : String :=
  let digits := toString n
  String.ofList (List.replicate (width - digits.length) '0') ++ digits

/-- The last second that has a date. -/
def lastTimestamp : Nat := 8210266876799

/-- The date and time of day of a time in seconds since 1970. -/
def formatTimestamp (seconds : Nat) : String :=
  let date := Day.ofDays (seconds / 86400)
  let time := seconds % 86400
  (if 9999 < date.year then "+" else "") ++ padNumber 4 date.year ++ "-" ++ padNumber 2 date.month
    ++ "-" ++ padNumber 2 date.day ++ "T" ++ padNumber 2 (time / 3600) ++ ":"
    ++ padNumber 2 (time / 60 % 60) ++ ":" ++ padNumber 2 (time % 60) ++ "+00:00"

/-! ## The token command

The command prints the user name and the password that a device with a symmetric key connects with.
Settings that are not on the command line are taken from the environment. -/

/-- The values of the environment variables that are set. -/
abbrev Environment := String → Option String

def idScopeVariable : String := "IOTMW_ID_SCOPE"
def registrationIdVariable : String := "IOTMW_REGISTRATION_ID"
def symmetricKeyVariable : String := "IOTMW_SYMMETRIC_KEY"

/-- A setting from the command line, or else from the environment. -/
def getSetting (option : Option String) (environment : Environment) (variableName : String) :
    Except Error String :=
  match option with
  | some value => .ok value
  | none =>
    match environment variableName with
    | some value => .ok value
    | none => .error .missingConfiguration

/-- The HMAC function of the tool. -/
def hmacFunction : Provisioning.HmacFunction Id := fun key message =>
  .ok (Hmac.sha256 key message)

/-- The options of the command. -/
structure SasToken where
  idScope : Option String
  registrationId : Option String
  symmetricKey : Option String
  /-- The lifetime of the token. -/
  expirySeconds : UInt64
  userAgent : String
  deriving DecidableEq, Repr

/-- What a device connects with. -/
structure Credentials where
  username : String
  password : String
  deriving DecidableEq, Repr

/-- The user name of a device, if it is not too long. -/
def boundedUserName (idScope registrationId userAgent : String) :
    Except Provisioning.Error String :=
  let buffer := List.replicate Provisioning.userNameMax 0
  match Provisioning.writeUserName idScope registrationId userAgent buffer with
  | (.error failure, _) => .error (.failure failure)
  | (.ok length, buffer) =>
    match Bytes.text? (buffer.take length) with
    | some text => .ok text
    | none => .error .notText

/-- The credentials of a device with a symmetric key given in base64. -/
def deviceCredentials (idScope registrationId symmetricKey userAgent : String) (expiry : UInt64) :
    Except Provisioning.Error Credentials := do
  let username ← boundedUserName idScope registrationId userAgent
  let key ← Provisioning.SymmetricKey.ofEncoded (utf8 symmetricKey) hmacFunction
  let password ← (key.password idScope registrationId expiry).run
  return ⟨username, password⟩

/-- The credentials for a token that expires at `expiry`. -/
def SasToken.credentials (command : SasToken) (environment : Environment) (expiry : UInt64) :
    Except Error Credentials := do
  let idScope ← getSetting command.idScope environment idScopeVariable
  let registrationId ← getSetting command.registrationId environment registrationIdVariable
  let symmetricKey ← getSetting command.symmetricKey environment symmetricKeyVariable
  (deviceCredentials idScope registrationId symmetricKey command.userAgent expiry).mapError
    .provisioning

/-- The time when a token of the given lifetime expires, if it has a date. -/
def expiryTime (now lifetime : UInt64) : Except Error UInt64 :=
  if lastTimestamp < now.toNat + lifetime.toNat then .error .invalidExpiry
  else .ok (now + lifetime)

/-- The lines that the command prints at time `now`. -/
def SasToken.run (command : SasToken) (environment : Environment) (now : UInt64) :
    Except Error (List String) := do
  let expiry ← expiryTime now command.expirySeconds
  let credentials ← command.credentials environment expiry
  return [
    "Username: " ++ credentials.username,
    "Password: " ++ credentials.password,
    "Expires:  " ++ formatTimestamp expiry.toNat]

end DeviceTrust.Tool
