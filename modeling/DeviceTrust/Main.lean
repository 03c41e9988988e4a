import DeviceTrust.Tool.Command
import Std.Time.DateTime.Timestamp

/-!
# The command line

The outermost layer: arguments, environment, clock, files and outputs.
-/

namespace DeviceTrust

/-- Reads a whole file. -/
def readFile (name : String) : IO (Except Tool.FileError Bytes) := do
  try
    let content ← IO.FS.readBinFile name
    return .ok content.toList
  catch e =>
    return .error <| match e with
      | .noFileOrDirectory .. => .notFound
      | .permissionDenied .. => .permissionDenied
      | .inappropriateType .. => .isDirectory
      | _ => .other

/-- The values of the environment variables that the tool uses. -/
def readEnvironment : IO Tool.Environment := do
  let names := [Tool.idScopeVariable, Tool.registrationIdVariable, Tool.symmetricKeyVariable]
  let values ← names.mapM fun name => return (name, ← IO.getEnv name)
  return fun name => (values.lookup name).join

/-- The time in seconds since 1970. -/
def readClock : IO UInt64 := do
  let now ← Std.Time.Timestamp.now
  return UInt64.ofNat now.toSecondsSinceUnixEpoch.val.toNat

end DeviceTrust

/-- Runs the tool. -/
def main (arguments : List String) : IO UInt32 := do
  let environment ← DeviceTrust.readEnvironment
  let outcome ← DeviceTrust.Tool.runTool arguments environment DeviceTrust.readFile
    (← DeviceTrust.readClock)
  outcome.output.forM fun line => IO.println line
  outcome.errors.forM fun line => IO.eprintln line
  return outcome.exitCode
