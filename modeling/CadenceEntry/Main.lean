import CadenceEntry.CommandLine.Run
import CadenceEntry.Yaml.Loader

/-!
# The program

Reads what a run needs, runs, and writes how the run ends.
-/

set_option autoImplicit false

open CadenceEntry CommandLine

/-- The bytes of a file, or why there are none. -/
def fileBytes (path : String) : IO (Except FileError (List UInt8)) := do
  try
    return .ok (← IO.FS.readBinFile path).toList
  catch
    | .noFileOrDirectory _ _ _ | .noSuchThing _ _ _ => return .error .missing
    | .inappropriateType _ 20 _ => return .error .notDirectory
    | .inappropriateType _ _ _ => return .error .directory
    | .permissionDenied _ code _ => return .error (.other code.toNat "Permission denied")
    | e => return .error (.other 5 e.toString)

/-- All bytes on the standard input. -/
partial def inputBytes (input : IO.FS.Stream) (bytes : ByteArray) : IO ByteArray := do
  let chunk ← input.read 65536
  if chunk.isEmpty then return bytes else inputBytes input (bytes ++ chunk)

/-- The bytes on the standard input if a run may read them, or why they cannot be read. -/
def inputOf (words : List String) : IO (Except String (List UInt8)) := do
  try
    if readsInput words then return .ok (← inputBytes (← IO.getStdin) .empty).toList
    else return .ok []
  catch e => return .error e.toString

/-- Writes bytes to the standard output, or says why they cannot be written. -/
def deliverBytes (bytes : List UInt8) : IO (Option String) := do
  try
    let output ← IO.getStdout
    output.write bytes.toByteArray
    output.flush
    return none
  catch e => return some e.toString

/-- Runs the command line in the world around it. -/
def main (words : List String) : IO UInt32 := do
  let files ← (filesOf words).mapM fun path => do return (path, ← fileBytes path)
  let env : Environment :=
    { file := fun path => (files.lookup path).getD (.error .missing)
      loader := Yaml.loader
      input := ← inputOf words }
  let finish (outcome : Outcome) : IO UInt32 := do
    (← IO.getStderr).putStr outcome.log
    return outcome.status.toUInt32
  match run env words with
  | .error _ =>
    (← IO.getStderr).putStrLn "the configuration cannot be used, or the answer cannot be written"
    return 1
  | .ok outcome =>
    match ← deliverBytes outcome.output with
    | none => finish outcome
    | some reason =>
      -- how much has arrived is not known any more, but it no longer matters
      match run { env with output := fun _ => .broken reason 0 true } words with
      | .ok outcome => finish outcome
      | .error _ => return 1
