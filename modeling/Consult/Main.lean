import Consult.Cli

/-!
# The program

Reads files and arguments, writes what the command line responds.
-/

open Consult

/-- Reads a file, or says in the system's words why it cannot be read. -/
def readFile (file : String) : IO (Except String String) := do
  try
    let bytes ← IO.FS.readBinFile file
    match String.fromUTF8? bytes with
    | some text => return .ok text
    | none => return .error "stream did not contain valid UTF-8"
  catch
    | .noFileOrDirectory .. => return .error "No such file or directory (os error 2)"
    | .inappropriateType .. => return .error "Is a directory (os error 21)"
    | .permissionDenied .. => return .error "Permission denied (os error 13)"
    | e => return .error (toString e)

/-- Does what the arguments ask for. -/
def main (args : List String) : IO UInt32 := do
  let content ←
    match Cli.Command.parse? args with
    | some (.run file ..) | some (.describe file) => readFile file
    | _ => pure (.ok "")
  let response := Cli.respond (fun _ => content) args
  for event in response.log do
    IO.eprintln s!"{repr event.severity}: {event.message}"
  IO.print response.stdout
  match response.error with
  | some message => IO.eprintln message
  | none => pure ()
  return response.status.toUInt32
