import ApiDouble.Command.Run

/-!
# The program

Files and the clock are those of the machine. Calls that can be written are answered by nobody here:
the program itself opens no connection.
-/

open ApiDouble Command Replay

/-- What stands under a path of the machine. -/
def fileState (path : String) : IO FileState := do
  try return .content (← IO.FS.readBinFile path).toList
  catch
    | .noFileOrDirectory .. => return .missing
    | _ => return .unreadable

def machine (level : LogLevel) : Machine IO where
  file := fileState
  clock := return UInt64.ofNat (← IO.monoMsNow)
  send call := return .replied (.error (call.refusal?.getD (.connect "no network"))) 0
  warn text := if level = .error then return () else IO.eprintln ("WARN " ++ text)

def main (words : List String) : IO UInt32 := do
  match Wish.ofWords words with
  | .error e =>
    IO.eprintln ("error: " ++ e.message ++ "\n\nFor more information, try '--help'.")
    return 2
  | .ok .help =>
    IO.print helpText
    return 0
  | .ok .version =>
    IO.print versionText
    return 0
  | .ok (.run a) =>
    let f ← run (machine a.level) a
    IO.print f.output
    if let some e := f.error then
      IO.eprintln ("Error: " ++ e.message?.getD "a file cannot be read")
    return UInt32.ofNat f.status
