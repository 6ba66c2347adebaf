import RowFilter.Command.Run

/-!
# Main — the command line program

Reads what stands at the paths that the options name, and the standard input, makes the run on them,
and does what its report says.
-/

namespace RowFilter.Main

set_option autoImplicit false

open RowFilter.Command

/-- The names of a path from the root, in the file system's own spelling. -/
def namesOf (path : String) : List String :=
  ((Text.split '/' path.toList).map String.ofList).filter (fun name => name != "" && name != ".")

/-- The path of names from the root. -/
def pathOf (names : List String) : String := "/" ++ "/".intercalate names

/-- What stands at the names, if anything does. -/
def entryAt (names : List String) : IO (Option Files.Entry) := do
  try
    let bytes ← IO.FS.readBinFile (pathOf names)
    pure (some (.file bytes.toList))
  catch
    | .inappropriateType .. => pure (some .directory)
    | .noFileOrDirectory .. | .invalidArgument .. => pure none
    | fault => throw fault

/-- Entries for the names after a directory, as far as there are any. -/
def entriesAlong (directory : List String) : List String → IO (List (List String × Files.Entry))
  | [] => pure []
  | name :: rest => do
    let names := if name == ".." then directory.dropLast else directory ++ [name]
    match ← entryAt names with
    | none => pure []
    | some entry => do
      let more ← entriesAlong names rest
      pure ((names, entry) :: more)

/-- The files that the options name, as they are. -/
def snapshot (o : Options) : IO Files := do
  let here := namesOf (← IO.currentDir).toString
  let paths := [o.plan, o.savePlan, o.input].filterMap id
  let entries ← paths.mapM fun path =>
    entriesAlong (if path.startsWith "/" then [] else here) (namesOf path)
  pure ⟨here, entries.flatten⟩

/-- All bytes that are left of a stream. -/
partial def readAll (stream : IO.FS.Stream) (read : ByteArray) : IO ByteArray := do
  let more ← stream.read 65536
  if more.isEmpty then pure read else readAll stream (read ++ more)

/-- Writes the plan that a run has saved. -/
def writePlan (o : Options) (before after : Files) : IO Unit := do
  match o.savePlan with
  | none => pure ()
  | some path =>
    match after.read path with
    | .error _ => pure ()
    | .ok bytes =>
      if (before.read path).toOption != some bytes then IO.FS.writeBinFile path ⟨bytes.toArray⟩

def levelName : Level → String
  | .info => "INFO"
  | .debug => "DEBUG"

/-- The lines of a message. -/
def messageLines : Message → List String
  | .log level text =>
    let lines := Problem.linesOf text
    ("[" ++ levelName level ++ "] " ++ lines.headD "") :: Problem.indented lines.tail
  | .problem p => p.render

/-- Runs a command line and gives its exit code. -/
def runCommand (arguments : List String) : IO UInt32 := do
  match Options.read arguments with
  | .error refusal =>
    IO.eprintln ("error: " ++ refusal.message)
    pure 2
  | .ok o =>
    let files ← snapshot o
    let stdin ←
      if o.explain || o.input.isSome then pure ByteArray.empty
      else readAll (← IO.getStdin) ByteArray.empty
    let report := run o files stdin.toList
    writePlan o files report.files
    IO.print report.output
    for message in report.messages do
      for line in messageLines message do
        IO.eprintln line
    pure (UInt32.ofNat report.exit)

end RowFilter.Main

def main (arguments : List String) : IO UInt32 := RowFilter.Main.runCommand arguments
