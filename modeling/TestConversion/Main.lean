import TestConversion.Command.Run

/-!
# The program

Reads the part of the file system that a command may look at, runs the command on it, and carries
out what the command changed. The program has no network of its own: no request is delivered.
-/

namespace TestConversion.Program

open Files

/-! ## The environment -/

/-- The variables that the program looks at. -/
def variableNames : List String := [
  "SELENIPORT_BACKEND", "SELENIPORT_MODEL", "OLLAMA_HOST", "ANTHROPIC_API_KEY", "OPENAI_API_KEY",
  "HOME", "XDG_CONFIG_HOME"]

def readEnvironment : IO Environment := do
  let values ← variableNames.filterMapM fun name => do
    return (← IO.getEnv name).map fun value => (name, value)
  return fun name => values.lookup name

/-! ## Files -/

def locationText (l : Location) : String := "/" ++ "/".intercalate l

/-- What stands at a location. -/
def entryAt? (l : Location) : IO (Option Entry) := do
  let path := (← IO.currentDir) / locationText l
  if ← path.isDir then return some .directory
  else if ← path.pathExists then
    -- whatever keeps a file from being read keeps it from being opened
    try return some (.file (← IO.FS.readBinFile path))
    catch _ => return some (.file ⟨.empty, true⟩)
  else return none

def namesIn (l : Location) : IO (List String) := do
  let path := (← IO.currentDir) / locationText l
  if ← path.isDir then return (← path.readDir).toList.map (·.fileName)
  else return []

/-- Puts what stands at a location, and at the locations above it, into a file system. -/
def gather (fs : FileSystem) (l : Location) : IO FileSystem :=
  (List.range l.length).foldlM
    (fun fs i => do
      let here := l.take (i + 1)
      if (fs.at? here).isSome then return fs
      else
        match ← entryAt? here with
        | some e => return fs.set here e
        | none => return fs)
    fs

/-- Puts everything below a location into a file system. -/
partial def gatherBelow (fs : FileSystem) (l : Location) : IO FileSystem := do
  let names ← namesIn l
  names.foldlM
    (fun fs name => do gatherBelow (← gather fs (l ++ [name])) (l ++ [name]))
    fs

/-- Where a path leads if every directory on the way is there. -/
def locationOf (workingDirectory : Location) (path : String) : Location :=
  (parts path).foldl
    (fun l part =>
      if part == "" || part == "." then l
      else if part == ".." then l.dropLast
      else l ++ [part])
    (if isAbsolute path then [] else workingDirectory)

/-- Puts an input into a file system, with the files that say what is left out of it. -/
def gatherInput (fs : FileSystem) (path : String) : IO FileSystem := do
  let l := locationOf fs.workingDirectory path
  let fs ← gather fs l
  let fs ← (List.range l.length).foldlM
    (fun fs i => ruleFiles.foldlM (fun fs file => gather fs (l.take i ++ file)) fs)
    fs
  gatherBelow fs l

/-- Puts an output into a file system, with the entries of a directory. -/
def gatherOutput (fs : FileSystem) (path : String) : IO FileSystem := do
  let l := locationOf fs.workingDirectory path
  let fs ← gather fs l
  (← namesIn l).foldlM (fun fs name => gather fs (l ++ [name])) fs

/-- The file system as far as a command may look at it. -/
def readFiles (environment : Environment) (command : Command) : IO FileSystem := do
  let workingDirectory := (parts (← IO.currentDir).toString).filter (· ≠ "")
  let fs ← gather ⟨[], workingDirectory⟩ workingDirectory
  let fs ← match Settings.filePath environment with
    | some path => gather fs (locationOf workingDirectory path)
    | none => pure fs
  match command with
  | .parse path _ _ output =>
    let fs ← gatherInput fs path
    match output with
    | some file => gather fs (locationOf workingDirectory file)
    | none => return fs
  | .convert request =>
    let fs ← gatherInput fs request.path
    gatherOutput fs (request.output.getD (Settings.load fs environment).outputPath)
  | _ => return fs

/-- Carries out what differs between two file systems. -/
def writeFiles (before after : FileSystem) : IO Unit :=
  after.entries.forM fun (l, e) => do
    let path := (← IO.currentDir) / locationText l
    match e, before.at? l with
    | .directory, none => IO.FS.createDir path
    | .file new, some (.file old) => if new.bytes != old.bytes then IO.FS.writeBinFile path new
    | .file new, _ => IO.FS.writeBinFile path new
    | _, _ => pure ()

/-! ## Running -/

def send : Model.Transport IO := fun request =>
  return .error ("io: no connection to " ++ request.url)

/-- What is said where arguments are not carried out. -/
def refusalText : Command.Refusal → String
  | .version => Command.versionLine
  | .help | .helpInstead =>
    "Usage: seleniport [--log-level LEVEL] parse|convert|doctor|config|version|help"
  | .badValue => "error: invalid value"
  | .unknownArgument => "error: unexpected argument"
  | .unknownCommand => "error: unrecognized subcommand"
  | .missingOperand => "error: a required argument was not provided"
  | .missingCommand => "error: a subcommand is required"
  | .repeated => "error: an argument cannot be used multiple times"
  | .unneededValue => "error: an option takes no value"

end TestConversion.Program

open TestConversion in
def main (arguments : List String) : IO UInt32 := do
  let environment ← Program.readEnvironment
  match Command.ofArguments environment arguments with
  | .error refusal =>
    let text := Program.refusalText refusal
    if refusal.status = 0 then IO.println text else IO.eprintln text
    return refusal.status.toUInt32
  | .ok command =>
    let before ← Program.readFiles environment command
    let result ← command.run Program.send environment before
    Program.writeFiles before result.files
    IO.print result.outputText
    IO.eprint result.noticeText
    return result.status.toUInt32
