import Stagecraft.CommandLine.Arguments
import Stagecraft.CommandLine.Inspection
import Stagecraft.Demo
import Stagecraft.Export.Report
import Stagecraft.Movie.Reading
import Stagecraft.Plan.Session

/-!
# Commands

The commands of the program: beginning a project, showing its settings, and checking, compiling and
inspecting movies. Settings come from the file that is named or from the one in the current
directory, and are read before anything else is done.
-/

namespace Stagecraft

def Settings.fileName : String := "choreo.toml"

end Stagecraft

namespace Stagecraft.CommandLine

def programName : String := "choreo"

def programVersion : String := "0.1.0"

variable {K : Type} [Scalar K] [Numeral K]
variable {m : Type → Type} [Monad m] [MonadFiles m]

/-- What led to a failure of files in a step that speaks of it in its own words. -/
def fileCauses (e : FileError) : List String := [ExportError.filesText e, e.message]

def readSettings (p : Path) : Console m (Settings K) := do
  let attempt := "failed to load config: " ++ p.text
  match (← MonadFiles.read p) with
  | .error e => fail attempt (fileCauses e)
  | .ok text =>
    match Settings.read text with
    | some s => return s
    | none => fail attempt ["config error"]

/-- The settings in effect and the file they come from, if there is one. -/
def loadSettings (named : Option Path) : Console m (Settings K × Option Path) := do
  match named with
  | some p => return (← readSettings p, some p)
  | none =>
    let p := Path.ofText Settings.fileName
    if (← MonadFiles.kind? p) = some .file then return (← readSettings p, some p)
    return (Settings.standard, none)

def loadMovie (p : Path) : Console m (Movie K) := do
  match (← MonadFiles.read p) with
  | .error e => fail ("failed to read file: " ++ p.text) [e.message]
  | .ok text =>
    match Movie.read text with
    | .ok movie => return movie
    | .error e => fail ("failed to parse movie: " ++ p.text) [e.message]

def loadReel (s : Settings K) (p : Path) : Console m (Reel K) := do
  let movie ← loadMovie p
  match movie.plan s.options with
  | .ok reel => return reel
  | .error e => throw (Failure.ofPlan ("failed to compile " ++ p.text) e)

def severityIcon : Severity → String
  | .warning => "⚠️"
  | .info => "ℹ️"

omit [Scalar K] in
def sayDiagnostics (r : Reel K) : Console m Unit :=
  r.messages.forM fun d => say ("   " ++ severityIcon d.severity ++ " " ++ d.text)

def compile (s : Settings K) (file : Path) (output : Option Path) (style : Json.Style) :
    Console m Unit := do
  say ("🎬 Compiling " ++ file.text)
  let reel ← loadReel s file
  sayDiagnostics reel
  let root := output.getD (Path.ofText s.project.outputDir)
  match (← reel.exportTo style root) with
  | .ok report => do
    say ("   ✓ " ++ toString (reel.lastFrame + 1) ++ " frames at " ++ reel.fps.text ++ " (" ++
      toString reel.actors.length ++ " actors, " ++ toString reel.cameras.length ++ " cameras)")
    say ("   ✓ Wrote " ++ toString report.files.length ++ " files to " ++ report.directory.text)
    say ("   Hash: " ++ report.manifest.contentHash)
  | .error e =>
    let causes :=
      match e with
      | .files cause => fileCauses cause
      | e => [e.message]
    fail ("failed to export to " ++ root.text) causes

def check (s : Settings K) (file : Path) : Console m Unit := do
  say ("🔍 Checking " ++ file.text)
  let movie : Movie K ← loadMovie file
  say "   ✓ Parse OK"
  let issues := movie.issues
  if !issues.isEmpty then
    fail ("Validation errors:\n  " ++ "\n  ".intercalate (issues.map Issue.message)) []
  say "   ✓ Validate OK"
  match movie.plan s.options with
  | .error .boundsUndefined => throw .boundsUndefined
  | .error e => fail e.message []
  | .ok reel => do
    say "   ✓ Compile OK"
    sayDiagnostics reel
    say ""
    let warnings := reel.diagnostics.countP fun d => d.severity = .warning
    if warnings = 0 then say "   ✅ No problems found."
    else say ("   ✅ Compiled with " ++ toString warnings ++ " warning(s).")

def inspect (s : Settings K) (file : Path) (entity : String) (frame : Option Nat) :
    Console m Unit := do
  let reel ← loadReel s file
  match frame with
  | some frame =>
    if reel.lastFrame < frame then
      say ("   ⚠️ frame " ++ toString frame ++ " is past the last frame (" ++
        toString reel.lastFrame ++ "); showing held values")
  | none => pure ()
  match inspect? reel entity frame with
  | none => fail ("no actor or camera named '" ++ entity ++ "' in " ++ file.text) []
  | some shown => do
    say shown.title
    match shown.lines with
    | some lines => lines.forM say
    | none => fail ("'" ++ entity ++ "' has no transform keys") []

def requireFree (p : Path) : Console m Unit := do
  if ((← MonadFiles.kind? p) : Option FileKind).isSome then
    fail ("'" ++ p.text ++ "' already exists") []

/-- Begins a project: writes settings and the demo movie into a directory. -/
def begin (s : Settings K) (directory : Path) : Console m Unit := do
  let settingsFile := directory.child Settings.fileName
  let demoFile := directory.child Demo.fileName
  requireFree settingsFile
  requireFree demoFile
  match (← MonadFiles.perform (.makeDirectories directory)) with
  | .error e => fail ("failed to create directory: " ++ directory.text) [e.message]
  | .ok () => pure ()
  match (← MonadFiles.perform (.write settingsFile s.write)) with
  | .error e => fail ("failed to write " ++ settingsFile.text) (fileCauses e)
  | .ok () => pure ()
  match (← MonadFiles.perform (.write demoFile (Demo.movie s).write)) with
  | .error e => fail ("failed to write " ++ demoFile.text) [e.message]
  | .ok () => pure ()
  say ("✨ Initialized choreo project in " ++ directory.text)
  say ("   " ++ settingsFile.text)
  say ("   " ++ demoFile.text)
  say ""
  say ("   Next: choreo compile " ++ demoFile.text)

omit [Scalar K] in
def info (s : Settings K) (file : Option Path) : Console m Unit := do
  let o := s.options
  say "🎬 Choreo"
  say (titled "Version:" programVersion)
  say (titled "Config:" <|
    match file with
    | some p => p.text
    | none => "defaults (no " ++ Settings.fileName ++ " found)")
  say (titled "Output:" s.project.outputDir)
  say (titled "Corridor:" o.anchor.title)
  say (titled "Spline:" (toString o.samplesPerSegment ++ " samples per segment"))
  say (titled "Zoom:" (Numeral.text o.minFocal ++ ".." ++ Numeral.text o.maxFocal ++
    " mm, occupancy " ++ Numeral.text o.occupancy))
  say (titled "Sensor:" (Numeral.text s.camera.sensorHeight ++ " mm"))

/-- Answers a request. A new project begins with the standard settings, whatever is in effect. -/
def answer (K : Type) [Scalar K] [Numeral K] (named : Option Path) (r : Request) :
    Console m Unit := do
  let (s, file) ← loadSettings (K := K) named
  match r with
  | .compile file output style => compile s file output style
  | .check file => check s file
  | .inspect file entity frame => inspect s file entity frame
  | .begin directory => begin (Settings.standard (K := K)) directory
  | .info => info s file

def usage : String :=
  "\n".intercalate [
    "Usage: choreo [--config <file>] <command>",
    "",
    "Commands:",
    "  init [directory]                             begin a project with a demo movie",
    "  info                                         show the version and the settings",
    "  check <file>                                 check a movie",
    "  compile <file> [-o <root>] [--compact]       compile a movie and export it",
    "  inspect <file> -e <entity> [-f <frame>]      show a planned actor or camera",
    ""]

def run (K : Type) [Scalar K] [Numeral K] (words : List String) : m Outcome :=
  match parse? words with
  | some (.run named r) => (answer K named r).finish
  | some .showHelp => return ⟨0, usage, ""⟩
  | some .showVersion => return ⟨0, programName ++ " " ++ programVersion ++ "\n", ""⟩
  | none => return ⟨2, "", "error: the command line is not understood\n\n" ++ usage⟩

end Stagecraft.CommandLine
