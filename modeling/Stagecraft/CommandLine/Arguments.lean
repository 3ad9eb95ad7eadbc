import Stagecraft.Files.Path
import Stagecraft.Json.Printer

/-!
# Command lines

The words of a command line are cut into options and positional arguments, and these are read as a
request. An option has a long name, perhaps a letter, and perhaps a value, which follows as the
next word, behind an equals sign, or right behind the letter.
-/

namespace Stagecraft.CommandLine

inductive Request where
  | compile (file : Path) (output : Option Path) (style : Json.Style)
  | check (file : Path)
  | inspect (file : Path) (entity : String) (frame : Option Nat)
  | begin (directory : Path)
  | info

/-- What a command line asks for. A request comes with the settings' file, if one is named. -/
inductive Invocation where
  | run (settings : Option Path) (request : Request)
  | showHelp
  | showVersion

def readPath (text : String) : Option Path :=
  if text = "" then none else some (Path.ofText text)

/-- A frame, within sixty-four bits. A plus sign may stand in front. -/
def readFrame (text : String) : Option Nat :=
  let cs := text.toList
  let digits := if cs.head? = some '+' then cs.drop 1 else cs
  let n := digits.foldl (fun n c => 10 * n + (c.toNat - 48)) 0
  if digits ≠ [] ∧ digits.all Char.isDigit ∧ n < UInt64.size then some n else none

inductive ValueKind where
  | path
  | frame
  | text
  deriving DecidableEq, Repr

def ValueKind.accepts : ValueKind → String → Bool
  | path, value => (readPath value).isSome
  | frame, value => (readFrame value).isSome
  | text, _ => true

/-- An option that may occur, with the kind of its value if it takes one. -/
structure OptionSpec where
  name : String
  letter : Option Char
  value : Option ValueKind
  deriving DecidableEq, Repr

inductive Argument where
  | option (name : String) (value : Option String)
  | positional (text : String)
  deriving DecidableEq, Repr

def settingsOption : OptionSpec := ⟨"config", none, some .path⟩

def helpOption : OptionSpec := ⟨"help", some 'h', none⟩

def versionOption : OptionSpec := ⟨"version", some 'V', none⟩

/-- A word that cannot be a value because it looks like an option. -/
def looksLikeOption (word : String) : Bool :=
  word.startsWith "-" && word ≠ "-"

/-- An option whose value is at hand or is the next word; and the words that follow. -/
def takeValue (spec : OptionSpec) (kind : ValueKind) (value : Option String)
    (rest : List String) : Option (Argument × List String) :=
  let taken (v : String) (rest : List String) : Option (Argument × List String) :=
    if kind.accepts v then some (.option spec.name (some v), rest) else none
  match value, rest with
  | some v, rest => taken v rest
  | none, word :: rest => if looksLikeOption word then none else taken word rest
  | none, [] => none

/-- A name with the value behind its equals sign, if there is one. -/
def splitEquals (cs : List Char) : String × Option String :=
  let (name, rest) := cs.span (· ≠ '=')
  (String.ofList name, match rest with | [] => none | _ :: value => some (String.ofList value))

/-- What stands right behind a letter is its value, with or without an equals sign. -/
def attachedValue : List Char → Option String
  | [] => none
  | '=' :: cs => some (String.ofList cs)
  | cs => some (String.ofList cs)

def takeNamed (spec : OptionSpec) (value : Option String) (rest : List String) :
    Option (Argument × List String) :=
  match spec.value, value with
  | some kind, value => takeValue spec kind value rest
  | none, none => some (.option spec.name none, rest)
  | none, some _ => none

/-- An option given by its letter. Behind the letter of an option that takes no value there may be
more letters, which are left as a word of their own. -/
def takeLettered (spec : OptionSpec) (cs : List Char) (rest : List String) :
    Option (Argument × List String) :=
  match spec.value, cs with
  | some kind, cs => takeValue spec kind (attachedValue cs) rest
  | none, [] => some (.option spec.name none, rest)
  | none, cs => some (.option spec.name none, String.ofList ('-' :: cs) :: rest)

/-- Reads the first word as an option or a positional argument, which must be a path. -/
def takeArgument (specs : List OptionSpec) (word : String) (rest : List String) :
    Option (Argument × List String) :=
  match word.toList with
  | '-' :: '-' :: cs => do
    let (name, value) := splitEquals cs
    takeNamed (← specs.find? fun s => s.name = name) value rest
  | '-' :: letter :: cs => do
    takeLettered (← specs.find? fun s => s.letter = some letter) cs rest
  | _ => if ValueKind.path.accepts word then some (.positional word, rest) else none

def positionals (arguments : List Argument) : List String :=
  arguments.filterMap fun
    | .positional text => some text
    | .option _ _ => none

def occurrences (spec : OptionSpec) (arguments : List Argument) : List (Option String) :=
  arguments.filterMap fun
    | .option name value => if name = spec.name then some value else none
    | .positional _ => none

def occurs (spec : OptionSpec) (arguments : List Argument) : Bool :=
  !(occurrences spec arguments).isEmpty

def value? {α : Type} (spec : OptionSpec) (read : String → Option α)
    (arguments : List Argument) : Option α :=
  (occurrences spec arguments).head?.join.bind read

/-- Whether an argument may follow earlier ones: no option occurs twice, and there are at most so
many positional arguments. -/
def mayFollow (places : Nat) (earlier : List Argument) : Argument → Bool
  | .option name _ => earlier.all fun
    | .option other _ => other ≠ name
    | .positional _ => true
  | .positional _ => (positionals earlier).length < places

/-- What the words of a command line come to: arguments and the words that are left, or the call for
help or for the version that comes first. -/
inductive Scan where
  | arguments (found : List Argument) (rest : List String)
  | help
  | version

/-- How many characters there are, each word counting for one more. -/
def extent (words : List String) : Nat :=
  words.foldl (fun n w => n + w.length + 1) 0

/-- Reads words one after another, in at most so many steps. What cannot be read matters only if no
call for help or for the version comes before it. Where no positional argument has a place the
words from the first one on are left; behind two dashes everything is positional. -/
def scan (specs : List OptionSpec) (places : Option Nat) :
    Nat → List Argument → List String → Option Scan
  | 0, _, _ => none
  | _ + 1, earlier, [] => some (.arguments earlier [])
  | n + 1, earlier, word :: rest => do
    if word = "--" then
      let found := rest.map Argument.positional
      guard (rest.all ValueKind.path.accepts)
      guard ((positionals (earlier ++ found)).length ≤ (← places))
      return .arguments (earlier ++ found) []
    let (argument, rest) ← takeArgument specs word rest
    match argument, places with
    | .positional _, none => return .arguments earlier (word :: rest)
    | _, _ =>
      if argument = .option helpOption.name none then return .help
      if argument = .option versionOption.name none then return .version
      guard (mayFollow (places.getD 0) earlier argument)
      scan specs places n (earlier ++ [argument]) rest

/-- A command with its options, how many positional arguments it has at most, and the reader of its
arguments. -/
structure CommandSpec where
  name : String
  options : List OptionSpec
  places : Nat
  read : List Argument → Option Request

def outputOption : OptionSpec := ⟨"output", some 'o', some .path⟩
def compactOption : OptionSpec := ⟨"compact", none, none⟩
def entityOption : OptionSpec := ⟨"entity", some 'e', some .text⟩
def frameOption : OptionSpec := ⟨"frame", some 'f', some .frame⟩

def firstPath (arguments : List Argument) : Option Path := do
  readPath (← (positionals arguments).head?)

def readCompile (arguments : List Argument) : Option Request := do
  let style : Json.Style := if occurs compactOption arguments then .compact else .indented
  return .compile (← firstPath arguments) (value? outputOption readPath arguments) style

def readInspect (arguments : List Argument) : Option Request := do
  return .inspect (← firstPath arguments) (← value? entityOption some arguments)
    (value? frameOption readFrame arguments)

def commands : List CommandSpec := [
  ⟨"compile", [outputOption, compactOption], 1, readCompile⟩,
  ⟨"check", [], 1, fun arguments => (firstPath arguments).map .check⟩,
  ⟨"inspect", [entityOption, frameOption], 1, readInspect⟩,
  ⟨"init", [], 1, fun arguments => some (.begin ((firstPath arguments).getD (Path.ofText ".")))⟩,
  ⟨"info", [], 0, fun _ => some .info⟩]

/-- Reads what follows the name of a command. The settings' file may be named there too, and then
counts more than in front. -/
def CommandSpec.invoke (c : CommandSpec) (front : Option Path) (words : List String) :
    Option Invocation := do
  let specs := settingsOption :: helpOption :: c.options
  match (← scan specs (some c.places) (extent words + 1) [] words) with
  | .arguments found _ =>
    return .run ((value? settingsOption readPath found).or front) (← c.read found)
  | .help => return .showHelp
  | .version => return .showVersion

/-- Reads what follows the word `help`: nothing, or the name of a command. -/
def helpOn : List String → Option Invocation
  | [] => some .showHelp
  | [name] => if (commands.map (·.name)).contains name then some .showHelp else none
  | _ => none

def parse? (words : List String) : Option Invocation := do
  let specs := [settingsOption, helpOption, versionOption]
  match (← scan specs none (extent words + 1) [] words) with
  | .arguments front rest =>
    match rest with
    | "help" :: names => helpOn names
    | name :: rest =>
      (← commands.find? fun c => c.name = name).invoke (value? settingsOption readPath front) rest
    | [] => none
  | .help => return .showHelp
  | .version => return .showVersion

end Stagecraft.CommandLine
