import Stagecraft.Json.Printer
import Stagecraft.Movie.Decoding

/-!
# Reading and writing movies

`Movie.read` takes a movie from its text and `Movie.write` gives it back as text. The check of
command tags sees the commands the way they are counted everywhere: all commands to one entity, in
script order, with groups taken apart.
-/

namespace Stagecraft

variable {K : Type}

/-- Why a text is no movie. -/
inductive ReadError where
  | malformed
  | unknownCommand (entity : String) (index : Nat) (kind : String)

namespace ReadError

def message : ReadError → String
  | .malformed => "serialization error"
  | .unknownCommand entity index kind =>
    "unknown command type '" ++ kind ++ "' (command #" ++ toString index ++ " for '" ++ entity ++
      "')"

end ReadError

/-- A command on bare JSON, with the entity it is addressed to and the tags that entity knows. -/
structure RawCommand (K : Type) where
  entity : String
  known : List String
  command : Json K

namespace RawCommand

def kind (c : RawCommand K) : String :=
  ((c.command.get? "type").bind Json.asString?).getD "<missing>"

/-- The commands of a sequence. What does not look like a sequence has none. -/
def ofSequence (block : Json K) : List (RawCommand K) :=
  let commands := ((block.get? "commands").bind Json.asList?).getD []
  match (block.get? "actor").bind Json.asString?, (block.get? "camera").bind Json.asString? with
  | some actor, _ => commands.map fun c => ⟨actor, Command.kinds, c⟩
  | none, some camera => commands.map fun c => ⟨camera, CameraCommand.kinds, c⟩
  | none, none => []

/-- The commands of a unit of the script, with a group taken apart. -/
def ofBlock (block : Json K) : List (RawCommand K) :=
  match (block.get? "members").bind Json.asList? with
  | some members => members.flatMap ofSequence
  | none => ofSequence block

def ofMovie (raw : Json K) : List (RawCommand K) :=
  (((raw.get? "script").bind Json.asList?).getD []).flatMap ofBlock

/-- Refuses the first command with an unknown tag. `earlier` are the entities of the commands
before, so their number is the command's index. -/
def check (earlier : List String) : List (RawCommand K) → Except ReadError Unit
  | [] => .ok ()
  | c :: rest =>
    if c.kind ∈ c.known then check (c.entity :: earlier) rest
    else .error (.unknownCommand c.entity (earlier.count c.entity) c.kind)

end RawCommand

namespace Movie

def ofRaw [Scalar K] (raw : Json K) : Except ReadError (Movie K) := do
  RawCommand.check [] (RawCommand.ofMovie raw)
  match Movie.ofJson raw with
  | some m => .ok m
  | none => .error .malformed

def read [Scalar K] [Numeral K] (text : String) : Except ReadError (Movie K) :=
  match Json.parse? text with
  | some raw => ofRaw raw
  | none => .error .malformed

def write [Numeral K] (m : Movie K) : String :=
  m.toJson.indented

end Movie

end Stagecraft
