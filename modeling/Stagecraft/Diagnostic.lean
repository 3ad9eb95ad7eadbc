import Stagecraft.Json.Record

/-!
# Diagnostics

A diagnostic is a finding that does not stop the work: something was clamped, widened or ignored.
It names the entity it concerns and, where one command is to blame, the index of that command
among all commands to the entity. What was found is of any type `M`; it becomes text to be shown.
-/

namespace Stagecraft

variable {K : Type} {M : Type}

inductive Severity where
  | warning
  | info
  deriving DecidableEq, Repr

def Severity.name : Severity → String
  | warning => "warning"
  | info => "info"

def Severity.all : List Severity := [.warning, .info]

structure Diagnostic (M : Type) where
  severity : Severity
  entity : String
  commandIndex : Option Nat
  message : M
  deriving BEq

namespace Diagnostic

def warning (entity : String) (commandIndex : Option Nat) (message : M) : Diagnostic M :=
  ⟨.warning, entity, commandIndex, message⟩

def info (entity : String) (message : M) : Diagnostic M :=
  ⟨.info, entity, none, message⟩

def map {N : Type} (f : M → N) (d : Diagnostic M) : Diagnostic N :=
  ⟨d.severity, d.entity, d.commandIndex, f d.message⟩

def text (d : Diagnostic String) : String :=
  let place :=
    match d.commandIndex with
    | some index => " (command #" ++ toString index ++ " for '" ++ d.entity ++ "')"
    | none => " ('" ++ d.entity ++ "')"
  d.severity.name ++ ": " ++ d.message ++ place

def toJson (d : Diagnostic String) : Json K :=
  .obj ([("severity", .str d.severity.name), ("entity", .str d.entity)] ++
    (match d.commandIndex with
      | some index => [("command_index", Json.ofNat index)]
      | none => []) ++
    [("message", .str d.message)])

open Json.Reader in
def ofJson : Json K → Option (Diagnostic String) :=
  Json.record do
    return ⟨← field "severity" (Json.oneOf false (Severity.all.map fun s => (s.name, s))),
      ← field "entity" Json.text?, ← field? "command_index" Json.count?,
      ← field "message" Json.text?⟩

end Diagnostic

end Stagecraft
