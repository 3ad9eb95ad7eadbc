import Stagecraft.Files.Store
import Stagecraft.Plan.Basic

/-!
# Consoles

A command prints lines, looks at files and changes them, and may end early with a failure. What it
has printed up to then stays printed.
-/

namespace Stagecraft.CommandLine

/-- Why a command ends early: with a message and what led to it, outermost first, or because bounds
are crossed or undefined. -/
inductive Failure where
  | report (message : String) (causes : List String)
  | boundsUndefined

/-- Text with every line behind a margin; the first line may have one of its own. -/
def indentLines (first margin text : String) : String :=
  first ++ text.replace "\n" ("\n" ++ margin)

/-- A text of at least five characters, with blanks in front. -/
def padLeft (text : String) : String :=
  String.ofList (List.replicate (5 - text.length) ' ') ++ text

/-- A text of at least five characters, with blanks behind. -/
def padRight (text : String) : String :=
  text ++ String.ofList (List.replicate (5 - text.length) ' ')

namespace Failure

/-- The causes below each other, numbered when there are several. -/
def causeLines : List String → List String
  | [cause] => [indentLines "    " "    " cause]
  | causes =>
    causes.zipIdx.map fun (cause, i) =>
      indentLines (padLeft (toString i) ++ ": ") "       " cause

def text : Failure → String
  | report message [] => "Error: " ++ message ++ "\n"
  | report message causes =>
    "Error: " ++ message ++ "\n\nCaused by:\n" ++ "\n".intercalate (causeLines causes) ++ "\n"
  | boundsUndefined => "bounds are crossed or undefined\n"

def code : Failure → Nat
  | report _ _ => 1
  | boundsUndefined => 101

def ofPlan {K : Type} [Numeral K] (attempt : String) : PlanError K → Failure
  | .boundsUndefined => boundsUndefined
  | e => report attempt [e.message]

end Failure

/-- Commands: they may fail, and print to the text that is passed along. -/
abbrev Console (m : Type → Type) : Type → Type := ExceptT Failure (StateT String m)

variable {m : Type → Type} [Monad m] [MonadFiles m] {α : Type}

def say (line : String) : Console m Unit :=
  modify fun printed => printed ++ line ++ "\n"

def fail (message : String) (causes : List String) : Console m α :=
  throw (.report message causes)

structure Outcome where
  code : Nat
  output : String
  errors : String
  deriving DecidableEq, Repr

def Console.finish (c : Console m Unit) : m Outcome := do
  match (← (ExceptT.run c).run "") with
  | (.ok (), printed) => return ⟨0, printed, ""⟩
  | (.error e, printed) => return ⟨e.code, printed, e.text⟩

end Stagecraft.CommandLine
