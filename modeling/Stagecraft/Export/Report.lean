import Stagecraft.Export.Layout
import Stagecraft.Files.Store

/-!
# Exporting

A reel is exported to a folder under a root. The entities must have different folders, and a file
must not stand where the movie's folder belongs; then the steps of the layout are taken.
-/

namespace Stagecraft

variable {K : Type}

inductive ExportError where
  | clash (c : FolderClash)
  | notDirectory (p : Path)
  | files (cause : FileError)
  deriving DecidableEq, Repr

namespace ExportError

def exportText (cause : String) : String := "export error: " ++ cause

def filesText (cause : FileError) : String := "IO error: " ++ cause.message

def message : ExportError → String
  | clash c =>
    exportText ("'" ++ c.first ++ "' and '" ++ c.second ++ "' both export to folder '" ++
      c.folder ++ "'")
  | notDirectory p => exportText (p.text ++ " exists and is not a directory")
  | files cause => filesText cause

end ExportError

structure ExportReport (K : Type) where
  directory : Path
  manifest : Manifest K
  files : List Path

def movieFolder (root : Path) (name : String) : Path :=
  root.child (folderName name)

def Reel.exportTo [Scalar K] [Numeral K] {m : Type → Type} [Monad m] [MonadFiles m] (r : Reel K)
    (style : Json.Style) (root : Path) : m (Except ExportError (ExportReport K)) := do
  match folderClash? [] r.entityNames with
  | some c => return .error (.clash c)
  | none =>
    let directory := movieFolder root r.name
    if (← MonadFiles.kind? directory) = some .file then
      return .error (.notDirectory directory)
    let steps := r.exportSteps style directory
    match (← performAll steps) with
    | .ok () => return .ok ⟨directory, r.manifest, steps.filterMap FileStep.written?⟩
    | .error e => return .error (.files e)

end Stagecraft
