import Stagecraft.Files.Tree

/-!
# File stores

The program reaches its files through `MonadFiles` alone. A file tree that is passed along is one
such store, so everything the program does to files can be followed on a tree.
-/

namespace Stagecraft

class MonadFiles (m : Type → Type) where
  /-- What stands at a path. -/
  kind? : Path → m (Option FileKind)
  /-- The text of a file. -/
  read : Path → m (Except FileError String)
  /-- Makes a change. -/
  perform : FileStep → m (Except FileError Unit)

instance {m n : Type → Type} [MonadLift m n] [MonadFiles m] : MonadFiles n where
  kind? p := liftM (MonadFiles.kind? p : m _)
  read p := liftM (MonadFiles.read p : m _)
  perform s := liftM (MonadFiles.perform s : m _)

/-- Makes changes one after another; the first that fails is the last. -/
def performAll {m : Type → Type} [Monad m] [MonadFiles m] :
    List FileStep → m (Except FileError Unit)
  | [] => return .ok ()
  | s :: rest => do
    match (← MonadFiles.perform s) with
    | .ok () => performAll rest
    | .error e => return .error e

instance : MonadFiles (StateM FileTree) where
  kind? p t := ((t.find? p).map FileNode.kind, t)
  read p t := (t.read p, t)
  perform s t := s.apply t

end Stagecraft
