/-!
# Folder names

Movies and entities are exported to folders named after them. Whatever is not safe in the name of
a folder becomes an underscore, so that a folder always stays inside the one that holds it, and
two entities whose folders would be the same are refused.
-/

namespace Stagecraft

/-- The characters a folder's name may hold: letters and digits, and four others. -/
def isFolderChar (c : Char) : Bool :=
  c.isAlphanum || c = '-' || c = '_' || c = '.' || c = ' '

def trimBlanks (cs : List Char) : List Char :=
  ((cs.dropWhile (· = ' ')).reverse.dropWhile (· = ' ')).reverse

def folderName (name : String) : String :=
  let cs := trimBlanks (name.toList.map fun c => if isFolderChar c then c else '_')
  if cs = [] ∨ cs = ['.'] ∨ cs = ['.', '.'] then "_" else String.ofList cs

/-- Two names with the same folder. -/
structure FolderClash where
  first : String
  second : String
  folder : String
  deriving DecidableEq, Repr

/-- The first clash among some names. `earlier` are folders with their names. -/
def folderClash? (earlier : List (String × String)) : List String → Option FolderClash
  | [] => none
  | name :: rest =>
    match earlier.lookup (folderName name) with
    | some first => some ⟨first, name, folderName name⟩
    | none => folderClash? ((folderName name, name) :: earlier) rest

end Stagecraft
