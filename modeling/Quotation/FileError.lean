/-!
# Faults of files

Why a file cannot be read or made, in the words that systems use.
-/

namespace Quotation

/-- Why a path leads to no file that can be used. -/
inductive FileError
  | notFound
  | isDirectory
  | notDirectory
  /-- A directory is to be made where a file lies. -/
  | alreadyThere
  deriving DecidableEq, Repr

/-- The sentence that names a fault. -/
def FileError.message : FileError → String
  | .notFound => "No such file or directory (os error 2)"
  | .isDirectory => "Is a directory (os error 21)"
  | .notDirectory => "Not a directory (os error 20)"
  | .alreadyThere => "File exists (os error 17)"

end Quotation
