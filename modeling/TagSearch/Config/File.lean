import TagSearch.Config
import TagSearch.Disk

/-! Configuration files. -/
namespace TagSearch

inductive ConfigError
  | disk (error : DiskError)
  | malformed
  /-- A document cannot hold so large a number. -/
  | tooLarge
deriving Repr, DecidableEq

def ConfigError.message : ConfigError → String
  | disk error => error.message
  | malformed => "TOML parse error"
  | tooLarge => "number out of range"

namespace Config

variable {m : Type → Type} [Monad m]

/-- Write a configuration to a file, with the folders around it. A number that is too large leaves the file as it
is. -/
def save (disk : Disk m) (c : Config) (path : String) : ExceptT ConfigError m Unit := do
  match Path.parent? path with
  | some folder => ExceptT.adapt .disk (ExceptT.mk (disk.makeFolders folder))
  | none => pure ()
  match c.render? with
  | some text => ExceptT.adapt .disk (ExceptT.mk (disk.writeText path text))
  | none => throw .tooLarge

/-- The configuration in a file. Where there is no file, the fallback is written to it. -/
def load (disk : Disk m) (fallback : Config) (path : String) : ExceptT ConfigError m Config := do
  if ← disk.holds path then
    let text ← ExceptT.adapt .disk (ExceptT.mk (disk.readText path))
    match read? fallback text with
    | some c => pure c
    | none => throw .malformed
  else
    fallback.save disk path
    pure fallback

end Config
end TagSearch
