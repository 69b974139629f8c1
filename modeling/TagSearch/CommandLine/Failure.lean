import TagSearch.Config.File
import TagSearch.SearchError

/-! Why a run of the program fails. -/
namespace TagSearch.CommandLine

inductive Failure
  | unknownUser (name : String)
  /-- The path of an export does not tell a format. -/
  | unknownFormat (path : String)
  | config (error : ConfigError)
  | disk (error : DiskError)
  | search (error : SearchError)
  /-- The catalog at an address cannot be opened. -/
  | opening (address : String) (error : StoreError)
deriving Repr, DecidableEq

namespace Failure

def message : Failure → String
  | unknownUser name => "unknown user '" ++ name ++ "'"
  | unknownFormat path => "cannot tell export format from '" ++ path ++ "', use .csv or .json"
  | config error => error.message
  | disk error => error.message
  | search error => error.message
  | opening address _ => "failed to open database at " ++ address

/-- What led to the failure, the nearest cause first. -/
def causes : Failure → List String
  | opening _ error => error.message :: error.causes
  | search (.store error) => error.causes
  | _ => []

/-- A cause after a label; its further lines stand under its first. -/
def causeText (label cause : String) : String :=
  label ++ cause.replace "\n" ("\n" ++ String.ofList (List.replicate label.length ' '))

/-- Several causes are numbered from 0. -/
def causeLines : List String → List String
  | [] => []
  | [cause] => ["", "Caused by:", causeText "    " cause]
  | causes =>
    "" :: "Caused by:" :: causes.zipIdx.map fun (cause, i) => causeText ("    " ++ toString i ++ ": ") cause

def render (f : Failure) : String :=
  String.intercalate "\n" (("Error: " ++ f.message) :: causeLines f.causes) ++ "\n"

end Failure
end TagSearch.CommandLine
