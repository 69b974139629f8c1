import TagSearch.Path

/-! The folders of a user, as the environment names them. -/
namespace TagSearch

/-- What the environment tells; a variable that is not set is none. -/
structure Environment where
  /-- The path of the configuration. -/
  configuration : Option String
  configHome : Option String
  dataHome : Option String
  /-- The folder of the user. -/
  home : Option String
  /-- The folder of the user in the list of accounts. -/
  accountHome : Option String
deriving Repr, DecidableEq

namespace Environment

/-- The folder of the user; the list of accounts counts when the variable is missing or empty. -/
def userFolder (e : Environment) : Option String :=
  match e.home with
  | some home => if home.isEmpty then e.accountHome else some home
  | none => e.accountHome

/-- A folder that a variable names by an absolute path; else its usual place below the folder of the user, or the
current folder if there is none. -/
def folder (e : Environment) (given usual : String) : String :=
  if Path.isAbsolute given then given
  else match e.userFolder with
    | some home => Path.join home usual
    | none => "."

def configFolder (e : Environment) : String := e.folder (e.configHome.getD "") ".config"

def dataFolder (e : Environment) : String := e.folder (e.dataHome.getD "") ".local/share"

def logFolder (e : Environment) : String := Path.join (Path.join e.dataFolder "tagsift") "logs"

/-- The path of the configuration: the given one, or its usual place. -/
def configPath (e : Environment) : String :=
  match e.configuration with
  | some path => path
  | none => Path.join (Path.join e.configFolder "tagsift") "config.toml"

end Environment
end TagSearch
