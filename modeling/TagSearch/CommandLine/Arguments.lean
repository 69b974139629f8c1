import TagSearch.Text.Decimal

/-! The arguments of the command line: options anywhere, one command, and the words of a query behind it. -/
namespace TagSearch.CommandLine

inductive Command
  | parse | images | collections
  | adjacent (pivot : UInt64)
  | random
  | exportTo (path : String)
  | hash | stats
deriving Repr, DecidableEq

structure Arguments where
  command : Option Command
  /-- The words behind the command that are no options. -/
  query : List String
  config : Option String
  user : Option String
  start : UInt64
  stride : Option UInt64
  collections : Bool
  verbose : Bool
deriving Repr, DecidableEq

/-- Why there is nothing to run. -/
inductive Stop
  | help
  | version
  | missingValue (flag : String)
  | invalidNumber (flag text : String)
  | unknownCommand (word : String)
deriving Repr, DecidableEq

inductive Flag
  | config | user | start | stride
deriving Repr, DecidableEq

/-- A word that is an option wherever it stands. -/
inductive Keyword
  | help | version | collections | verbose
  | flag (f : Flag)
deriving Repr, DecidableEq

/-- A command, or the first word of one with an operand. -/
inductive Verb
  | plain (command : Command)
  | adjacent
  | exportTo
deriving Repr, DecidableEq

def Flag.name : Flag → String
  | config => "--config"
  | user => "--user"
  | start => "--start"
  | stride => "--stride"

def Keyword.ofWord? (word : String) : Option Keyword :=
  if word = "--help" ∨ word = "-h" then some help
  else if word = "--version" ∨ word = "-V" then some version
  else if word = "--config" ∨ word = "-c" then some (flag .config)
  else if word = "--user" ∨ word = "-u" then some (flag .user)
  else if word = "--start" then some (flag .start)
  else if word = "--stride" then some (flag .stride)
  else if word = "--collections" then some collections
  else if word = "--verbose" ∨ word = "-v" then some verbose
  else none

def Verb.ofWord? (word : String) : Option Verb :=
  if word = "parse" then some (plain .parse)
  else if word = "images" then some (plain .images)
  else if word = "collections" then some (plain .collections)
  else if word = "adjacent" then some adjacent
  else if word = "random" then some (plain .random)
  else if word = "export" then some exportTo
  else if word = "hash" then some (plain .hash)
  else if word = "stats" then some (plain .stats)
  else none

def number (flag text : String) : Except Stop UInt64 :=
  match Text.word? text.toList with
  | some n => .ok n
  | none => .error (.invalidNumber flag text)

def Verb.withOperand (operand : String) : Verb → Except Stop Command
  | plain command => .ok command
  | adjacent => (number "adjacent" operand).map .adjacent
  | exportTo => .ok (.exportTo operand)

namespace Arguments

def empty : Arguments where
  command := none
  query := []
  config := none
  user := none
  start := 0
  stride := none
  collections := false
  verbose := false

/-- The arguments with the value of an option; it replaces an earlier one. -/
def set (args : Arguments) (flag : Flag) (value : String) : Except Stop Arguments :=
  match flag with
  | .config => .ok { args with config := some value }
  | .user => .ok { args with user := some value }
  | .start => (number flag.name value).map fun n => { args with start := n }
  | .stride => (number flag.name value).map fun n => { args with stride := some n }

def readFrom (args : Arguments) : List String → Except Stop Arguments
  | [] => .ok args
  | word :: rest =>
    match Keyword.ofWord? word with
    | some .help => .error .help
    | some .version => .error .version
    | some .collections => { args with collections := true }.readFrom rest
    | some .verbose => { args with verbose := true }.readFrom rest
    | some (.flag flag) =>
      match rest with
      | [] => .error (.missingValue flag.name)
      | value :: rest =>
        match args.set flag value with
        | .ok args => args.readFrom rest
        | .error stop => .error stop
    | none =>
      if args.command.isSome then { args with query := args.query ++ [word] }.readFrom rest
      else
        match Verb.ofWord? word with
        | none => .error (.unknownCommand word)
        | some (.plain command) => { args with command := some command }.readFrom rest
        | some verb =>
          match rest with
          | [] => .error (.missingValue word)
          | operand :: rest =>
            match verb.withOperand operand with
            | .ok command => { args with command := some command }.readFrom rest
            | .error stop => .error stop

def parse (words : List String) : Except Stop Arguments := empty.readFrom words

end Arguments
end TagSearch.CommandLine
