import TagSearch.Path
import TagSearch.Text.Letter

/-! The formats of exported results. -/
namespace TagSearch.Export

inductive Format
  | json | csv
deriving Repr, DecidableEq

namespace Format

def extension : Format → String
  | json => "json"
  | csv => "csv"

def name : Format → String
  | json => "JSON"
  | csv => "CSV"

/-- The format that the extension of a path names, in either case. -/
def ofPath? (path : String) : Option Format :=
  (Path.extension? path).bind fun found =>
    [json, csv].find? fun format => format.extension = Text.lowerAsciiText found

end Format
end TagSearch.Export
