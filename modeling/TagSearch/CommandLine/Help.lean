/-! The help text of the command line. -/
namespace TagSearch.CommandLine

def helpLines : List String := [
  "tagsift - tag query and search tool for an image catalog",
  "",
  "USAGE:",
  "    tagsift [OPTIONS] <COMMAND> [QUERY...]",
  "",
  "COMMANDS:",
  "    parse QUERY           Show the predicates a query resolves to",
  "    images QUERY          Search images",
  "    collections QUERY     Search collections",
  "    adjacent ID QUERY     Previous and next matching image around ID",
  "    random QUERY          Pick a random matching image",
  "    export PATH QUERY     Write all matches to PATH (.csv or .json)",
  "    hash                  Compute perceptual hashes for unhashed images",
  "    stats                 Show catalog totals",
  "",
  "OPTIONS:",
  "    --config, -c PATH     Path to config file",
  "    --user, -u NAME       Fold in NAME's stored search filter",
  "    --start N             Zero-based result offset (default: 0)",
  "    --stride N            Page size, 0 for everything (default: from config)",
  "    --collections         Make parse/export work on collections",
  "    --verbose, -v         Log to stderr (debug level unless TAGSIFT_LOG is set)",
  "    --version, -V         Show version",
  "    --help, -h            Show this help message",
  "",
  "ENVIRONMENT:",
  "    TAGSIFT_CONFIG        Path to config file (overrides default location)",
  "    TAGSIFT_LOG           Log level (trace, debug, info, warn, error)",
  "",
  "Queries: words are tags, \"-tag\" excludes, \"quoted words\" form one tag,",
  "name:value is a metatag (rating:safe, score:>5, uploader:NAME, tagcount:<3,",
  "incollection:yes, ordersimilar:ID, name:TEXT, location:TEXT)."]

def help : String := String.join (helpLines.map (· ++ "\n"))

def version : String := "tagsift 0.1.0\n"

end TagSearch.CommandLine
