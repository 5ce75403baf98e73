/-!
The texts that the command line displays.
-/

namespace AccessBench.CommandLine

def versionLine : String := "readahead-bench 0.3.0"

/-- The help text with a line for each option. -/
def shortHelp : List String := [
  "Measure how the kernel's readahead and fault-around react to access patterns",
  "",
  "Usage: readahead-bench [OPTIONS] [PATH]",
  "",
  "Arguments:",
  "  [PATH]  Fixture file for the file suite (default: /tmp/readahead_test_file)",
  "",
  "Options:",
  "      --suite <SUITE>    Suites to run [default: all] [possible values: all, memory, file]",
  "      --format <FORMAT>  Output format (text, json or csv) " ++
    "[default: text] [possible values: text, json, csv]",
  "      --config <FILE>    TOML configuration file",
  "  -n, --iterations <N>   Trials averaged per row (overrides the config file)",
  "      --seed <N>         Seed for random permutations, decimal or 0x-prefixed hex",
  "      --reuse-fixture    Use the file at PATH as-is; it is neither created nor deleted",
  "      --keep-fixture     Do not delete the fixture after the run",
  "      --debug            Enable debug tracing output to stderr",
  "  -h, --help             Print help (see more with '--help')",
  "  -V, --version          Print version"]

/-- The help text with a paragraph for each option. -/
def longHelp : List String := [
  "Measure how the kernel's readahead and fault-around react to access patterns",
  "",
  "Usage: readahead-bench [OPTIONS] [PATH]",
  "",
  "Arguments:",
  "  [PATH]",
  "          Fixture file for the file suite (default: /tmp/readahead_test_file)",
  "",
  "Options:",
  "      --suite <SUITE>",
  "          Suites to run",
  "",
  "          Possible values:",
  "          - all:    Memory faults, then file readahead",
  "          - memory: Anonymous-memory page faults only",
  "          - file:   File readahead only",
  "          ",
  "          [default: all]",
  "",
  "      --format <FORMAT>",
  "          Output format (text, json or csv)",
  "",
  "          Possible values:",
  "          - text: Fixed-width tables (default)",
  "          - json: JSON format for machine parsing",
  "          - csv:  CSV format for spreadsheet analysis",
  "          ",
  "          [default: text]",
  "",
  "      --config <FILE>",
  "          TOML configuration file",
  "",
  "  -n, --iterations <N>",
  "          Trials averaged per row (overrides the config file)",
  "",
  "      --seed <N>",
  "          Seed for random permutations, decimal or 0x-prefixed hex",
  "",
  "      --reuse-fixture",
  "          Use the file at PATH as-is; it is neither created nor deleted",
  "",
  "      --keep-fixture",
  "          Do not delete the fixture after the run",
  "",
  "      --debug",
  "          Enable debug tracing output to stderr",
  "",
  "  -h, --help",
  "          Print help (see a summary with '-h')",
  "",
  "  -V, --version",
  "          Print version"]

def helpLines (long : Bool) : List String := if long then longHelp else shortHelp

def linesText (lines : List String) : String := String.join (lines.map (· ++ "\n"))

end AccessBench.CommandLine
