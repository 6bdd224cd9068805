import MeteredWasm.CommandLine.Request

/-!
# Help

What the command line says about itself.
-/

set_option autoImplicit false

namespace MeteredWasm.CommandLine

/-- The name of the program and its version. -/
def versionText : String := "wasmo-sandbox 0.1.0\n"

/-- A table of names and what they are for, in two columns. -/
def twoColumns (rows : List (String × String)) : String :=
  let width := rows.foldl (fun width row => max width row.1.length) 0
  String.join (rows.map fun (name, purpose) =>
    "    " ++ name ++ String.ofList (List.replicate (width - name.length + 4) ' ') ++ purpose ++
      "\n")

/-- A table of names with what they are for on the next line. -/
def nextLine (rows : List (String × String)) : String :=
  String.intercalate "\n" (rows.map fun (name, purpose) =>
    "    " ++ name ++ "\n            " ++ purpose ++ "\n")

def helpRow : String × String := ("-h, --help", "Print help information")

def programHelp : String :=
  versionText ++ "A metered, suspendable and serializable WebAssembly sandbox\n\n" ++
    "USAGE:\n    wasmo-sandbox <SUBCOMMAND>\n\nOPTIONS:\n" ++
    twoColumns [helpRow, ("-V, --version", "Print version information")] ++
    "\nSUBCOMMANDS:\n" ++
    twoColumns
      [("help", "Print this message or the help of the given subcommand(s)"),
        ("instrument", "Instruments a module and writes the result as an artifact"),
        ("run", "Runs a module tick by tick until its entry function returns")]

def runHelp : String :=
  "wasmo-sandbox-run \nRuns a module tick by tick until its entry function returns\n\n" ++
    "USAGE:\n    wasmo-sandbox run [OPTIONS] <FILE>\n\nARGS:\n" ++
    nextLine
      [("<FILE>",
        "A `.wasm` or `.wat` module, or an instrumented artifact with `--artifact`")] ++
    "\nOPTIONS:\n" ++
    nextLine
      [("    --artifact", "Treat `file` as the output of `instrument`"),
        ("    --entry <ENTRY>", "Name of the exported entry function [default: entry]"),
        ("    --gas <GAS>", "Gas added before each tick [default: 10000]"),
        helpRow,
        ("    --max-ticks <MAX_TICKS>", "Stop after this many ticks"),
        ("    --memory-max-pages <MEMORY_MAX_PAGES>",
          "Ceiling on linear memory, in pages [default: 256]"),
        ("    --migrate-after <MIGRATE_AFTER>",
          "Move the paused state into a fresh executor after this many ticks"),
        ("    --resume <RESUME>", "Start from a memory snapshot written by an earlier run"),
        ("    --snapshot <SNAPSHOT>",
          "Where to write linear memory if the run stops while paused")]

def instrumentHelp : String :=
  "wasmo-sandbox-instrument \nInstruments a module and writes the result as an artifact\n\n" ++
    "USAGE:\n    wasmo-sandbox instrument [OPTIONS] --output <OUTPUT> <FILE>\n\nARGS:\n" ++
    twoColumns [("<FILE>", "A `.wasm` or `.wat` module")] ++ "\nOPTIONS:\n" ++
    twoColumns
      [("    --entry <ENTRY>", "Name of the exported entry function [default: entry]"),
        helpRow,
        ("-o, --output <OUTPUT>", "Where to write the artifact")]

def helpHelp : String :=
  "wasmo-sandbox-help \nPrint this message or the help of the given subcommand(s)\n\n" ++
    "USAGE:\n    wasmo-sandbox help [SUBCOMMAND]...\n\nARGS:\n" ++
    twoColumns [("<SUBCOMMAND>...", "The subcommand whose help message to display")]

def Topic.text : Topic → String
  | .program => programHelp
  | .run => runHelp
  | .instrument => instrumentHelp
  | .help => helpHelp

end MeteredWasm.CommandLine
