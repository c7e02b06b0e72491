import SchemaOrder.Text.Basic

/-!
# Usage

This module holds what the program says about its own use: the summary that stands above
a complaint about arguments, and the help.
-/

namespace SchemaOrder.Usage

/-- The name of the program. -/
def programName : Text := "gqlsort"

/-- Lines, each with its end. -/
def ended (lines : List String) : Text :=
  lines.flatMap fun line => Text.ofString line ++ Text.ofString "\n"

/-- The summary of the arguments. -/
def summary : Text :=
  ended [
    "usage: gqlsort [-h] [--input INPUT] [--output OUTPUT] [--input-dir INPUT_DIR]",
    "               [--output-dir OUTPUT_DIR] [--from \x7bsdl,introspection\x7d]",
    "               [--to \x7bsdl,json\x7d] [--check] [--fingerprint] [--locale LOCALE]",
    "               [--sensitivity \x7bbase,accent,case,variant\x7d] [--numeric]",
    "               [--case-first \x7bupper,lower,false\x7d] [--ignore-punctuation]",
    "               [--verbose] [--quiet]"]

/-- The help. -/
def help : Text :=
  summary ++ ended [
    "",
    "Sort GraphQL schemas lexicographically",
    "",
    "options:",
    "  -h, --help            show this help message and exit",
    "  --input INPUT, -i INPUT",
    "                        Input schema file (SDL or introspection JSON)",
    "  --output OUTPUT, -o OUTPUT",
    "                        Output file path (default: stdout)",
    "  --input-dir INPUT_DIR",
    "                        Input directory for batch sorting",
    "  --output-dir OUTPUT_DIR",
    "                        Output directory for batch sorting",
    "  --from \x7bsdl,introspection\x7d",
    "                        Input format (default: from file extension)",
    "  --to \x7bsdl,json\x7d       Output format (default: sdl)",
    "  --check               Exit with status 1 if the input is not already sorted",
    "  --fingerprint         Print the SHA-256 fingerprint of the sorted schema",
    "  --verbose, -v         Log debug output",
    "  --quiet, -q           Only log warnings",
    "",
    "comparison:",
    "  --locale LOCALE       BCP 47 locale tag; may be repeated",
    "  --sensitivity \x7bbase,accent,case,variant\x7d",
    "  --numeric             Compare digit runs by value",
    "  --case-first \x7bupper,lower,false\x7d",
    "  --ignore-punctuation",
    "",
    "gqlsort: sort GraphQL schemas into a canonical, diff-stable order.",
    "",
    "Usage:",
    "    gqlsort --input FILE [--output FILE] [--to sdl|json]",
    "    gqlsort --input-dir DIR --output-dir DIR [--to sdl|json]",
    "    gqlsort --input FILE --check         # exit 1 unless already sorted",
    "    gqlsort --input FILE --fingerprint   # print the order-insensitive SHA-256",
    "",
    "Files ending in .json are read as introspection results, anything else as SDL",
    "(override with --from). Without comparison flags names are ordered by code",
    "point; any of --locale, --sensitivity, --numeric, --case-first or",
    "--ignore-punctuation switches to Unicode collation."]

end SchemaOrder.Usage
