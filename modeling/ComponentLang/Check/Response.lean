import ComponentLang.Check.Report
import ComponentLang.Options.Decode

namespace ComponentLang.Check

structure Response where
  status : Nat
  output : String
  deriving DecidableEq, Repr

namespace Response

def failure : Response where
  status := 2
  output := ""

def versionText : String :=
  "fpp-check 0.1.0\n"

def helpText : String :=
  "\n".intercalate
    ["Scan and analyze FPP sources, reporting diagnostics",
      "",
      "Usage: fpp-check [OPTIONS] [FILES]...",
      "",
      "Arguments:",
      "  [FILES]...  Source files to check (reads stdin if none are given)",
      "",
      "Options:",
      "  -f, --format <FORMAT>  Output format [default: human] " ++
        "[possible values: human, json]",
      "      --tokens           Also print classified identifier tokens",
      "  -c, --config <CONFIG>  JSON file with analyzer options",
      "  -h, --help             Print help",
      "  -V, --version          Print version",
      ""]

end Response

def Arguments.options? (arguments : Arguments)
    (read : String → Option String) : Option Options :=
  match arguments.config with
  | none => some {}
  | some path => (read path).bind Options.ofText?

def Arguments.sources? (arguments : Arguments) (read : String → Option String)
    (input : Option String) : Option (List (String × String)) :=
  if arguments.files.isEmpty then
    input.map fun text => [("<stdin>", text)]
  else
    arguments.files.mapM fun path => (read path).map fun text => (path, text)

def Arguments.respond (arguments : Arguments) (read : String → Option String)
    (input : Option String) : Response :=
  match arguments.options? read with
  | none => .failure
  | some options =>
      match arguments.sources? read input with
      | none => .failure
      | some sources =>
          let files := sources.map fun (path, text) =>
            Checked.ofText options path text
          { status :=
              if files.any fun file => file.analysis.hasErrors then 1 else 0
            output := report (arguments.format.getD .human) arguments.tokens files }

/-- The answer to a request. `read` gives the text of a file and `input` that of
standard input, unless they cannot be read. -/
def Request.respond (request : Request) (read : String → Option String)
    (input : Option String) : Response :=
  match request with
  | .check arguments => arguments.respond read input
  | .version => ⟨0, Response.versionText⟩
  | .help => ⟨0, Response.helpText⟩
  | .misuse => .failure

end ComponentLang.Check
