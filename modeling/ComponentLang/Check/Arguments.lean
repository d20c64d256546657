namespace ComponentLang.Check

inductive Format where
  | human | json
  deriving DecidableEq, Repr

def Format.ofName? : String → Option Format
  | "human" => some .human
  | "json" => some .json
  | _ => none

/-- What to check and how to report it. Without files, standard input is
checked. -/
structure Arguments where
  format : Option Format := none
  tokens : Bool := false
  config : Option String := none
  /-- Latest first while the arguments are read. -/
  files : List String := []
  deriving DecidableEq, Repr

inductive Request where
  | check (arguments : Arguments)
  | version
  | help
  | misuse
  deriving DecidableEq, Repr

inductive Setting where
  | format | config
  deriving DecidableEq, Repr

/-- One argument, by its spelling. A value can be attached to its option. -/
inductive Argument where
  | setting (setting : Setting) (attached : Option String)
  | tokens
  | version
  | help
  | endOfOptions
  | file (path : String)
  | unknown
  deriving DecidableEq, Repr

namespace Argument

/-- An option spelled with two dashes and, behind a `=`, its value. -/
def ofLong (chars : List Char) : Argument :=
  let name := String.ofList (chars.takeWhile (· != '='))
  match chars.dropWhile (· != '=') with
  | _ :: value =>
      match name with
      | "format" => .setting .format (some (String.ofList value))
      | "config" => .setting .config (some (String.ofList value))
      | _ => .unknown
  | [] =>
      match name with
      | "format" => .setting .format none
      | "config" => .setting .config none
      | "tokens" => .tokens
      | "version" => .version
      | "help" => .help
      | _ => .unknown

/-- The value in the same argument as a one-letter option, with or without a
`=` before it. -/
def attachedValue : List Char → Option String
  | [] => none
  | '=' :: value => some (String.ofList value)
  | value => some (String.ofList value)

def ofShort (letter : Char) (rest : List Char) : Argument :=
  match letter with
  | 'f' => .setting .format (attachedValue rest)
  | 'c' => .setting .config (attachedValue rest)
  | 'V' => .version
  | 'h' => .help
  | _ => .unknown

def ofString (text : String) : Argument :=
  match text.toList with
  | ['-', '-'] => .endOfOptions
  | '-' :: '-' :: chars => ofLong chars
  | '-' :: letter :: rest => ofShort letter rest
  | _ => .file text

/-- Whether the text can be a value of its own: it is no option. A single dash
is none. -/
def isValue (text : String) : Bool :=
  match text.toList with
  | '-' :: _ :: _ => false
  | _ => true

end Argument

namespace Arguments

def set? (arguments : Arguments) (setting : Setting) (value : String) :
    Option Arguments :=
  match setting with
  | .format =>
      if arguments.format.isSome then none
      else
        (Format.ofName? value).map fun format =>
          { arguments with format := some format }
  | .config =>
      if arguments.config.isSome || value.isEmpty then none
      else some { arguments with config := some value }

def addFile? (arguments : Arguments) (path : String) : Option Arguments :=
  if path.isEmpty then none
  else some { arguments with files := path :: arguments.files }

def finish (arguments : Arguments) : Request :=
  .check { arguments with files := arguments.files.reverse }

def readFiles (arguments : Arguments) (paths : List String) : Request :=
  match paths.foldlM addFile? arguments with
  | some arguments => arguments.finish
  | none => .misuse

def read (arguments : Arguments) : List String → Request
  | [] => arguments.finish
  | text :: rest =>
      match Argument.ofString text with
      | .version => .version
      | .help => .help
      | .unknown => .misuse
      | .endOfOptions => arguments.readFiles rest
      | .tokens =>
          if arguments.tokens then .misuse
          else { arguments with tokens := true }.read rest
      | .file path =>
          match arguments.addFile? path with
          | some arguments => arguments.read rest
          | none => .misuse
      | .setting setting (some value) =>
          match arguments.set? setting value with
          | some arguments => arguments.read rest
          | none => .misuse
      | .setting setting none =>
          match rest with
          | [] => .misuse
          | value :: rest =>
              if Argument.isValue value then
                match arguments.set? setting value with
                | some arguments => arguments.read rest
                | none => .misuse
              else .misuse

end Arguments

def Request.ofArguments (arguments : List String) : Request :=
  ({} : Arguments).read arguments

def Request.paths : Request → List String
  | .check arguments => arguments.config.toList ++ arguments.files
  | _ => []

end ComponentLang.Check
