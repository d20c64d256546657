import ComponentLang.Json.Reader
import ComponentLang.Options.Basic

namespace ComponentLang

/-- A level is written as its name, also as the one key of an object whose value
is null. -/
def ReportLevel.ofJson? : Json → Option ReportLevel
  | .string (some text) => ofName? text
  | .object [(some text, .null)] => ofName? text
  | _ => none

namespace Options

def greatestMax : Nat :=
  UInt64.size - 1

def maxOfJson? (value : Json) : Option Nat :=
  value.natural?.filter (· ≤ greatestMax)

/-- The options with the field of the given name set, unless the value does not
fit the field. Unknown fields change nothing. -/
def setField? (options : Options) (name : String) (value : Json) :
    Option Options :=
  match name with
  | "unknown_identifiers" =>
      (ReportLevel.ofJson? value).map fun level =>
        { options with unknownIdentifiers := level }
  | "duplicate_declarations" =>
      (ReportLevel.ofJson? value).map fun level =>
        { options with duplicateDeclarations := level }
  | "max_diagnostics" =>
      (maxOfJson? value).map fun number =>
        { options with maxDiagnostics := number }
  | _ => some options

def fieldNames : List String :=
  ["unknown_identifiers", "duplicate_declarations", "max_diagnostics"]

/-- Takes in the members of an object. `seen` holds the known fields so far. -/
def ofMembers? (options : Options) (seen : List String) :
    List (Option String × Json) → Option Options
  | [] => some options
  | (none, _) :: _ => none
  | (some name, value) :: members =>
      if fieldNames.contains name then
        if seen.contains name then none
        else
          (options.setField? name value).bind fun options =>
            options.ofMembers? (name :: seen) members
      else options.ofMembers? seen members

def ofJson? : Json → Option Options
  | .object members => ({} : Options).ofMembers? [] members
  | .array items =>
      if items.length ≤ fieldNames.length then
        (fieldNames.zip items).foldlM
          (fun options (name, value) => options.setField? name value) {}
      else none
  | _ => none

def ofText? (text : String) : Option Options :=
  (Json.read? text).bind ofJson?

end Options

end ComponentLang
