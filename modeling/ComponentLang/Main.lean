import ComponentLang.Check.Response

namespace ComponentLang

def readText (path : String) : IO (Option String) :=
  try
    return some (← IO.FS.readFile path)
  catch _ => return none

def readInput : IO (Option String) :=
  try
    return some (← (← IO.getStdin).readToEnd)
  catch _ => return none

end ComponentLang

open ComponentLang in
def main (arguments : List String) : IO UInt32 := do
  let request := Check.Request.ofArguments arguments
  let texts ← request.paths.mapM fun path => return (path, ← readText path)
  let input ← match request with
    | .check { files := [], .. } => readInput
    | _ => pure none
  let response := request.respond (fun path => (texts.lookup path).join) input
  (← IO.getStdout).putStr response.output
  return UInt32.ofNat response.status
