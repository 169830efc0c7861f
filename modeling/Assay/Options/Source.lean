import Assay.Options.Document
import Assay.Yaml.Meaning

/-! # Where options come from

An options document is given as a text or kept in a file. What breaks the rules of the language,
or is not there at all, is a problem of the source as a whole; what cannot be read for another
reason raises an exception.
-/

namespace Assay.Document

/-- The problem of a text that is no document. -/
def malformed (source : String) : Problem :=
  { path := source, message := "Invalid YAML syntax" }

/-- The problem of a path without a file. -/
def notFound (source : String) : Problem :=
  { path := source, message := "File not found"
    suggestion := some "Check the file path is correct" }

/-- Loads the document that a text holds. -/
def loadText (m : Memory) (text source : String) : Memory × Except Fault Loaded :=
  match Yaml.load m text with
  | .error .malformed => (m, .ok { problems := [malformed source] })
  | .error (.raised e) => (m, .error e)
  | .ok (m, data) => (m, load m.heap data source)

/-- A path without empty steps and steps that lead nowhere. -/
def normalPath (path : String) : String :=
  let root := match path.toList.takeWhile (· == '/') with
    | [] => ""
    | ['/', '/'] => "//"
    | _ => "/"
  let steps := (path.splitOn "/").filter fun step => step != "" && step != "."
  if root.isEmpty && steps.isEmpty then "." else root ++ "/".intercalate steps

/-- Whether a step of a path names nothing: it stays or goes up. -/
def isNoName (step : String) : Bool := step == "" || step == "." || step == ".."

/-- Whether a normal path leads to where it starts from or to a folder around that. -/
def isAround (path : String) : Bool :=
  (path.splitOn "/").all isNoName

/-- The refusal of a path that leads to a folder. -/
def folderFault (path : String) : Fault :=
  ⟨"IsADirectoryError", [.text s!"[Errno 21] Is a directory: {Text.quote path}"]⟩

/-- Whether a path is too long to be asked for: as a whole, or in the first step that could lead
to something. -/
def isTooLong (path : String) : Bool :=
  let step := ((path.splitOn "/").find? fun step => !isNoName step).getD ""
  4096 ≤ path.utf8ByteSize || 256 ≤ step.utf8ByteSize

/-- The refusal of a path that is too long. -/
def lengthFault (path : String) : Fault :=
  ⟨"OSError", [.text s!"[Errno 36] File name too long: {Text.quote path}"]⟩

/-- The text of a file, in which every line ends in a line feed. -/
def unifyLines : List Char → List Char
  | '\r' :: '\n' :: rest | '\r' :: rest => '\n' :: unifyLines rest
  | c :: rest => c :: unifyLines rest
  | [] => []

/-- Loads the document in a file, given the files there are. -/
def loadFile (m : Memory) (files : List (String × String)) (path : String) :
    Memory × Except Fault Loaded :=
  let source := normalPath path
  match files.lookup source with
  | some text => loadText m (String.ofList (unifyLines text.toList)) source
  | none =>
    if source.contains '\x00' then (m, .ok { problems := [notFound source] })
    else if isTooLong source then (m, .error (lengthFault source))
    else if isAround source then (m, .error (folderFault source))
    else (m, .ok { problems := [notFound source] })

end Assay.Document
