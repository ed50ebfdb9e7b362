import Seams.Loading

/-! # Failures
A failure is told with its causes, each on a line of its own.
Main definitions:
* **`ResolveError.causes`** and its kin — what is behind an error, the nearest first;
* **`failureText`** — what is printed of an error and its causes. -/

namespace Seams

/-- What is behind the error. -/
def ConfigError.causes : ConfigError → List String
  | .unreadable _ cause => [cause.message]
  | .malformed _ => [malformedText]
  | .invalid _ issues => [issuesText issues]
  | _ => []

/-- What is behind the error. -/
def CacheError.causes : CacheError → List String
  | .unwritable _ cause => [cause.message]
  | .io _ cause => [cause.message]
  | .missing _ => []

/-- What is behind the error. -/
def ResolveError.causes : ResolveError → List String
  | .config cause => cause.causes
  | .cache cause => cause.causes
  | .unreadable _ cause => [cause.message]
  | .patch _ cause => [cause.message]

namespace CommandLine

/-- A text with its first line behind one text and its further lines behind another one. -/
def indented (first further text : String) : String :=
  first ++ ("\n" ++ further).intercalate (text.splitOn "\n")

/-- The causes of an error, numbered if there are several. -/
def causesText : List String → String
  | [] => ""
  | [cause] => "\n\nCaused by:\n" ++ indented "    " "    " cause
  | causes =>
    "\n\nCaused by:" ++ String.join (causes.zipIdx.map fun (cause, i) =>
      let number := toString i
      "\n" ++ indented (String.ofList (List.replicate (5 - number.length) ' ') ++ number ++ ": ")
        "       " cause)

/-- What is printed of an error and its causes. -/
def failureText (message : String) (causes : List String) : String :=
  "Error: " ++ message ++ causesText causes ++ "\n"

end CommandLine

end Seams
