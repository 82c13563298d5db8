import HackStack.Text.Lines
/-!
# Failure reports

A report names what failed and lists the causes below it, from the nearest to
the furthest. Several causes are numbered, and a cause of several lines stays
indented.
-/

namespace HackStack.Cli

/-- The number, set to the right in five columns. -/
def column (n : Nat) : String :=
  String.ofList ((toString n).toList.leftpad 5 ' ')

def numberedCauses (causes : List String) : List String :=
  (causes.zipIdx).map fun (cause, n) => column n ++ ": " ++ Text.indentRest "       " cause

def causeLines : List String → List String
  | [cause] => ["    " ++ Text.indentRest "    " cause]
  | causes => numberedCauses causes

/-- The text that `what` failed for these causes, of which there is at least one. -/
def failureText (what : String) (causes : List String) : String :=
  what ++ "\n\nCaused by:\n" ++ "\n".intercalate (causeLines causes)

end HackStack.Cli
