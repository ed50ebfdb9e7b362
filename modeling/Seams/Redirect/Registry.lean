/-! # The registry as rewritten code sees it
Overrides of functions and methods are looked up in a registry when rewritten code runs. The
registry is not part of this library; here is what rewritten code calls.
Main definitions:
* **`Registry.redirected`** — what is called in place of a function;
* **`Registry.prologue`** — what stands at the beginning of a method. -/

namespace Seams.Registry

/-- The class whose static methods stand for functions. -/
def functionProxy : String := "\\__FuncProxy__"

/-- The class that is asked for the override of a method. -/
def methodProxy : String := "\\__PatchMethod__"

/-- What that class answers when a method has no override. -/
def noOverride : String := "__GO_TO_ORIG__"

/-- The function that signals an exit instead of ending the program. -/
def exitFunction : String := "exit__"

/-- What is called in place of a function. -/
def redirected (name : String) : String := functionProxy ++ "::" ++ name

/-- The question for the override of the method that is running. -/
def lookup : String := methodProxy ++ "::getReturn(__CLASS__, __FUNCTION__, func_get_args())"

/-- What stands in place of the opening brace of a method body. It is one line, so that the lines
of the source keep their numbers. -/
def prologue (returnsVoid : Bool) : String :=
  if returnsVoid then "\x7b if (" ++ lookup ++ " !== " ++ noOverride ++ ") return;"
  else "\x7b if (($__ret__ = " ++ lookup ++ ") !== " ++ noOverride ++ ") return $__ret__;"

end Seams.Registry
