import Seams.Fingerprint
import Seams.Settings.Configuration

/-! # Axes
Some settings decide how a source is rewritten. Each such setting is an axis, and rewritten sources
are only used again as long as no axis has changed.
Main definitions:
* **`Axis`** — a setting that decides how a source is rewritten;
* **`AxisSnapshot`** — the values of all axes;
* **`AxisSnapshot.generation`** — the hash of those values. -/

namespace Seams

/-- A setting that decides how a source is rewritten. -/
inductive Axis where
  /-- The names of the patchers. -/
  | patcherList
  /-- The functions that are redirected. -/
  | functionWhitelist
  /-- What is rewritten. -/
  | includePaths
  /-- What is not rewritten all the same. -/
  | excludePaths
  deriving DecidableEq, Repr

namespace Axis

/-- All axes in order. -/
def all : List Axis := [patcherList, functionWhitelist, includePaths, excludePaths]

/-- The name of an axis. -/
def name : Axis → String
  | patcherList => "patcher_list"
  | functionWhitelist => "function_whitelist"
  | includePaths => "include_paths"
  | excludePaths => "exclude_paths"

/-- The name of the file in which the value of an axis is recorded. -/
def fileName (a : Axis) : String := a.name ++ ".json"

end Axis

/-- The values of all axes. -/
structure AxisSnapshot where
  /-- The names of the patchers. -/
  patcherList : List String
  /-- The functions that are redirected. -/
  functionWhitelist : List String
  /-- What is rewritten. -/
  includePaths : List String
  /-- What is not rewritten all the same. -/
  excludePaths : List String
  deriving DecidableEq, Repr

namespace AxisSnapshot

/-- The values of the axes in a configuration. -/
def of (c : Configuration) : AxisSnapshot :=
  ⟨c.patcherList, c.whitelist.toList, c.includePaths.map Path.text, c.excludePaths.map Path.text⟩

/-- The value of an axis. -/
def values (s : AxisSnapshot) : Axis → List String
  | .patcherList => s.patcherList
  | .functionWhitelist => s.functionWhitelist
  | .includePaths => s.includePaths
  | .excludePaths => s.excludePaths

/-- A text with a zero byte behind it. -/
def terminated (s : String) : Bytes := (bytesOf s).push 0

/-- An axis with its value, as bytes: its name and the entries, each with a zero byte behind it, and
a byte that is part of no text. -/
def axisBytes (s : AxisSnapshot) (a : Axis) : Bytes :=
  ((s.values a).foldl (fun b v => b ++ terminated v) (terminated a.name)).push 0xff

/-- All axes with their values, as bytes. -/
def bytes (s : AxisSnapshot) : Bytes :=
  Axis.all.foldl (fun b a => b ++ s.axisBytes a) ByteArray.empty

/-- The hash of the values of all axes. -/
def generation (s : AxisSnapshot) : UInt64 := Xxh3.hash s.bytes

end AxisSnapshot

end Seams
