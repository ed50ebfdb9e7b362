import Seams.Files.Tree
import Seams.Json.Reader
import Seams.Settings.Axis

/-! # Caches of rewritten sources
A cache is a directory. For each source it keeps the rewritten source, and a record of what the
rewritten source was made from. The values of the axes are recorded as well; when one of them has
changed, the cache is cleared.
Main definitions:
* **`RewriteCache`** — a cache directory and the generation in which it is used;
* **`RewriteCache.hasValid`**, **`RewriteCache.read`**, **`RewriteCache.write`** — single sources;
* **`RewriteCache.changedAxes`**, **`RewriteCache.reconcile`** — the axes;
* **`RewriteCache.storeChanges`**, **`RewriteCache.clearChanges`**,
  **`RewriteCache.reconcileChanges`** — the changes of the disk that these operations consist of. -/

namespace Seams

/-- Why a cache cannot be used. -/
inductive CacheError where
  /-- A directory of the cache cannot be created. -/
  | unwritable (path : Path) (cause : Fault)
  /-- An operation on a file of the cache fails. -/
  | io (path : Path) (cause : Fault)
  /-- A rewritten source is not there. -/
  | missing (source : Path)
  deriving DecidableEq, Repr

/-- What is told to the user. -/
def CacheError.message : CacheError → String
  | unwritable path cause => s!"cache directory {path.text} is not writable: {cause.message}"
  | io path cause => s!"cache I/O failed on {path.text}: {cause.message}"
  | missing source => s!"no cached rewrite for {source.text}"

/-! ## Records -/

/-- What a rewritten source was made from. -/
structure EntryRecord where
  /-- The source. -/
  source : Fingerprint
  /-- The generation in which it was rewritten. -/
  generation : UInt64
  deriving DecidableEq, Repr

namespace EntryRecord

/-- The record as a document. -/
def toJson (r : EntryRecord) : JsonValue :=
  .record [("source_hash", .ofNat r.source.hash.toNat), ("source_len", .ofNat r.source.length),
    ("generation", .ofNat r.generation.toNat)]

/-- The record made of three numbers. -/
def ofWords? (hash length generation : JsonValue) : Option EntryRecord := do
  let hash ← hash.word?
  let length ← length.word?
  let generation ← generation.word?
  some ⟨⟨hash.toUInt64, length⟩, generation.toUInt64⟩

/-- The only member of a name. -/
def member? (name : String) (members : List (String × JsonValue)) : Option JsonValue :=
  match members.filter (·.1 == name) with
  | [(_, v)] => some v
  | _ => none

/-- The record of a document. Further members are passed over, and an array of the three numbers is
taken for a record too. -/
def ofJson? : JsonValue → Option EntryRecord
  | .record members => do
    ofWords? (← member? "source_hash" members) (← member? "source_len" members)
      (← member? "generation" members)
  | .list [hash, length, generation] => ofWords? hash length generation
  | _ => none

end EntryRecord

/-- A cache directory and the generation in which it is used. -/
structure RewriteCache where
  /-- The directory. -/
  root : Path
  /-- The generation. -/
  generation : UInt64
  deriving DecidableEq, Repr

namespace RewriteCache

/-! ## Files -/

/-- The path through the names of a path, from nowhere in particular. -/
def namesOf (source : Path) : Path :=
  ⟨"/".intercalate (source.steps.filterMap fun
    | .name n => some n
    | .up => none)⟩

/-- The directory of rewritten sources. -/
def sourceDir (c : RewriteCache) : Path := c.root.child "src"

/-- The directory of records of sources. -/
def recordDir (c : RewriteCache) : Path := c.root.child "meta"

/-- The directory of records of axes. -/
def axisDir (c : RewriteCache) : Path := c.root.child "conf"

/-- Where the rewritten source of a path is kept. -/
def sourcePath (c : RewriteCache) (source : Path) : Path := c.sourceDir.join (namesOf source)

/-- Where the record of a path is kept. -/
def recordPath (c : RewriteCache) (source : Path) : Path :=
  ⟨(c.recordDir.join (namesOf source)).text ++ ".json"⟩

/-- Where the value of an axis is recorded. -/
def axisPath (c : RewriteCache) (a : Axis) : Path := c.axisDir.child a.fileName

/-- Where further names for the blacklist are listed. -/
def blacklistPath (c : RewriteCache) : Path := c.axisDir.child "function_blacklist.txt"

/-! ## Opening -/

/-- The changes that create the directories of a cache. -/
def openChanges (c : RewriteCache) : List Change :=
  [.ensureDirectory c.root, .ensureDirectory c.sourceDir, .ensureDirectory c.recordDir,
   .ensureDirectory c.axisDir]

/-- The cache in a directory, created as needed. -/
def create (d : Disk) (root : Path) (generation : UInt64) : Except CacheError RewriteCache × Disk :=
  let c : RewriteCache := ⟨root, generation⟩
  match d.applyAll c.openChanges with
  | (.ok (), d) => (.ok c, d)
  | (.error (p, e), d) => (.error (.unwritable p e), d)

/-- The effect of changes of the files of a cache. -/
def perform (d : Disk) (changes : List Change) : Except CacheError Unit × Disk :=
  match d.applyAll changes with
  | (.ok (), d) => (.ok (), d)
  | (.error (p, e), d) => (.error (.io p e), d)

/-! ## Single sources -/

/-- The record that a file holds, if it holds one. -/
def recordAt? (d : Disk) (p : Path) : Option EntryRecord :=
  match d.read p with
  | .ok body => (JsonValue.read? body).bind EntryRecord.ofJson?
  | .error _ => none

/-- Whether there is a rewritten source of a path that was made from the given content in this
generation. -/
def hasValid (c : RewriteCache) (d : Disk) (source : Path) (content : Fingerprint) : Bool :=
  recordAt? d (c.recordPath source) == some ⟨content, c.generation⟩
    && d.isFile (c.sourcePath source)

/-- The rewritten source of a path. -/
def read (c : RewriteCache) (d : Disk) (source : Path) : Except CacheError Bytes :=
  match d.read (c.sourcePath source) with
  | .ok b => .ok b
  | .error .notFound => .error (.missing source)
  | .error e => .error (.io (c.sourcePath source) e)

/-- The changes that keep a rewritten source. The record comes last, so that a source whose record
is right is there. -/
def storeChanges (c : RewriteCache) (source : Path) (content : Fingerprint) (rewritten : Bytes) :
    List Change :=
  [.storeFile (c.sourcePath source) rewritten,
   .storeFile (c.recordPath source) (EntryRecord.toJson ⟨content, c.generation⟩).toBytes]

/-- Keep a rewritten source. -/
def write (c : RewriteCache) (d : Disk) (source : Path) (content : Fingerprint)
    (rewritten : Bytes) : Except CacheError Unit × Disk :=
  perform d (c.storeChanges source content rewritten)

/-! ## All sources -/

/-- The changes that drop all rewritten sources. -/
def clearChanges (c : RewriteCache) : List Change :=
  [.removeTree c.sourceDir, .ensureDirectory c.sourceDir, .removeTree c.recordDir,
   .ensureDirectory c.recordDir]

/-- Drop all rewritten sources. The records of axes are kept. -/
def clear (c : RewriteCache) (d : Disk) : Except CacheError Unit × Disk := perform d c.clearChanges

/-- The number of rewritten sources. -/
def count (c : RewriteCache) (d : Disk) : Nat := (d.filesBelow false c.sourceDir).length

/-! ## Axes -/

/-- The value that is recorded of an axis, if one is. -/
def recordedAxis? (c : RewriteCache) (d : Disk) (a : Axis) : Option (List String) :=
  match d.read (c.axisPath a) with
  | .ok body => (JsonValue.read? body).bind JsonValue.texts?
  | .error _ => none

/-- The axes whose recorded value is not the one of the snapshot. -/
def changedAxes (c : RewriteCache) (d : Disk) (s : AxisSnapshot) : List Axis :=
  Axis.all.filter fun a => c.recordedAxis? d a != some (s.values a)

/-- The changes that record the values of some axes. -/
def recordChanges (c : RewriteCache) (s : AxisSnapshot) (axes : List Axis) : List Change :=
  axes.map fun a => .storeFile (c.axisPath a) (JsonValue.list ((s.values a).map .text)).toBytes

/-- The changes that make a cache fit the snapshot: none if no axis has changed, else the cache is
cleared before the new values are recorded. -/
def reconcileChanges (c : RewriteCache) (d : Disk) (s : AxisSnapshot) : List Change :=
  match c.changedAxes d s with
  | [] => []
  | axes => c.clearChanges ++ c.recordChanges s axes

/-- Make a cache fit the snapshot. The result is the axes that had changed. -/
def reconcile (c : RewriteCache) (d : Disk) (s : AxisSnapshot) :
    Except CacheError (List Axis) × Disk :=
  match perform d (c.reconcileChanges d s) with
  | (.ok (), after) => (.ok (c.changedAxes d s), after)
  | (.error e, after) => (.error e, after)

/-- The names in a list of one on each line. Blank lines and remarks are passed over. -/
def listedNames (text : String) : List String :=
  ((text.splitOn "\n").map Text.trim).filter fun l => l != "" && !l.startsWith "#"

/-- The further names for the blacklist. -/
def extraBlacklist (c : RewriteCache) (d : Disk) : Except CacheError (List String) :=
  match d.readText c.blacklistPath with
  | .ok text => .ok (listedNames text)
  | .error .notFound => .ok []
  | .error e => .error (.io c.blacklistPath e)

end RewriteCache

end Seams
