import Mathlib.Algebra.GroupWithZero.Nat
import Mathlib.Data.List.Nodup
import Mathlib.Tactic.Common
import Seams.Proofs.BuiltIn

/-! # The built-in pipeline succeeds
The patchers that are built in share one set of edits. Over a source that fits the grammar each of
them finds the tokens that it looks for, and no token is found twice: exits are told by their text,
callees by their kind and braces by theirs, so only a name that reads as an exit could be both. As
all edits expect what their tokens read, the pipeline has an output.
Main definitions:
* **`Pipeline.runTree`** — a pipeline run on a source with a given tree;
* **`Redirect.builtInEdits`** — the edits that a built-in patcher proposes. -/

namespace Seams

namespace Redirect

variable {source : Bytes} {tree : Node} {whitelist blacklist : NameSet}

/-! ## No token is found by two patchers -/

/-- **No token is the name of a call and an exit** unless a name that reads so is redirected. -/
theorem exits_apart_calls (lawful : tree.Lawful source)
    (kept : ∀ word, readsExit (bytesOf word) = true →
      isRedirected whitelist blacklist word = false) {e f : Edit}
    (he : e ∈ exitEdits (.withTree source tree))
    (hf : f ∈ callEdits whitelist blacklist (.withTree source tree)) :
    e.position ≠ f.position := by
  obtain ⟨t, sits, reads⟩ := sits_of_mem_exitEdits he
  obtain ⟨u, word, sits', -, text, listed⟩ :=
    sits_of_mem_callEdits whitelist blacklist lawful hf
  refine sits.ne sits' fun eq => ?_
  have reads' : readsExit ((TokenStream.ofTree source tree).textOf t) = true := reads
  rw [eq, text] at reads'
  rw [kept word reads'] at listed
  cases listed

/-- **No token is a brace and an exit.** -/
theorem exits_apart_methods (lawful : tree.Lawful source) {e f : Edit}
    (he : e ∈ exitEdits (.withTree source tree))
    (hf : f ∈ methodEdits (.withTree source tree)) : e.position ≠ f.position := by
  obtain ⟨t, sits, reads⟩ := sits_of_mem_exitEdits he
  obtain ⟨u, sits', -, text⟩ := sits_of_mem_methodEdits lawful hf
  refine sits.ne sits' fun eq => ?_
  have reads' : readsExit ((TokenStream.ofTree source tree).textOf t) = true := reads
  have brace_reads : readsExit (bytesOf "\x7b") = false := by decide +kernel
  rw [eq, text, brace_reads] at reads'
  cases reads'

/-- **No token is a brace and the name of a call.** -/
theorem calls_apart_methods (lawful : tree.Lawful source) {e f : Edit}
    (he : e ∈ callEdits whitelist blacklist (.withTree source tree))
    (hf : f ∈ methodEdits (.withTree source tree)) : e.position ≠ f.position := by
  obtain ⟨t, word, sits, kind, -⟩ := sits_of_mem_callEdits whitelist blacklist lawful he
  obtain ⟨u, sits', kind', -⟩ := sits_of_mem_methodEdits lawful hf
  refine sits.ne sits' fun eq => ?_
  rw [eq, kind'] at kind
  exact absurd kind (by decide)

/-! ## All built-in patchers together -/

/-- **The edits that a built-in patcher proposes**, told by its name. -/
def builtInEdits (whitelist blacklist : NameSet) (s : Script) (p : Patcher) : List Edit :=
  if p.name = exitsName then exitEdits s
  else if p.name = callsName then callEdits whitelist blacklist s
  else methodEdits s

/-- **The patchers that are built in.** -/
def builtIn (whitelist blacklist : NameSet) : List Patcher :=
  [exits, calls whitelist blacklist, methods]

theorem mem_builtIn {p : Patcher} : p ∈ builtIn whitelist blacklist
    ↔ p = exits ∨ p = calls whitelist blacklist ∨ p = methods := by
  rw [builtIn, List.mem_cons, List.mem_cons, List.mem_singleton]

@[simp] theorem builtInEdits_exits (s : Script) :
    builtInEdits whitelist blacklist s exits = exitEdits s := if_pos rfl

@[simp] theorem builtInEdits_calls (s : Script) :
    builtInEdits whitelist blacklist s (calls whitelist blacklist)
      = callEdits whitelist blacklist s :=
  (if_neg (show callsName ≠ exitsName by decide)).trans (if_pos rfl)

@[simp] theorem builtInEdits_methods (s : Script) :
    builtInEdits whitelist blacklist s methods = methodEdits s :=
  (if_neg (show methodsName ≠ exitsName by decide)).trans
    (if_neg (show methodsName ≠ callsName by decide))

/-- **A built-in patcher proposes its edits.** -/
theorem builtIn_proposes (lawful : tree.Lawful source) {p : Patcher}
    (mem : p ∈ builtIn whitelist blacklist) :
    p.Proposes (.withTree source tree)
      (builtInEdits whitelist blacklist (.withTree source tree) p) := by
  rcases mem_builtIn.1 mem with rfl | rfl | rfl
  · rw [builtInEdits_exits]
    exact exits_proposes _
  · rw [builtInEdits_calls]
    exact calls_proposes whitelist blacklist lawful
  · rw [builtInEdits_methods]
    exact methods_proposes lawful

/-- **The edits of a built-in patcher fit.** -/
theorem builtIn_fits (lawful : tree.Lawful source) {p : Patcher}
    (mem : p ∈ builtIn whitelist blacklist) {e : Edit}
    (he : e ∈ builtInEdits whitelist blacklist (.withTree source tree) p) :
    (TokenStream.ofTree source tree).Fits e := by
  rcases mem_builtIn.1 mem with rfl | rfl | rfl
  · rw [builtInEdits_exits] at he
    obtain ⟨t, sits, -⟩ := sits_of_mem_exitEdits he
    exact sits.fits
  · rw [builtInEdits_calls] at he
    obtain ⟨t, word, sits, -⟩ := sits_of_mem_callEdits whitelist blacklist lawful he
    exact sits.fits
  · rw [builtInEdits_methods] at he
    obtain ⟨t, sits, -⟩ := sits_of_mem_methodEdits lawful he
    exact sits.fits

/-- **The edits of a built-in patcher are at different positions.** -/
theorem builtIn_nodup (lawful : tree.Lawful source) {p : Patcher}
    (mem : p ∈ builtIn whitelist blacklist) :
    ((builtInEdits whitelist blacklist (.withTree source tree) p).map Edit.position).Nodup := by
  rcases mem_builtIn.1 mem with rfl | rfl | rfl
  · rw [builtInEdits_exits]
    exact exitEdits_nodup _
  · rw [builtInEdits_calls]
    exact callEdits_nodup whitelist blacklist lawful
  · rw [builtInEdits_methods]
    exact methodEdits_nodup lawful

/-- **The edits of two built-in patchers are at different positions**, unless a name that reads as
an exit is redirected. -/
theorem builtIn_apart (lawful : tree.Lawful source) {p q : Patcher}
    (hp : p ∈ builtIn whitelist blacklist) (hq : q ∈ builtIn whitelist blacklist)
    (ne : p.name ≠ q.name)
    (kept : exits ∈ [p, q] → calls whitelist blacklist ∈ [p, q] →
      ∀ word, readsExit (bytesOf word) = true → isRedirected whitelist blacklist word = false)
    {e f : Edit} (he : e ∈ builtInEdits whitelist blacklist (.withTree source tree) p)
    (hf : f ∈ builtInEdits whitelist blacklist (.withTree source tree) q) :
    e.position ≠ f.position := by
  rcases mem_builtIn.1 hp with rfl | rfl | rfl <;> rcases mem_builtIn.1 hq with rfl | rfl | rfl <;>
    first
    | exact absurd rfl ne
    | simp only [builtInEdits_exits, builtInEdits_calls, builtInEdits_methods] at he hf
  · exact exits_apart_calls lawful (kept (by simp) (by simp)) he hf
  · exact exits_apart_methods lawful he hf
  · exact (exits_apart_calls lawful (kept (by simp) (by simp)) hf he).symm
  · exact calls_apart_methods lawful he hf
  · exact (exits_apart_methods lawful hf he).symm
  · exact (calls_apart_methods lawful hf he).symm

end Redirect

namespace Pipeline

/-! ## Running on a tree -/

/-- **A source with a given tree rewritten.** -/
def runTree (p : Pipeline) (source : Bytes) (tree : Node) : Except PatchError PatchOutput :=
  if p.patchers.isEmpty then .ok (.unchanged source)
  else (Script.ofTree source tree).mapError .malformed >>= p.runOn

/-- **A source is rewritten with the tree that it has.** -/
theorem run_eq_runTree (p : Pipeline) (source : Bytes) :
    p.run source = p.runTree source (Node.ofSource source) := by
  unfold run runTree Script.parse
  split <;> rfl

open Redirect

variable {source : Bytes} {tree : Node} {whitelist blacklist : NameSet}

/-- **The edits of several built-in patchers are at different positions.** -/
theorem positions_nodup (lawful : tree.Lawful source) {patchers : List Patcher}
    (known : ∀ p ∈ patchers, p ∈ builtIn whitelist blacklist)
    (distinct : (patchers.map Patcher.name).Nodup)
    (kept : exits ∈ patchers → calls whitelist blacklist ∈ patchers →
      ∀ word, readsExit (bytesOf word) = true → isRedirected whitelist blacklist word = false) :
    ((patchers.flatMap (builtInEdits whitelist blacklist (.withTree source tree))).map
      Edit.position).Nodup := by
  rw [List.map_flatMap, List.nodup_flatMap]
  refine ⟨fun p hp => builtIn_nodup lawful (known p hp), ?_⟩
  rw [List.Nodup, List.pairwise_map] at distinct
  refine distinct.imp_of_mem fun {p q} hp hq ne => ?_
  have both {r : Patcher} (mem : r ∈ [p, q]) : r ∈ patchers := by
    rcases List.mem_cons.1 mem with rfl | mem
    · exact hp
    · exact List.mem_singleton.1 mem ▸ hq
  intro n first second
  obtain ⟨e, he, rfl⟩ := List.mem_map.1 first
  obtain ⟨f, hf, same⟩ := List.mem_map.1 second
  exact builtIn_apart lawful (known p hp) (known q hq) ne
    (fun exit call => kept (both exit) (both call)) he hf same.symm

/-- **The built-in pipeline makes all edits that its patchers propose.** -/
theorem runTree_builtIn (clean : tree.Clean) (lawful : tree.Lawful source)
    (patchers : List Patcher) (known : ∀ p ∈ patchers, p ∈ builtIn whitelist blacklist)
    (distinct : (patchers.map Patcher.name).Nodup)
    (kept : exits ∈ patchers → calls whitelist blacklist ∈ patchers →
      ∀ word, readsExit (bytesOf word) = true → isRedirected whitelist blacklist word = false) :
    ∃ output, (⟨patchers, false⟩ : Pipeline).runTree source tree = .ok output
      ∧ output.editCount = (patchers.map fun p =>
        (builtInEdits whitelist blacklist (.withTree source tree) p).length).sum := by
  have parsed : Script.ofTree source tree = .ok (.withTree source tree) := by
    rw [Script.ofTree, clean.ensureClean]
    rfl
  obtain ⟨edits, perm, ran⟩ := runOn_of_proposes
    (fun p hp => builtIn_proposes lawful (known p hp)) (positions_nodup lawful known distinct kept)
    fun p hp e he => builtIn_fits lawful (known p hp) he
  have count : edits.size = (patchers.map fun p =>
      (builtInEdits whitelist blacklist (.withTree source tree) p).length).sum := by
    rw [EditSet.size, perm.length_eq, List.length_flatMap]
  unfold runTree
  split
  · rename_i none_listed
    have no_patchers : patchers = [] := List.isEmpty_iff.1 none_listed
    refine ⟨_, rfl, ?_⟩
    rw [no_patchers]
    rfl
  · rw [parsed]
    exact ⟨_, ran, count⟩

/-- **The built-in pipeline succeeds on every source that fits the grammar.** Take any of the
built-in patchers, each at most once and in any order, such that no name that reads as an exit is
redirected if both exits and calls are rewritten. Then there is an output, and its number of edits
is the sum of those that the patchers make alone. -/
theorem run_builtIn (clean : tree.Clean) (lawful : tree.Lawful source)
    (whitelist blacklist : NameSet) {patchers : List Patcher}
    (known : ∀ p ∈ patchers, p ∈ builtIn whitelist blacklist)
    (distinct : (patchers.map Patcher.name).Nodup)
    (kept : exits ∈ patchers → calls whitelist blacklist ∈ patchers →
      ∀ word, readsExit (bytesOf word) = true → isRedirected whitelist blacklist word = false) :
    ∃ output, (⟨patchers, false⟩ : Pipeline).runTree source tree = .ok output
      ∧ (Node.ofSource source = tree → (⟨patchers, false⟩ : Pipeline).run source = .ok output)
      ∧ ∃ alone : Patcher → PatchOutput,
        (∀ p ∈ patchers, (⟨[p], false⟩ : Pipeline).runTree source tree = .ok (alone p))
        ∧ output.editCount = (patchers.map fun p => (alone p).editCount).sum := by
  obtain ⟨output, ran, count⟩ := runTree_builtIn clean lawful patchers known distinct kept
  -- What a patcher makes alone is an instance with a single patcher.
  have single : ∀ p ∈ patchers, ∃ output,
      (⟨[p], false⟩ : Pipeline).runTree source tree = .ok output
        ∧ output.editCount
          = (builtInEdits whitelist blacklist (.withTree source tree) p).length := by
    intro p hp
    obtain ⟨output, ran, count⟩ := runTree_builtIn clean lawful [p]
      (fun q hq => List.mem_singleton.1 hq ▸ known p hp) (List.nodup_singleton _)
      fun exit call => kept (List.mem_singleton.1 exit ▸ hp) (List.mem_singleton.1 call ▸ hp)
    exact ⟨output, ran, count.trans (Nat.add_zero _)⟩
  have : Nonempty PatchOutput := ⟨output⟩
  choose! alone ran_alone counted using single
  refine ⟨output, ran, fun parsed => ?_, alone, ran_alone, ?_⟩
  · rw [run_eq_runTree, parsed]
    exact ran
  · rw [count]
    exact congrArg List.sum (List.map_congr_left fun p hp => (counted p hp).symm)

/-- **A method that calls `rand` and exits.** -/
def methodSource : Bytes :=
  bytesOf "<?php class A \x7b function f() \x7b rand(); exit; \x7d \x7d"

/-- **The call, the exit and the method are all rewritten**, each by its patcher. -/
theorem run_builtIn_method : ∃ output,
    (⟨[methods, exits, calls (.ofList ["rand"]) .empty], false⟩ : Pipeline).run methodSource
      = .ok output ∧ output.editCount = 3 := by
  have clean : (Node.ofSource methodSource).Clean := by decide +kernel
  have lawful : (Node.ofSource methodSource).Lawful methodSource := by decide +kernel
  have known : ∀ p ∈ [methods, exits, calls (.ofList ["rand"]) .empty],
      p ∈ builtIn (.ofList ["rand"]) .empty := by
    simp [builtIn]
  obtain ⟨output, -, ran, -⟩ := run_builtIn clean lawful (.ofList ["rand"]) .empty known
    (by decide) fun _ _ => exits_kept_iff.2 ⟨by decide +kernel, by decide +kernel⟩
  have counted : ((⟨[methods, exits, calls (.ofList ["rand"]) .empty], false⟩ : Pipeline).run
      methodSource).toOption.map PatchOutput.editCount = some 3 := by decide +kernel
  refine ⟨output, ran rfl, ?_⟩
  rw [ran rfl] at counted
  exact Option.some.inj counted

end Pipeline

end Seams
