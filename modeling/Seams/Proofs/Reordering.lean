import Mathlib.Data.List.Perm.Basic
import Mathlib.Tactic.Common
import Seams.Proofs.Collisions
import Seams.Proofs.Operations
import Seams.Proofs.Totality

/-! # The order of the patchers
A patcher that does not look at the edits of the others has the same edits to add wherever it stands
in the list. So has each patcher that is built in, over every source. A set of edits does not tell
in which order they were added, and they can be added in one order exactly if they can in each. So
a pipeline of such patchers has the same output for each order of them, or none for any.
Main definitions:
* **`EditSet.Independent`** — a step adds the same edits whatever edits are there;
* **`Patcher.Independent`** — a patcher does so for a script. -/

namespace Seams

/-! ## Steps that do not look at what is there -/

namespace EditSet

/-- **A step adds the same edits whatever edits are there.** It has edits on offer, or none can be
had from it; and it succeeds exactly if they are all added. -/
def Independent (step : EditSet → Except PatchError EditSet) : Prop :=
  ∃ offer : Option (List Edit), ∀ s s', step s = .ok s'
    ↔ ∃ es ∈ offer, s.insertAll es = .ok s'

/-- **A step that adds nothing** looks at nothing. -/
theorem independent_ok : Independent .ok :=
  ⟨some [], fun s s' => by simp [insertAll]⟩

/-- **A step that always fails** looks at nothing. -/
theorem independent_error (e : PatchError) : Independent fun _ => .error e :=
  ⟨none, fun s s' => by simp⟩

/-- **A step that adds given edits** looks at nothing. -/
theorem independent_insertAll (es : List Edit) :
    Independent fun s => (s.insertAll es).mapError .edit :=
  ⟨some es, fun s s' => by simp [mapError_eq_ok_iff]⟩

/-- **A step that adds one edit** looks at nothing. -/
theorem independent_request (e : Edit) : Independent (request · e) := by
  convert independent_insertAll [e] using 2 with s
  rw [request, insertAll]
  cases s.insert e <;> rfl

/-- **Two steps that look at nothing** are one such step. -/
theorem Independent.bind {f g : EditSet → Except PatchError EditSet} (hf : Independent f)
    (hg : Independent g) : Independent fun s => f s >>= g := by
  obtain ⟨first, hf⟩ := hf
  obtain ⟨second, hg⟩ := hg
  refine ⟨first.bind fun es => second.map (es ++ ·), fun s s' => ?_⟩
  have both (es fs : List Edit) : s.insertAll (es ++ fs) = .ok s'
      ↔ ∃ t, s.insertAll es = .ok t ∧ t.insertAll fs = .ok s' := by
    rw [insertAll_append, bind_eq_ok_iff]
  rw [bind_eq_ok_iff]
  constructor
  · rintro ⟨t, made, made'⟩
    obtain ⟨es, offered, added⟩ := (hf s t).1 made
    obtain ⟨fs, offered', added'⟩ := (hg t s').1 made'
    refine ⟨es ++ fs, ?_, (both es fs).2 ⟨t, added, added'⟩⟩
    exact Option.mem_bind_iff.2 ⟨es, offered, Option.mem_map.2 ⟨fs, offered', rfl⟩⟩
  · rintro ⟨all, joined, added⟩
    obtain ⟨es, offered, rest⟩ := Option.mem_bind_iff.1 joined
    obtain ⟨fs, offered', rfl⟩ := Option.mem_map.1 rest
    obtain ⟨t, added, added'⟩ := (both es fs).1 added
    exact ⟨t, (hf s t).2 ⟨es, offered, added⟩, (hg t s').2 ⟨fs, offered', added'⟩⟩

end EditSet

/-- **A patcher does not look at the edits of others** for a script. -/
def Patcher.Independent (p : Patcher) (s : Script) : Prop := EditSet.Independent (p.collect s)

/-- **A patcher that proposes edits does not look at the edits of others.** -/
theorem Patcher.Proposes.independent {p : Patcher} {s : Script} {proposed : List Edit}
    (h : p.Proposes s proposed) : p.Independent s := by
  rw [Patcher.Independent, funext h]
  exact EditSet.independent_insertAll proposed

/-! ## The built-in patchers -/

namespace Redirect

variable (whitelist blacklist : NameSet) (s : Script)

/-- **Whether and how a call is edited does not depend on other edits.** -/
theorem independent_collectCall (call : Match) :
    EditSet.Independent (collectCall whitelist blacklist s call) := by
  unfold collectCall
  cases call.capture "name" with
  | error e => exact EditSet.independent_error _
  | ok name =>
  cases call.capture "args" with
  | error e => exact EditSet.independent_error _
  | ok arguments =>
  simp only [Except.mapError, bind, Except.bind]
  cases (s.bytesAt name.start name.stop).text? with
  | none => exact EditSet.independent_ok
  | some word =>
  simp only
  split_ifs
  · exact EditSet.independent_ok
  · cases s.tokenAt callsName name.start name.stop with
    | error e => exact EditSet.independent_error e
    | ok position => exact EditSet.independent_request _

/-- **Whether and how a method is edited does not depend on other edits.** -/
theorem independent_collectMethod (method : Match) :
    EditSet.Independent (collectMethod s method) := by
  unfold collectMethod
  cases method.capture "method" with
  | error e => exact EditSet.independent_error _
  | ok declaration =>
  cases method.capture "body" with
  | error e => exact EditSet.independent_error _
  | ok body =>
  simp only [Except.mapError, bind, Except.bind]
  split_ifs
  · exact EditSet.independent_ok
  · cases s.tokenAt methodsName body.start (body.start + 1) with
    | error e => exact EditSet.independent_error e
    | ok brace => exact EditSet.independent_request _

/-- **The built-in patchers do not look at the edits of others**, over every source. -/
theorem independent_of_builtIn {whitelist blacklist : NameSet} {p : Patcher}
    (mem : p ∈ builtIn whitelist blacklist) (s : Script) : p.Independent s := by
  rcases mem_builtIn.1 mem with rfl | rfl | rfl
  · exact (exits_proposes s).independent
  · show EditSet.Independent (collectCalls whitelist blacklist s (Query.calls.findAll s.tree))
    induction Query.calls.findAll s.tree with
    | nil => exact EditSet.independent_ok
    | cons call rest ih =>
        convert (independent_collectCall whitelist blacklist s call).bind ih using 2 with edits
        rw [collectCalls]
        cases collectCall whitelist blacklist s call edits <;> rfl
  · show EditSet.Independent (collectMethods s (Query.methods.findAll s.tree))
    induction Query.methods.findAll s.tree with
    | nil => exact EditSet.independent_ok
    | cons method rest ih =>
        convert (independent_collectMethod s method).bind ih using 2 with edits
        rw [collectMethods]
        cases collectMethod s method edits <;> rfl

end Redirect

/-! ## Patchers in another order -/

/-- **The edits of the first patcher are added, and then those of the others.** -/
theorem Script.collectAll_cons (s : Script) (p : Patcher) (ps : List Patcher) (t : EditSet) :
    s.collectAll (p :: ps) t = p.collect s t >>= s.collectAll ps := by
  rw [collectAll]
  cases p.collect s t <;> rfl

/-- **Patchers that do not look at the edits of others** add what they all have on offer, exactly if
each has something on offer and all of it can be added. -/
theorem Script.collectAll_eq_ok_iff {s : Script} {offer : Patcher → Option (List Edit)}
    {patchers : List Patcher} (adds : ∀ p ∈ patchers, ∀ t t', p.collect s t = .ok t'
      ↔ ∃ es ∈ offer p, t.insertAll es = .ok t') (t t' : EditSet) :
    s.collectAll patchers t = .ok t' ↔ (∀ p ∈ patchers, (offer p).isSome = true)
      ∧ t.insertAll (patchers.flatMap fun p => (offer p).getD []) = .ok t' := by
  induction patchers generalizing t with
  | nil => simp [collectAll, EditSet.insertAll]
  | cons p ps ih =>
      have first := adds p List.mem_cons_self t
      have others := ih fun q mem => adds q (List.mem_cons_of_mem _ mem)
      rw [collectAll_cons, bind_eq_ok_iff, List.flatMap_cons, EditSet.insertAll_append,
        bind_eq_ok_iff, List.forall_mem_cons]
      constructor
      · rintro ⟨t₁, made, rest⟩
        obtain ⟨es, offered, added⟩ := (first t₁).1 made
        obtain ⟨each, added'⟩ := (others t₁).1 rest
        rw [Option.mem_def] at offered
        rw [offered]
        exact ⟨⟨rfl, each⟩, t₁, added, added'⟩
      · rintro ⟨⟨here, each⟩, t₁, added, added'⟩
        obtain ⟨es, offered⟩ := Option.isSome_iff_exists.1 here
        rw [offered] at added
        exact ⟨t₁, (first t₁).2 ⟨es, offered, added⟩, (others t₁).2 ⟨each, added'⟩⟩

/-- **Patchers that do not look at the edits of others make one set of edits** in each order. -/
theorem Script.collectAll_perm {s : Script} {patchers others : List Patcher}
    (perm : patchers.Perm others) (independent : ∀ p ∈ patchers, p.Independent s)
    (t t' : EditSet) : s.collectAll patchers t = .ok t' ↔ s.collectAll others t = .ok t' := by
  choose! offer adds using independent
  rw [collectAll_eq_ok_iff adds, collectAll_eq_ok_iff fun p mem => adds p (perm.mem_iff.2 mem)]
  refine and_congr (forall_congr' fun p => imp_congr perm.mem_iff Iff.rfl) ?_
  have offered := (perm.flatMap_right fun p => (offer p).getD []).append_right t.toList
  rw [EditSet.insertAll_eq_ok_iff, EditSet.insertAll_eq_ok_iff]
  exact ⟨fun h => h.trans offered, fun h => h.trans offered.symm⟩

namespace Pipeline

/-- **The order of the patchers does not matter.** Take patchers in two orders, each of them built
in or one that does not look at the edits of others; let both outputs be validated or neither. If
the pipeline has an output for one order, it has the same for the other: the same source, patched
or not, and the same number of edits. -/
theorem run_eq_ok_iff_of_perm {source : Bytes} {patchers others : List Patcher}
    (perm : patchers.Perm others)
    (independent : ∀ s, Script.parse source = .ok s → ∀ p ∈ patchers,
      (∃ whitelist blacklist, p ∈ Redirect.builtIn whitelist blacklist) ∨ p.Independent s)
    (verify : Bool) (output : PatchOutput) :
    (⟨patchers, verify⟩ : Pipeline).run source = .ok output
      ↔ (⟨others, verify⟩ : Pipeline).run source = .ok output := by
  rcases eq_or_ne patchers [] with rfl | listed
  · rw [List.nil_perm.1 perm]
  · have listed_too : others ≠ [] := fun eq => listed (List.perm_nil.1 (eq ▸ perm))
    rw [run_eq_ok_iff listed, run_eq_ok_iff listed_too]
    refine exists_congr fun s => and_congr_right fun parsed => ?_
    rw [runOn_eq_ok_iff, runOn_eq_ok_iff]
    refine exists_congr fun edits => and_congr_left fun _ => ?_
    refine Script.collectAll_perm perm (fun p mem => ?_) .empty edits
    rcases independent s parsed p mem with ⟨whitelist, blacklist, builtIn⟩ | custom
    · exact Redirect.independent_of_builtIn builtIn s
    · exact custom

/-- **A source that calls `rand` and exits.** -/
def randExitSource : Bytes := bytesOf "<?php rand(); exit;"

/-- **A patcher that replaces each token `rand` may come before the one for exits or after it.** -/
theorem run_eq_ok_iff_of_perm_claiming : ∃ output : PatchOutput,
    (⟨[Redirect.exits, .claiming "greedy" (bytesOf "rand") "four"], true⟩ : Pipeline).run
        randExitSource = .ok output
      ∧ (⟨[.claiming "greedy" (bytesOf "rand") "four", Redirect.exits], true⟩ : Pipeline).run
        randExitSource = .ok output
      ∧ output.source = bytesOf "<?php four(); exit__();" ∧ output.editCount = 2 := by
  have computed : ((⟨[Redirect.exits, .claiming "greedy" (bytesOf "rand") "four"], true⟩ :
      Pipeline).run randExitSource).toOption.map (fun output => (output.source, output.editCount))
        = some (bytesOf "<?php four(); exit__();", 2) := by decide +kernel
  obtain ⟨output, result, eq⟩ := Option.map_eq_some_iff.1 computed
  obtain ⟨written, count⟩ := Prod.mk.inj eq
  have ran := ok_of_toOption result
  refine ⟨output, ran, ?_, written, count⟩
  refine (run_eq_ok_iff_of_perm (.swap _ _ []) (fun s _ p mem => ?_) true output).1 ran
  rcases List.mem_pair.1 mem with rfl | rfl
  · exact .inl ⟨.empty, .empty, Redirect.mem_builtIn.2 (.inl rfl)⟩
  · exact .inr (Patcher.claiming_proposes _ _ _ s).independent

end Pipeline

end Seams
