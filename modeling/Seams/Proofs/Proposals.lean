import Mathlib.Data.List.Basic
import Mathlib.Tactic.Common
import Seams.Pipeline
import Seams.Proofs.Splicing
import Seams.Proofs.Trees

/-! # Patchers that propose edits
A patcher may look at the edits that are there already, but the patchers of this library do not:
each has its edits for a script, and adds them one after the other. Then a pipeline succeeds if no
two of all the edits are for one token and all of them fit, and what it writes is the source with
these edits made.
Main definitions:
* **`EditSet.insertAll`** — edits added one after the other;
* **`Patcher.Proposes`** — the edits of a patcher for a script;
* **`Script.withTree`** — a source with a tree, and its tokens. -/

namespace Seams

/-! ## Results -/

/-- **A value is a given result** exactly if it is that of the result. -/
theorem pure_eq_ok_iff {ε α : Type} {a b : α} : (pure a : Except ε α) = .ok b ↔ b = a :=
  ⟨fun same => (Except.ok.inj same).symm, fun same => same ▸ rfl⟩

/-- **Two steps succeed exactly if the first one does and the second one does on its result.** -/
theorem bind_eq_ok_iff {ε α β : Type} {x : Except ε α} {f : α → Except ε β} {b : β} :
    x >>= f = .ok b ↔ ∃ a, x = .ok a ∧ f a = .ok b := by
  cases x with
  | error e => simp [bind, Except.bind]
  | ok a => simp [bind, Except.bind]

/-- **A step whose errors are told in another way succeeds as before.** -/
theorem mapError_eq_ok_iff {ε ε' α : Type} {x : Except ε α} {f : ε → ε'} {a : α} :
    x.mapError f = .ok a ↔ x = .ok a := by
  cases x with
  | error e => simp [Except.mapError]
  | ok b => simp [Except.mapError]

/-! ## Adding edits -/

/-- **An edit is put among the others**, and nothing else happens to them. -/
theorem Edit.place_perm (e : Edit) (ds : List Edit) : (e.place ds).Perm (e :: ds) := by
  induction ds with
  | nil => exact .refl _
  | cons d ds ih =>
      rw [place]
      split
      · exact .refl _
      · exact (ih.cons d).trans (.swap e d ds)

namespace EditSet

/-- **There is no edit at a position that no edit has.** -/
theorem get?_eq_none_iff {s : EditSet} {n : Nat} :
    s.get? n = none ↔ n ∉ s.toList.map Edit.position := by
  rw [get?, List.find?_eq_none, List.mem_map, not_exists]
  simp only [beq_iff_eq, not_and]

/-- **An edit is added at a position where there is none.** -/
theorem insert_of_free {s : EditSet} {e : Edit} (free : e.position ∉ s.toList.map Edit.position) :
    ∃ s', s.insert e = .ok s' ∧ s'.toList.Perm (e :: s.toList) := by
  unfold insert
  split
  · rename_i d there
    rw [get?_eq_none_iff.2 free] at there
    cases there
  · exact ⟨_, rfl, e.place_perm s.toList⟩

/-- **Edits are added one after the other**, until one meets another. -/
def insertAll (s : EditSet) : List Edit → Except EditError EditSet
  | [] => .ok s
  | e :: es =>
    match s.insert e with
    | .error error => .error error
    | .ok s => insertAll s es

/-- **Adding edits in two goes** is adding them in one. -/
theorem insertAll_append (s : EditSet) (es fs : List Edit) :
    s.insertAll (es ++ fs) = s.insertAll es >>= fun s => s.insertAll fs := by
  induction es generalizing s with
  | nil => rfl
  | cons e es ih =>
      rw [List.cons_append, insertAll, insertAll]
      cases s.insert e with
      | error => rfl
      | ok s => exact ih s

/-- **Edits for different positions are all added**, if there are no edits at these positions. -/
theorem insertAll_of_nodup (s : EditSet) (es : List Edit)
    (apart : ((es ++ s.toList).map Edit.position).Nodup) :
    ∃ s', s.insertAll es = .ok s' ∧ s'.toList.Perm (es ++ s.toList) := by
  induction es generalizing s with
  | nil => exact ⟨s, rfl, .refl _⟩
  | cons e es ih =>
      have free : e.position ∉ s.toList.map Edit.position := by
        rw [List.cons_append, List.map_cons, List.nodup_cons, List.map_append, List.mem_append,
          not_or] at apart
        exact apart.1.2
      obtain ⟨s', inserted, perm⟩ := insert_of_free free
      have moved : (es ++ s'.toList).Perm (e :: es ++ s.toList) :=
        (perm.append_left es).trans List.perm_middle
      obtain ⟨s'', added, perm'⟩ := ih s' ((moved.map Edit.position).nodup_iff.2 apart)
      exact ⟨s'', by rw [insertAll, inserted]; exact added, perm'.trans moved⟩

end EditSet

/-! ## Patchers and pipelines -/

/-- **A patcher proposes edits for a script**: it adds them to those that are there already, and
fails only if one of them meets another. -/
def Patcher.Proposes (p : Patcher) (s : Script) (proposed : List Edit) : Prop :=
  ∀ edits, p.collect s edits = (edits.insertAll proposed).mapError .edit

/-- **Patchers that propose edits add all of them**, those of the first patcher first. -/
theorem Script.collectAll_of_proposes {s : Script} {proposed : Patcher → List Edit}
    {patchers : List Patcher} (proposes : ∀ p ∈ patchers, p.Proposes s (proposed p))
    (edits : EditSet) :
    s.collectAll patchers edits
      = (edits.insertAll (patchers.flatMap proposed)).mapError .edit := by
  induction patchers generalizing edits with
  | nil => rfl
  | cons p ps ih =>
      have first := proposes p List.mem_cons_self edits
      have others := ih fun q hq => proposes q (List.mem_cons_of_mem _ hq)
      rw [collectAll, first, List.flatMap_cons, EditSet.insertAll_append]
      cases edits.insertAll (proposed p) with
      | error => rfl
      | ok edits => exact others edits

/-- **A source with a tree**, and the tokens that come of both. -/
def Script.withTree (source : Bytes) (tree : Node) : Script :=
  ⟨source, tree, TokenStream.ofTree source tree⟩

/-- **A source with a clean tree is a script.** -/
theorem Script.ofTree_of_clean {source : Bytes} {tree : Node} (clean : tree.Clean) :
    ofTree source tree = .ok (.withTree source tree) := by
  rw [ofTree, clean.ensureClean]
  rfl

/-- **A script is its source with its tree.** -/
theorem Script.eq_withTree {source : Bytes} {tree : Node} {s : Script}
    (parsed : ofTree source tree = .ok s) : s = withTree source tree := by
  unfold ofTree at parsed
  split at parsed
  · cases parsed
  · exact (Except.ok.inj parsed).symm

/-- **When a pipeline succeeds on a script**, and with what. The edits are collected. Without edits
the source comes back; else what is reassembled is the output, if it passes the validation. -/
theorem Pipeline.runOn_eq_ok_iff {p : Pipeline} {s : Script} {output : PatchOutput} :
    p.runOn s = .ok output ↔ ∃ edits, s.collectAll p.patchers .empty = .ok edits
      ∧ ((edits.isEmpty = true ∧ output = .unchanged s.source)
        ∨ (edits.isEmpty = false ∧ ∃ written, s.tokens.reassemble edits = .ok written
          ∧ (p.verify = true → validate s.source written = .ok ())
          ∧ output = ⟨written, true, edits.size⟩)) := by
  rw [runOn, bind_eq_ok_iff]
  refine exists_congr fun edits => and_congr_right fun _ => ?_
  cases edits.isEmpty with
  | true => simp only [if_true, pure_eq_ok_iff, true_and, Bool.true_eq_false, false_and, or_false]
  | false =>
      rw [if_neg Bool.false_ne_true, bind_eq_ok_iff]
      simp only [mapError_eq_ok_iff, Bool.false_eq_true, false_and, false_or, true_and]
      refine exists_congr fun written => and_congr_right fun _ => ?_
      cases p.verify with
      | false => simp only [Bool.false_eq_true, if_false, pure_eq_ok_iff, false_implies, true_and]
      | true =>
          simp only [if_true, bind_eq_ok_iff, mapError_eq_ok_iff, pure_eq_ok_iff, true_implies,
            exists_and_right]
          refine and_congr_left fun _ => ?_
          constructor
          · rintro ⟨_, passed⟩
            exact passed
          · exact fun passed => ⟨(), passed⟩

/-- **When a pipeline with patchers succeeds on a source**: the source fits the grammar, and the
pipeline succeeds on the script. -/
theorem Pipeline.run_eq_ok_iff {p : Pipeline} (listed : p.patchers ≠ []) {source : Bytes}
    {output : PatchOutput} :
    p.run source = .ok output ↔ ∃ s, Script.parse source = .ok s ∧ p.runOn s = .ok output := by
  have some_patcher : ¬ p.patchers.isEmpty = true := by rwa [List.isEmpty_iff]
  rw [run, if_neg some_patcher, bind_eq_ok_iff]
  simp only [mapError_eq_ok_iff]

/-- **A pipeline makes the edits that its patchers propose**, if they are for different tokens and
fit. -/
theorem Pipeline.runOn_of_proposes {source : Bytes} {tree : Node} {proposed : Patcher → List Edit}
    {patchers : List Patcher}
    (proposes : ∀ p ∈ patchers, p.Proposes (.withTree source tree) (proposed p))
    (apart : ((patchers.flatMap proposed).map Edit.position).Nodup)
    (fits : ∀ p ∈ patchers, ∀ e ∈ proposed p, (TokenStream.ofTree source tree).Fits e) :
    ∃ edits : EditSet, edits.toList.Perm (patchers.flatMap proposed)
      ∧ (⟨patchers, false⟩ : Pipeline).runOn (.withTree source tree)
        = .ok ⟨source.splice 0 ((TokenStream.ofTree source tree).splices edits.toList),
          !edits.isEmpty, edits.size⟩ := by
  obtain ⟨edits, added, perm⟩ := EditSet.insertAll_of_nodup .empty
    (patchers.flatMap proposed) (by rwa [EditSet.empty, List.append_nil])
  rw [EditSet.empty, List.append_nil] at perm
  have all_fit : ∀ e ∈ edits.toList, (TokenStream.ofTree source tree).Fits e := by
    intro e he
    obtain ⟨p, hp, mem⟩ := List.mem_flatMap.1 (perm.mem_iff.1 he)
    exact fits p hp e mem
  have written := TokenStream.reassemble_of_fits (TokenStream.ofTree_spans source tree) all_fit
  refine ⟨edits, perm, ?_⟩
  simp only [runOn, Script.collectAll_of_proposes proposes, added, Except.mapError, bind,
    Except.bind]
  -- Without edits the source is given back, and nothing is written anew.
  cases none_added : edits.isEmpty with
  | true =>
      have no_edits : edits.toList = [] := List.isEmpty_iff.1 none_added
      have unchanged : source.splice 0 ((TokenStream.ofTree source tree).splices []) = source :=
        source.splice_nil
      rw [if_pos rfl, EditSet.size, no_edits, unchanged]
      rfl
  | false =>
      rw [if_neg Bool.false_ne_true, Script.withTree, written]
      rfl

end Seams
