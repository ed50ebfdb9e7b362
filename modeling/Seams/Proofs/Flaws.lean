import Mathlib.Tactic.Common
import Seams.Proofs.Collisions
import Seams.Proofs.Operations

/-! # Trees that tell their flaws
If the label of each node tells whether there is a flaw at the node or below, then passing by what
is said to be clean loses no flaw, and a tree is accepted exactly if no node of it is an error or a
missing token. The error tells the first of all flaws, where it is and how many there are.
Validation tolerates as many flaws as there were before. But what is rewritten had none, so what
comes out of a pipeline that validates has none either.
Main definitions:
* **`Node.Truthful`** — the nodes that are said to have a flaw are those that have one;
* **`Node.faults`** — the errors and the missing tokens of a tree;
* **`Place.IsOf`** — a line and a column are those of a byte. -/

namespace Seams

namespace Node

/-! ## The flaws that are found -/

/-- **A tree tells its flaws**: the nodes that are said to have one are exactly those that are, or
have below them, an error or a missing token. -/
def Truthful (t : Node) : Prop :=
  ∀ n ∈ t.nodes, n.hasFlaw = true ↔ ∃ m ∈ n.nodes, m.isFault = true

instance (t : Node) : Decidable t.Truthful :=
  inferInstanceAs (Decidable (∀ n ∈ t.nodes, n.hasFlaw = true ↔ ∃ m ∈ n.nodes, m.isFault = true))

/-- **The children of a tree that tells its flaws** tell theirs. -/
theorem Truthful.child {l : Label} {cs : List Node} (h : (mk l cs).Truthful) {c : Node}
    (child : c ∈ cs) : c.Truthful :=
  fun n below => h n (mem_nodes.2 (.inr ⟨c, child, below⟩))

/-- **What is not said to have a flaw is clean**, in a tree that tells its flaws. -/
theorem Truthful.hasFlaw_eq_false_iff {t : Node} (h : t.Truthful) :
    t.hasFlaw = false ↔ t.Clean := by
  rw [Bool.eq_false_iff, Ne, h t t.mem_nodes_self, Clean]
  simp only [not_exists, not_and, Bool.not_eq_true]

/-- **A label stands for no flaw** exactly if its node is none. -/
theorem flawOf_eq_nil_iff {n : Node} : flawOf n.label = [] ↔ n.isFault = false := by
  rw [flawOf, isFault, kind]
  cases n.label.kind == errorKind || n.label.missing <;> simp

/-- **The flaws of siblings** are those of each of them. -/
theorem allFlawsAmong_eq (cs : List Node) : allFlawsAmong cs = cs.flatMap allFlaws := by
  induction cs with
  | nil => rfl
  | cons c cs ih => rw [allFlawsAmong, ih, List.flatMap_cons]

/-- **The flaws of a tree are those of its nodes**, in document order. -/
theorem allFlaws_eq (t : Node) : t.allFlaws = t.nodes.flatMap fun n => flawOf n.label := by
  induction t with
  | mk l cs ih =>
      rw [allFlaws, nodes, allFlawsAmong_eq, nodesOfAll_eq, List.flatMap_cons, List.flatMap_assoc]
      exact congrArg (flawOf l ++ ·) (List.flatMap_congr ih)

/-- **A tree has no flaws exactly if it is clean.** -/
theorem allFlaws_eq_nil_iff {t : Node} : t.allFlaws = [] ↔ t.Clean := by
  rw [allFlaws_eq, List.flatMap_eq_nil_iff, Clean]
  exact forall₂_congr fun n _ => flawOf_eq_nil_iff

/-- **No flaw is lost by passing clean children by**, in a tree that tells its flaws. -/
theorem Truthful.flawsWithin_eq {t : Node} (h : t.Truthful) : t.flawsWithin = t.allFlaws := by
  induction t with
  | mk l cs ih =>
      have among : ∀ ds, (∀ d ∈ ds, d ∈ cs) → flawsAmong ds = allFlawsAmong ds := by
        intro ds
        induction ds with
        | nil => exact fun _ => rfl
        | cons d ds rest =>
            intro all
            have hd := all d List.mem_cons_self
            have others := rest fun e he => all e (List.mem_cons_of_mem _ he)
            rw [flawsAmong, allFlawsAmong, others, ih d hd (h.child hd)]
            split
            · rfl
            · rename_i passed
              -- A child is passed by only if it is not said to have a flaw.
              have silent : d.hasFlaw = false := by
                rw [Bool.not_eq_true, Bool.or_eq_false_iff] at passed
                exact passed.1
              rw [allFlaws_eq_nil_iff.2 ((h.child hd).hasFlaw_eq_false_iff.1 silent),
                List.nil_append]
      rw [flawsWithin, allFlaws, among cs fun _ hd => hd]

/-- **All flaws are found** in a tree that tells its flaws. -/
theorem Truthful.flaws_eq {t : Node} (h : t.Truthful) : t.flaws = t.allFlaws := by
  rw [flaws]
  split
  · exact h.flawsWithin_eq
  · rename_i silent
    exact (allFlaws_eq_nil_iff.2 (h.hasFlaw_eq_false_iff.1 (Bool.not_eq_true _ ▸ silent))).symm

/-- **A tree that tells its flaws is clean** exactly if none is found. -/
theorem Truthful.flaws_eq_nil_iff {t : Node} (h : t.Truthful) : t.flaws = [] ↔ t.Clean := by
  rw [h.flaws_eq, allFlaws_eq_nil_iff]

/-- **A tree is accepted exactly if no flaw is found.** -/
theorem ensureClean_eq_ok_iff {t : Node} {source : Bytes} :
    t.ensureClean source = .ok () ↔ t.flaws = [] := by
  rw [ensureClean]
  cases t.flaws with
  | nil => simp
  | cons first rest => simp

/-! ## Where flaws are -/

/-- **The errors and the missing tokens of a tree**, in document order, a node before what is below
it. -/
def faults (t : Node) : List Node := t.nodes.filter isFault

/-- **A tree is clean exactly if it has no errors and no missing tokens.** -/
theorem faults_eq_nil_iff {t : Node} : t.faults = [] ↔ t.Clean := by
  rw [faults, List.filter_eq_nil_iff, Clean]
  simp only [Bool.not_eq_true]

/-- **The flaws that some nodes stand for** are those of the errors and missing tokens among them,
one for each. -/
theorem flatMap_flawOf (ns : List Node) : (ns.flatMap fun n => flawOf n.label)
    = (ns.filter isFault).map fun n => ⟨n.start, n.stop⟩ := by
  induction ns with
  | nil => rfl
  | cons n ns ih =>
      have one : flawOf n.label = if n.isFault then [⟨n.start, n.stop⟩] else [] := rfl
      rw [List.flatMap_cons, ih, one, List.filter_cons]
      split <;> rfl

/-- **The flaws that are found are the errors and the missing tokens**, in a tree that tells its
flaws. -/
theorem Truthful.flaws_eq_faults {t : Node} (h : t.Truthful) :
    t.flaws = t.faults.map fun n => ⟨n.start, n.stop⟩ := by
  rw [h.flaws_eq, allFlaws_eq, flatMap_flawOf, faults]

end Node

namespace Place

variable {source : Bytes} {byte : Nat} {p : Place}

/-- **A place is that of a byte**: its row is the number of line feeds in front of the byte, and its
column is the number of bytes in front of it in the same line. -/
structure IsOf (source : Bytes) (byte : Nat) (p : Place) : Prop where
  /-- The line feeds in front are counted. -/
  row : p.row = (List.range byte).countP (source.byteAt · == 10)
  /-- The bytes that are counted are in front. -/
  within : p.column ≤ byte
  /-- There is no line feed among them. -/
  sameLine : ∀ i, byte - p.column ≤ i → i < byte → source.byteAt i ≠ 10
  /-- There is nothing in front of them, or a line feed. -/
  begins : p.column = byte ∨ source.byteAt (byte - p.column - 1) = 10

/-- **A source begins at the first place.** -/
theorem isOf_zero (source : Bytes) : IsOf source 0 ⟨0, 0⟩ :=
  ⟨rfl, Nat.le_refl 0, fun _ _ before => absurd before (Nat.not_lt_zero _), .inl rfl⟩

/-- **Behind a byte the next line begins** if it is a line feed, else the same line goes on. -/
theorem IsOf.next (h : IsOf source byte p) : IsOf source (byte + 1)
    (if source.byteAt byte == 10 then ⟨p.row + 1, 0⟩ else ⟨p.row, p.column + 1⟩) := by
  have counted : (List.range (byte + 1)).countP (source.byteAt · == 10)
      = p.row + if source.byteAt byte == 10 then 1 else 0 := by
    rw [List.range_succ, List.countP_append, ← h.row, List.countP_singleton]
  split
  · rename_i feed
    refine ⟨?_, Nat.zero_le _, fun i from_ before => ?_, .inr (by simpa using feed)⟩
    · rw [counted, if_pos feed]
    · exact absurd (Nat.lt_of_lt_of_le before from_) (Nat.lt_irrefl _)
  · rename_i other
    refine ⟨?_, Nat.succ_le_succ h.within, fun i from_ before => ?_, ?_⟩
    · show p.row = _
      rw [counted, if_neg other, Nat.add_zero]
    · rw [Nat.succ_sub_succ] at from_
      rcases Nat.lt_succ_iff_lt_or_eq.1 before with earlier | rfl
      · exact h.sameLine i from_ earlier
      · simpa using other
    · rw [Nat.succ_sub_succ]
      exact h.begins.imp_left (congrArg Nat.succ)

/-- **The place after some bytes is that of the byte behind them.** -/
theorem IsOf.advance (h : IsOf source byte p) (count : Nat) :
    IsOf source (byte + count) (Place.advance source p byte count) := by
  induction count generalizing byte p with
  | zero => exact h
  | succ count ih =>
      rw [Place.advance, ← Nat.succ_add_eq_add_succ]
      exact ih h.next

/-- **Places are told right.** -/
theorem isOf_ofByte (source : Bytes) (byte : Nat) : IsOf source byte (ofByte source byte) := by
  have told := (isOf_zero source).advance byte
  rwa [Nat.zero_add] at told

end Place

/-! ## What is validated -/

/-- **A tree is accepted exactly if no more flaws are found in it than in another one.** -/
theorem validateTrees_eq_ok_iff {before after : Node} {source : Bytes} :
    validateTrees before source after = .ok () ↔ after.flaws.length ≤ before.flaws.length := by
  unfold validateTrees
  split
  · rename_i more
    rw [Node.ensureClean_eq_ok_iff, ← List.length_eq_zero_iff]
    omega
  · rename_i no_more
    exact iff_of_true rfl (Nat.not_lt.1 no_more)

namespace Node

/-- **A tree with flaws is refused for the first of them**, with its place counted from one and the
number of all. -/
theorem Truthful.ensureClean_of_faulty {t first : Node} {rest : List Node} (h : t.Truthful)
    (source : Bytes) (faulty : t.faults = first :: rest) :
    ∃ p : Place, p.IsOf source first.start ∧ t.ensureClean source
      = .error ⟨⟨first.start, first.stop⟩, p.row + 1, p.column + 1, rest.length + 1⟩ := by
  refine ⟨_, Place.isOf_ofByte source first.start, ?_⟩
  rw [ensureClean, h.flaws_eq_faults, faulty, List.map_cons]
  simp only [List.length_map]

/-- **All flaws are reported.** Two trees tell their flaws. Those that are found in a tree are its
errors and missing tokens, each once and a node before what is below it. It is accepted exactly if
there are none, and it is said to be clean exactly then; else the error tells the first of them, the
line and the column of it counted from one, and the number of all. What a source is rewritten to is
accepted exactly if there are no more of them than before. -/
theorem faults_reported {before after : Node} (known : before.Truthful)
    (truthful : after.Truthful) (source : Bytes) :
    (after.flaws = after.faults.map fun n => ⟨n.start, n.stop⟩)
      ∧ (after.ensureClean source = .ok () ↔ after.faults = [])
      ∧ (after.hasFlaw = false ↔ after.faults = [])
      ∧ (∀ first rest, after.faults = first :: rest →
        ∃ p : Place, p.IsOf source first.start ∧ after.ensureClean source
          = .error ⟨⟨first.start, first.stop⟩, p.row + 1, p.column + 1, rest.length + 1⟩)
      ∧ (validateTrees before source after = .ok () ↔ after.faults.length ≤ before.faults.length)
      ∧ ∀ original, before = ofSource original → after = ofSource source →
        (validate original source = .ok () ↔ after.faults.length ≤ before.faults.length) := by
  have counts : validateTrees before source after = .ok ()
      ↔ after.faults.length ≤ before.faults.length := by
    rw [validateTrees_eq_ok_iff, known.flaws_eq_faults, truthful.flaws_eq_faults,
      List.length_map, List.length_map]
  refine ⟨truthful.flaws_eq_faults, ?_, ?_, fun first rest faulty =>
    truthful.ensureClean_of_faulty source faulty, counts, fun original first second => ?_⟩
  · rw [ensureClean_eq_ok_iff, truthful.flaws_eq_faults, List.map_eq_nil_iff]
  · rw [truthful.hasFlaw_eq_false_iff, faults_eq_nil_iff]
  · rw [validate, ← first, ← second]
    exact counts

/-- **A tree with an error in an error**, behind a line that has none. -/
def nestedErrors : Node :=
  branch "program" 0 9 [leaf "php_tag" true 0 5,
    branch "ERROR" 6 9 [leaf "name" true 6 7, branch "ERROR" 7 8 [missing ";" 8]]]

/-- **An error in an error is reported too**: there are three flaws, and the first one is at the
beginning of the second line. What had one flaw must not be rewritten to this. -/
theorem faults_reported_nested :
    (branch "program" 0 5 [missing "?>" 5]).Truthful ∧ nestedErrors.Truthful
      ∧ nestedErrors.flaws = [⟨6, 9⟩, ⟨7, 8⟩, ⟨8, 8⟩]
      ∧ nestedErrors.ensureClean (bytesOf "<?php\na+b") = .error ⟨⟨6, 9⟩, 2, 1, 3⟩
      ∧ validateTrees (branch "program" 0 5 [missing "?>" 5]) (bytesOf "<?php\na+b") nestedErrors
        ≠ .ok () := by
  have known : (branch "program" 0 5 [missing "?>" 5]).Truthful := by decide +kernel
  have truthful : nestedErrors.Truthful := by decide +kernel
  obtain ⟨found, -, -, -, validated, -⟩ :=
    faults_reported known truthful (bytesOf "<?php\na+b")
  refine ⟨known, truthful, ?_, by decide +kernel, fun accepted => ?_⟩
  · rw [found]
    decide +kernel
  · exact absurd (validated.1 accepted) (by decide +kernel)

end Node

/-- **A script has no flaws to be found.** -/
theorem Script.flaws_of_parse {source : Bytes} {s : Script} (parsed : parse source = .ok s) :
    (Node.ofSource source).flaws = [] := by
  unfold parse ofTree at parsed
  split at parsed
  · cases parsed
  · rename_i accepted
    exact Node.ensureClean_eq_ok_iff.1 accepted

/-- **What is made of a source without flaws is validated exactly if it is clean**, where its tree
tells its flaws. -/
theorem validate_eq_ok_iff {source written : Bytes} (flawless : (Node.ofSource source).flaws = [])
    (truthful : (Node.ofSource written).Truthful) :
    validate source written = .ok () ↔ (Node.ofSource written).Clean := by
  rw [validate, validateTrees_eq_ok_iff, flawless, List.length_nil, Nat.le_zero,
    List.length_eq_zero_iff, truthful.flaws_eq_nil_iff]

namespace Pipeline

variable {source : Bytes} {patchers : List Patcher} {output : PatchOutput}

/-- **A pipeline that validates has only clean outputs.** It may have any patchers, but at least
one. Then it succeeds on a source exactly if it would without validation and no node of the tree of
the output is an error or a missing token, and the output is the same. This holds also where there
was nothing to edit. All that is asked of the tree of the output is that it tells its flaws. -/
theorem run_validated_iff (listed : patchers ≠ [])
    (truthful : (Node.ofSource output.source).Truthful) :
    (⟨patchers, true⟩ : Pipeline).run source = .ok output
      ↔ (⟨patchers, false⟩ : Pipeline).run source = .ok output
        ∧ (Node.ofSource output.source).Clean := by
  -- Both parse the source and collect the same edits; only what is written may be refused.
  rw [run_eq_ok_iff listed, run_eq_ok_iff listed, ← exists_and_right]
  refine exists_congr fun s => ?_
  rw [and_assoc]
  refine and_congr_right fun parsed => ?_
  have same : s.source = source := (Redirect.parse_tokens parsed).1
  have flawless := Script.flaws_of_parse parsed
  rw [runOn_eq_ok_iff, runOn_eq_ok_iff, same]
  constructor
  · rintro ⟨edits, collected, ⟨none, rfl⟩ | ⟨some, written, made, passed, rfl⟩⟩
    · exact ⟨⟨edits, collected, .inl ⟨none, rfl⟩⟩, truthful.flaws_eq_nil_iff.1 flawless⟩
    · refine ⟨⟨edits, collected, .inr ⟨some, written, made, nofun, rfl⟩⟩, ?_⟩
      exact (validate_eq_ok_iff flawless truthful).1 (passed rfl)
  · rintro ⟨⟨edits, collected, ⟨none, rfl⟩ | ⟨some, written, made, -, rfl⟩⟩, clean⟩
    · exact ⟨edits, collected, .inl ⟨none, rfl⟩⟩
    · refine ⟨edits, collected, .inr ⟨some, written, made, fun _ => ?_, rfl⟩⟩
      exact (validate_eq_ok_iff flawless truthful).2 clean

/-- **A call of `rand` is redirected**, and the output is clean. -/
theorem run_validated_rand : ∃ output : PatchOutput,
    (⟨[Redirect.calls (.ofList ["rand"]) .empty], true⟩ : Pipeline).run randSource = .ok output
      ∧ output.source = bytesOf "<?php \\__FuncProxy__::rand();"
      ∧ (Node.ofSource output.source).Truthful ∧ (Node.ofSource output.source).Clean := by
  have computed : ((⟨[Redirect.calls (.ofList ["rand"]) .empty], true⟩ : Pipeline).run
      randSource).toOption.map PatchOutput.source
        = some (bytesOf "<?php \\__FuncProxy__::rand();") := by decide +kernel
  obtain ⟨output, result, written⟩ := Option.map_eq_some_iff.1 computed
  have truthful : (Node.ofSource output.source).Truthful := by
    rw [written]
    decide +kernel
  have ran := ok_of_toOption result
  exact ⟨output, ran, written, truthful,
    ((run_validated_iff (List.cons_ne_nil _ _) truthful).1 ran).2⟩

end Pipeline

end Seams
