import Mathlib.Data.List.Basic
import Mathlib.Tactic.Common
import Mathlib.Tactic.IntervalCases
import Seams.RewriteCache

/-! # Records that are read back
What is recorded on disk is read back as it was written: a document by the reader of documents, the
record of a source as that record, and the value of an axis as that value.
Main definitions:
* **`JsonValue.Regular`** — a value whose numbers are natural numbers;
* **`JsonValue.Ends`** — text that does not go on with a number. -/

namespace Seams

/-- **The encoding of a text is the encoding of that text.** -/
@[simp] theorem Bytes.text?_bytesOf (s : String) : (bytesOf s).text? = some s := by
  have valid : (bytesOf s).IsValidUTF8 := s.isValidUTF8
  rw [Bytes.text?, String.fromUTF8?, dif_pos valid]
  rfl

namespace JsonValue

/-! ## Strings -/

/-- **The value of a digit is what it was written for.** -/
theorem hexValue?_hexDigit {n : Nat} (h : n < 16) : hexValue? (Text.hexDigit n) = some n := by
  revert n
  decide

/-- **A character is read back from behind its backslash.** -/
theorem string?_escape {fuel : Nat} {c : Char} {cs rest : List Char}
    (h : escape? (cs ++ rest) = some (c, rest)) :
    string? (fuel + 1) ('\\' :: cs ++ rest)
      = (string? fuel rest).map fun (chars, rest) => (c :: chars, rest) := by
  rw [List.cons_append, string?, if_neg (by decide), if_pos (by decide), h]
  cases e : string? fuel rest <;> simp [e]

/-- **A control character is read back from its number.** -/
theorem escape?_unit {c : Char} (h : c.toNat < 0x20) (rest : List Char) :
    escape? (['u', '0', '0', Text.hexDigit (c.toNat / 16), Text.hexDigit (c.toNat % 16)] ++ rest)
      = some (c, rest) := by
  have zero : hexValue? '0' = some 0 := rfl
  have high := hexValue?_hexDigit (n := c.toNat / 16) (by omega)
  have low := hexValue?_hexDigit (n := c.toNat % 16) (by omega)
  have sum : c.toNat / 16 * 16 + c.toNat % 16 = c.toNat := by omega
  have unit : hexUnit? (['0', '0', Text.hexDigit (c.toNat / 16), Text.hexDigit (c.toNat % 16)]
      ++ rest) = some (c.toNat, rest) := by
    simp [hexUnit?, zero, high, low, sum]
  show unitChar? (['0', '0', Text.hexDigit (c.toNat / 16), Text.hexDigit (c.toNat % 16)] ++ rest)
    = some (c, rest)
  rw [unitChar?, unit]
  simp [Nat.lt_trans h (by decide : 0x20 < 0xd800)]

/-- **A character of a string is read back.** -/
theorem string?_writeChar (fuel : Nat) (c : Char) (rest : List Char) :
    string? (fuel + 1) (writeChar c ++ rest)
      = (string? fuel rest).map fun (chars, rest) => (c :: chars, rest) := by
  unfold writeChar
  split
  · rename_i e
    rw [beq_iff_eq] at e
    rw [e]
    exact string?_escape rfl
  rename_i quote
  split
  · rename_i e
    rw [beq_iff_eq] at e
    rw [e]
    exact string?_escape rfl
  rename_i backslash
  split
  · rename_i e
    rw [beq_iff_eq] at e
    rw [e]
    exact string?_escape rfl
  split
  · rename_i e
    rw [beq_iff_eq] at e
    rw [e]
    exact string?_escape rfl
  split
  · rename_i e
    rw [beq_iff_eq] at e
    rw [e]
    exact string?_escape rfl
  have byNumber {n : Nat} (e : (c.toNat == n) = true) : c = Char.ofNat n := by
    rw [← Char.ofNat_toNat c, beq_iff_eq.1 e]
  split
  · rename_i e
    rw [byNumber e]
    exact string?_escape rfl
  split
  · rename_i e
    rw [byNumber e]
    exact string?_escape rfl
  split
  · rename_i control
    exact string?_escape (escape?_unit control rest)
  · rename_i plain
    rw [List.singleton_append, string?, if_neg quote, if_neg backslash,
      if_pos (Nat.le_of_not_lt plain)]
    cases string? fuel rest <;> rfl

/-- **A string is read back**, whatever follows it. -/
theorem string?_write {fuel : Nat} {cs rest : List Char} (h : cs.length < fuel) :
    string? fuel (cs.flatMap writeChar ++ '"' :: rest) = some (cs, rest) := by
  induction cs generalizing fuel with
  | nil =>
      obtain ⟨fuel, rfl⟩ := Nat.exists_eq_succ_of_ne_zero (Nat.ne_of_gt h)
      rfl
  | cons c cs ih =>
      obtain ⟨fuel, rfl⟩ := Nat.exists_eq_succ_of_ne_zero (Nat.ne_of_gt (Nat.zero_lt_of_lt h))
      rw [List.flatMap_cons, List.append_assoc, string?_writeChar,
        ih (by simpa using h), Option.map_some]

/-! ## Numbers -/

/-- **Text does not go on with a number.** -/
def Ends (cs : List Char) : Prop :=
  ∀ c ∈ cs.head?, c.isDigit = false ∧ c ≠ '.' ∧ c ≠ 'e' ∧ c ≠ 'E'

/-- **Nothing does not go on with a number.** -/
theorem ends_nil : Ends [] := by
  intro c hc
  cases hc

/-- **What stands behind the parts of a document does not go on with a number.** -/
theorem ends_cons {c : Char} {cs : List Char} (h : c = ',' ∨ c = ']' ∨ c = '\x7d') :
    Ends (c :: cs) := by
  intro b hb
  obtain rfl : c = b := by simpa using hb
  rcases h with rfl | rfl | rfl <;> decide

/-- **Digits are taken up to their end.** -/
theorem takeWhile_isDigit {ds cs : List Char} (digits : ∀ d ∈ ds, d.isDigit = true)
    (ends : Ends cs) : (ds ++ cs).takeWhile Char.isDigit = ds := by
  induction ds with
  | nil =>
      cases cs with
      | nil => rfl
      | cons c cs =>
          have := (ends c rfl).1
          simp [this]
  | cons d ds ih =>
      rw [List.cons_append, List.takeWhile_cons_of_pos (digits d List.mem_cons_self),
        ih fun x hx => digits x (List.mem_cons_of_mem _ hx)]

/-- **The digits of a number other than zero do not start with a zero.** -/
theorem head?_toDigits_ne {n : Nat} (h : 0 < n) : (Nat.toDigits 10 n).head? ≠ some '0' := by
  induction n using Nat.strongRecOn with
  | ind n ih =>
      by_cases small : n < 10
      · rw [Nat.toDigits_of_lt_base small]
        interval_cases n <;> decide
      · rw [Nat.toDigits_of_base_le (by decide) (by omega)]
        have := ih (n / 10) (by omega) (by omega)
        rwa [List.head?_append_of_ne_nil]
        exact Nat.toDigits_ne_nil

/-- **The whole part of a number is read back.** -/
theorem whole?_toDigits (n : Nat) {rest : List Char} (ends : Ends rest) :
    whole? (Nat.toDigits 10 n ++ rest) = some (Nat.toDigits 10 n, rest) := by
  have digits : ∀ d ∈ Nat.toDigits 10 n, d.isDigit = true := fun d hd =>
    Nat.isDigit_of_mem_toDigits (by decide) (by decide) hd
  rcases Nat.eq_zero_or_pos n with rfl | pos
  · have none_left : rest.takeWhile Char.isDigit = [] :=
      takeWhile_isDigit (fun d hd => absurd hd List.not_mem_nil) ends
    rw [Nat.toDigits_zero, List.singleton_append]
    simp [whole?, none_left]
  · have first := head?_toDigits_ne pos
    have taken : digits? (Nat.toDigits 10 n ++ rest) = some (Nat.toDigits 10 n, rest) := by
      simp [digits?, takeWhile_isDigit digits ends, Nat.toDigits_ne_nil]
    obtain ⟨d, ds, eq⟩ := List.exists_cons_of_ne_nil (Nat.toDigits_ne_nil (n := n) (b := 10))
    rw [eq] at first taken ⊢
    unfold whole?
    split
    · rename_i cs e
      rw [List.cons_append, List.cons.injEq] at e
      exact absurd (by rw [e.1]; rfl) first
    · exact taken

/-- **A natural number is read back.** -/
theorem number?_toDigits (n : Nat) {rest : List Char} (ends : Ends rest) :
    number? (Nat.toDigits 10 n ++ rest) = some (Nat.toDigits 10 n, rest) := by
  have whole := whole?_toDigits n ends
  have fraction : fraction? rest = some ([], rest) := by
    unfold fraction?
    split
    · exact absurd rfl (ends '.' rfl).2.1
    · rfl
  have exponent : exponent? rest = some ([], rest) := by
    unfold exponent?
    split
    · rename_i c cs
      have h := (ends c rfl).2.2
      rw [if_neg (by simp [h])]
    · rfl
  obtain ⟨d, ds, eq⟩ := List.exists_cons_of_ne_nil (Nat.toDigits_ne_nil (n := n) (b := 10))
  have digit : d.isDigit = true :=
    Nat.isDigit_of_mem_toDigits (b := 10) (n := n) (by decide) (by decide) (by simp [eq])
  rw [eq] at whole ⊢
  have sign : d ≠ '-' := by
    rintro rfl
    exact absurd digit (by decide)
  rw [List.cons_append] at whole ⊢
  unfold number?
  split
  rename_i front left e
  split at e
  · rename_i minus
    exact absurd (List.cons.inj minus).1 sign
  · cases e
    simp [whole, fraction, exponent]

/-! ## Documents -/

mutual

/-- **All numbers of a value are natural numbers.** -/
def Regular : JsonValue → Prop
  | number literal => ∃ n, literal = Nat.toDigits 10 n
  | list values => RegularAll values
  | record members => RegularMembers members
  | _ => True

/-- **All numbers of some values are natural numbers.** -/
def RegularAll : List JsonValue → Prop
  | [] => True
  | v :: vs => Regular v ∧ RegularAll vs

/-- **All numbers of some members are natural numbers.** -/
def RegularMembers : List (String × JsonValue) → Prop
  | [] => True
  | (_, v) :: ms => Regular v ∧ RegularMembers ms

end

/-- **A character that is neither white space nor an end of an array.** -/
def Opens (c : Char) : Prop := isSpace c = false ∧ c ≠ ']'

/-- **White space is not skipped where there is none.** -/
theorem skipSpace_cons {c : Char} (h : isSpace c = false) (cs : List Char) :
    skipSpace (c :: cs) = c :: cs := by
  rw [skipSpace, List.dropWhile_cons_of_neg (by simp [h])]

/-- **A digit is neither white space nor an end of an array.** -/
theorem opens_of_isDigit {d : Char} (h : d.isDigit = true) : Opens d := by
  constructor
  · rw [Bool.eq_false_iff]
    intro space
    simp only [isSpace, Bool.or_eq_true, beq_iff_eq] at space
    rcases space with ((rfl | rfl) | rfl) | rfl <;> exact absurd h (by decide)
  · rintro rfl
    exact absurd h (by decide)

/-- **A document starts with neither white space nor an end of an array.** -/
theorem exists_write_eq_cons {v : JsonValue} (h : v.Regular) :
    ∃ c cs, v.write = c :: cs ∧ Opens c := by
  match v, h with
  | null, _ => exact ⟨_, _, rfl, by constructor <;> decide⟩
  | flag true, _ => exact ⟨_, _, rfl, by constructor <;> decide⟩
  | flag false, _ => exact ⟨_, _, rfl, by constructor <;> decide⟩
  | number literal, h =>
      obtain ⟨n, rfl⟩ := h
      obtain ⟨d, ds, eq⟩ := List.exists_cons_of_ne_nil (Nat.toDigits_ne_nil (n := n) (b := 10))
      refine ⟨d, ds, eq, opens_of_isDigit ?_⟩
      exact Nat.isDigit_of_mem_toDigits (b := 10) (n := n) (by decide) (by decide) (by simp [eq])
  | text s, _ => exact ⟨_, _, rfl, by constructor <;> decide⟩
  | list [], _ => exact ⟨_, _, rfl, by constructor <;> decide⟩
  | list (v :: vs), _ => exact ⟨_, _, rfl, by constructor <;> decide⟩
  | record [], _ => exact ⟨_, _, rfl, by constructor <;> decide⟩
  | record ((name, v) :: ms), _ => exact ⟨_, _, rfl, by constructor <;> decide⟩

/-- **A number is read back as a value.** -/
theorem value?_number (n fuel : Nat) {rest : List Char} (ends : Ends rest) :
    value? (fuel + 1) (Nat.toDigits 10 n ++ rest) = some (number (Nat.toDigits 10 n), rest) := by
  have whole := number?_toDigits n ends
  obtain ⟨d, ds, eq⟩ := List.exists_cons_of_ne_nil (Nat.toDigits_ne_nil (n := n) (b := 10))
  have digit : d.isDigit = true :=
    Nat.isDigit_of_mem_toDigits (b := 10) (n := n) (by decide) (by decide) (by simp [eq])
  rw [eq, List.cons_append] at whole ⊢
  have other {c : Char} (h : c.isDigit = false) {cs cs' : List Char} (e : d :: cs = c :: cs') :
      False := by
    rw [(List.cons.inj e).1, h] at digit
    cases digit
  rw [value?, skipSpace_cons (opens_of_isDigit digit).1]
  split
  · rename_i e
    exact (other (by decide) e).elim
  · rename_i e
    exact (other (by decide) e).elim
  · rename_i e
    exact (other (by decide) e).elim
  · rename_i e
    exact (other (by decide) e).elim
  · rename_i e
    exact (other (by decide) e).elim
  · rename_i e
    exact (other (by decide) e).elim
  · rw [whole, Option.map_some]

/-- **A string is written between quotes**, and then comes what follows it. -/
theorem writeString_append (s : String) (rest : List Char) :
    writeString s ++ rest = '"' :: (s.toList.flatMap writeChar ++ '"' :: rest) := by
  simp [writeString]

/-- **A string is read back from behind its opening quote.** -/
theorem string?_writeString (s : String) (rest : List Char) :
    string? ((s.toList.flatMap writeChar ++ '"' :: rest).length + 1)
      (s.toList.flatMap writeChar ++ '"' :: rest) = some (s.toList, rest) := by
  have one (c : Char) : 1 ≤ (writeChar c).length := by
    unfold writeChar
    repeat' split
    all_goals simp
  have long (cs : List Char) : cs.length ≤ (cs.flatMap writeChar).length := by
    induction cs with
    | nil => exact Nat.le_refl 0
    | cons c cs ih =>
        rw [List.flatMap_cons, List.length_append, List.length_cons]
        have := one c
        omega
  refine string?_write ?_
  have := long s.toList
  simp only [List.length_append, List.length_cons]
  omega

/-- **A string is read back as a value.** -/
theorem value?_text (s : String) (fuel : Nat) (rest : List Char) :
    value? (fuel + 1) (writeString s ++ rest) = some (text s, rest) := by
  rw [writeString_append, value?, skipSpace_cons (by decide)]
  simp only [string?_writeString, Option.map_some, String.ofList_toList]

/-- **What follows an opening bracket is read as values**, unless the array ends. -/
theorem value?_bracket (fuel : Nat) {c : Char} (opens : Opens c) (cs : List Char) :
    value? (fuel + 1) ('[' :: c :: cs)
      = (values? fuel (c :: cs)).map fun (vs, rest) => (list vs, rest) := by
  rw [value?, skipSpace_cons (by decide)]
  simp only [skipSpace_cons opens.1]
  split
  · rename_i e
    exact absurd (List.cons.inj e).1 opens.2
  · rfl

/-- **A name behind an opening brace is read as that of a member.** -/
theorem value?_brace (fuel : Nat) (cs : List Char) :
    value? (fuel + 1) ('\x7b' :: '"' :: cs)
      = (members? fuel ('"' :: cs)).map fun (ms, rest) => (record ms, rest) := by
  rw [value?, skipSpace_cons (by decide)]
  simp only [skipSpace_cons (c := '"') (by decide)]
  rfl

/-- **The last member is read back**, if its value is. -/
theorem members?_last {fuel : Nat} (name : String) {v : JsonValue} {cs rest : List Char}
    (first : value? fuel cs = some (v, '\x7d' :: rest)) :
    members? (fuel + 1) (writeString name ++ ':' :: cs) = some ([(name, v)], rest) := by
  have brace : skipSpace ('\x7d' :: rest) = '\x7d' :: rest := skipSpace_cons (by decide) _
  have colon : skipSpace (':' :: cs) = ':' :: cs := skipSpace_cons (by decide) _
  rw [writeString_append, members?, skipSpace_cons (by decide)]
  simp only [string?_writeString, Option.bind_eq_bind, Option.bind_some, colon, first, brace,
    String.ofList_toList]

/-- **A member before others is read back**, if its value is and the others are. -/
theorem members?_more {fuel : Nat} (name : String) {v : JsonValue}
    {ms : List (String × JsonValue)} {cs left rest : List Char}
    (first : value? fuel cs = some (v, ',' :: left))
    (others : members? fuel left = some (ms, rest)) :
    members? (fuel + 1) (writeString name ++ ':' :: cs) = some ((name, v) :: ms, rest) := by
  have comma : skipSpace (',' :: left) = ',' :: left := skipSpace_cons (by decide) _
  have colon : skipSpace (':' :: cs) = ':' :: cs := skipSpace_cons (by decide) _
  rw [writeString_append, members?, skipSpace_cons (by decide)]
  simp only [string?_writeString, Option.bind_eq_bind, Option.bind_some, colon, first, comma,
    others, String.ofList_toList]

mutual

/-- **A value is read back**, whatever follows it. -/
theorem value?_write : ∀ {v : JsonValue} (fuel : Nat) (rest : List Char), v.Regular → Ends rest →
    2 * v.write.length ≤ fuel → value? fuel (v.write ++ rest) = some (v, rest)
  | null, fuel, rest, _, _, h => by
      obtain ⟨fuel, rfl⟩ : ∃ f, fuel = f + 1 := ⟨fuel - 1, by simp [write] at h; omega⟩
      rfl
  | flag true, fuel, rest, _, _, h => by
      obtain ⟨fuel, rfl⟩ : ∃ f, fuel = f + 1 := ⟨fuel - 1, by simp [write] at h; omega⟩
      rfl
  | flag false, fuel, rest, _, _, h => by
      obtain ⟨fuel, rfl⟩ : ∃ f, fuel = f + 1 := ⟨fuel - 1, by simp [write] at h; omega⟩
      rfl
  | number literal, fuel, rest, regular, ends, h => by
      obtain ⟨n, rfl⟩ := regular
      have pos := List.length_pos_iff.2 (Nat.toDigits_ne_nil (n := n) (b := 10))
      obtain ⟨fuel, rfl⟩ : ∃ f, fuel = f + 1 := ⟨fuel - 1, by simp [write] at h; omega⟩
      exact value?_number n fuel ends
  | text s, fuel, rest, _, _, h => by
      obtain ⟨fuel, rfl⟩ : ∃ f, fuel = f + 1 :=
        ⟨fuel - 1, by simp [write, writeString] at h; omega⟩
      exact value?_text s fuel rest
  | list [], fuel, rest, _, _, h => by
      obtain ⟨fuel, rfl⟩ : ∃ f, fuel = f + 1 := ⟨fuel - 1, by simp [write] at h; omega⟩
      rfl
  | list (v :: vs), fuel, rest, regular, _, h => by
      obtain ⟨fuel, rfl⟩ : ∃ f, fuel = f + 1 := ⟨fuel - 1, by simp [write] at h; omega⟩
      have back := values?_write fuel rest regular (by
        simp [write] at h ⊢
        omega)
      obtain ⟨c, cs, eq, opens⟩ := exists_write_eq_cons regular.1
      rw [eq] at back
      rw [write, eq]
      simp only [List.cons_append] at back ⊢
      rw [value?_bracket fuel opens, back, Option.map_some]
  | record [], fuel, rest, _, _, h => by
      obtain ⟨fuel, rfl⟩ : ∃ f, fuel = f + 1 := ⟨fuel - 1, by simp [write] at h; omega⟩
      rfl
  | record ((name, v) :: ms), fuel, rest, regular, _, h => by
      obtain ⟨fuel, rfl⟩ : ∃ f, fuel = f + 1 := ⟨fuel - 1, by simp [write] at h; omega⟩
      have back := members?_write name fuel rest regular (by
        simp [write] at h ⊢
        omega)
      rw [write]
      simp only [List.cons_append, List.append_assoc] at back ⊢
      rw [writeString_append] at back ⊢
      rw [value?_brace, back, Option.map_some]
termination_by v => sizeOf v

/-- **The values of an array are read back.** -/
theorem values?_write : ∀ {v : JsonValue} {vs : List JsonValue} (fuel : Nat) (rest : List Char),
    RegularAll (v :: vs) → 2 * (v.write ++ writeMore vs).length ≤ fuel →
      values? fuel (v.write ++ writeMore vs ++ rest) = some (v :: vs, rest)
  | v, [], fuel, rest, regular, h => by
      obtain ⟨fuel, rfl⟩ : ∃ f, fuel = f + 1 := ⟨fuel - 1, by simp [writeMore] at h; omega⟩
      have first := value?_write fuel (']' :: rest) regular.1 (ends_cons (.inr (.inl rfl)))
        (by simp [writeMore] at h; omega)
      rw [writeMore, List.append_assoc, List.singleton_append, values?, first]
      simp [skipSpace_cons (c := ']') (by decide)]
  | v, w :: ws, fuel, rest, regular, h => by
      obtain ⟨c, cs, eq, -⟩ := exists_write_eq_cons regular.1
      obtain ⟨fuel, rfl⟩ : ∃ f, fuel = f + 1 := ⟨fuel - 1, by simp [writeMore] at h; omega⟩
      have first := value?_write fuel (',' :: (w.write ++ writeMore ws ++ rest)) regular.1
        (ends_cons (.inl rfl)) (by simp [writeMore] at h; omega)
      have others := values?_write fuel rest regular.2 (by
        simp [writeMore, eq] at h ⊢
        omega)
      rw [writeMore, List.append_assoc, List.cons_append, List.cons_append, values?, first]
      simp only [List.append_assoc] at others
      simp [skipSpace_cons (c := ',') (by decide), others]
termination_by v vs => sizeOf v + sizeOf vs

/-- **The members of an object are read back.** -/
theorem members?_write : ∀ (name : String) {v : JsonValue} {ms : List (String × JsonValue)}
    (fuel : Nat) (rest : List Char), RegularMembers ((name, v) :: ms) →
      2 * (writeString name ++ ':' :: v.write ++ writeMembers ms).length ≤ fuel →
      members? fuel (writeString name ++ ':' :: v.write ++ writeMembers ms ++ rest)
        = some ((name, v) :: ms, rest)
  | name, v, [], fuel, rest, regular, h => by
      obtain ⟨fuel, rfl⟩ : ∃ f, fuel = f + 1 := ⟨fuel - 1, by simp at h; omega⟩
      have first := value?_write fuel ('\x7d' :: rest) regular.1 (ends_cons (.inr (.inr rfl)))
        (by simp [writeMembers] at h; omega)
      simp only [writeMembers, List.append_assoc, List.cons_append, List.nil_append]
      exact members?_last name first
  | name, v, (name', w) :: ms, fuel, rest, regular, h => by
      obtain ⟨fuel, rfl⟩ : ∃ f, fuel = f + 1 := ⟨fuel - 1, by simp at h; omega⟩
      have first := value?_write fuel
        (',' :: (writeString name' ++ ':' :: w.write ++ writeMembers ms ++ rest))
        regular.1 (ends_cons (.inl rfl)) (by simp [writeMembers] at h; omega)
      have others := members?_write name' fuel rest regular.2 (by
        simp [writeMembers] at h ⊢
        omega)
      simp only [writeMembers, List.append_assoc, List.cons_append] at first others ⊢
      exact members?_more name first others
termination_by _ v ms => sizeOf v + sizeOf ms

end

/-- **A document is read back as the value that it was written from.** -/
theorem read?_toBytes {v : JsonValue} (h : v.Regular) : read? v.toBytes = some v := by
  have back := value?_write (2 * v.write.length + 2) [] h ends_nil (by omega)
  rw [List.append_nil] at back
  have done : skipSpace [] = [] := rfl
  rw [read?, toBytes, Bytes.text?_bytesOf]
  simp only [Option.bind_eq_bind, Option.bind_some, String.toList_ofList, back, done,
    List.isEmpty_nil, if_true]

/-! ## Numbers and lists of strings -/

/-- **The digits of a natural number.** -/
theorem ofNat_eq (n : Nat) : ofNat n = number (Nat.toDigits 10 n) := by
  rw [ofNat, Nat.toString_eq_ofList_toDigits, String.toList_ofList]

/-- **A natural number is read back as a word** if it is one. -/
theorem word?_ofNat (n : Nat) : (ofNat n).word? = if n < UInt64.size then some n else none := by
  have digits : (Nat.toDigits 10 n).all Char.isDigit = true :=
    List.all_eq_true.2 fun d hd => Nat.isDigit_of_mem_toDigits (by decide) (by decide) hd
  have value : (Nat.toDigits 10 n).foldl (fun a c => 10 * a + (c.toNat - 48)) 0 = n :=
    Nat.ofDigitChars_ten_toDigits
  rw [ofNat_eq]
  simp only [word?, digits, value, if_true]

/-- **A list of strings is regular.** -/
theorem regularAll_map_text (ss : List String) : RegularAll (ss.map .text) := by
  induction ss with
  | nil => trivial
  | cons s ss ih => exact ⟨trivial, ih⟩

/-- **A list of strings is read back.** -/
theorem read?_texts (ss : List String) :
    (read? (list (ss.map .text)).toBytes).bind texts? = some ss := by
  have back := read?_toBytes (v := list (ss.map .text)) (regularAll_map_text ss)
  rw [back, Option.bind_some, texts?]
  induction ss with
  | nil => rfl
  | cons s ss ih =>
      rw [List.map_cons, List.mapM_cons, ih (read?_toBytes (regularAll_map_text ss))]
      rfl

end JsonValue

namespace EntryRecord

/-- **The record that a file with some content holds**, if it holds one. -/
def decode? (body : Bytes) : Option EntryRecord := (JsonValue.read? body).bind ofJson?

/-- **A record is read back** as long as the source is not too long for its length to be a word. -/
theorem decode?_toBytes (r : EntryRecord) :
    decode? r.toJson.toBytes = if r.source.length < UInt64.size then some r else none := by
  have regular : r.toJson.Regular := by
    simp only [toJson, JsonValue.Regular, JsonValue.RegularMembers, JsonValue.ofNat_eq]
    exact ⟨⟨_, rfl⟩, ⟨_, rfl⟩, ⟨_, rfl⟩, trivial⟩
  have hash : r.source.hash.toNat < UInt64.size := r.source.hash.toNat_lt
  have generation : r.generation.toNat < UInt64.size := r.generation.toNat_lt
  rw [decode?, JsonValue.read?_toBytes regular, Option.bind_some]
  simp only [toJson, ofJson?]
  show ofWords? (.ofNat r.source.hash.toNat) (.ofNat r.source.length) (.ofNat r.generation.toNat)
    = _
  simp only [ofWords?, JsonValue.word?_ofNat, if_pos hash, if_pos generation]
  split <;> simp

end EntryRecord

end Seams
