import Criteria.Json.Printer
import Criteria.Proofs.JsonReader
import Mathlib.Algebra.Group.Nat.Defs
import Mathlib.Data.List.TakeDrop
import Mathlib.Data.List.TakeWhile

/-! # Reading back what was printed

The reader takes the text of a value from any place where a value may stand to the place behind
that value, whatever is open around it and whatever was read before. So it reads back every value
whose floats are read back alone, as long as whole numbers have the form in which they are read.
-/

namespace Criteria.Json

/-- The three ways in which a character of a string is written. -/
inductive Escaped (c : Char) : List Char → Prop where
  | letter {e : Char} : escaped? e = some c → Escaped c ['\\', e]
  | code : c.toNat < 32 →
      Escaped c (['\\', 'u'] ++ (Nat.toDigits 16 c.toNat).leftpad 4 '0')
  | raw : c ≠ '"' ∧ c ≠ '\\' → ¬ c < ' ' → Escaped c [c]

theorem escaped_escapeChar (c : Char) : Escaped c (escapeChar c) := by
  unfold escapeChar
  split
  · rename_i h
    have quoted : c = '"' ∨ c = '\\' := by simpa using h
    exact .letter (if_pos (quoted.imp_right .inl))
  split
  · subst c
    exact .letter rfl
  split
  · subst c
    exact .letter rfl
  split
  · subst c
    exact .letter rfl
  split
  · subst c
    exact .letter rfl
  split
  · subst c
    exact .letter rfl
  split
  · exact .code ‹_›
  · rename_i unquoted _ _ _ _ _ visible
    exact .raw (by simpa using unquoted) visible

theorem padded_hex : ∀ n < 32, (Nat.toDigits 16 n).leftpad 4 '0' =
    ['0', '0', Nat.digitChar (n / 16), Nat.digitChar (n % 16)] := by decide

theorem hexValue?_padded : ∀ n < 32,
    hexValue? ['0', '0', Nat.digitChar (n / 16), Nat.digitChar (n % 16)] = some n := by decide

theorem units?_unicode (a b c d : Char) (rest : List Char) :
    units? ('\\' :: 'u' :: a :: b :: c :: d :: rest) =
      (hexValue? [a, b, c, d]).bind fun unit => (units? rest).map (unit :: ·) := by
  rw [units?]
  cases hexValue? [a, b, c, d] <;> cases units? rest <;> rfl

theorem units?_escape {c e : Char} (h : escaped? c = some e) (rest : List Char) :
    units? ('\\' :: c :: rest) = (units? rest).map (e.toNat :: ·) := by
  rw [units?, h]
  · cases units? rest <;> rfl
  · rintro _ _ _ _ _ rfl
    cases h

theorem units?_raw {c : Char} (h : c ≠ '\\') (visible : ¬ c < ' ') (rest : List Char) :
    units? (c :: rest) = (units? rest).map (c.toNat :: ·) := by
  rw [units?, if_neg (by simp [h, visible])]
  · rintro _ _ _ _ _ rfl
    exact absurd rfl h
  · rintro _ _ rfl
    exact absurd rfl h

theorem Escaped.units?_append {c : Char} {written : List Char} (h : Escaped c written)
    (rest : List Char) : units? (written ++ rest) = (units? rest).map (c.toNat :: ·) := by
  cases h with
  | letter h => exact units?_escape h rest
  | code small =>
      rw [padded_hex _ small]
      exact (units?_unicode _ _ _ _ rest).trans (by rw [hexValue?_padded _ small, Option.bind_some])
  | raw unquoted visible => exact units?_raw unquoted.2 visible rest

theorem units?_flatMap (text : List Char) :
    units? (text.flatMap escapeChar) = some (text.map Char.toNat) := by
  induction text with
  | nil => rfl
  | cons c rest ih =>
      rw [List.flatMap_cons, (escaped_escapeChar c).units?_append, ih, Option.map_some,
        List.map_cons]

theorem characters?_map_toNat (s : List Char) : characters? (s.map Char.toNat) = some s := by
  have whole (c : Char) : isHighHalf c.toNat = false := by
    have : c.toNat < 0xd800 ∨ 0xdfff < c.toNat ∧ c.toNat < 0x110000 := c.valid
    simp only [isHighHalf, Bool.and_eq_false_iff, decide_eq_false_iff_not]
    omega
  induction s with
  | nil => rfl
  | cons c rest ih =>
      cases rest with
      | nil => simp [characters?, show c.toNat.isValidChar from c.valid]
      | cons d rest =>
          rw [List.map_cons, List.map_cons, characters?, whole c, Bool.false_and,
            if_neg Bool.false_ne_true, if_pos (show c.toNat.isValidChar from c.valid),
            ← List.map_cons, ih, Char.ofNat_toNat]
          rfl

theorem unescape?_flatMap (s : String) : unescape? (s.toList.flatMap escapeChar) = some s := by
  rw [unescape?, units?_flatMap, Option.bind_some, characters?_map_toNat, Option.map_some,
    String.ofList_toList]

theorem run_append (r : Reading) (as bs : List Char) :
    run r (as ++ bs) = (run r as).bind fun r' => run r' bs :=
  List.foldlM_append

theorem run_cons (r : Reading) (c : Char) (cs : List Char) :
    run r (c :: cs) = (step r c).bind fun r' => run r' cs :=
  List.foldlM_cons

theorem run_nil (r : Reading) : run r [] = some r := rfl

variable {frames : List Frame} {naming : Bool} {raw : List Char}

/-- A place that takes up each ordinary character takes up a text of them. -/
theorem run_ordinary {ordinary : Char → Prop} (place : List Char → Place)
    (h : ∀ taken c, ordinary c →
      step ⟨frames, place taken⟩ c = some ⟨frames, place (taken ++ [c])⟩)
    (taken text : List Char) (htext : ∀ c ∈ text, ordinary c) :
    run ⟨frames, place taken⟩ text = some ⟨frames, place (taken ++ text)⟩ := by
  induction text generalizing taken with
  | nil => rw [List.append_nil, run_nil]
  | cons c rest ih =>
      obtain ⟨hc, hrest⟩ := List.forall_mem_cons.mp htext
      rw [run_cons, h taken c hc, Option.bind_some, ih _ hrest, List.append_assoc,
        List.singleton_append]

theorem step_string {c : Char} (h : c ≠ '"' ∧ c ≠ '\\') :
    step ⟨frames, .string naming raw⟩ c = some ⟨frames, .string naming (raw ++ [c])⟩ := by
  simp [step, h]

theorem run_escape (c : Char) :
    run ⟨frames, .string naming raw⟩ ['\\', c] =
      some ⟨frames, .string naming (raw ++ ['\\', c])⟩ := rfl

theorem run_string (text : List Char) (h : ∀ c ∈ text, c ≠ '"' ∧ c ≠ '\\') :
    run ⟨frames, .string naming raw⟩ text = some ⟨frames, .string naming (raw ++ text)⟩ :=
  run_ordinary (.string naming) (fun _ _ => step_string) raw text h

theorem quoteless_hex : ∀ n < 32, ((Nat.toDigits 16 n).leftpad 4 '0').all
    (fun c => c != '"' && c != '\\') = true := by
  decide

theorem Escaped.run_eq {c : Char} {written : List Char} (h : Escaped c written) :
    run ⟨frames, .string naming raw⟩ written =
      some ⟨frames, .string naming (raw ++ written)⟩ := by
  cases h with
  | letter => exact run_escape _
  | code small =>
      have quoteless := List.all_eq_true.mp (quoteless_hex c.toNat small)
      rw [run_append, run_escape, Option.bind_some, run_string _ (by simpa using quoteless),
        List.append_assoc]
  | raw unquoted => exact run_string [c] (List.forall_mem_singleton.mpr unquoted)

theorem run_flatMap (text : List Char) :
    run ⟨frames, .string naming raw⟩ (text.flatMap escapeChar) =
      some ⟨frames, .string naming (raw ++ text.flatMap escapeChar)⟩ := by
  induction text generalizing raw with
  | nil => rw [List.flatMap_nil, List.append_nil, run_nil]
  | cons c rest ih =>
      rw [List.flatMap_cons, run_append, (escaped_escapeChar c).run_eq, Option.bind_some, ih,
        List.append_assoc]

/-- A string is read up to the quote that closes it, and then its escapes are undone. -/
theorem run_stringChars (s : String) {r : Reading}
    (h : step r '"' = some ⟨frames, .string naming []⟩) (rest : List Char) :
    run r (stringChars s ++ rest) = (closeString frames naming s).bind fun r' => run r' rest := by
  have closing : step ⟨frames, .string naming (s.toList.flatMap escapeChar)⟩ '"' =
      closeString frames naming s := by
    simp only [step, if_pos, unescape?_flatMap, Option.bind_some]
  rw [stringChars, List.cons_append, List.cons_append, run_cons, h, Option.bind_some,
    List.append_assoc, run_append, run_flatMap, Option.bind_some, List.nil_append,
    List.singleton_append, run_cons, closing]

theorem isWholePart_numeral (n : Nat) : isWholePart (Text.numeral n) = true := by
  cases n with
  | zero => rfl
  | succ n =>
      simp [isWholePart, Text.head?_numeral_ne_zero n.succ_pos, Text.numeral_ne_nil]

theorem magnitude?_numeral (negative : Bool) (n : Nat) :
    magnitude? negative (Text.numeral n) = whole? negative n := by
  have span : (Text.numeral n).span Char.isDigit = (Text.numeral n, []) := by
    have digits : ∀ c ∈ Text.numeral n, c.isDigit := fun c => Text.isDigit_of_mem_numeral
    rw [List.span_eq_takeWhile_dropWhile, List.takeWhile_eq_self_iff.mpr digits,
      List.dropWhile_eq_nil_iff.mpr digits]
  have digits : Nat.ofDigitChars 10 (Text.numeral n) 0 = n := Nat.ofDigitChars_ten_toDigits
  rw [magnitude?, span]
  simp only [isWholePart_numeral, digits, List.isEmpty_nil, Bool.not_true, Bool.false_eq_true,
    if_false, if_true]

theorem number?_numeral (n : Nat) : number? (Text.numeral n) = whole? false n := by
  unfold number?
  split
  · rename_i letters h
    have : '-' ∈ Text.numeral n := h ▸ List.mem_cons_self
    exact absurd (Text.isDigit_of_mem_numeral this) (by decide)
  · exact magnitude?_numeral false n

theorem word?_eq_number? {letters : List Char} {c : Char} (h : c ∈ letters)
    (hc : c.isDigit) : word? letters = number? letters := by
  have unnamed {name : List Char} (hname : name.any Char.isDigit = false) : letters ≠ name := by
    rintro rfl
    exact absurd (List.any_eq_true.mpr ⟨c, h, hc⟩) (by simp [hname])
  rw [word?, if_neg (unnamed rfl), if_neg (unnamed rfl), if_neg (unnamed rfl)]

theorem exists_digit_mem_numeral (n : Nat) : ∃ c ∈ Text.numeral n, c.isDigit := by
  obtain ⟨c, hc⟩ := List.exists_mem_of_ne_nil _ (Text.numeral_ne_nil n)
  exact ⟨c, hc, Text.isDigit_of_mem_numeral hc⟩

theorem word?_numeral (n : Nat) : word? (Text.numeral n) = whole? false n := by
  obtain ⟨c, hc, digit⟩ := exists_digit_mem_numeral n
  rw [word?_eq_number? hc digit, number?_numeral]

theorem word?_signedNumeral (n : Int64) :
    word? (Text.signedNumeral n.toInt) = some (.integer n) := by
  have above := n.le_toInt
  have below := n.toInt_lt
  cases hn : n.toInt with
  | ofNat m =>
      have small : m < 2 ^ 63 := by
        rw [hn, Int.ofNat_eq_natCast] at below
        omega
      have back : Int64.ofNat m = n := by
        rw [← Int64.ofInt_eq_ofNat, ← Int.ofNat_eq_natCast, ← hn, Int64.ofInt_toInt]
      rw [Text.signedNumeral, word?_numeral, whole?, if_neg Bool.false_ne_true, if_pos small, back]
  | negSucc m =>
      have small : m + 1 ≤ 2 ^ 63 := by
        rw [hn] at above
        omega
      have back : Int64.ofInt (-(m + 1 : Nat)) = n :=
        (congrArg Int64.ofInt hn).symm.trans n.ofInt_toInt
      obtain ⟨c, hc, digit⟩ := exists_digit_mem_numeral (m + 1)
      rw [Text.signedNumeral, word?_eq_number? (List.mem_cons_of_mem _ hc) digit, number?,
        magnitude?_numeral, whole?, if_pos rfl, if_pos ⟨m.succ_pos, small⟩, back]

theorem word?_natural {n : UInt64} (h : 2 ^ 63 ≤ n.toNat) :
    word? (Text.numeral n.toNat) = some (.natural n) := by
  rw [word?_numeral, whole?, if_neg Bool.false_ne_true, if_neg (by omega), if_pos n.toNat_lt,
    UInt64.ofNat_toNat]

theorem not_isDelimiter_of_isDigit {c : Char} (h : c.isDigit) : isDelimiter c = false := by
  have other {d : Char} (hd : d.isDigit = false) : (c == d) = false := by
    rw [beq_eq_false_iff_ne]
    rintro rfl
    exact absurd h (by simp [hd])
  simp [isDelimiter, isBlank, other]

theorem not_isDelimiter_of_mem_numeral {n : Nat} {c : Char} (h : c ∈ Text.numeral n) :
    isDelimiter c = false :=
  not_isDelimiter_of_isDigit (Text.isDigit_of_mem_numeral h)

theorem not_isDelimiter_of_mem_signedNumeral {n : Int} {c : Char} (h : c ∈ Text.signedNumeral n) :
    isDelimiter c = false := by
  rcases Text.mem_signedNumeral h with digit | rfl
  · exact not_isDelimiter_of_isDigit digit
  · rfl

/-- A reading that has come to the end of a value. A number or a name is complete only when
    something follows that ends it. -/
inductive Passed (frames : List Frame) (value : Json) : Reading → Prop where
  | behind : Passed frames value ⟨frames, .behind value⟩
  | word {letters : List Char} :
      word? letters = some value → Passed frames value ⟨frames, .word letters⟩

theorem Passed.step_eq {value r} (h : Passed frames value r) {c : Char} (hc : isDelimiter c) :
    step r c = stepBehind frames value c := by
  cases h with
  | behind => rfl
  | word h => simp only [step, if_pos hc, h, Option.bind_some]

theorem Passed.finish? {value r} (h : Passed [] value r) : r.finish? = some value := by
  cases h with
  | behind => rfl
  | word h => exact h

/-- Reading a text leads from one place to the end of a value. -/
def Leads (r : Reading) (text : List Char) (frames : List Frame) (value : Json) : Prop :=
  ∃ r', run r text = some r' ∧ Passed frames value r'

theorem Leads.run_append {r text value} (h : Leads r text frames value) {c : Char}
    (hc : isDelimiter c) (rest : List Char) :
    run r (text ++ c :: rest) = (stepBehind frames value c).bind fun r' => run r' rest := by
  obtain ⟨r', hrun, passed⟩ := h
  rw [Json.run_append, hrun, Option.bind_some, run_cons, passed.step_eq hc]

theorem step_value (optional : Bool) (c : Char) :
    step ⟨frames, .value optional⟩ c = stepValue frames optional c := rfl

theorem step_letter {c : Char} (h : isDelimiter c = false) (optional : Bool) :
    step ⟨frames, .value optional⟩ c = some ⟨frames, .word [c]⟩ := by
  have other (d : Char) (hd : isDelimiter d) : c ≠ d := by
    rintro rfl
    exact absurd hd (by simp [h])
  have visible : ¬ isBlank c := by
    intro blank
    exact absurd h (by simp [isDelimiter, blank])
  rw [step_value]
  unfold stepValue
  rw [if_neg visible, if_neg (other '[' rfl), if_neg (other '\x7b' rfl), if_neg (other '"' rfl)]
  split
  · exact absurd rfl (other ']' rfl)
  · rw [if_neg (by simp [h])]

theorem step_word {letters : List Char} {c : Char} (h : isDelimiter c = false) :
    step ⟨frames, .word letters⟩ c = some ⟨frames, .word (letters ++ [c])⟩ := by
  simp only [step, h, Bool.false_eq_true, if_false]

theorem run_word (letters more : List Char) (h : ∀ c ∈ more, isDelimiter c = false) :
    run ⟨frames, .word letters⟩ more = some ⟨frames, .word (letters ++ more)⟩ :=
  run_ordinary .word (fun _ _ => step_word) letters more h

theorem leads_word {letters : List Char} {value : Json} (h : word? letters = some value)
    (hletters : ∀ c ∈ letters, isDelimiter c = false) (optional : Bool) :
    Leads ⟨frames, .value optional⟩ letters frames value := by
  cases letters with
  | nil => cases h
  | cons c rest =>
      obtain ⟨hc, hrest⟩ := List.forall_mem_cons.mp hletters
      refine ⟨_, ?_, .word h⟩
      rw [run_cons, step_letter hc, Option.bind_some, run_word _ _ hrest, List.singleton_append]

theorem leads_name {letters : List Char} {value : Json} (h : word? letters = some value)
    (hletters : letters.any isDelimiter = false) (optional : Bool) :
    Leads ⟨frames, .value optional⟩ letters frames value := by
  refine leads_word h (fun c hc => ?_) optional
  simpa using List.any_eq_false.mp hletters c hc

theorem leads_string (s : String) (optional : Bool) :
    Leads ⟨frames, .value optional⟩ (stringChars s) frames (.string s) := by
  refine ⟨_, ?_, .behind⟩
  rw [← List.append_nil (stringChars s), run_stringChars s rfl]
  cases frames with
  | nil => rfl
  | cons frame _ => cases frame <;> rfl

/-- The text of a float is read as that float. -/
structure IsReadable (x : Float) : Prop where
  word_floatChars : word? (floatChars x) = some (.float x)
  undelimited : ∀ c ∈ floatChars x, isDelimiter c = false

mutual
/-- Only floats that are read back, and only those whole numbers apart that the signed range does
    not hold. -/
def IsExact : Json → Prop
  | .natural n => 2 ^ 63 ≤ n.toNat
  | .float x => IsReadable x
  | .array values => IsExactList values
  | .object members => IsExactMembers members
  | _ => True

def IsExactList : List Json → Prop
  | [] => True
  | value :: rest => value.IsExact ∧ IsExactList rest

def IsExactMembers : List (String × Json) → Prop
  | [] => True
  | (_, value) :: rest => value.IsExact ∧ IsExactMembers rest
end

mutual
/-- The text of a value is read as that value, whatever is open around it. -/
theorem leads_chars (value : Json) (h : value.IsExact) (frames : List Frame) (optional : Bool) :
    Leads ⟨frames, .value optional⟩ value.chars frames value := by
  cases value with
  | null => exact leads_name rfl rfl optional
  | boolean b =>
      cases b with
      | true => exact leads_name rfl rfl optional
      | false => exact leads_name rfl rfl optional
  | integer n =>
      rw [chars]
      exact leads_word (word?_signedNumeral n) (fun _ => not_isDelimiter_of_mem_signedNumeral)
        optional
  | natural n =>
      rw [chars]
      exact leads_word (word?_natural h) (fun _ => not_isDelimiter_of_mem_numeral) optional
  | float x =>
      rw [chars]
      exact leads_word h.word_floatChars h.undelimited optional
  | string s =>
      rw [chars]
      exact leads_string s optional
  | array values =>
      refine ⟨_, ?_, .behind⟩
      cases values with
      | nil => rfl
      | cons first rest =>
          rw [chars, List.cons_append, run_cons]
          exact run_elements first rest h [] frames true
  | object members =>
      refine ⟨_, ?_, .behind⟩
      cases members with
      | nil => rfl
      | cons first rest =>
          cases first with
          | mk name first =>
              rw [chars, List.cons_append, run_cons]
              exact run_members name first rest h [] frames true
termination_by sizeOf value

-- An array has its first element apart: right behind the bracket a value is optional, and behind
-- a comma it is not. What was read before stands in the frame.
theorem run_elements (value : Json) (rest : List Json) (h : IsExactList (value :: rest))
    (before : List Json) (frames : List Frame) (optional : Bool) :
    run ⟨.array before :: frames, .value optional⟩
        (List.intercalate [','] (charsList (value :: rest)) ++ [']']) =
      some ⟨frames, .behind (.array (before ++ value :: rest))⟩ := by
  have first := leads_chars value h.1 (.array before :: frames) optional
  cases rest with
  | nil =>
      rw [charsList, charsList, List.intercalate_singleton, first.run_append rfl]
      rfl
  | cons next rest =>
      have others := run_elements next rest h.2 (before ++ [value]) frames false
      rw [charsList, charsList, List.intercalate_cons_cons, ← charsList, List.append_assoc,
        List.append_assoc, List.singleton_append, first.run_append rfl]
      rw [List.append_assoc, List.singleton_append] at others
      exact others
termination_by sizeOf (value :: rest)

theorem run_members (name : String) (value : Json) (rest : List (String × Json))
    (h : IsExactMembers ((name, value) :: rest)) (before : List (String × Json))
    (frames : List Frame) (optional : Bool) :
    run ⟨.object before :: frames, .name optional⟩
        (List.intercalate [','] (charsMembers ((name, value) :: rest)) ++ ['\x7d']) =
      some ⟨frames, .behind (.object (before ++ (name, value) :: rest))⟩ := by
  have first := leads_chars value h.1 (.member before name :: frames) false
  have named (text : List Char) :
      run ⟨.object before :: frames, .name optional⟩ (stringChars name ++ ':' :: text) =
        run ⟨.member before name :: frames, .value false⟩ text := by
    rw [run_stringChars name rfl]
    rfl
  match rest with
  | [] =>
      rw [charsMembers, charsMembers, List.intercalate_singleton, List.append_assoc,
        List.cons_append, named, first.run_append rfl]
      rfl
  | (next, following) :: rest =>
      have others := run_members next following rest h.2 (before ++ [(name, value)]) frames false
      rw [charsMembers, charsMembers, List.intercalate_cons_cons, ← charsMembers,
        List.append_assoc, List.append_assoc, List.append_assoc, List.cons_append, named,
        List.singleton_append, first.run_append rfl]
      rw [List.append_assoc, List.singleton_append] at others
      exact others
termination_by sizeOf ((name, value) :: rest)
end

theorem parse?_text {value : Json} (h : value.IsExact) : parse? value.text = some value := by
  obtain ⟨r, hrun, passed⟩ := leads_chars value h [] false
  rw [parse?, text, String.toList_ofList, hrun, Option.bind_some, passed.finish?]

end Criteria.Json
