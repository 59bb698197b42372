import Criteria.Proofs.PrintEquivalence
import Criteria.Proofs.Skeleton

/-! # Atoms

An atom is a condition that is not made of others: a comparison or a call. Its text shows what it
is made of, although an argument may hold the separator of arguments, and it can stand as a leaf
in the text of any criterion.
-/

namespace Criteria

namespace Text

/-- What changes the depth, or where literals begin and end. -/
def groupers : List Char := ['(', ')', '\x27']

/-- A text whose literals end and that has no parenthesis outside of them. -/
def IsFlat (text : List Char) : Prop :=
  ∃ ps, parts? text = some ps ∧ ∀ c, .plain c ∈ ps → c ∉ groupers

namespace IsFlat

theorem append {a b : List Char} (ha : IsFlat a) (hb : IsFlat b) : IsFlat (a ++ b) := by
  obtain ⟨ps, hps, flatps⟩ := ha
  obtain ⟨qs, hqs, flatqs⟩ := hb
  refine ⟨ps ++ qs, by rw [parts?_append hps, hqs, Option.map_some], ?_⟩
  intro c hc
  rcases List.mem_append.mp hc with hc | hc
  · exact flatps c hc
  · exact flatqs c hc

theorem of_lacks {text : List Char} (h : Lacks groupers text) : IsFlat text := by
  have quoteless : '\x27' ∉ text := fun hquote => h _ hquote (by decide)
  exact ⟨_, parts?_of_not_mem quoteless, by simpa [Lacks] using h⟩

theorem quoted (text : List Char) : IsFlat (quoted text) :=
  ⟨_, parts?_quoted text, by simp⟩

theorem depthAfter?_eq {ps : List Part} (h : ∀ c, .plain c ∈ ps → c ∉ groupers) (depth : Nat) :
    depthAfter? depth ps = some depth := by
  induction ps with
  | nil => rfl
  | cons p rest ih =>
      have later := ih fun c hc => h c (List.mem_cons_of_mem _ hc)
      cases p with
      | literal contents => exact later
      | plain c =>
          have hc : c ∉ groupers := h c List.mem_cons_self
          simp only [groupers, List.mem_cons, not_or] at hc
          cases depth <;> simpa [depthAfter?, hc.1, hc.2.1] using later

/-- A flat text leads from any depth back to it. -/
theorem depthThrough?_eq {text : List Char} (h : IsFlat text) (depth : Nat) :
    depthThrough? depth text = some depth := by
  obtain ⟨ps, hps, flat⟩ := h
  rw [depthThrough?, hps, Option.bind_some, depthAfter?_eq flat]

end IsFlat

end Text

namespace Literal

open Text (IsFlat groupers)

mutual
/-- Parentheses of strings stay between quotes, and nothing else has any. -/
theorem isFlat_chars (v : Literal) (free : PlaceholdersWithout groupers v.strings) :
    IsFlat v.chars := by
  obtain ⟨form, h⟩ := v.exists_form
  cases h with
  | blank blank =>
      rw [chars_of_isBlank blank]
      exact .of_lacks (by decide)
  | truth => exact .of_lacks (by decide)
  | @placeholder s sigil =>
      rw [chars_of_placeholder sigil]
      exact .of_lacks (free s (by simp [strings]) sigil)
  | quoted quoted =>
      rw [chars_of_isQuoted quoted]
      exact .quoted _
  | number number => exact .of_lacks (lacks_chars_of_isNumber number (by decide))
  | list values =>
      rw [chars, ← List.singleton_append, List.append_assoc]
      have opening : IsFlat ['['] := .of_lacks (by decide)
      have closing : IsFlat [']'] := .of_lacks (by decide)
      exact opening.append ((isFlat_elements values free).append closing)
termination_by sizeOf v

theorem isFlat_elements (values : List Literal)
    (free : PlaceholdersWithout groupers (stringsList values)) :
    IsFlat (List.intercalate separator (charsList values)) := by
  cases values with
  | nil => exact .of_lacks (by decide)
  | cons value rest =>
      obtain ⟨freeFirst, freeRest⟩ := List.forall_mem_append.mp free
      have first := isFlat_chars value freeFirst
      have later := isFlat_elements rest freeRest
      cases rest with
      | nil => simpa [charsList] using first
      | cons next rest =>
          have between : IsFlat separator := .of_lacks (by decide)
          simpa [charsList, List.intercalate_cons_cons] using (first.append between).append later
termination_by sizeOf values
end

end Literal

theorem Comparison.token_injective {a b : Comparison} (h : a.token = b.token) : a = b := by
  cases a <;> cases b <;> first | rfl | (simp [token] at h)

/-- A condition that is not made of others. -/
inductive Atom where
  | compare (key : String) (comparison : Comparison) (value : Literal)
  | call (name : String) (arguments : List Literal)

namespace Atom

open Literal (PlaceholdersWithout)
open Text (StopsAt eq_of_append_stop)

def criterion : Atom → Criterion
  | .compare key comparison value => .compare key comparison value
  | .call name arguments => .call name arguments

/-- A key or a name without spaces, parentheses and quotes. -/
def IsWord (word : String) : Prop :=
  Text.Lacks [' ', '(', ')', '\x27'] word.toList

/-- The characters that have a meaning outside literals. -/
def reserved : List Char := [',', ']', '(', ')', '\x27']

/-- Keys and names are words, a name is not empty, and placeholders hold nothing reserved. -/
def IsPlain : Atom → Prop
  | .compare key _ value =>
    IsWord key ∧ PlaceholdersWithout reserved value.strings
  | .call name arguments =>
    name ≠ "" ∧ IsWord name ∧ PlaceholdersWithout reserved (Literal.stringsList arguments)

/-- Whether two atoms are made of the same key, operator and text of a value, or of the same name
    and texts of arguments. -/
def SameParts : Atom → Atom → Prop
  | .compare key comparison value, .compare key' comparison' value' =>
    key = key' ∧ comparison = comparison' ∧ value.text = value'.text
  | .call name arguments, .call name' arguments' =>
    name = name' ∧ List.Forall₂ (fun v w => v.text = w.text) arguments arguments'
  | _, _ => False

/-- The key or the name. -/
def word : Atom → String
  | .compare key _ _ => key
  | .call name _ => name

/-- What follows the key or the name. -/
def tail : Atom → List Char
  | .compare _ comparison value => ' ' :: comparison.token.toList ++ ' ' :: value.chars
  | .call _ arguments =>
    '(' :: List.intercalate Literal.separator (Literal.charsList arguments) ++ [')']

/-- What may follow a word. -/
def wordStops : List Char := [' ', '(']

theorem chars_criterion (a : Atom) : a.criterion.chars = a.word.toList ++ a.tail := by
  cases a with
  | compare key comparison value =>
      simp [criterion, Criterion.compare, Criterion.chars, Literal.text, word, tail]
  | call name arguments => simp [criterion, Criterion.chars, word, tail]

theorem IsPlain.isWord {a : Atom} (h : a.IsPlain) : IsWord a.word := by
  cases a with
  | compare => exact h.1
  | call => exact h.2.1

theorem stopsAt_tail (a : Atom) : StopsAt wordStops a.tail := by
  cases a <;> simp [StopsAt, tail, wordStops]

/-- What a text begins with up to its first stop is the word of the atom. -/
theorem IsPlain.eq_of_chars_eq {a : Atom} (h : a.IsPlain) (start rest : List Char)
    (hstart : Text.Lacks wordStops start) (hrest : StopsAt wordStops rest)
    (same : a.criterion.chars = start ++ rest) : a.word.toList = start ∧ a.tail = rest := by
  rw [chars_criterion] at same
  exact eq_of_append_stop (h.isWord.mono (by decide)) hstart a.stopsAt_tail hrest same

theorem isFlat_token (comparison : Comparison) : Text.IsFlat comparison.token.toList := by
  apply Text.IsFlat.of_lacks
  cases comparison <;> decide

theorem isBalanced_chars {a : Atom} (h : a.IsPlain) : Text.IsBalanced a.criterion.chars := by
  have word : Text.IsFlat a.word.toList := .of_lacks (h.isWord.mono (by decide))
  rw [chars_criterion, Text.IsBalanced, Text.depthThrough?_append (word.depthThrough?_eq 0)]
  cases a with
  | compare key comparison value =>
      have space : Text.IsFlat [' '] := .of_lacks (by decide)
      have right := Literal.isFlat_chars value (h.2.mono (by decide))
      have flat := ((space.append (isFlat_token comparison)).append space).append right
      simpa [tail] using flat.depthThrough?_eq 0
  | call name arguments =>
      have inside := Literal.isFlat_elements arguments (h.2.2.mono (by decide))
      have opening : Text.depthThrough? 0 ['('] = some 1 := rfl
      rw [tail, ← List.singleton_append, List.append_assoc, Text.depthThrough?_append opening,
        Text.depthThrough?_append (inside.depthThrough?_eq 1)]
      rfl

theorem isLeaf_chars {a : Atom} (h : a.IsPlain) : Text.IsLeaf a.criterion.chars where
  balanced := isBalanced_chars h
  not_group := by
    rintro ⟨rest, same⟩
    obtain ⟨word, tail⟩ := h.eq_of_chars_eq [] ('(' :: rest) (by decide)
      (by simp [StopsAt, wordStops]) same.symm
    cases a with
    | compare key comparison value => simp [Atom.tail] at tail
    | call name arguments => exact h.1 (String.toList_eq_nil_iff.mp word)
  not_negation := by
    rintro ⟨rest, same⟩
    obtain ⟨-, tail⟩ := h.eq_of_chars_eq ['N', 'O', 'T'] (' ' :: '(' :: rest) (by decide)
      (by simp [StopsAt, wordStops]) same.symm
    cases a with
    | compare key comparison value =>
        cases comparison <;> simp [Atom.tail, Comparison.token] at tail
    | call name arguments => simp [Atom.tail] at tail

theorem space_not_mem_token (comparison : Comparison) : ' ' ∉ comparison.token.toList := by
  cases comparison <;> decide

theorem sameParts_of_chars_eq {a b : Atom} (ha : a.IsPlain) (hb : b.IsPlain)
    (h : a.criterion.chars = b.criterion.chars) : a.SameParts b := by
  rw [chars_criterion b] at h
  obtain ⟨word, tail⟩ := ha.eq_of_chars_eq _ _ (hb.isWord.mono (by decide)) b.stopsAt_tail h
  have word := String.toList_inj.mp word
  cases a with
  | compare key comparison value =>
      cases b with
      | compare key' comparison' value' =>
          obtain ⟨token, values⟩ := Text.eq_of_append_cons (space_not_mem_token comparison)
            (space_not_mem_token comparison') (List.cons.inj tail).2
          refine ⟨word, Comparison.token_injective (String.toList_inj.mp token), ?_⟩
          rw [Literal.text, Literal.text, values]
      | call name' arguments' => simp [Atom.tail] at tail
  | call name arguments =>
      cases b with
      | compare key' comparison' value' => simp [Atom.tail] at tail
      | call name' arguments' =>
          have elements := List.append_cancel_right (List.cons.inj tail).2
          have equivalent := Literal.forall_printEquivalent_of_intercalate_eq
            (ha.2.2.mono (by decide)) (hb.2.2.mono (by decide)) elements
          refine ⟨word, equivalent.imp ?_⟩
          intro v w same
          rw [Literal.text, Literal.text, same.chars_eq]

theorem charsList_eq_of_texts {vs ws : List Literal}
    (h : List.Forall₂ (fun v w => v.text = w.text) vs ws) :
    Literal.charsList vs = Literal.charsList ws := by
  induction h with
  | nil => rfl
  | cons first _ ih =>
      rw [Literal.charsList, Literal.charsList, String.ofList_inj.mp first, ih]

theorem SameParts.chars_eq {a b : Atom} (h : a.SameParts b) :
    a.criterion.chars = b.criterion.chars := by
  rw [chars_criterion, chars_criterion]
  cases a with
  | compare key comparison value =>
      cases b with
      | compare key' comparison' value' =>
          obtain ⟨rfl, rfl, values⟩ := h
          rw [tail, tail, String.ofList_inj.mp values]
          rfl
      | call => cases h
  | call name arguments =>
      cases b with
      | compare => cases h
      | call name' arguments' =>
          obtain ⟨rfl, texts⟩ := h
          rw [tail, tail, charsList_eq_of_texts texts]
          rfl

/-- Two atoms have one text exactly when they are made of the same parts, and the text of each is
    one that no reader takes for a composite or for more than one operand. -/
theorem text_eq_iff_sameParts (a b : Atom) (ha : a.IsPlain) (hb : b.IsPlain) :
    (a.criterion.text = b.criterion.text ↔ a.SameParts b) ∧
    Text.IsLeaf a.criterion.text.toList ∧ Text.IsLeaf b.criterion.text.toList := by
  refine ⟨?_, ?_, ?_⟩
  · rw [Criterion.text, Criterion.text, String.ofList_inj]
    exact ⟨sameParts_of_chars_eq ha hb, SameParts.chars_eq⟩
  · simpa [Criterion.text] using isLeaf_chars ha
  · simpa [Criterion.text] using isLeaf_chars hb

/-- A string that looks like two arguments is one, and a number looks like its digits. -/
theorem text_eq_iff_sameParts_of_quoted_separator :
    (call "f" [.string "a', 'b)", .integer 7]).IsPlain ∧
    (call "f" [.string "a', 'b)", .string "7"]).IsPlain ∧
    (call "f" [.string "a', 'b)", .integer 7]).SameParts
      (call "f" [.string "a', 'b)", .string "7"]) ∧
    Text.IsLeaf (call "f" [.string "a', 'b)", .integer 7]).criterion.text.toList := by
  have left : (call "f" [.string "a', 'b)", .integer 7]).IsPlain := by
    unfold IsPlain IsWord PlaceholdersWithout
    decide
  have right : (call "f" [.string "a', 'b)", .string "7"]).IsPlain := by
    unfold IsPlain IsWord PlaceholdersWithout
    decide
  obtain ⟨unambiguous, leaf, -⟩ := text_eq_iff_sameParts _ _ left right
  exact ⟨left, right, unambiguous.mp rfl, leaf⟩

end Atom

end Criteria
