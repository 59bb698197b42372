import Criteria.Proofs.Making
import Criteria.Proofs.Numerals
import Mathlib.Data.List.Forall2

/-! # Strings stay in their quotes

Whatever the strings of a criterion contain, a reader of its text finds them again, one literal
for each string that is written between quotes, and what stands outside the literals does not
depend on them. The one-run and the two-run statement have one proof: two drafts that differ in
such strings only are read side by side.
-/

namespace Criteria

namespace Text

/-- What is left of the parts when the contents of the literals are forgotten. -/
def outline (ps : List Part) : List (Option Char) :=
  ps.map fun
    | .plain c => some c
    | .literal _ => none

/-- The contents of the literals, from left to right. -/
def contents (ps : List Part) : List (List Char) :=
  ps.filterMap fun
    | .plain _ => none
    | .literal contents => some contents

@[simp] theorem outline_append (ps qs : List Part) :
    outline (ps ++ qs) = outline ps ++ outline qs := List.map_append

@[simp] theorem contents_append (ps qs : List Part) :
    contents (ps ++ qs) = contents ps ++ contents qs := List.filterMap_append

theorem contents_plain (text : List Char) : contents (text.map .plain) = [] := by
  induction text with
  | nil => rfl
  | cons c rest ih => exact ih

/-- Two texts with one outline, in which these contents are found. -/
def ReadAlike (text text' : List Char) (found found' : List (List Char)) : Prop :=
  ∃ ps ps', parts? text = some ps ∧ parts? text' = some ps' ∧ outline ps = outline ps' ∧
    contents ps = found ∧ contents ps' = found'

namespace ReadAlike

theorem append {a a' b b' founda founda' foundb foundb'}
    (ha : ReadAlike a a' founda founda') (hb : ReadAlike b b' foundb foundb') :
    ReadAlike (a ++ b) (a' ++ b') (founda ++ foundb) (founda' ++ foundb') := by
  obtain ⟨ps, ps', hps, hps', houtline, rfl, rfl⟩ := ha
  obtain ⟨qs, qs', hqs, hqs', houtline', rfl, rfl⟩ := hb
  refine ⟨ps ++ qs, ps' ++ qs', ?_, ?_, ?_, contents_append ps qs, contents_append ps' qs'⟩
  · rw [parts?_append hps, hqs, Option.map_some]
  · rw [parts?_append hps', hqs', Option.map_some]
  · rw [outline_append, outline_append, houtline, houtline']

/-- A text without quotes has no literals. -/
theorem refl_of_not_mem {text : List Char} (h : '\x27' ∉ text) : ReadAlike text text [] [] :=
  ⟨_, _, parts?_of_not_mem h, parts?_of_not_mem h, rfl, contents_plain text,
    contents_plain text⟩

/-- Quoted texts differ in the contents of their one literal, however they are escaped. -/
theorem quoted (text text' : List Char) :
    ReadAlike (quoted text) (quoted text') [text] [text'] :=
  ⟨_, _, parts?_quoted text, parts?_quoted text', rfl, rfl, rfl⟩

/-- Text without quotes before and after two texts changes nothing. -/
theorem between (before after : List Char) {text text' found found'}
    (h : ReadAlike text text' found found') (hbefore : '\x27' ∉ before) (hafter : '\x27' ∉ after) :
    ReadAlike (before ++ text ++ after) (before ++ text' ++ after) found found' := by
  simpa using ((refl_of_not_mem hbefore).append h).append (refl_of_not_mem hafter)

end ReadAlike

end Text

namespace Literal

/-- The strings that are written between quotes: not empty, not `0`, not made of ASCII digits
    only, and not a placeholder. -/
def IsQuoted (s : String) : Prop :=
  s ≠ "" ∧ s ≠ "0" ∧ ¬ s.toList.all Char.isDigit ∧ s.toList.head? ≠ some ':'

instance : DecidablePred IsQuoted := fun s =>
  inferInstanceAs (Decidable (s ≠ "" ∧ s ≠ "0" ∧ ¬ s.toList.all Char.isDigit ∧
    s.toList.head? ≠ some ':'))

/-- What a reader finds of some strings. -/
def quotedOf (strings : List String) : List (List Char) :=
  (strings.filter fun s => decide (IsQuoted s)).map String.toList

@[simp] theorem quotedOf_append (ss ts : List String) :
    quotedOf (ss ++ ts) = quotedOf ss ++ quotedOf ts := by
  simp only [quotedOf, List.filter_append, List.map_append]

/-- Every placeholder among some strings is free of quotes. -/
def PlaceholdersFree (strings : List String) : Prop :=
  ∀ s ∈ strings, s.toList.head? = some ':' → '\x27' ∉ s.toList

mutual
/-- The strings in a literal at any depth, from left to right. -/
def strings : Literal → List String
  | .null => []
  | .boolean _ => []
  | .integer _ => []
  | .decimal _ => []
  | .string value => [value]
  | .list values => stringsList values

def stringsList : List Literal → List String
  | [] => []
  | value :: rest => value.strings ++ stringsList rest
end

/-- Literals that differ in strings between quotes only. -/
inductive Alike : Literal → Literal → Prop where
  | null : Alike .null .null
  | boolean (value : Bool) : Alike (.boolean value) (.boolean value)
  | integer (value : Int64) : Alike (.integer value) (.integer value)
  | decimal (value : Decimal) : Alike (.decimal value) (.decimal value)
  | string (value : String) : Alike (.string value) (.string value)
  | quoted {s s' : String} : IsQuoted s → IsQuoted s' → Alike (.string s) (.string s')
  | list {values values' : List Literal} :
      List.Forall₂ Alike values values' → Alike (.list values) (.list values')

mutual
theorem Alike.refl (value : Literal) : Alike value value := by
  cases value with
  | null => exact .null
  | boolean value => exact .boolean value
  | integer value => exact .integer value
  | decimal value => exact .decimal value
  | string value => exact .string value
  | list values => exact .list (Alike.refl_list values)
termination_by sizeOf value

theorem Alike.refl_list (values : List Literal) : List.Forall₂ Alike values values := by
  cases values with
  | nil => exact .nil
  | cons value rest => exact .cons (Alike.refl value) (Alike.refl_list rest)
termination_by sizeOf values
end

theorem isQuoted_iff {s : String} :
    IsQuoted s ↔ ¬ (s.toList = [] ∨ s.toList = ['0']) ∧
      ¬ (Text.isNumeral s.toList || isPlaceholder s.toList) = true := by
  have zero : s = "0" ↔ s.toList = ['0'] := String.toList_inj.symm
  simp only [IsQuoted, ne_eq, zero, ← String.toList_eq_nil_iff, Text.isNumeral, isPlaceholder,
    sigil]
  by_cases hempty : s.toList = [] <;> simp [hempty]

theorem stringChars_of_isQuoted {s : String} (h : IsQuoted s) :
    stringChars s.toList = Text.quoted s.toList := by
  obtain ⟨filled, other⟩ := isQuoted_iff.mp h
  rw [stringChars, if_neg filled, if_neg other]

theorem quote_not_mem_stringChars {s : String} (h : ¬ IsQuoted s)
    (free : s.toList.head? = some ':' → '\x27' ∉ s.toList) :
    '\x27' ∉ stringChars s.toList := by
  unfold stringChars
  split
  · decide
  · rename_i filled
    split
    · rename_i raw
      rcases Bool.or_eq_true_iff.mp raw with numeral | placeholder
      · intro hquote
        have digits := (Bool.and_eq_true_iff.mp numeral).2
        exact absurd (List.all_eq_true.mp digits _ hquote) (by decide)
      · exact free (by simpa [isPlaceholder, sigil] using placeholder)
    · rename_i other
      exact absurd (isQuoted_iff.mpr ⟨filled, other⟩) h

mutual
/-- Only strings between quotes make a difference, and only to the contents that are found. -/
theorem Alike.readAlike {v v' : Literal} (h : Alike v v') (free : PlaceholdersFree v.strings) :
    Text.ReadAlike v.chars v'.chars (quotedOf v.strings) (quotedOf v'.strings) := by
  cases h with
  | null => exact .refl_of_not_mem (by decide)
  | boolean value => cases value <;> exact .refl_of_not_mem (by decide)
  | integer value =>
      apply Text.ReadAlike.refl_of_not_mem
      unfold chars
      split
      · decide
      · exact mt Text.mem_signedNumeral (by decide)
  | decimal value =>
      apply Text.ReadAlike.refl_of_not_mem
      unfold chars
      split
      · decide
      · exact mt Decimal.mem_chars (by decide)
  | string value =>
      by_cases hquoted : IsQuoted value
      · simpa [chars, strings, quotedOf, hquoted, stringChars_of_isQuoted hquoted] using
          Text.ReadAlike.quoted value.toList value.toList
      · simpa [chars, strings, quotedOf, hquoted] using Text.ReadAlike.refl_of_not_mem
          (quote_not_mem_stringChars hquoted (free value (by simp [strings])))
  | @quoted s s' hs hs' =>
      simpa [chars, strings, quotedOf, hs, hs', stringChars_of_isQuoted hs,
        stringChars_of_isQuoted hs'] using Text.ReadAlike.quoted s.toList s'.toList
  | @list values values' hvalues =>
      simpa [chars, strings] using
        (readAlike_list hvalues free).between ['['] [']'] (by decide) (by decide)
termination_by sizeOf v

theorem Alike.readAlike_list {vs vs' : List Literal} (h : List.Forall₂ Alike vs vs')
    (free : PlaceholdersFree (stringsList vs)) :
    Text.ReadAlike (List.intercalate separator (charsList vs))
      (List.intercalate separator (charsList vs')) (quotedOf (stringsList vs))
      (quotedOf (stringsList vs')) := by
  cases h with
  | nil => exact .refl_of_not_mem (by decide)
  | @cons v v' vs vs' hv hvs =>
      obtain ⟨freeFirst, freeRest⟩ := List.forall_mem_append.mp free
      have first := Alike.readAlike hv freeFirst
      have rest := Alike.readAlike_list hvs freeRest
      cases hvs with
      | nil => simpa [charsList, stringsList] using first
      | cons hw hws =>
          have separated := first.append
            ((Text.ReadAlike.refl_of_not_mem (show '\x27' ∉ separator by decide)).append rest)
          simpa [charsList, stringsList, List.intercalate_cons_cons] using separated
termination_by sizeOf vs
end

end Literal

namespace Draft

open Literal (IsQuoted PlaceholdersFree quotedOf)

mutual
/-- The strings in comparisons and calls, from left to right. -/
def strings : Draft → List String
  | .given _ => []
  | .refused _ => []
  | .compare _ _ value => value.strings
  | .call _ arguments => Literal.stringsList arguments
  | .rule _ _ => []
  | .all _ operands => stringsList operands
  | .pair _ left right => left.strings ++ right.strings
  | .negated operand => operand.strings

def stringsList : List Draft → List String
  | [] => []
  | draft :: rest => draft.strings ++ stringsList rest
end

mutual
/-- The texts that become part of the rule as they are: keys, names of functions and the words
    of the rule language. A criterion that is there already counts as such words. -/
def rawTexts : Draft → List String
  | .given criterion => [criterion.text]
  | .refused _ => []
  | .compare key _ _ => [key]
  | .call name _ => [name]
  | .rule text _ => [text]
  | .all _ operands => rawTextsList operands
  | .pair _ left right => left.rawTexts ++ right.rawTexts
  | .negated operand => operand.rawTexts

def rawTextsList : List Draft → List String
  | [] => []
  | draft :: rest => draft.rawTexts ++ rawTextsList rest
end

/-- Drafts that differ in strings between quotes only. -/
inductive Alike : Draft → Draft → Prop where
  | given (criterion : Criterion) : Alike (.given criterion) (.given criterion)
  | refused (cause : Refusal) : Alike (.refused cause) (.refused cause)
  | compare (key : String) (comparison : Comparison) {value value' : Literal} :
      Literal.Alike value value' →
        Alike (.compare key comparison value) (.compare key comparison value')
  | call (name : String) {arguments arguments' : List Literal} :
      List.Forall₂ Literal.Alike arguments arguments' →
        Alike (.call name arguments) (.call name arguments')
  | rule (text : String) (entries : List (String × Literal)) :
      Alike (.rule text entries) (.rule text entries)
  | all (connective : Connective) {operands operands' : List Draft} :
      List.Forall₂ Alike operands operands' →
        Alike (.all connective operands) (.all connective operands')
  | pair (connective : Connective) {left left' right right' : Draft} :
      Alike left left' → Alike right right' →
        Alike (.pair connective left right) (.pair connective left' right')
  | negated {operand operand' : Draft} :
      Alike operand operand' → Alike (.negated operand) (.negated operand')

mutual
theorem Alike.refl (draft : Draft) : Alike draft draft := by
  cases draft with
  | given criterion => exact .given criterion
  | refused cause => exact .refused cause
  | compare key comparison value => exact .compare key comparison (Literal.Alike.refl value)
  | call name arguments => exact .call name (Literal.Alike.refl_list arguments)
  | rule text entries => exact .rule text entries
  | all connective operands => exact .all connective (Alike.refl_list operands)
  | pair connective left right => exact .pair connective (Alike.refl left) (Alike.refl right)
  | negated operand => exact .negated (Alike.refl operand)
termination_by sizeOf draft

theorem Alike.refl_list (drafts : List Draft) : List.Forall₂ Alike drafts drafts := by
  cases drafts with
  | nil => exact .nil
  | cons draft rest => exact .cons (Alike.refl draft) (Alike.refl_list rest)
termination_by sizeOf drafts
end

/-- No raw text contains a quote. -/
def TextsFree (texts : List String) : Prop :=
  ∀ text ∈ texts, '\x27' ∉ text.toList

theorem quote_not_mem_joint (connective : Connective) :
    '\x27' ∉ Criterion.joint connective := by
  cases connective <;> decide

theorem quote_not_mem_token (comparison : Comparison) : '\x27' ∉ comparison.token.toList := by
  cases comparison <;> decide

mutual
/-- Drafts that differ in strings between quotes only make criteria whose texts read alike. -/
theorem Alike.readAlike {d d' : Draft} {made : Criterion} (h : Alike d d')
    (raw : TextsFree d.rawTexts) (free : PlaceholdersFree d.strings) (hmade : d.Makes made) :
    ∃ made', d'.Makes made' ∧
      Text.ReadAlike made.chars made'.chars (quotedOf d.strings) (quotedOf d'.strings) := by
  cases h with
  | given criterion =>
      obtain rfl := makes_given_iff.mp hmade
      have htext := raw made.text (by simp [rawTexts])
      exact ⟨made, hmade, .refl_of_not_mem (by simpa [Criterion.text] using htext)⟩
  | refused cause => exact absurd hmade not_makes_refused
  | @compare key comparison value value' hvalue =>
      obtain rfl := makes_compare_iff.mp hmade
      have hkey := raw key (by simp [rawTexts])
      have before : '\x27' ∉ key.toList ++ " ".toList ++ comparison.token.toList ++ " ".toList := by
        simp [hkey, quote_not_mem_token comparison]
      refine ⟨_, makes_compare_iff.mpr rfl, ?_⟩
      simpa [Criterion.compare, Criterion.chars, Literal.text, strings] using
        (hvalue.readAlike free).between _ [] before List.not_mem_nil
  | @call name arguments arguments' harguments =>
      obtain rfl := makes_call_iff.mp hmade
      have hname := raw name (by simp [rawTexts])
      have before : '\x27' ∉ name.toList ++ ['('] := by simp [hname]
      refine ⟨_, makes_call_iff.mpr rfl, ?_⟩
      simpa [Criterion.chars, strings] using
        (Literal.Alike.readAlike_list harguments free).between _ [')'] before (by decide)
  | rule text entries =>
      obtain rfl := makes_rule_iff.mp hmade
      exact ⟨_, hmade, .refl_of_not_mem (raw text (by simp [rawTexts]))⟩
  | @all connective operands operands' hoperands =>
      obtain ⟨first, rest, hlist, rfl⟩ := makes_all_iff.mp hmade
      cases hoperands with
      | nil => cases makesList_nil_iff.mp hlist
      | @cons draft draft' drafts drafts' hdraft hdrafts =>
          obtain ⟨first, rest, hfirst, hrest, heq⟩ := makesList_cons_iff.mp hlist
          obtain ⟨rfl, rfl⟩ := List.cons.inj heq
          obtain ⟨rawFirst, rawRest⟩ := List.forall_mem_append.mp raw
          obtain ⟨freeFirst, freeRest⟩ := List.forall_mem_append.mp free
          obtain ⟨first', hfirst', readFirst⟩ := hdraft.readAlike rawFirst freeFirst hfirst
          obtain ⟨rest', hrest', readRest⟩ :=
            Alike.readAlike_list hdrafts rawRest freeRest hrest connective
          have made' : (Draft.all connective (draft' :: drafts')).Makes
              (.joined connective first' rest') :=
            makes_all_iff.mpr
              ⟨first', rest', makesList_cons_iff.mpr ⟨first', rest', hfirst', hrest', rfl⟩, rfl⟩
          refine ⟨_, made', ?_⟩
          simpa [Criterion.chars, strings, stringsList] using
            (readFirst.append readRest).between ['('] [')'] (by decide) (by decide)
  | @pair connective left left' right right' hleft hright =>
      obtain ⟨first, second, hfirst, hsecond, rfl⟩ := makes_pair_iff.mp hmade
      obtain ⟨rawLeft, rawRight⟩ := List.forall_mem_append.mp raw
      obtain ⟨freeLeft, freeRight⟩ := List.forall_mem_append.mp free
      obtain ⟨first', hfirst', readFirst⟩ := hleft.readAlike rawLeft freeLeft hfirst
      obtain ⟨second', hsecond', readSecond⟩ := hright.readAlike rawRight freeRight hsecond
      refine ⟨_, makes_pair_iff.mpr ⟨first', second', hfirst', hsecond', rfl⟩, ?_⟩
      have joint := Text.ReadAlike.refl_of_not_mem (quote_not_mem_joint connective)
      simpa [Criterion.chars, Criterion.charsRest, strings] using
        ((readFirst.append joint).append readSecond).between ['('] [')'] (by decide) (by decide)
  | @negated operand operand' hoperand =>
      obtain ⟨part, hpart, rfl⟩ := makes_negated_iff.mp hmade
      obtain ⟨part', hpart', read⟩ := hoperand.readAlike raw free hpart
      refine ⟨_, makes_negated_iff.mpr ⟨part', hpart', rfl⟩, ?_⟩
      simpa [Criterion.chars, strings] using
        read.between ['N', 'O', 'T', ' ', '('] [')'] (by decide) (by decide)
termination_by sizeOf d

theorem Alike.readAlike_list {ds ds' : List Draft} {parts : List Criterion}
    (h : List.Forall₂ Alike ds ds') (raw : TextsFree (rawTextsList ds))
    (free : PlaceholdersFree (stringsList ds)) (hparts : MakesList ds parts)
    (connective : Connective) :
    ∃ parts', MakesList ds' parts' ∧
      Text.ReadAlike (Criterion.charsRest connective parts)
        (Criterion.charsRest connective parts') (quotedOf (stringsList ds))
        (quotedOf (stringsList ds')) := by
  cases h with
  | nil =>
      obtain rfl := makesList_nil_iff.mp hparts
      exact ⟨[], hparts, .refl_of_not_mem List.not_mem_nil⟩
  | @cons d d' ds ds' hd hds =>
      obtain ⟨first, rest, hfirst, hrest, rfl⟩ := makesList_cons_iff.mp hparts
      obtain ⟨rawFirst, rawRest⟩ := List.forall_mem_append.mp raw
      obtain ⟨freeFirst, freeRest⟩ := List.forall_mem_append.mp free
      obtain ⟨first', hfirst', readFirst⟩ := hd.readAlike rawFirst freeFirst hfirst
      obtain ⟨rest', hrest', readRest⟩ :=
        Alike.readAlike_list hds rawRest freeRest hrest connective
      refine ⟨_, makesList_cons_iff.mpr ⟨first', rest', hfirst', hrest', rfl⟩, ?_⟩
      have joint := Text.ReadAlike.refl_of_not_mem (quote_not_mem_joint connective)
      simpa [Criterion.charsRest, stringsList] using (joint.append readFirst).append readRest
termination_by sizeOf ds
end

/-- No string escapes from its quotes. The literals in the text of a criterion are the strings
    that are written between quotes, in their order, and other strings in their place leave all
    that is outside the literals as it is. What may bring quotes of its own is what is not
    escaped: raw texts and placeholders. -/
theorem found_in_text_of_makes (d : Draft) (made : Criterion) (raw : TextsFree d.rawTexts)
    (free : PlaceholdersFree d.strings) (hmade : d.Makes made) :
    ∃ ps, Text.parts? made.text.toList = some ps ∧ Text.contents ps = quotedOf d.strings ∧
      ∀ d', d.Alike d' → ∃ made' ps', d'.Makes made' ∧
        Text.parts? made'.text.toList = some ps' ∧ Text.contents ps' = quotedOf d'.strings ∧
        Text.outline ps' = Text.outline ps := by
  obtain ⟨made₁, hmade₁, ps, _, hps, -, -, hfound, -⟩ :=
    (Alike.refl d).readAlike raw free hmade
  refine ⟨ps, by simpa [Criterion.text] using hps, hfound, ?_⟩
  intro d' halike
  obtain ⟨made', hmade', qs, ps', hqs, hps', houtline, -, hfound'⟩ :=
    halike.readAlike raw free hmade
  obtain rfl := Option.some.inj (hps.symm.trans hqs)
  exact ⟨made', ps', hmade', by simpa [Criterion.text] using hps', hfound', houtline.symm⟩

/-- A string that looks like the joint of a disjunction is read as a string, and so is a quote
    behind a backslash. -/
theorem found_in_text_of_quoted_joint :
    TextsFree (pair .or (compare "a" .equal (.string "') OR ('"))
      (call "f" [.list [.string "\\'", .string ":p"]])).rawTexts ∧
    PlaceholdersFree (pair .or (compare "a" .equal (.string "') OR ('"))
      (call "f" [.list [.string "\\'", .string ":p"]])).strings ∧
    (pair .or (compare "a" .equal (.string "') OR ('"))
      (call "f" [.list [.string "\\'", .string ":p"]])).Makes
        (.joined .or (.compare "a" .equal (.string "') OR ('"))
          [.call "f" [.list [.string "\\'", .string ":p"]]]) ∧
    ∃ ps, Text.parts? (Criterion.joined .or (.compare "a" .equal (.string "') OR ('"))
        [.call "f" [.list [.string "\\'", .string ":p"]]]).text.toList = some ps ∧
      Text.contents ps = ["') OR ('".toList, "\\'".toList] := by
  have raw : TextsFree (pair .or (compare "a" .equal (.string "') OR ('"))
      (call "f" [.list [.string "\\'", .string ":p"]])).rawTexts := by
    unfold TextsFree
    decide
  have free : PlaceholdersFree (pair .or (compare "a" .equal (.string "') OR ('"))
      (call "f" [.list [.string "\\'", .string ":p"]])).strings := by
    unfold PlaceholdersFree
    decide
  obtain ⟨ps, hps, hfound, -⟩ := found_in_text_of_makes _ _ raw free rfl
  exact ⟨raw, free, rfl, ps, hps, hfound⟩

end Draft

end Criteria
