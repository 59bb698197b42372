import Criteria.Proofs.Numerals
import Criteria.Proofs.Quoting

/-! # The forms of literals

Inside a rule every literal has one of six forms: it is blank, the word for truth, a placeholder,
a quoted string, a number or a list. The first character shows which.
-/

namespace Criteria.Literal

/-- Empty without being a list. -/
def IsBlank : Literal → Prop
  | .null => True
  | .boolean value => value = false
  | .integer value => value = 0
  | .decimal value => value.mantissa = 0
  | .string value => value = "" ∨ value = "0"
  | .list _ => False

instance : DecidablePred IsBlank
  | .null => inferInstanceAs (Decidable True)
  | .boolean value => inferInstanceAs (Decidable (value = false))
  | .integer value => inferInstanceAs (Decidable (value = 0))
  | .decimal value => inferInstanceAs (Decidable (value.mantissa = 0))
  | .string value => inferInstanceAs (Decidable (value = "" ∨ value = "0"))
  | .list _ => inferInstanceAs (Decidable False)

/-- A number other than zero, which may be a string of ASCII digits. -/
def IsNumber : Literal → Prop
  | .integer value => value ≠ 0
  | .decimal value => value.mantissa ≠ 0
  | .string value => value ≠ "" ∧ value ≠ "0" ∧ value.toList.all Char.isDigit = true
  | .null | .boolean _ | .list _ => False

instance : DecidablePred IsNumber
  | .integer value => inferInstanceAs (Decidable (value ≠ 0))
  | .decimal value => inferInstanceAs (Decidable (value.mantissa ≠ 0))
  | .string value => inferInstanceAs
    (Decidable (value ≠ "" ∧ value ≠ "0" ∧ value.toList.all Char.isDigit = true))
  | .null | .boolean _ | .list _ => inferInstanceAs (Decidable False)

inductive Form where
  | blank
  | truth
  | placeholder
  | quoted
  | number
  | list

inductive HasForm : Form → Literal → Prop where
  | blank {v : Literal} : v.IsBlank → HasForm .blank v
  | truth : HasForm .truth (.boolean true)
  | placeholder {s : String} : s.toList.head? = some ':' → HasForm .placeholder (.string s)
  | quoted {s : String} : IsQuoted s → HasForm .quoted (.string s)
  | number {v : Literal} : v.IsNumber → HasForm .number v
  | list (values : List Literal) : HasForm .list (.list values)

theorem exists_form (v : Literal) : ∃ form, HasForm form v := by
  cases v with
  | null => exact ⟨_, .blank trivial⟩
  | boolean value =>
      cases value with
      | true => exact ⟨_, .truth⟩
      | false => exact ⟨_, .blank rfl⟩
  | integer value =>
      by_cases zero : value = 0
      · exact ⟨_, .blank zero⟩
      · exact ⟨_, .number zero⟩
  | decimal value =>
      by_cases zero : value.mantissa = 0
      · exact ⟨_, .blank zero⟩
      · exact ⟨_, .number zero⟩
  | string value =>
      by_cases empty : value = ""
      · exact ⟨_, .blank (.inl empty)⟩
      by_cases zero : value = "0"
      · exact ⟨_, .blank (.inr zero)⟩
      by_cases digits : value.toList.all Char.isDigit = true
      · exact ⟨_, .number ⟨empty, zero, digits⟩⟩
      by_cases sigil : value.toList.head? = some ':'
      · exact ⟨_, .placeholder sigil⟩
      · exact ⟨_, .quoted ⟨empty, zero, digits, sigil⟩⟩
  | list values => exact ⟨_, .list values⟩

theorem chars_of_isBlank {v : Literal} (h : v.IsBlank) : v.chars = emptyChars := by
  cases v with
  | null => rfl
  | boolean value =>
      obtain rfl : value = false := h
      rfl
  | integer value =>
      obtain rfl : value = 0 := h
      rfl
  | decimal value =>
      have zero : value.mantissa = 0 := h
      simp [chars, Decimal.isZero, zero]
  | string value => rcases h with rfl | rfl <;> rfl
  | list values => cases h

theorem chars_of_placeholder {s : String} (h : s.toList.head? = some ':') :
    (string s).chars = s.toList := by
  have filled : ¬ (s.toList = [] ∨ s.toList = ['0']) := by
    rintro (empty | zero)
    · simp [empty] at h
    · simp [zero] at h
  rw [chars, stringChars, if_neg filled, if_pos (by simp [isPlaceholder, sigil, h])]

theorem chars_of_isQuoted {s : String} (h : IsQuoted s) :
    (string s).chars = Text.quoted s.toList :=
  stringChars_of_isQuoted h

theorem chars_integer {n : Int64} (h : n ≠ 0) :
    (integer n).chars = Text.signedNumeral n.toInt := by
  simp [chars, h]

theorem chars_decimal {d : Decimal} (h : d.mantissa ≠ 0) : (decimal d).chars = d.chars := by
  simp [chars, Decimal.isZero, h]

theorem chars_of_digits {s : String} (h : (string s).IsNumber) : (string s).chars = s.toList := by
  obtain ⟨empty, zero, digits⟩ := h
  have filled : s.toList ≠ [] := mt String.toList_eq_nil_iff.mp empty
  have single : s.toList ≠ ['0'] := fun same => zero (String.toList_inj.mp same)
  simp [chars, stringChars, filled, single, Text.isNumeral, digits]

/-- What a number is written with. -/
def isNumeric (c : Char) : Bool :=
  c.isDigit || c == '-' || c == '.'

theorem isNumeric_of_mem_chars {v : Literal} (h : v.IsNumber) {c : Char} (hc : c ∈ v.chars) :
    isNumeric c = true := by
  cases v with
  | integer value =>
      rw [chars_integer h] at hc
      rcases Text.mem_signedNumeral hc with digit | rfl
      · simp [isNumeric, digit]
      · rfl
  | decimal value =>
      rw [chars_decimal h] at hc
      rcases Decimal.mem_chars hc with digit | rfl | rfl
      · simp [isNumeric, digit]
      · rfl
      · rfl
  | string value =>
      rw [chars_of_digits h] at hc
      have digit : c.isDigit = true := List.all_eq_true.mp h.2.2 c hc
      simp [isNumeric, digit]
  | null | boolean | list => cases h

theorem lacks_chars_of_isNumber {v : Literal} (h : v.IsNumber) {avoided : List Char}
    (others : avoided.any isNumeric = false) : Text.Lacks avoided v.chars := by
  intro c hc havoided
  have numeric := List.any_eq_true.mpr ⟨c, havoided, isNumeric_of_mem_chars h hc⟩
  rw [others] at numeric
  cases numeric

theorem chars_ne_nil_of_isNumber {v : Literal} (h : v.IsNumber) : v.chars ≠ [] := by
  cases v with
  | integer value =>
      rw [chars_integer h]
      exact Text.signedNumeral_ne_nil _
  | decimal value =>
      rw [chars_decimal h]
      exact value.chars_ne_nil
  | string value =>
      rw [chars_of_digits h]
      exact mt String.toList_eq_nil_iff.mp h.1
  | null | boolean | list => cases h

/-- The form that a text has from its first character on. -/
def Form.ofFirst? (c : Char) : Option Form :=
  if isNumeric c then some .number
  else match c with
    | '"' => some .blank
    | 't' => some .truth
    | ':' => some .placeholder
    | '\x27' => some .quoted
    | '[' => some .list
    | _ => none

theorem HasForm.first {form : Form} {v : Literal} (h : HasForm form v) :
    ∃ c rest, v.chars = c :: rest ∧ Form.ofFirst? c = some form := by
  cases h with
  | blank blank => exact ⟨_, _, chars_of_isBlank blank, rfl⟩
  | truth => exact ⟨_, _, rfl, rfl⟩
  | @placeholder s sigil =>
      obtain ⟨rest, hrest⟩ := List.head?_eq_some_iff.mp sigil
      exact ⟨_, rest, (chars_of_placeholder sigil).trans hrest, rfl⟩
  | quoted quoted => exact ⟨_, _, chars_of_isQuoted quoted, rfl⟩
  | number number =>
      obtain ⟨c, rest, hchars⟩ := List.exists_cons_of_ne_nil (chars_ne_nil_of_isNumber number)
      have first : c ∈ v.chars := by
        rw [hchars]
        exact List.mem_cons_self
      exact ⟨c, rest, hchars, if_pos (isNumeric_of_mem_chars number first)⟩
  | list values => exact ⟨_, _, rfl, rfl⟩

/-- Texts of two forms differ in their first character, whatever follows. -/
theorem HasForm.eq_of_append_eq {form form' : Form} {v w : Literal} (hv : HasForm form v)
    (hw : HasForm form' w) {after after' : List Char}
    (h : v.chars ++ after = w.chars ++ after') : form = form' := by
  obtain ⟨c, rest, hchars, hc⟩ := hv.first
  obtain ⟨c', rest', hchars', hc'⟩ := hw.first
  rw [hchars, hchars', List.cons_append, List.cons_append] at h
  rw [(List.cons.inj h).1, hc'] at hc
  exact (Option.some.inj hc).symm

/-- No literal begins like the end of a list. -/
theorem chars_append_ne_bracket (v : Literal) (after rest : List Char) :
    v.chars ++ after ≠ ']' :: rest := by
  obtain ⟨form, hform⟩ := v.exists_form
  obtain ⟨c, _, hchars, hc⟩ := hform.first
  intro h
  rw [hchars, List.cons_append] at h
  rw [(List.cons.inj h).1] at hc
  cases hc

/-- No placeholder among some strings holds one of these characters. -/
def PlaceholdersWithout (avoided : List Char) (strings : List String) : Prop :=
  ∀ s ∈ strings, s.toList.head? = some ':' → Text.Lacks avoided s.toList

theorem PlaceholdersWithout.mono {avoided fewer : List Char} {strings : List String}
    (h : PlaceholdersWithout avoided strings) (subset : fewer ⊆ avoided) :
    PlaceholdersWithout fewer strings :=
  fun s hs sigil => (h s hs sigil).mono subset

/-- What may follow an element of a list. -/
def elementStops : List Char := [',', ']']

/-- The text of an element ends where a comma or a bracket follows, if it is not a list. -/
theorem HasForm.chars_eq_of_append_eq {form : Form} {v w : Literal} (hv : HasForm form v)
    (hw : HasForm form w) (notList : form ≠ .list)
    (freev : PlaceholdersWithout elementStops v.strings)
    (freew : PlaceholdersWithout elementStops w.strings) {after after' : List Char}
    (hafter : Text.StopsAt elementStops after) (hafter' : Text.StopsAt elementStops after')
    (h : v.chars ++ after = w.chars ++ after') : v.chars = w.chars ∧ after = after' := by
  cases hv with
  | blank blank =>
      cases hw with
      | blank blank' =>
          rw [chars_of_isBlank blank, chars_of_isBlank blank'] at h ⊢
          exact ⟨rfl, List.append_cancel_left h⟩
  | truth =>
      cases hw with
      | truth => exact ⟨rfl, List.append_cancel_left h⟩
  | @placeholder s sigil =>
      cases hw with
      | @placeholder s' sigil' =>
          rw [chars_of_placeholder sigil, chars_of_placeholder sigil'] at h ⊢
          exact Text.eq_of_append_stop (freev s (by simp [strings]) sigil)
            (freew s' (by simp [strings]) sigil') hafter hafter' h
  | @quoted s quoted =>
      cases hw with
      | @quoted s' quoted' =>
          rw [chars_of_isQuoted quoted, chars_of_isQuoted quoted'] at h ⊢
          simp only [Text.quoted, List.cons_append, List.append_assoc, List.nil_append,
            List.cons.injEq, true_and] at h
          obtain ⟨contents, rest⟩ := Text.escapeQuotes_append_inj h
          exact ⟨congrArg _ contents, rest⟩
  | number number =>
      cases hw with
      | number number' =>
          exact Text.eq_of_append_stop (lacks_chars_of_isNumber number (by decide))
            (lacks_chars_of_isNumber number' (by decide)) hafter hafter' h
  | list values => exact absurd rfl notList

theorem stopsAt_elements (values : List Literal) (after : List Char) :
    Text.StopsAt elementStops
      ((charsList values).flatMap (separator ++ ·) ++ ']' :: after) := by
  cases values with
  | nil => simp [charsList, Text.StopsAt, elementStops]
  | cons value rest => simp [charsList, separator, Text.StopsAt, elementStops]

theorem head?_charsList_ne_bracket (values : List Literal) :
    ∀ first ∈ (charsList values).head?, ∀ after rest, first ++ after ≠ ']' :: rest := by
  intro first hfirst
  cases values with
  | nil => cases hfirst
  | cons value rest =>
      obtain rfl := Option.some.inj hfirst
      exact value.chars_append_ne_bracket

end Criteria.Literal
