import Criteria.Literal.Inspection
import Criteria.Proofs.Numerals
import Mathlib.Data.List.Forall2

/-! # What an inspected form shows

A record shows an overwritten value and the new one in their inspected forms. Such a form names
the kind of its literal and shows where the contents end, whatever they are, so it is the form of
no other literal. Which characters appear as code points plays no part in that. The forms are
therefore given by a relation that leaves it open for every character without an escape of its
own, and the form in records is one of them.
-/

namespace Criteria

namespace Text

theorem hexadecimal_eq (n : Nat) :
    Nat.toDigits 16 n =
      (if n < 16 then [] else Nat.toDigits 16 (n / 16)) ++ [Nat.digitChar (n % 16)] := by
  rw [Nat.toDigits_eq_if (by decide)]
  split
  · rw [Nat.mod_eq_of_lt ‹_›, List.nil_append]
  · rfl

theorem digitChar_inj : ∀ m < 16, ∀ n < 16, Nat.digitChar m = Nat.digitChar n → m = n := by
  decide

/-- A number can be read back from its hexadecimal digits. -/
theorem hexadecimal_injective {m n : Nat} (h : Nat.toDigits 16 m = Nat.toDigits 16 n) :
    m = n := by
  induction m using Nat.strongRecOn generalizing n with
  | ind m ih =>
      rw [hexadecimal_eq m, hexadecimal_eq n] at h
      -- The last digit is the remainder. Before it stand the digits of the quotient, if any.
      obtain ⟨front, last⟩ := List.append_inj' h rfl
      have remainder : m % 16 = n % 16 :=
        digitChar_inj _ (Nat.mod_lt _ (by decide)) _ (Nat.mod_lt _ (by decide))
          (List.singleton_inj.mp last)
      split at front <;> split at front
      · omega
      · exact absurd front.symm Nat.toDigits_ne_nil
      · exact absurd front Nat.toDigits_ne_nil
      · have quotient := ih (m / 16) (by omega) front
        omega

theorem brace_not_mem_hexadecimal (n : Nat) : '\x7d' ∉ Nat.toDigits 16 n := by
  induction n using Nat.strongRecOn with
  | ind n ih =>
      intro h
      rw [hexadecimal_eq, List.mem_append, List.mem_singleton] at h
      rcases h with front | last
      · split at front
        · cases front
        · exact ih (n / 16) (by omega) front
      · exact Nat.digitChar_ne _ (by decide) last.symm

/-- The characters that have an escape of their own, with what follows the backslash. -/
def escapes : List (Char × Char) :=
  [('"', '"'), ('\\', '\\'), ('\t', 't'), ('\r', 'r'), ('\n', 'n'), ('\x00', '0')]

/-- The ways to write a character between double quotes. Without an escape of its own it may
    stand for itself or appear as its code point. -/
inductive CharInspectsAs (c : Char) : List Char → Prop where
  | escape {letter : Char} : (c, letter) ∈ escapes → CharInspectsAs c ['\\', letter]
  | code : c ∉ escapes.map Prod.fst →
      CharInspectsAs c (['\\', 'u', '\x7b'] ++ Nat.toDigits 16 c.toNat ++ ['\x7d'])
  | raw : c ∉ escapes.map Prod.fst → CharInspectsAs c [c]

theorem charInspectsAs_inspectChar (c : Char) : CharInspectsAs c (inspectChar c) := by
  unfold inspectChar
  split
  · rename_i h
    have quoted : c = '"' ∨ c = '\\' := by simpa using h
    rcases quoted with rfl | rfl
    · exact .escape (by decide)
    · exact .escape (by decide)
  split
  · subst c
    exact .escape (by decide)
  split
  · subst c
    exact .escape (by decide)
  split
  · subst c
    exact .escape (by decide)
  split
  · subst c
    exact .escape (by decide)
  rename_i unquoted tab carriage line null
  have unnamed : c ∉ escapes.map Prod.fst := by
    simp_all [escapes]
  split
  · exact .raw unnamed
  · exact .code unnamed

theorem ne_unicode_of_mem_escapes : ∀ e ∈ escapes, e.2 ≠ 'u' := by decide

theorem escapes_inj : ∀ e ∈ escapes, ∀ f ∈ escapes, e.2 = f.2 → e.1 = f.1 := by decide

theorem ne_backslash_of_not_mem_escapes {c : Char} (h : c ∉ escapes.map Prod.fst) :
    c ≠ '\\' := by
  rintro rfl
  exact h (by decide)

/-- A written character shows which character it is and where it ends. -/
theorem CharInspectsAs.append_inj {c d : Char} {written written' after after' : List Char}
    (hc : CharInspectsAs c written) (hd : CharInspectsAs d written')
    (h : written ++ after = written' ++ after') : c = d ∧ after = after' := by
  -- Only a raw character is written without a backslash, and behind one only a code point has `u`.
  cases hc with
  | escape named =>
      cases hd with
      | escape named' =>
          simp only [List.cons_append, List.nil_append, List.cons.injEq, true_and] at h
          exact ⟨escapes_inj _ named _ named' h.1, h.2⟩
      | code unnamed =>
          simp only [List.cons_append, List.nil_append, List.cons.injEq, true_and] at h
          exact absurd h.1 (ne_unicode_of_mem_escapes _ named)
      | raw unnamed =>
          exact absurd (List.cons.inj h).1.symm (ne_backslash_of_not_mem_escapes unnamed)
  | code unnamed =>
      cases hd with
      | escape named =>
          simp only [List.cons_append, List.nil_append, List.cons.injEq, true_and] at h
          exact absurd h.1.symm (ne_unicode_of_mem_escapes _ named)
      | code unnamed' =>
          simp only [List.cons_append, List.nil_append, List.append_assoc, List.cons.injEq,
            true_and] at h
          obtain ⟨digits, rest⟩ := eq_of_append_cons (brace_not_mem_hexadecimal _)
            (brace_not_mem_hexadecimal _) h
          exact ⟨Char.toNat_inj.mp (hexadecimal_injective digits), rest⟩
      | raw unnamed' =>
          exact absurd (List.cons.inj h).1.symm (ne_backslash_of_not_mem_escapes unnamed')
  | raw unnamed =>
      cases hd with
      | escape named => exact absurd (List.cons.inj h).1 (ne_backslash_of_not_mem_escapes unnamed)
      | code unnamed' => exact absurd (List.cons.inj h).1 (ne_backslash_of_not_mem_escapes unnamed)
      | raw unnamed' => exact List.cons.inj h

/-- No character is written like the end of the text. -/
theorem CharInspectsAs.append_ne_quote {c : Char} {written : List Char}
    (h : CharInspectsAs c written) (after rest : List Char) : written ++ after ≠ '"' :: rest := by
  intro same
  cases h with
  | escape named => exact absurd (List.cons.inj same).1 (by decide)
  | code unnamed => exact absurd (List.cons.inj same).1 (by decide)
  | raw unnamed =>
      obtain rfl := (List.cons.inj same).1
      exact unnamed (by decide)

/-- The ways to write the contents between double quotes, one character after the other. -/
inductive InspectsAs : List Char → List Char → Prop where
  | nil : InspectsAs [] []
  | cons {c : Char} {text first rest : List Char} :
      CharInspectsAs c first → InspectsAs text rest → InspectsAs (c :: text) (first ++ rest)

theorem inspectsAs_flatMap (text : List Char) : InspectsAs text (text.flatMap inspectChar) := by
  induction text with
  | nil => exact .nil
  | cons c rest ih => exact .cons (charInspectsAs_inspectChar c) ih

/-- Whatever the contents hold, the first quote without a backslash ends them. -/
theorem InspectsAs.append_inj {a b written written' after after' : List Char}
    (ha : InspectsAs a written) (hb : InspectsAs b written')
    (h : written ++ '"' :: after = written' ++ '"' :: after') : a = b ∧ after = after' := by
  induction ha generalizing b written' with
  | nil =>
      cases hb with
      | nil => exact ⟨rfl, (List.cons.inj h).2⟩
      | cons first rest =>
          rw [List.append_assoc] at h
          exact absurd h.symm (first.append_ne_quote _ _)
  | cons first rest ih =>
      cases hb with
      | nil =>
          rw [List.append_assoc] at h
          exact absurd h (first.append_ne_quote _ _)
      | cons first' rest' =>
          rw [List.append_assoc, List.append_assoc] at h
          obtain ⟨rfl, later⟩ := first.append_inj first' h
          exact (ih rest' later).imp (congrArg _) id

end Text

namespace Literal

/-- The forms of a literal. They differ in how the characters of strings are written. -/
inductive InspectsAs : Literal → List Char → Prop where
  | null : InspectsAs .null "Null".toList
  | boolean (value : Bool) :
      InspectsAs (.boolean value)
        ("Boolean(".toList ++ (if value then "true" else "false").toList ++ [')'])
  | integer (value : Int64) :
      InspectsAs (.integer value) ("Integer(".toList ++ Text.signedNumeral value.toInt ++ [')'])
  | decimal (value : Decimal) :
      InspectsAs (.decimal value) ("Decimal(".toList ++ value.chars ++ [')'])
  | string {value : String} {written : List Char} :
      Text.InspectsAs value.toList written →
      InspectsAs (.string value) ("String(".toList ++ ('"' :: written ++ ['"']) ++ [')'])
  | list {values : List Literal} {forms : List (List Char)} :
      List.Forall₂ InspectsAs values forms →
      InspectsAs (.list values)
        ("List([".toList ++ List.intercalate [',', ' '] forms ++ [']', ')'])

mutual
/-- The form in records is one of them. -/
theorem inspectsAs_inspectChars (v : Literal) : v.InspectsAs v.inspectChars := by
  cases v with
  | null => exact .null
  | boolean value => exact .boolean value
  | integer value => exact .integer value
  | decimal value => exact .decimal value
  | string value => exact .string (Text.inspectsAs_flatMap _)
  | list values => exact .list (forall_inspectsAs_inspectCharsList values)
termination_by sizeOf v

theorem forall_inspectsAs_inspectCharsList (vs : List Literal) :
    List.Forall₂ InspectsAs vs (inspectCharsList vs) := by
  cases vs with
  | nil => exact .nil
  | cons v rest =>
      exact .cons (inspectsAs_inspectChars v) (forall_inspectsAs_inspectCharsList rest)
termination_by sizeOf vs
end

/-- The first letter of the kind. -/
def initial : Literal → Char
  | .null => 'N'
  | .boolean _ => 'B'
  | .integer _ => 'I'
  | .decimal _ => 'D'
  | .string _ => 'S'
  | .list _ => 'L'

theorem InspectsAs.exists_cons {v : Literal} {form : List Char} (h : v.InspectsAs form) :
    ∃ rest, form = v.initial :: rest := by
  cases h with
  | null | boolean | integer | decimal | string | list => exact ⟨_, rfl⟩

theorem InspectsAs.initial_eq {v w : Literal} {form form' after after' : List Char}
    (hv : v.InspectsAs form) (hw : w.InspectsAs form') (h : form ++ after = form' ++ after') :
    v.initial = w.initial := by
  obtain ⟨rest, rfl⟩ := hv.exists_cons
  obtain ⟨rest', rfl⟩ := hw.exists_cons
  exact (List.cons.inj h).1

/-- No form begins like the end of a list. -/
theorem InspectsAs.append_ne_bracket {v : Literal} {form : List Char} (h : v.InspectsAs form)
    (after rest : List Char) : form ++ after ≠ ']' :: rest := by
  obtain ⟨letters, rfl⟩ := h.exists_cons
  intro same
  have letter : v.initial = ']' := (List.cons.inj same).1
  cases v <;> simp [initial] at letter

theorem boolean_inj : ∀ a b : Bool,
    (if a then "true" else "false").toList = (if b then "true" else "false").toList → a = b := by
  decide

theorem parenthesis_not_mem_boolean :
    ∀ value : Bool, ')' ∉ (if value then "true" else "false").toList := by
  decide

/-- After one word, contents without parentheses end at the first one. -/
theorem eq_of_body_append_eq {word body body' after after' : List Char} (hbody : ')' ∉ body)
    (hbody' : ')' ∉ body') (h : word ++ body ++ [')'] ++ after = word ++ body' ++ [')'] ++ after') :
    body = body' ∧ after = after' := by
  simp only [List.append_assoc, List.append_cancel_left_eq, List.singleton_append] at h
  exact Text.eq_of_append_cons hbody hbody' h

theorem forms_head?_ne_bracket {vs : List Literal} {forms : List (List Char)}
    (h : List.Forall₂ InspectsAs vs forms) :
    ∀ first ∈ forms.head?, ∀ after rest, first ++ after ≠ ']' :: rest := by
  intro first hfirst
  cases h with
  | nil => cases hfirst
  | cons shown rest =>
      obtain rfl := Option.some.inj hfirst
      exact shown.append_ne_bracket

mutual
/-- A form shows its literal and where it ends. -/
theorem InspectsAs.append_inj {v w : Literal} {form form' after after' : List Char}
    (hv : v.InspectsAs form) (hw : w.InspectsAs form') (h : form ++ after = form' ++ after') :
    v = w ∧ after = after' := by
  -- Forms of two kinds differ in their first letter, so only equal kinds are compared further.
  have kind := hv.initial_eq hw h
  cases hv with
  | null =>
      cases hw with
      | null => exact ⟨rfl, List.append_cancel_left h⟩
      | boolean | integer | decimal | string | list => simp [initial] at kind
  | boolean value =>
      cases hw with
      | boolean value' =>
          obtain ⟨word, rest⟩ := eq_of_body_append_eq (parenthesis_not_mem_boolean value)
            (parenthesis_not_mem_boolean value') h
          exact ⟨congrArg _ (boolean_inj _ _ word), rest⟩
      | null | integer | decimal | string | list => simp [initial] at kind
  | integer value =>
      cases hw with
      | integer value' =>
          have inside (n : Int) : ')' ∉ Text.signedNumeral n := mt Text.mem_signedNumeral (by decide)
          obtain ⟨numeral, rest⟩ := eq_of_body_append_eq (inside _) (inside _) h
          have same := Int64.toInt_inj.mp (Text.signedNumeral_injective numeral)
          exact ⟨congrArg _ same, rest⟩
      | null | boolean | decimal | string | list => simp [initial] at kind
  | decimal value =>
      cases hw with
      | decimal value' =>
          have inside (d : Decimal) : ')' ∉ d.chars := mt Decimal.mem_chars (by decide)
          obtain ⟨digits, rest⟩ := eq_of_body_append_eq (inside _) (inside _) h
          exact ⟨congrArg _ (Decimal.chars_injective digits), rest⟩
      | null | boolean | integer | string | list => simp [initial] at kind
  | string written =>
      cases hw with
      | string written' =>
          simp only [List.append_assoc, List.append_cancel_left_eq, List.cons_append,
            List.nil_append, List.cons.injEq, true_and] at h
          obtain ⟨contents, rest⟩ := written.append_inj written' h
          exact ⟨congrArg _ (String.toList_inj.mp contents), (List.cons.inj rest).2⟩
      | null | boolean | integer | decimal | list => simp [initial] at kind
  | list all =>
      cases hw with
      | list all' =>
          simp only [List.append_assoc, List.append_cancel_left_eq, List.cons_append,
            List.nil_append] at h
          have forms := Text.separated_append_eq (forms_head?_ne_bracket all)
            (forms_head?_ne_bracket all') h
          obtain ⟨elements, rest⟩ := eq_of_elements_append_eq all all' forms
          exact ⟨congrArg _ elements, (List.cons.inj rest).2⟩
      | null | boolean | integer | decimal | string => simp [initial] at kind
termination_by sizeOf v

theorem eq_of_elements_append_eq {vs ws : List Literal} {forms forms' : List (List Char)}
    {after after' : List Char} (hvs : List.Forall₂ InspectsAs vs forms)
    (hws : List.Forall₂ InspectsAs ws forms')
    (h : forms.flatMap ([',', ' '] ++ ·) ++ ']' :: after =
      forms'.flatMap ([',', ' '] ++ ·) ++ ']' :: after') : vs = ws ∧ after = after' := by
  cases hvs with
  | nil =>
      cases hws with
      | nil => exact ⟨rfl, (List.cons.inj h).2⟩
      | cons first rest => simp at h
  | cons first rest =>
      cases hws with
      | nil => simp at h
      | cons first' rest' =>
          simp only [List.flatMap_cons, List.append_assoc, List.append_cancel_left_eq] at h
          obtain ⟨rfl, later⟩ := InspectsAs.append_inj first first' h
          obtain ⟨rfl, hafter⟩ := eq_of_elements_append_eq rest rest' later
          exact ⟨rfl, hafter⟩
termination_by sizeOf vs
end

theorem InspectsAs.unique {v w : Literal} {form : List Char} (hv : v.InspectsAs form)
    (hw : w.InspectsAs form) : v = w := by
  have same : form ++ [] = form ++ [] := rfl
  exact (hv.append_inj hw same).1

theorem inspectsAs_inspect (v : Literal) : v.InspectsAs v.inspect.toList := by
  rw [inspect, String.toList_ofList]
  exact v.inspectsAs_inspectChars

theorem inspect_inj {v w : Literal} : v.inspect = w.inspect ↔ v = w := by
  refine ⟨fun h => ?_, congrArg _⟩
  have form := v.inspectsAs_inspect
  rw [h] at form
  exact form.unique w.inspectsAs_inspect

end Literal

end Criteria
