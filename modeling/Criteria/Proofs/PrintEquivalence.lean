import Criteria.Proofs.Forms

/-! # What the text of a literal identifies

Some literals of different kinds have one text. All blank ones look alike, and a number looks
like any other with the same numeral. Nothing else is identified: the text of a literal shows its
form, and a list shows where each of its elements ends.
-/

namespace Criteria.Literal

/-- Whether two numbers have one numeral. Strings of digits are compared as text, a decimal looks
    like a whole number when it has no places, and two decimals have to be the same in sign,
    mantissa and scale. -/
def SameNumeral : Literal → Literal → Prop
  | .integer m, .integer n => m = n
  | .decimal a, .decimal b => a = b
  | .string s, .string t => s = t
  | .integer n, .decimal d | .decimal d, .integer n => d.scale = 0 ∧ n.toInt = d.signed
  | .integer n, .string s | .string s, .integer n => s.toList = Text.signedNumeral n.toInt
  | .decimal d, .string s | .string s, .decimal d =>
    d.scale = 0 ∧ s.toList = Text.signedNumeral d.signed
  | _, _ => False

/-- Literals that have one text inside a rule. -/
inductive PrintEquivalent : Literal → Literal → Prop where
  | blank {v w : Literal} : v.IsBlank → w.IsBlank → PrintEquivalent v w
  | truth : PrintEquivalent (.boolean true) (.boolean true)
  | placeholder {s : String} :
      s.toList.head? = some ':' → PrintEquivalent (.string s) (.string s)
  | quoted {s : String} : IsQuoted s → PrintEquivalent (.string s) (.string s)
  | number {v w : Literal} :
      v.IsNumber → w.IsNumber → SameNumeral v w → PrintEquivalent v w
  | list {vs ws : List Literal} :
      List.Forall₂ PrintEquivalent vs ws → PrintEquivalent (.list vs) (.list ws)

theorem point_not_mem_digits {s : String} (h : (string s).IsNumber) : '.' ∉ s.toList := by
  intro hpoint
  exact absurd (List.all_eq_true.mp h.2.2 _ hpoint) (by decide)

theorem chars_eq_iff_sameNumeral {v w : Literal} (hv : v.IsNumber) (hw : w.IsNumber) :
    v.chars = w.chars ↔ SameNumeral v w := by
  have whole (m n : Int) : Text.signedNumeral m = Text.signedNumeral n ↔ m = n :=
    ⟨Text.signedNumeral_injective, congrArg _⟩
  have pointless (n : Int) : '.' ∉ Text.signedNumeral n := mt Text.mem_signedNumeral (by decide)
  cases v with
  | integer m =>
      rw [chars_integer hv]
      cases w with
      | integer n => rw [chars_integer hw, whole, SameNumeral, Int64.toInt_inj]
      | decimal d =>
          rw [chars_decimal hw, eq_comm, Decimal.chars_eq_iff_of_pointless hw (pointless _),
            whole, SameNumeral]
      | string s => rw [chars_of_digits hw, eq_comm, SameNumeral]
      | null | boolean | list => cases hw
  | decimal d =>
      rw [chars_decimal hv]
      cases w with
      | integer n =>
          rw [chars_integer hw, Decimal.chars_eq_iff_of_pointless hv (pointless _), whole,
            SameNumeral]
      | decimal e =>
          rw [chars_decimal hw, SameNumeral]
          exact ⟨Decimal.chars_injective, congrArg _⟩
      | string s =>
          rw [chars_of_digits hw, Decimal.chars_eq_iff_of_pointless hv (point_not_mem_digits hw),
            SameNumeral]
      | null | boolean | list => cases hw
  | string s =>
      rw [chars_of_digits hv]
      cases w with
      | integer n => rw [chars_integer hw, SameNumeral]
      | decimal d =>
          rw [chars_decimal hw, eq_comm,
            Decimal.chars_eq_iff_of_pointless hw (point_not_mem_digits hv), SameNumeral]
      | string t => rw [chars_of_digits hw, SameNumeral, String.toList_inj]
      | null | boolean | list => cases hw
  | null | boolean | list => cases hv

mutual
theorem PrintEquivalent.chars_eq {v w : Literal} (h : PrintEquivalent v w) :
    v.chars = w.chars := by
  cases h with
  | blank hv hw => rw [chars_of_isBlank hv, chars_of_isBlank hw]
  | truth | placeholder | quoted => rfl
  | number hv hw same => exact (chars_eq_iff_sameNumeral hv hw).mpr same
  | list all => rw [chars, chars, PrintEquivalent.charsList_eq all]
termination_by sizeOf v

theorem PrintEquivalent.charsList_eq {vs ws : List Literal}
    (h : List.Forall₂ PrintEquivalent vs ws) : charsList vs = charsList ws := by
  cases h with
  | nil => rfl
  | cons first rest =>
      rw [charsList, charsList, PrintEquivalent.chars_eq first, PrintEquivalent.charsList_eq rest]
termination_by sizeOf vs
end

theorem HasForm.printEquivalent {form : Form} {v w : Literal} (hv : HasForm form v)
    (hw : HasForm form w) (notList : form ≠ .list) (h : v.chars = w.chars) :
    PrintEquivalent v w := by
  cases hv with
  | blank blank =>
      cases hw with
      | blank blank' => exact .blank blank blank'
  | truth =>
      cases hw with
      | truth => exact .truth
  | placeholder sigil =>
      cases hw with
      | placeholder sigil' =>
          rw [chars_of_placeholder sigil, chars_of_placeholder sigil', String.toList_inj] at h
          subst h
          exact .placeholder sigil
  | quoted quoted =>
      cases hw with
      | quoted quoted' =>
          rw [chars_of_isQuoted quoted, chars_of_isQuoted quoted', Text.quoted, Text.quoted] at h
          obtain ⟨contents, -⟩ := Text.escapeQuotes_append_inj (List.cons.inj h).2
          obtain rfl := String.toList_inj.mp contents
          exact .quoted quoted
  | number number =>
      cases hw with
      | number number' =>
          exact .number number number' ((chars_eq_iff_sameNumeral number number').mp h)
  | list values => exact absurd rfl notList

mutual
/-- The text of an element shows the element and where it ends. -/
theorem printEquivalent_of_append_eq (v w : Literal)
    (freev : PlaceholdersWithout elementStops v.strings)
    (freew : PlaceholdersWithout elementStops w.strings) {after after' : List Char}
    (hafter : Text.StopsAt elementStops after) (hafter' : Text.StopsAt elementStops after')
    (h : v.chars ++ after = w.chars ++ after') : PrintEquivalent v w ∧ after = after' := by
  obtain ⟨form, hv⟩ := v.exists_form
  obtain ⟨form', hw⟩ := w.exists_form
  obtain rfl := hv.eq_of_append_eq hw h
  by_cases notList : form = .list
  · subst notList
    cases hv with
    | list vs =>
        cases hw with
        | list ws =>
            simp only [chars, List.cons_append, List.append_assoc, List.nil_append,
              List.cons.injEq, true_and] at h
            have elements := Text.separated_append_eq (head?_charsList_ne_bracket vs)
              (head?_charsList_ne_bracket ws) h
            obtain ⟨all, rest⟩ :=
              forall_printEquivalent_of_append_eq vs ws freev freew elements
            exact ⟨.list all, rest⟩
  · obtain ⟨same, rest⟩ := hv.chars_eq_of_append_eq hw notList freev freew hafter hafter' h
    exact ⟨hv.printEquivalent hw notList same, rest⟩
termination_by sizeOf v

theorem forall_printEquivalent_of_append_eq (vs ws : List Literal)
    (freevs : PlaceholdersWithout elementStops (stringsList vs))
    (freews : PlaceholdersWithout elementStops (stringsList ws)) {after after' : List Char}
    (h : (charsList vs).flatMap (separator ++ ·) ++ ']' :: after =
      (charsList ws).flatMap (separator ++ ·) ++ ']' :: after') :
    List.Forall₂ PrintEquivalent vs ws ∧ after = after' := by
  cases vs with
  | nil =>
      cases ws with
      | nil => exact ⟨.nil, by simpa [charsList] using h⟩
      | cons w ws => simp [charsList, separator] at h
  | cons v vs =>
      cases ws with
      | nil => simp [charsList, separator] at h
      | cons w ws =>
          obtain ⟨freev, freevs⟩ := List.forall_mem_append.mp freevs
          obtain ⟨freew, freews⟩ := List.forall_mem_append.mp freews
          simp only [charsList, List.flatMap_cons, List.append_assoc] at h
          obtain ⟨first, later⟩ := printEquivalent_of_append_eq v w freev freew
            (stopsAt_elements vs after) (stopsAt_elements ws after')
            (List.append_cancel_left h)
          obtain ⟨rest, hafter⟩ := forall_printEquivalent_of_append_eq vs ws freevs freews later
          exact ⟨.cons first rest, hafter⟩
termination_by sizeOf vs
end

/-- The elements of a list, or the arguments of a call, can be told from their text. -/
theorem forall_printEquivalent_of_intercalate_eq {vs ws : List Literal}
    (freevs : PlaceholdersWithout elementStops (stringsList vs))
    (freews : PlaceholdersWithout elementStops (stringsList ws))
    (h : List.intercalate separator (charsList vs) = List.intercalate separator (charsList ws)) :
    List.Forall₂ PrintEquivalent vs ws := by
  have elements := Text.separated_append_eq (head?_charsList_ne_bracket vs)
    (head?_charsList_ne_bracket ws) (congrArg (· ++ ']' :: []) h)
  exact (forall_printEquivalent_of_append_eq vs ws freevs freews elements).1

/-- The strings that stand in a list at some depth. -/
def stringsInLists : Literal → List String
  | .list values => stringsList values
  | .null | .boolean _ | .integer _ | .decimal _ | .string _ => []

theorem printEquivalent_of_chars_eq {v w : Literal}
    (freev : PlaceholdersWithout elementStops v.stringsInLists)
    (freew : PlaceholdersWithout elementStops w.stringsInLists) (h : v.chars = w.chars) :
    PrintEquivalent v w := by
  obtain ⟨form, hv⟩ := v.exists_form
  obtain ⟨form', hw⟩ := w.exists_form
  obtain rfl := hv.eq_of_append_eq hw (congrArg (· ++ []) h)
  by_cases notList : form = .list
  · subst notList
    cases hv with
    | list vs =>
        cases hw with
        | list ws =>
            rw [chars, chars] at h
            have elements := List.append_cancel_right (List.cons.inj h).2
            exact .list (forall_printEquivalent_of_intercalate_eq freev freew elements)
  · exact hv.printEquivalent hw notList h

theorem IsBlank.ne_list {v : Literal} (h : v.IsBlank) (values : List Literal) :
    v ≠ .list values := by
  rintro rfl
  exact h

theorem IsNumber.ne_list {v : Literal} (h : v.IsNumber) (values : List Literal) :
    v ≠ .list values := by
  rintro rfl
  exact h

theorem PrintEquivalent.list_iff {v w : Literal} (h : PrintEquivalent v w) :
    (∃ vs, v = .list vs) ↔ ∃ ws, w = .list ws := by
  cases h with
  | blank hv hw => simp [hv.ne_list, hw.ne_list]
  | truth | placeholder | quoted => simp
  | number hv hw => simp [hv.ne_list, hw.ne_list]
  | list all => simp

/-- Two literals have one text exactly when they are print-equivalent, and a list has the text of
    lists only. Placeholders stand as they are, so those in a list must not look like its end or
    like a further element. -/
theorem text_eq_iff_printEquivalent (v w : Literal)
    (freev : PlaceholdersWithout [',', ']'] v.stringsInLists)
    (freew : PlaceholdersWithout [',', ']'] w.stringsInLists) :
    (v.text = w.text ↔ PrintEquivalent v w) ∧
    (PrintEquivalent v w → ((∃ vs, v = .list vs) ↔ ∃ ws, w = .list ws)) := by
  refine ⟨?_, PrintEquivalent.list_iff⟩
  rw [text, text, String.ofList_inj]
  exact ⟨printEquivalent_of_chars_eq freev freew, PrintEquivalent.chars_eq⟩

/-- The comma and the bracket in the string do not end its element, and a whole decimal looks
    like the digits of it. -/
theorem text_eq_of_nested_digits :
    PlaceholdersWithout [',', ']']
      (list [.list [.string "a', ]", .integer 7], .string ":p"]).stringsInLists ∧
    PlaceholdersWithout [',', ']']
      (list [.list [.string "a', ]", .string "7"], .string ":p"]).stringsInLists ∧
    (list [.list [.string "a', ]", .integer 7], .string ":p"]).text =
      (list [.list [.string "a', ]", .string "7"], .string ":p"]).text := by
  have left : PlaceholdersWithout [',', ']']
      (list [.list [.string "a', ]", .integer 7], .string ":p"]).stringsInLists := by
    unfold PlaceholdersWithout
    decide
  have right : PlaceholdersWithout [',', ']']
      (list [.list [.string "a', ]", .string "7"], .string ":p"]).stringsInLists := by
    unfold PlaceholdersWithout
    decide
  have seven : PrintEquivalent (.integer 7) (.string "7") := .number (by decide) (by decide) rfl
  have quoted : PrintEquivalent (.string "a', ]") (.string "a', ]") := .quoted (by decide)
  have placeholder : PrintEquivalent (.string ":p") (.string ":p") := .placeholder rfl
  have nested := PrintEquivalent.list (.cons quoted (.cons seven .nil))
  have whole := PrintEquivalent.list (.cons nested (.cons placeholder .nil))
  exact ⟨left, right, (text_eq_iff_printEquivalent _ _ left right).1.mpr whole⟩

end Criteria.Literal
