import Criteria.Literal.Conversion
import Mathlib.Algebra.Group.Nat.Defs
import Mathlib.Data.List.Forall2

/-! # Which JSON values have a literal

A JSON value is refused for an object or for a float without a decimal, wherever it stands among
the elements of arrays. The first such part from left to right gives the cause, and nothing in it
or behind it plays a role. Every other value has a literal of its own shape.
-/

namespace Criteria

namespace Json

/-- A value is within itself, and what is within an element is within the array. -/
inductive Within : Json → Json → Prop where
  | self (value : Json) : Within value value
  | element {part value : Json} {values : List Json} :
      value ∈ values → Within part value → Within part (.array values)

mutual
/-- The values other than arrays, at any depth and from left to right. The members of an object
    are not among them. -/
def parts : Json → List Json
  | .array values => partsList values
  | value => [value]

def partsList : List Json → List Json
  | [] => []
  | value :: rest => value.parts ++ partsList rest
end

/-- A part that has no literal, and why. -/
inductive Offends : Json → Refusal → Prop where
  | object (members : List (String × Json)) : Offends (.object members) (.unsupported .object)
  | float {x : Float} {cause : Refusal} :
      Literal.ofFloat x = .error cause → Offends (.float x) cause

/-- The first part that has no literal has none for this cause. -/
def FirstOffence (parts : List Json) (cause : Refusal) : Prop :=
  ∃ before offender after, parts = before ++ offender :: after ∧
    (∀ part ∈ before, ∀ other, ¬ Offends part other) ∧ Offends offender cause

/-- The literal has the shape of the value. In each place it has the value that stands there, a
    whole number as it is converted alone and a float as the decimal that it has. -/
inductive Mirrors : Json → Literal → Prop where
  | null : Mirrors .null .null
  | boolean (b : Bool) : Mirrors (.boolean b) (toLiteral b)
  | integer (n : Int64) : Mirrors (.integer n) (toLiteral n)
  | natural (n : UInt64) : Mirrors (.natural n) (toLiteral n)
  | float {x : Float} {l : Literal} : Literal.ofFloat x = .ok l → Mirrors (.float x) l
  | string (s : String) : Mirrors (.string s) (toLiteral s)
  | array {values : List Json} {ls : List Literal} :
      List.Forall₂ Mirrors values ls → Mirrors (.array values) (.list ls)

mutual
theorem within_of_mem_parts {part value : Json} (h : part ∈ value.parts) :
    part.Within value ∧ ∀ values, part ≠ .array values := by
  cases value with
  | array values =>
      obtain ⟨value, hvalue, within, plain⟩ := within_of_mem_partsList h
      exact ⟨.element hvalue within, plain⟩
  | null | boolean | integer | natural | float | string | object =>
      obtain rfl := List.mem_singleton.mp h
      exact ⟨.self _, fun _ => nofun⟩
termination_by sizeOf value

theorem within_of_mem_partsList {part : Json} {values : List Json} (h : part ∈ partsList values) :
    ∃ value ∈ values, part.Within value ∧ ∀ values, part ≠ .array values := by
  cases values with
  | nil => cases h
  | cons value rest =>
      rcases List.mem_append.mp h with h | h
      · exact ⟨value, List.mem_cons_self, within_of_mem_parts h⟩
      · obtain ⟨other, hother, found⟩ := within_of_mem_partsList h
        exact ⟨other, List.mem_cons_of_mem value hother, found⟩
termination_by sizeOf values
end

theorem mem_partsList {part value : Json} {values : List Json} (hvalue : value ∈ values)
    (h : part ∈ value.parts) : part ∈ partsList values := by
  induction values with
  | nil => cases hvalue
  | cons first rest ih =>
      rcases List.mem_cons.mp hvalue with rfl | hvalue
      · exact List.mem_append_left _ h
      · exact List.mem_append_right _ (ih hvalue)

theorem Within.mem_parts {part value : Json} (h : part.Within value)
    (plain : ∀ values, part ≠ .array values) : part ∈ value.parts := by
  induction h with
  | self =>
      cases part with
      | array values => exact absurd rfl (plain values)
      | null | boolean | integer | natural | float | string | object =>
          exact List.mem_singleton_self _
  | element hvalue _ ih => exact mem_partsList hvalue ih

theorem Offends.cause_unique {part : Json} {cause other : Refusal} (h : Offends part cause)
    (h' : Offends part other) : cause = other := by
  cases h with
  | object members =>
      cases h'
      rfl
  | float refused =>
      cases h' with
      | float refused' => exact Except.error.inj (refused.symm.trans refused')

theorem FirstOffence.cause_unique {parts : List Json} {cause other : Refusal}
    (h : FirstOffence parts cause) (h' : FirstOffence parts other) : cause = other := by
  obtain ⟨before, offender, after, rfl, sound, offends⟩ := h
  obtain ⟨before', offender', after', split, sound', offends'⟩ := h'
  induction before generalizing before' with
  | nil =>
      cases before' with
      | nil =>
          obtain ⟨rfl, -⟩ := List.cons.inj split
          exact offends.cause_unique offends'
      | cons first rest =>
          obtain ⟨rfl, -⟩ := List.cons.inj split
          exact absurd offends (sound' _ List.mem_cons_self _)
  | cons first rest ih =>
      cases before' with
      | nil =>
          obtain ⟨rfl, -⟩ := List.cons.inj split
          exact absurd offends' (sound _ List.mem_cons_self _)
      | cons first' rest' =>
          obtain ⟨-, split⟩ := List.cons.inj split
          exact ih (List.forall_mem_of_forall_mem_cons sound) rest' split
            (List.forall_mem_of_forall_mem_cons sound')

theorem FirstOffence.exists_mem {parts : List Json} {cause : Refusal}
    (h : FirstOffence parts cause) : ∃ part ∈ parts, Offends part cause := by
  obtain ⟨before, offender, after, rfl, -, offends⟩ := h
  exact ⟨offender, List.mem_append_right before List.mem_cons_self, offends⟩

theorem FirstOffence.append_right {parts : List Json} {cause : Refusal}
    (h : FirstOffence parts cause) (others : List Json) : FirstOffence (parts ++ others) cause := by
  obtain ⟨before, offender, after, rfl, sound, offends⟩ := h
  exact ⟨before, offender, after ++ others, by simp, sound, offends⟩

theorem FirstOffence.append_left {parts : List Json} {cause : Refusal}
    (h : FirstOffence parts cause) {others : List Json}
    (sound : ∀ part ∈ others, ∀ other, ¬ Offends part other) :
    FirstOffence (others ++ parts) cause := by
  obtain ⟨before, offender, after, rfl, sound', offends⟩ := h
  exact ⟨others ++ before, offender, after, by simp,
    List.forall_mem_append.mpr ⟨sound, sound'⟩, offends⟩

/-- What a conversion of some parts comes to: all of them have a literal and the result fits, or
    the first that has none gives the cause. -/
inductive Outcome {α : Type} (parts : List Json) (fits : α → Prop) :
    Except Refusal α → Prop where
  | accepted {a : α} : fits a → (∀ part ∈ parts, ∀ cause, ¬ Offends part cause) →
      Outcome parts fits (.ok a)
  | refused {cause : Refusal} : FirstOffence parts cause → Outcome parts fits (.error cause)

theorem Outcome.of_sound {value : Json} {l : Literal} (mirrors : Mirrors value l)
    (sound : ∀ cause, ¬ Offends value cause) : Outcome [value] (Mirrors value) (.ok l) :=
  .accepted mirrors (List.forall_mem_singleton.mpr sound)

theorem Outcome.of_offends {value : Json} {cause : Refusal} (h : Offends value cause) :
    Outcome [value] (Mirrors value) (.error cause) :=
  .refused ⟨[], value, [], rfl, List.forall_mem_nil _, h⟩

mutual
theorem ofJson_outcome (value : Json) :
    Outcome value.parts (Mirrors value) (Literal.ofJson value) := by
  cases value with
  | null => exact .of_sound .null nofun
  | boolean b => exact .of_sound (.boolean b) nofun
  | integer n => exact .of_sound (.integer n) nofun
  | natural n => exact .of_sound (.natural n) nofun
  | string s => exact .of_sound (.string s) nofun
  | object members => exact .of_offends (.object members)
  | float x =>
      rw [Literal.ofJson]
      cases converted : Literal.ofFloat x with
      | ok l =>
          refine .of_sound (.float converted) fun cause offends => ?_
          cases offends with
          | float refused => cases converted.symm.trans refused
      | error cause => exact .of_offends (.float converted)
  | array values =>
      have elements := ofJsonList_outcome values
      rw [Literal.ofJson]
      generalize Literal.ofJsonList values = result at elements
      cases elements with
      | accepted mirrors sound => exact .accepted (.array mirrors) sound
      | refused first => exact .refused first
termination_by sizeOf value

theorem ofJsonList_outcome (values : List Json) :
    Outcome (partsList values) (List.Forall₂ Mirrors values) (Literal.ofJsonList values) := by
  cases values with
  | nil => exact .accepted .nil (List.forall_mem_nil _)
  | cons value rest =>
      have first := ofJson_outcome value
      have others := ofJsonList_outcome rest
      rw [Literal.ofJsonList, partsList]
      generalize Literal.ofJson value = result at first
      generalize Literal.ofJsonList rest = results at others
      cases first with
      | refused offence => exact .refused (offence.append_right _)
      | accepted mirrors sound =>
          cases others with
          | refused offence => exact .refused (offence.append_left sound)
          | accepted mirrorsRest soundRest =>
              exact .accepted (.cons mirrors mirrorsRest)
                (List.forall_mem_append.mpr ⟨sound, soundRest⟩)
termination_by sizeOf values
end

mutual
theorem Mirrors.ofJson_eq {value : Json} {l : Literal} (h : Mirrors value l) :
    Literal.ofJson value = .ok l := by
  cases h with
  | null | boolean | integer | natural | string => rfl
  | float converted => exact converted
  | array all =>
      rw [Literal.ofJson, Mirrors.ofJsonList_eq all]
      rfl
termination_by sizeOf value

theorem Mirrors.ofJsonList_eq {values : List Json} {ls : List Literal}
    (h : List.Forall₂ Mirrors values ls) : Literal.ofJsonList values = .ok ls := by
  cases h with
  | nil => rfl
  | cons first rest =>
      rw [Literal.ofJsonList, Mirrors.ofJson_eq first, Mirrors.ofJsonList_eq rest]
      rfl
termination_by sizeOf values
end

variable {value : Json}

theorem ofJson_eq_ok_iff {l : Literal} : Literal.ofJson value = .ok l ↔ Mirrors value l := by
  constructor
  · intro converted
    have outcome := value.ofJson_outcome
    rw [converted] at outcome
    cases outcome with
    | accepted mirrors _ => exact mirrors
  · exact Mirrors.ofJson_eq

theorem ofJson_eq_error_iff {cause : Refusal} :
    Literal.ofJson value = .error cause ↔ FirstOffence value.parts cause := by
  have outcome := value.ofJson_outcome
  generalize Literal.ofJson value = result at outcome
  cases outcome with
  | accepted mirrors sound =>
      refine ⟨nofun, fun first => ?_⟩
      obtain ⟨offender, there, offends⟩ := first.exists_mem
      exact absurd offends (sound offender there cause)
  | refused first =>
      constructor
      · rintro ⟨rfl⟩
        exact first
      · intro first'
        rw [first.cause_unique first']

/-- Only objects and floats without a decimal offend. -/
theorem exists_ofJson_eq_ok_iff :
    (∃ l, Literal.ofJson value = .ok l) ↔
      (∀ members, ¬ (object members).Within value) ∧
      ∀ x, (float x).Within value → ∃ l, Literal.ofFloat x = .ok l := by
  have outcome := value.ofJson_outcome
  generalize Literal.ofJson value = result at outcome
  cases outcome with
  | accepted mirrors sound =>
      refine ⟨fun _ => ⟨?_, ?_⟩, fun _ => ⟨_, rfl⟩⟩
      · intro members within
        exact sound _ (within.mem_parts nofun) _ (.object members)
      · intro x within
        cases converted : Literal.ofFloat x with
        | ok l => exact ⟨l, rfl⟩
        | error cause => exact absurd (.float converted) (sound _ (within.mem_parts nofun) cause)
  | refused first =>
      refine ⟨nofun, ?_⟩
      rintro ⟨noObject, floats⟩
      obtain ⟨offender, there, offends⟩ := first.exists_mem
      obtain ⟨within, -⟩ := within_of_mem_parts there
      cases offends with
      | object members => exact absurd within (noObject members)
      | float refused =>
          obtain ⟨l, converted⟩ := floats _ within
          cases refused.symm.trans converted

/-- A JSON value has a literal exactly when there is no object in it and every float in it has a
    decimal. The literal then has the shape of the value, with the literal of each part in its
    place, and whether a whole number is stored with or without a sign makes no difference.
    Otherwise the cause is that of the first part that offends, whatever is in that part or
    behind it. -/
theorem literal_or_first_offence (value : Json) :
    ((∃ l, Literal.ofJson value = .ok l) ↔
      (∀ members, ¬ (object members).Within value) ∧
      ∀ x, (float x).Within value → ∃ l, Literal.ofFloat x = .ok l) ∧
    (∀ l, Literal.ofJson value = .ok l ↔ Mirrors value l) ∧
    (∀ cause, Literal.ofJson value = .error cause ↔ FirstOffence value.parts cause) ∧
    (∀ before offender offender' after after' cause value', value.parts =
        before ++ offender :: after → value'.parts = before ++ offender' :: after' →
      (∀ part ∈ before, ∀ other, ¬ Offends part other) →
      Offends offender cause → Offends offender' cause →
      Literal.ofJson value = .error cause ∧ Literal.ofJson value' = .error cause) ∧
    ∀ n : UInt64, n.toNat < 2 ^ 63 →
      Literal.ofJson (.natural n) = Literal.ofJson (.integer (Int64.ofNat n.toNat)) := by
  refine ⟨exists_ofJson_eq_ok_iff, fun _ => ofJson_eq_ok_iff, fun _ => ofJson_eq_error_iff,
    ?_, ?_⟩
  · intro before offender offender' after after' cause value' split split' sound offends offends'
    exact ⟨ofJson_eq_error_iff.mpr ⟨before, offender, after, split, sound, offends⟩,
      ofJson_eq_error_iff.mpr ⟨before, offender', after', split', sound, offends'⟩⟩
  · intro n small
    rw [Literal.ofJson, Literal.ofJson, Literal.ofUInt64, if_pos small]

/-- The object in the second place gives the cause, whatever it holds and whatever follows. -/
theorem literal_or_first_offence_of_object :
    (array [.integer 1, .array [.object [("a", .float (0.0 / 0.0))], .null],
      .float (1.0 / 0.0)]).parts =
        [.integer 1] ++ .object [("a", .float (0.0 / 0.0))] :: [.null, .float (1.0 / 0.0)] ∧
    (array [.integer 1, .object []]).parts = [.integer 1] ++ .object [] :: [] ∧
    (∀ part ∈ [Json.integer 1], ∀ other, ¬ Offends part other) ∧
    Literal.ofJson (array [.integer 1, .array [.object [("a", .float (0.0 / 0.0))], .null],
      .float (1.0 / 0.0)]) = .error (.unsupported .object) ∧
    Literal.ofJson (array [.integer 1, .object []]) = .error (.unsupported .object) := by
  have sound : ∀ part ∈ [Json.integer 1], ∀ other, ¬ Offends part other :=
    List.forall_mem_singleton.mpr nofun
  obtain ⟨-, -, -, report, -⟩ := literal_or_first_offence (array [.integer 1,
    .array [.object [("a", .float (0.0 / 0.0))], .null], .float (1.0 / 0.0)])
  obtain ⟨refused, refused'⟩ := report [.integer 1] _ _ _ _ _ (array [.integer 1, .object []])
    rfl rfl sound (.object [("a", .float (0.0 / 0.0))]) (.object [])
  exact ⟨rfl, rfl, sound, refused, refused'⟩

end Json

end Criteria
