import Criteria.Proofs.Equality
import Criteria.Proofs.Conflict
import Criteria.Proofs.JsonRoundTrip
import Criteria.Proofs.Stripping

/-! # Criteria that agree

Two criteria that agree have the same tree, with bindings and arguments that agree. What they bind
agrees as well, although their leaves may list their names in different orders. Their texts are
equal except for the zeros behind the last digit of a decimal among the arguments of a call, so
that they are equal once those zeros are left out.
-/

namespace Criteria

namespace Literal

mutual
/-- The literal with every decimal in it stripped. -/
def stripped : Literal → Literal
  | .decimal d => .decimal d.stripped
  | .list values => .list (strippedList values)
  | value => value

def strippedList : List Literal → List Literal
  | [] => []
  | value :: rest => value.stripped :: strippedList rest
end

/-- The sign of a zero is not written. -/
theorem chars_decimal_congr {a b : Decimal} (mantissa : a.mantissa = b.mantissa)
    (scale : a.scale = b.scale) (sign : a.negative = b.negative ∨ a.mantissa = 0) :
    (decimal a).chars = (decimal b).chars := by
  rw [chars, chars, Decimal.isZero, Decimal.isZero, ← mantissa]
  rcases sign with sign | zero
  · rw [Decimal.chars, Decimal.chars, sign, scale, mantissa]
  · rw [zero]
    rfl

theorem chars_decimal_of_scale_eq {a b : Decimal} (h : a.sameValue b = true)
    (scale : a.scale = b.scale) : (decimal a).chars = (decimal b).chars := by
  obtain ⟨crosswise, sign⟩ := Decimal.sameValue_iff.mp h
  rw [scale] at crosswise
  exact chars_decimal_congr (Nat.eq_of_mul_eq_mul_right (by positivity) crosswise) scale sign

theorem chars_stripped_decimal {a b : Decimal} (h : a.sameValue b = true) :
    (decimal a).stripped.chars = (decimal b).stripped.chars := by
  obtain ⟨mantissa, scale⟩ := Decimal.stripped_of_sameValue h
  obtain ⟨-, sign⟩ := Decimal.sameValue_iff.mp h
  exact chars_decimal_congr mantissa scale
    (sign.imp id a.stripped_dropsZeros.mantissa_eq_zero_iff.mpr)

mutual
theorem SameValue.chars_stripped {v w : Literal} (h : SameValue v w) :
    v.stripped.chars = w.stripped.chars := by
  cases h with
  | null | boolean | integer | string => rfl
  | decimal same => exact chars_stripped_decimal (Decimal.sameValue_iff_toRat_eq.mpr same)
  | list all => rw [stripped, stripped, chars, chars, SameValue.charsList_stripped all]
termination_by sizeOf v

theorem SameValue.charsList_stripped {vs ws : List Literal} (h : List.Forall₂ SameValue vs ws) :
    charsList (strippedList vs) = charsList (strippedList ws) := by
  cases h with
  | nil => rfl
  | cons first rest =>
      rw [strippedList, strippedList, charsList, charsList, SameValue.chars_stripped first,
        SameValue.charsList_stripped rest]
termination_by sizeOf vs
end

theorem scales_append_inj {as bs cs ds : List Decimal} (length : as.length = cs.length)
    (scales : (as ++ bs).map (·.scale) = (cs ++ ds).map (·.scale)) :
    as.map (·.scale) = cs.map (·.scale) ∧ bs.map (·.scale) = ds.map (·.scale) := by
  rw [List.map_append, List.map_append] at scales
  exact List.append_inj scales (by rw [List.length_map, List.length_map, length])

mutual
/-- Literals that denote one value have decimals in the same places. -/
theorem SameValue.length_decimals {v w : Literal} (h : SameValue v w) :
    v.decimals.length = w.decimals.length := by
  cases h with
  | null | boolean | integer | string | decimal => rfl
  | list all => exact SameValue.length_decimalsList all
termination_by sizeOf v

theorem SameValue.length_decimalsList {vs ws : List Literal} (h : List.Forall₂ SameValue vs ws) :
    (decimalsList vs).length = (decimalsList ws).length := by
  cases h with
  | nil => rfl
  | cons first rest =>
      rw [decimalsList, decimalsList, List.length_append, List.length_append,
        SameValue.length_decimals first, SameValue.length_decimalsList rest]
termination_by sizeOf vs
end

mutual
theorem SameValue.chars_eq_of_scales {v w : Literal} (h : SameValue v w)
    (scales : v.decimals.map (·.scale) = w.decimals.map (·.scale)) : v.chars = w.chars := by
  cases h with
  | null | boolean | integer | string => rfl
  | decimal same =>
      exact chars_decimal_of_scale_eq (Decimal.sameValue_iff_toRat_eq.mpr same)
        (List.cons.inj scales).1
  | list all => rw [chars, chars, SameValue.charsList_eq_of_scales all scales]
termination_by sizeOf v

theorem SameValue.charsList_eq_of_scales {vs ws : List Literal}
    (h : List.Forall₂ SameValue vs ws)
    (scales : (decimalsList vs).map (·.scale) = (decimalsList ws).map (·.scale)) :
    charsList vs = charsList ws := by
  cases h with
  | nil => rfl
  | cons first rest =>
      obtain ⟨left, right⟩ := scales_append_inj (SameValue.length_decimals first) scales
      rw [charsList, charsList, SameValue.chars_eq_of_scales first left,
        SameValue.charsList_eq_of_scales rest right]
termination_by sizeOf vs
end

end Literal

namespace Criterion

open Bindings (Reachable lastValue? lastValue?_append get?_ofList)

/-- Criteria of one tree, with leaves and calls that agree in their places. -/
inductive Matches : Criterion → Criterion → Prop where
  | rule (text : String) {b c : Bindings} :
      b.agrees c = true → Matches (.rule text b) (.rule text c)
  | call (name : String) {vs ws : List Literal} :
      List.Forall₂ Literal.SameValue vs ws → Matches (.call name vs) (.call name ws)
  | joined (connective : Connective) {first first' : Criterion} {rest rest' : List Criterion} :
      Matches first first' → List.Forall₂ Matches rest rest' →
      Matches (.joined connective first rest) (.joined connective first' rest')
  | negated {operand operand' : Criterion} :
      Matches operand operand' → Matches (.negated operand) (.negated operand')

mutual
theorem Matches.of_agrees {s t : Criterion} (h : s.agrees t = true) : Matches s t := by
  cases s with
  | rule text bindings =>
      cases t with
      | rule text' bindings' =>
          obtain ⟨text, agree⟩ := Bool.and_eq_true_iff.mp h
          obtain rfl := beq_iff_eq.mp text
          exact .rule _ agree
      | call | joined | negated => cases h
  | call name arguments =>
      cases t with
      | call name' arguments' =>
          obtain ⟨name, agree⟩ := Bool.and_eq_true_iff.mp h
          obtain rfl := beq_iff_eq.mp name
          exact .call _ (Literal.SameValue.of_agreesList agree)
      | rule | joined | negated => cases h
  | joined connective first rest =>
      cases t with
      | joined connective' first' rest' =>
          obtain ⟨start, others⟩ := Bool.and_eq_true_iff.mp h
          obtain ⟨connective, agree⟩ := Bool.and_eq_true_iff.mp start
          obtain rfl := beq_iff_eq.mp connective
          exact .joined _ (Matches.of_agrees agree) (Matches.of_agreesList others)
      | rule | call | negated => cases h
  | negated operand =>
      cases t with
      | negated operand' => exact .negated (Matches.of_agrees h)
      | rule | call | joined => cases h
termination_by sizeOf s

theorem Matches.of_agreesList {ss ts : List Criterion} (h : agreesList ss ts = true) :
    List.Forall₂ Matches ss ts := by
  cases ss with
  | nil =>
      cases ts with
      | nil => exact .nil
      | cons t ts => cases h
  | cons s ss =>
      cases ts with
      | nil => cases h
      | cons t ts =>
          obtain ⟨first, rest⟩ := Bool.and_eq_true_iff.mp h
          exact .cons (Matches.of_agrees first) (Matches.of_agreesList rest)
termination_by sizeOf ss
end

theorem leafBindings_negated (operand : Criterion) :
    (negated operand).leafBindings = operand.leafBindings := by
  rw [leafBindings, flatMap_attach_operands]
  · simp [operands]
  · simp

mutual
theorem Matches.leafBindings {s t : Criterion} (h : Matches s t) :
    List.Forall₂ (fun b c => b.agrees c = true) s.leafBindings t.leafBindings := by
  cases h with
  | rule text agree =>
      rw [leafBindings_rule, leafBindings_rule]
      exact .cons agree .nil
  | call name all =>
      rw [leafBindings_call, leafBindings_call]
      exact .nil
  | joined connective first rest =>
      rw [leafBindings_joined, leafBindings_joined, List.flatMap_cons, List.flatMap_cons]
      exact List.rel_append (Matches.leafBindings first) (Matches.leafBindings_list rest)
  | negated operand =>
      rw [leafBindings_negated, leafBindings_negated]
      exact Matches.leafBindings operand
termination_by sizeOf s

theorem Matches.leafBindings_list {ss ts : List Criterion} (h : List.Forall₂ Matches ss ts) :
    List.Forall₂ (fun b c => b.agrees c = true) (ss.flatMap Criterion.leafBindings)
      (ts.flatMap Criterion.leafBindings) := by
  cases h with
  | nil => exact .nil
  | cons first rest =>
      rw [List.flatMap_cons, List.flatMap_cons]
      exact List.rel_append (Matches.leafBindings first) (Matches.leafBindings_list rest)
termination_by sizeOf ss
end

/-- Of bindings that agree one after the other the last values agree, whatever the order of the
    names in each. -/
theorem lastValue?_rel {bs cs : List Bindings}
    (h : List.Forall₂ (fun b c => b.agrees c = true) bs cs) (hbs : ∀ b ∈ bs, b.Indexed)
    (hcs : ∀ c ∈ cs, c.Indexed) (name : String) :
    Option.Rel (fun v w => v.agrees w = true)
      (lastValue? (bs.flatMap Bindings.toList) name)
      (lastValue? (cs.flatMap Bindings.toList) name) := by
  induction h with
  | nil => exact .none
  | @cons b c bs cs agree _ ih =>
      obtain ⟨hb, hbs⟩ := List.forall_mem_cons.mp hbs
      obtain ⟨hc, hcs⟩ := List.forall_mem_cons.mp hcs
      have first := (hb.agrees_iff hc).mp agree name
      have others := ih hbs hcs
      rw [List.flatMap_cons, List.flatMap_cons, lastValue?_append, lastValue?_append,
        hb.lastValue?_toList, hc.lastValue?_toList]
      generalize lastValue? (bs.flatMap Bindings.toList) name = v at others
      generalize lastValue? (cs.flatMap Bindings.toList) name = w at others
      cases others with
      | none => exact first
      | some agree => exact .some agree

theorem Matches.bindings_agree {s t : Criterion} (h : Matches s t)
    (hs : ∀ b ∈ s.leafBindings, b.Reachable) (ht : ∀ b ∈ t.leafBindings, b.Reachable) :
    s.bindings.value.agrees t.bindings.value = true := by
  rw [s.indexed_bindings.agrees_iff t.indexed_bindings]
  intro name
  rw [bindings_eq_ofList, bindings_eq_ofList, get?_ofList, get?_ofList]
  exact lastValue?_rel h.leafBindings (fun b hb => (hs b hb).indexed)
    (fun b hb => (ht b hb).indexed) name

mutual
/-- The criterion with every decimal among the arguments of its calls stripped. -/
def stripped : Criterion → Criterion
  | .rule text bindings => .rule text bindings
  | .call name arguments => .call name (Literal.strippedList arguments)
  | .joined connective first rest => .joined connective first.stripped (strippedList rest)
  | .negated operand => .negated operand.stripped

def strippedList : List Criterion → List Criterion
  | [] => []
  | criterion :: rest => criterion.stripped :: strippedList rest
end

mutual
/-- The decimals among the arguments of calls, at any depth. -/
def decimals : Criterion → List Decimal
  | .rule _ _ => []
  | .call _ arguments => Literal.decimalsList arguments
  | .joined _ first rest => first.decimals ++ decimalsList rest
  | .negated operand => operand.decimals

def decimalsList : List Criterion → List Decimal
  | [] => []
  | criterion :: rest => criterion.decimals ++ decimalsList rest
end

mutual
theorem Matches.chars_stripped {s t : Criterion} (h : Matches s t) :
    s.stripped.chars = t.stripped.chars := by
  cases h with
  | rule text agree => rfl
  | call name all =>
      rw [stripped, stripped, chars, chars, Literal.SameValue.charsList_stripped all]
  | joined connective first rest =>
      rw [stripped, stripped, chars, chars, Matches.chars_stripped first,
        Matches.charsRest_stripped connective rest]
  | negated operand =>
      rw [stripped, stripped, chars, chars, Matches.chars_stripped operand]
termination_by sizeOf s

theorem Matches.charsRest_stripped (connective : Connective) {ss ts : List Criterion}
    (h : List.Forall₂ Matches ss ts) :
    charsRest connective (strippedList ss) = charsRest connective (strippedList ts) := by
  cases h with
  | nil => rfl
  | cons first rest =>
      rw [strippedList, strippedList, charsRest, charsRest, Matches.chars_stripped first,
        Matches.charsRest_stripped connective rest]
termination_by sizeOf ss
end

mutual
theorem Matches.length_decimals {s t : Criterion} (h : Matches s t) :
    s.decimals.length = t.decimals.length := by
  cases h with
  | rule text agree => rfl
  | call name all => exact Literal.SameValue.length_decimalsList all
  | joined connective first rest =>
      rw [decimals, decimals, List.length_append, List.length_append,
        Matches.length_decimals first, Matches.length_decimalsList rest]
  | negated operand =>
      rw [decimals, decimals, Matches.length_decimals operand]
termination_by sizeOf s

theorem Matches.length_decimalsList {ss ts : List Criterion} (h : List.Forall₂ Matches ss ts) :
    (decimalsList ss).length = (decimalsList ts).length := by
  cases h with
  | nil => rfl
  | cons first rest =>
      rw [decimalsList, decimalsList, List.length_append, List.length_append,
        Matches.length_decimals first, Matches.length_decimalsList rest]
termination_by sizeOf ss
end

mutual
theorem Matches.chars_eq_of_scales {s t : Criterion} (h : Matches s t)
    (scales : s.decimals.map (·.scale) = t.decimals.map (·.scale)) : s.chars = t.chars := by
  cases h with
  | rule text agree => rfl
  | call name all =>
      rw [chars, chars, Literal.SameValue.charsList_eq_of_scales all scales]
  | joined connective first rest =>
      rw [decimals, decimals] at scales
      obtain ⟨left, right⟩ := Literal.scales_append_inj (Matches.length_decimals first) scales
      rw [chars, chars, Matches.chars_eq_of_scales first left,
        Matches.charsRest_eq_of_scales connective rest right]
  | negated operand =>
      rw [decimals, decimals] at scales
      rw [chars, chars, Matches.chars_eq_of_scales operand scales]
termination_by sizeOf s

theorem Matches.charsRest_eq_of_scales (connective : Connective) {ss ts : List Criterion}
    (h : List.Forall₂ Matches ss ts)
    (scales : (decimalsList ss).map (·.scale) = (decimalsList ts).map (·.scale)) :
    charsRest connective ss = charsRest connective ts := by
  cases h with
  | nil => rfl
  | cons first rest =>
      rw [decimalsList, decimalsList] at scales
      obtain ⟨left, right⟩ := Literal.scales_append_inj (Matches.length_decimals first) scales
      rw [charsRest, charsRest, Matches.chars_eq_of_scales first left,
        Matches.charsRest_eq_of_scales connective rest right]
termination_by sizeOf ss
end

/-- Criteria that agree bind values that agree, and their texts are equal once the decimals among
    the arguments of their calls are stripped of the zeros behind their last digits. So only the
    scales of those decimals can make their texts differ, and where no call has a decimal the
    texts are equal. -/
theorem interchangeable_of_agrees (s t : Criterion) (h : s.agrees t = true)
    (hs : ∀ b ∈ s.leafBindings, b.Reachable) (ht : ∀ b ∈ t.leafBindings, b.Reachable) :
    s.bindings.value.agrees t.bindings.value = true ∧
    s.stripped.text = t.stripped.text ∧
    (s.decimals.map (·.scale) = t.decimals.map (·.scale) → s.text = t.text) ∧
    (s.decimals = [] → s.text = t.text) := by
  have same := Matches.of_agrees h
  have texts (scales : s.decimals.map (·.scale) = t.decimals.map (·.scale)) : s.text = t.text :=
    congrArg String.ofList (same.chars_eq_of_scales scales)
  refine ⟨same.bindings_agree hs ht, congrArg String.ofList same.chars_stripped, texts, ?_⟩
  intro plain
  have other : t.decimals = [] := by
    rw [← List.length_eq_zero_iff, ← same.length_decimals, plain, List.length_nil]
  exact texts (by rw [plain, other])

/-- A decimal in a call, beside bindings under a negation. -/
def callOrNegated (d : Decimal) (b : Bindings) : Criterion :=
  joined .or (call "f" [.list [.decimal d]]) [negated (rule "a" b)]

theorem leafBindings_callOrNegated (d : Decimal) (b : Bindings) :
    (callOrNegated d b).leafBindings = [b] := by
  simp [callOrNegated, leafBindings, operands]

/-- Decimals of two places and of three, and bindings that were made in another order. -/
theorem interchangeable_of_agrees_of_scales :
    (callOrNegated ⟨false, 150, 2, by decide, by decide⟩
      (Bindings.ofList [("x", .integer 1), ("y", .null)]).value).agrees
      (callOrNegated ⟨false, 1500, 3, by decide, by decide⟩
        (Bindings.ofList [("y", .null), ("x", .integer 1)]).value) = true ∧
    (∀ b ∈ (callOrNegated ⟨false, 150, 2, by decide, by decide⟩
      (Bindings.ofList [("x", .integer 1), ("y", .null)]).value).leafBindings, b.Reachable) ∧
    (∀ b ∈ (callOrNegated ⟨false, 1500, 3, by decide, by decide⟩
      (Bindings.ofList [("y", .null), ("x", .integer 1)]).value).leafBindings, b.Reachable) ∧
    (callOrNegated ⟨false, 150, 2, by decide, by decide⟩
      (Bindings.ofList [("x", .integer 1), ("y", .null)]).value).bindings.value.agrees
      (callOrNegated ⟨false, 1500, 3, by decide, by decide⟩
        (Bindings.ofList [("y", .null), ("x", .integer 1)]).value).bindings.value = true ∧
    (callOrNegated ⟨false, 150, 2, by decide, by decide⟩
      (Bindings.ofList [("x", .integer 1), ("y", .null)]).value).stripped.text =
      (callOrNegated ⟨false, 1500, 3, by decide, by decide⟩
        (Bindings.ofList [("y", .null), ("x", .integer 1)]).value).stripped.text := by
  have agree : (callOrNegated ⟨false, 150, 2, by decide, by decide⟩
      (Bindings.ofList [("x", .integer 1), ("y", .null)]).value).agrees
      (callOrNegated ⟨false, 1500, 3, by decide, by decide⟩
        (Bindings.ofList [("y", .null), ("x", .integer 1)]).value) = true := by
    cbv
  have reachable (d : Decimal) (entries : List (String × Literal)) :
      ∀ b ∈ (callOrNegated d (Bindings.ofList entries).value).leafBindings, b.Reachable := by
    rw [leafBindings_callOrNegated]
    exact List.forall_mem_singleton.mpr (.ofList entries)
  obtain ⟨bindings, texts, -, -⟩ :=
    interchangeable_of_agrees _ _ agree (reachable _ _) (reachable _ _)
  exact ⟨agree, reachable _ _, reachable _ _, bindings, texts⟩

end Criterion

end Criteria
