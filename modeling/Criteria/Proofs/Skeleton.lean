import Criteria.Criterion.Basic
import Criteria.Proofs.Parts

/-! # What the text of a criterion shows

The text of a criterion shows the texts of its leaves and how they are joined. It does not show
whether a leaf is a condition or a call, nor under which connective an operand stands alone. The
skeleton of a criterion keeps what is shown, and two criteria have one text exactly when they
have one skeleton, as long as no leaf has a text that could be read as something else.
-/

namespace Criteria

/-- The parts of a criterion that its text shows. -/
inductive Skeleton where
  /-- A condition or a call. -/
  | leaf (text : List Char)
  /-- The only operand of a conjunction or of a disjunction, where no connective is written. -/
  | single (operand : Skeleton)
  | joined (connective : Connective) (first second : Skeleton) (rest : List Skeleton)
  | negated (operand : Skeleton)

mutual
def Criterion.skeleton : Criterion → Skeleton
  | .rule text _ => .leaf text.toList
  | .call name arguments => .leaf (Criterion.call name arguments).text.toList
  | .joined _ first [] => .single first.skeleton
  | .joined connective first (second :: rest) =>
    .joined connective first.skeleton second.skeleton (skeletonList rest)
  | .negated operand => .negated operand.skeleton

def Criterion.skeletonList : List Criterion → List Skeleton
  | [] => []
  | criterion :: rest => criterion.skeleton :: skeletonList rest
end

/-- A text that no reader can take for a composite or for more than one operand. -/
structure Text.IsLeaf (text : List Char) : Prop where
  balanced : IsBalanced text
  not_group : ¬ ['('] <+: text
  not_negation : ¬ ['N', 'O', 'T', ' ', '('] <+: text

instance : DecidablePred Text.IsLeaf := fun text =>
  decidable_of_iff (Text.IsBalanced text ∧ ¬ ['('] <+: text ∧ ¬ ['N', 'O', 'T', ' ', '('] <+: text)
    ⟨fun ⟨balanced, not_group, not_negation⟩ => ⟨balanced, not_group, not_negation⟩,
      fun h => ⟨h.balanced, h.not_group, h.not_negation⟩⟩

namespace Skeleton

mutual
/-- The texts of the leaves, from left to right. -/
def leafTexts : Skeleton → List (List Char)
  | .leaf text => [text]
  | .single operand => operand.leafTexts
  | .joined _ first second rest => first.leafTexts ++ second.leafTexts ++ leafTextsList rest
  | .negated operand => operand.leafTexts

def leafTextsList : List Skeleton → List (List Char)
  | [] => []
  | skeleton :: rest => skeleton.leafTexts ++ leafTextsList rest
end

/-- What stands between the parentheses of two operands, with the one that opens. -/
def bridge (connective : Connective) : List Char :=
  ' ' :: connective.word.toList ++ [' ', '(']

mutual
def chars : Skeleton → List Char
  | .leaf text => text
  | .single operand => ['('] ++ operand.chars ++ ')' :: []
  | .joined connective first second rest =>
    ['('] ++ first.chars ++
      ')' :: (bridge connective ++ second.chars ++ ')' :: charsAfter connective rest)
  | .negated operand => ['N', 'O', 'T', ' ', '('] ++ operand.chars ++ ')' :: []

/-- The operands that follow the closing parenthesis of another. -/
def charsAfter (connective : Connective) : List Skeleton → List Char
  | [] => []
  | operand :: rest =>
    bridge connective ++ operand.chars ++ ')' :: charsAfter connective rest
end

end Skeleton

mutual
theorem Criterion.chars_skeleton (t : Criterion) : t.skeleton.chars = t.chars := by
  cases t with
  | rule text bindings => simp [skeleton, Skeleton.chars, chars]
  | call name arguments => simp [skeleton, Skeleton.chars, Criterion.text]
  | joined connective first rest =>
      cases rest with
      | nil => simp [skeleton, Skeleton.chars, chars, charsRest, chars_skeleton first]
      | cons second rest =>
          simp [skeleton, Skeleton.chars, chars, charsRest, joint, Skeleton.bridge,
            chars_skeleton first, chars_skeleton second, ← charsRest_skeleton connective rest]
  | negated operand => simp [skeleton, Skeleton.chars, chars, chars_skeleton operand]
termination_by sizeOf t

theorem Criterion.charsRest_skeleton (connective : Connective) (ts : List Criterion) :
    ')' :: Skeleton.charsAfter connective (skeletonList ts) = charsRest connective ts ++ [')'] := by
  cases ts with
  | nil => rfl
  | cons t rest =>
      simp [skeletonList, Skeleton.charsAfter, charsRest, joint, Skeleton.bridge,
        chars_skeleton t, ← charsRest_skeleton connective rest]
termination_by sizeOf ts
end

namespace Skeleton

open Text (IsLeaf IsBalanced depthThrough? depthThrough?_append)

/-- An operand between parentheses, with a balanced text after them. -/
theorem isBalanced_operand {opening text after : List Char}
    (hopen : depthThrough? 0 opening = some 1) (ht : IsBalanced text) (ha : IsBalanced after) :
    IsBalanced (opening ++ text ++ ')' :: after) := by
  have close : depthThrough? 1 [')'] = some 0 := rfl
  rw [IsBalanced, List.append_assoc, depthThrough?_append hopen,
    depthThrough?_append (ht.depthThrough? 1), ← List.singleton_append,
    depthThrough?_append close]
  exact ha

theorem depthThrough?_bridge (connective : Connective) :
    depthThrough? 0 (bridge connective) = some 1 := by
  cases connective <;> decide

mutual
theorem isBalanced_chars (s : Skeleton) (h : ∀ text ∈ s.leafTexts, IsLeaf text) :
    IsBalanced s.chars := by
  cases s with
  | leaf text => exact (h text (by simp [leafTexts])).balanced
  | single operand =>
      exact isBalanced_operand rfl (isBalanced_chars operand h) rfl
  | joined connective first second rest =>
      simp only [leafTexts, List.forall_mem_append] at h
      obtain ⟨⟨hfirst, hsecond⟩, hrest⟩ := h
      have after := isBalanced_operand (depthThrough?_bridge connective)
        (isBalanced_chars second hsecond) (isBalanced_charsAfter connective rest hrest)
      exact isBalanced_operand rfl (isBalanced_chars first hfirst) after
  | negated operand => exact isBalanced_operand rfl (isBalanced_chars operand h) rfl
termination_by sizeOf s

theorem isBalanced_charsAfter (connective : Connective) (ss : List Skeleton)
    (h : ∀ text ∈ leafTextsList ss, IsLeaf text) : IsBalanced (charsAfter connective ss) := by
  cases ss with
  | nil => rfl
  | cons s rest =>
      simp only [leafTextsList, List.forall_mem_append] at h
      exact isBalanced_operand (depthThrough?_bridge connective) (isBalanced_chars s h.1)
        (isBalanced_charsAfter connective rest h.2)
termination_by sizeOf ss
end

theorem bridge_append_inj {connective connective' : Connective} {after after' : List Char}
    (h : bridge connective ++ after = bridge connective' ++ after') :
    connective = connective' ∧ after = after' := by
  cases connective <;> cases connective' <;> simp [bridge, Connective.word] at h
  · exact ⟨rfl, h⟩
  · exact ⟨rfl, h⟩

/-- Only a leaf has the text of a leaf. -/
theorem eq_leaf_of_chars_eq {s : Skeleton} {text : List Char} (leaf : IsLeaf text)
    (h : s.chars = text) : s = .leaf text := by
  cases s with
  | leaf text' => exact congrArg Skeleton.leaf h
  | single operand => exact absurd ⟨_, by simpa [chars] using h⟩ leaf.not_group
  | joined connective first second rest =>
      exact absurd ⟨_, by simpa [chars] using h⟩ leaf.not_group
  | negated operand => exact absurd ⟨_, by simpa [chars] using h⟩ leaf.not_negation

/-- The closing parenthesis shows where an operand ends. -/
theorem operand_eq_of_append_eq {s t : Skeleton} (hs : ∀ text ∈ s.leafTexts, IsLeaf text)
    (ht : ∀ text ∈ t.leafTexts, IsLeaf text) {after after' : List Char}
    (h : s.chars ++ ')' :: after = t.chars ++ ')' :: after') :
    s.chars = t.chars ∧ after = after' :=
  (isBalanced_chars s hs).eq_of_append_close (isBalanced_chars t ht) h

mutual
theorem eq_of_chars_eq (s t : Skeleton) (hs : ∀ text ∈ s.leafTexts, IsLeaf text)
    (ht : ∀ text ∈ t.leafTexts, IsLeaf text) (h : s.chars = t.chars) : s = t := by
  cases s with
  | leaf text =>
      exact (eq_leaf_of_chars_eq (hs text (by simp [leafTexts])) h.symm).symm
  | single operand =>
      cases t with
      | leaf text => exact eq_leaf_of_chars_eq (ht text (by simp [leafTexts])) h
      | single operand' =>
          simp only [leafTexts] at hs ht
          simp only [chars, List.append_assoc] at h
          have same := operand_eq_of_append_eq hs ht (List.append_cancel_left h)
          exact congrArg single (eq_of_chars_eq operand operand' hs ht same.1)
      | joined connective' first' second' rest' =>
          simp only [leafTexts, List.forall_mem_append] at hs ht
          simp only [chars, List.append_assoc] at h
          have same := operand_eq_of_append_eq hs ht.1.1 (List.append_cancel_left h)
          exact absurd same.2 (by simp [bridge])
      | negated operand' => simp [chars] at h
  | joined connective first second rest =>
      cases t with
      | leaf text => exact eq_leaf_of_chars_eq (ht text (by simp [leafTexts])) h
      | single operand' =>
          simp only [leafTexts, List.forall_mem_append] at hs ht
          simp only [chars, List.append_assoc] at h
          have same := operand_eq_of_append_eq hs.1.1 ht (List.append_cancel_left h)
          exact absurd same.2 (by simp [bridge])
      | joined connective' first' second' rest' =>
          simp only [leafTexts, List.forall_mem_append] at hs ht
          obtain ⟨⟨hfirst, hsecond⟩, hrest⟩ := hs
          obtain ⟨⟨hfirst', hsecond'⟩, hrest'⟩ := ht
          simp only [chars, List.append_assoc] at h
          obtain ⟨firsts, bridges⟩ :=
            operand_eq_of_append_eq hfirst hfirst' (List.append_cancel_left h)
          obtain ⟨rfl, seconds⟩ := bridge_append_inj bridges
          obtain ⟨seconds, rests⟩ := operand_eq_of_append_eq hsecond hsecond' seconds
          rw [eq_of_chars_eq first first' hfirst hfirst' firsts,
            eq_of_chars_eq second second' hsecond hsecond' seconds,
            eq_of_charsAfter_eq connective rest rest' hrest hrest' rests]
      | negated operand' => simp [chars] at h
  | negated operand =>
      cases t with
      | leaf text => exact eq_leaf_of_chars_eq (ht text (by simp [leafTexts])) h
      | single operand' => simp [chars] at h
      | joined connective' first' second' rest' => simp [chars] at h
      | negated operand' =>
          simp only [leafTexts] at hs ht
          simp only [chars, List.append_assoc] at h
          have same := operand_eq_of_append_eq hs ht (List.append_cancel_left h)
          exact congrArg negated (eq_of_chars_eq operand operand' hs ht same.1)
termination_by sizeOf s

theorem eq_of_charsAfter_eq (connective : Connective) (ss ts : List Skeleton)
    (hs : ∀ text ∈ leafTextsList ss, IsLeaf text) (ht : ∀ text ∈ leafTextsList ts, IsLeaf text)
    (h : charsAfter connective ss = charsAfter connective ts) : ss = ts := by
  cases ss with
  | nil =>
      cases ts with
      | nil => rfl
      | cons t ts => simp [charsAfter, bridge] at h
  | cons s ss =>
      cases ts with
      | nil => simp [charsAfter, bridge] at h
      | cons t ts =>
          simp only [leafTextsList, List.forall_mem_append] at hs ht
          simp only [charsAfter, List.append_assoc] at h
          obtain ⟨same, rests⟩ :=
            operand_eq_of_append_eq hs.1 ht.1 (List.append_cancel_left h)
          rw [eq_of_chars_eq s t hs.1 ht.1 same,
            eq_of_charsAfter_eq connective ss ts hs.2 ht.2 rests]
termination_by sizeOf ss
end

end Skeleton

/-- A text is read in one way only. Two criteria of one text have the same leaf texts in the
    same places under the same connectives and negations; all they may differ in is the
    connective over a single operand. -/
theorem Criterion.text_eq_iff_skeleton_eq (t u : Criterion)
    (ht : ∀ text ∈ t.skeleton.leafTexts, Text.IsLeaf text)
    (hu : ∀ text ∈ u.skeleton.leafTexts, Text.IsLeaf text) :
    t.text = u.text ↔ t.skeleton = u.skeleton := by
  rw [text, text, String.ofList_inj, ← chars_skeleton t, ← chars_skeleton u]
  exact ⟨Skeleton.eq_of_chars_eq _ _ ht hu, congrArg Skeleton.chars⟩

/-- A literal that looks like the end of an operand does not end it, and a lone operand does not
    show its connective. -/
theorem Criterion.text_eq_of_lone_operand :
    (∀ text ∈ (joined .or (rule "a = ') OR ('" ∅)
        [negated (joined .and (rule "f('x')" ∅) [])]).skeleton.leafTexts, Text.IsLeaf text) ∧
    (∀ text ∈ (joined .or (rule "a = ') OR ('" ∅)
        [negated (joined .or (call "f" [.string "x"]) [])]).skeleton.leafTexts,
      Text.IsLeaf text) ∧
    (joined .or (rule "a = ') OR ('" ∅) [negated (joined .and (rule "f('x')" ∅) [])]).text =
      (joined .or (rule "a = ') OR ('" ∅)
        [negated (joined .or (call "f" [.string "x"]) [])]).text := by
  have leaves : ∀ text ∈ (joined .or (rule "a = ') OR ('" ∅)
      [negated (joined .and (rule "f('x')" ∅) [])]).skeleton.leafTexts, Text.IsLeaf text := by
    decide
  have leaves' : ∀ text ∈ (joined .or (rule "a = ') OR ('" ∅)
      [negated (joined .or (call "f" [.string "x"]) [])]).skeleton.leafTexts,
      Text.IsLeaf text := by
    decide
  exact ⟨leaves, leaves', (text_eq_iff_skeleton_eq _ _ leaves leaves').mpr rfl⟩

end Criteria
