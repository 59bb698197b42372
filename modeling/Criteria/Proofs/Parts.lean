import Criteria.Text.Quoted

/-! # The parts of a rule text

A rule text is read from left to right. A quote opens a literal, a backslash inside a literal
takes the next character as it is, and the first quote after that closes the literal. Everything
else is a character of its own. Parentheses count only outside literals.
-/

namespace Criteria.Text

inductive Part where
  /-- A character outside every literal. -/
  | plain (c : Char)
  /-- A literal, with the contents that its characters stand for. -/
  | literal (contents : List Char)
  deriving DecidableEq, Repr

/-- Where a reading stands between two characters. -/
inductive Place where
  | outside
  /-- Inside a literal, after these contents. -/
  | inside (contents : List Char)
  /-- Inside a literal, right after a backslash. -/
  | escaped (contents : List Char)

/-- The parts of a text that is read from some place on. A text that ends inside a literal has
    none. -/
def partsFrom? : Place → List Char → Option (List Part)
  | .outside, [] => some []
  | .inside _, [] => none
  | .escaped _, [] => none
  | .outside, c :: rest =>
    if c = '\x27' then partsFrom? (.inside []) rest
    else (partsFrom? .outside rest).map (.plain c :: ·)
  | .inside contents, c :: rest =>
    if c = '\x27' then (partsFrom? .outside rest).map (.literal contents :: ·)
    else if c = '\\' then partsFrom? (.escaped contents) rest
    else partsFrom? (.inside (contents ++ [c])) rest
  | .escaped contents, c :: rest => partsFrom? (.inside (contents ++ [c])) rest

def parts? (text : List Char) : Option (List Part) :=
  partsFrom? .outside text

/-- A text that ends outside literals can be read apart from what follows it. -/
theorem partsFrom?_append {place text ps} (h : partsFrom? place text = some ps)
    (after : List Char) :
    partsFrom? place (text ++ after) = (parts? after).map (ps ++ ·) := by
  induction text generalizing place ps with
  | nil =>
      cases place with
      | outside =>
          cases h
          simp [parts?]
      | inside | escaped => cases h
  | cons c rest ih =>
      cases place with
      | outside =>
          simp only [List.cons_append, partsFrom?] at h ⊢
          split at h
          · rw [if_pos ‹_›, ih h]
          · obtain ⟨qs, hqs, rfl⟩ := Option.map_eq_some_iff.mp h
            rw [if_neg ‹_›, ih hqs, Option.map_map]
            rfl
      | inside contents =>
          simp only [List.cons_append, partsFrom?] at h ⊢
          split at h
          · obtain ⟨qs, hqs, rfl⟩ := Option.map_eq_some_iff.mp h
            rw [if_pos ‹_›, ih hqs, Option.map_map]
            rfl
          · rw [if_neg ‹_›]
            split at h
            · rw [if_pos ‹_›, ih h]
            · rw [if_neg ‹_›, ih h]
      | escaped contents =>
          simp only [List.cons_append, partsFrom?] at h ⊢
          exact ih h

theorem parts?_append {text ps} (h : parts? text = some ps) (after : List Char) :
    parts? (text ++ after) = (parts? after).map (ps ++ ·) :=
  partsFrom?_append h after

theorem parts?_cons_of_ne {c : Char} (h : c ≠ '\x27') (text : List Char) :
    parts? (c :: text) = (parts? text).map (.plain c :: ·) := by
  simp only [parts?, partsFrom?, if_neg h]

theorem parts?_of_not_mem {text : List Char} (h : '\x27' ∉ text) :
    parts? text = some (text.map .plain) := by
  induction text with
  | nil => rfl
  | cons c rest ih =>
      simp only [List.mem_cons, not_or] at h
      obtain ⟨hc, hrest⟩ := h
      rw [parts?_cons_of_ne (Ne.symm hc), ih hrest]
      rfl

/-- Inside a literal, escaping is undone and the literal ends at the quote after it. -/
theorem partsFrom?_escapeQuotes (contents text : List Char) :
    partsFrom? (.inside contents) (escapeQuotes text ++ ['\x27']) =
      some [.literal (contents ++ text)] := by
  induction text generalizing contents with
  | nil => simp [escapeQuotes, partsFrom?]
  | cons c rest ih =>
      have step := ih (contents ++ [c])
      rw [List.append_assoc, List.singleton_append] at step
      simp only [escapeQuotes]
      split
      · simpa [partsFrom?] using step
      · rename_i h
        have raw : c ≠ '\x27' ∧ c ≠ '\\' := by simpa [needsBackslash] using h
        simpa [partsFrom?, raw.1, raw.2] using step

/-- Quoted text is one literal, whatever its contents are. -/
theorem parts?_quoted (text : List Char) : parts? (quoted text) = some [.literal text] := by
  simpa [quoted, parts?, partsFrom?] using partsFrom?_escapeQuotes [] text

/-- The first quote without a backslash ends a quoted text. -/
theorem escapeQuotes_append_inj {a b after after' : List Char}
    (h : escapeQuotes a ++ '\x27' :: after = escapeQuotes b ++ '\x27' :: after') :
    a = b ∧ after = after' := by
  have quote : needsBackslash '\x27' = true := rfl
  have backslash : needsBackslash '\\' = true := rfl
  induction a generalizing b with
  | nil =>
      cases b with
      | nil => simpa [escapeQuotes] using h
      | cons d b =>
          by_cases hd : needsBackslash d = true
          · simp [escapeQuotes, hd] at h
          · simp only [escapeQuotes, hd] at h
            obtain ⟨rfl, -⟩ := List.cons.inj h
            exact absurd quote hd
  | cons c a ih =>
      cases b with
      | nil =>
          by_cases hc : needsBackslash c = true
          · simp [escapeQuotes, hc] at h
          · simp only [escapeQuotes, hc] at h
            obtain ⟨rfl, -⟩ := List.cons.inj h
            exact absurd quote hc
      | cons d b =>
          by_cases hc : needsBackslash c = true <;>
            by_cases hd : needsBackslash d = true <;>
            simp only [escapeQuotes, hc, hd] at h
          · obtain ⟨rfl, rest⟩ := List.cons.inj (List.cons.inj h).2
            exact (ih rest).imp (congrArg _) id
          · obtain ⟨rfl, -⟩ := List.cons.inj h
            exact absurd backslash hd
          · obtain ⟨rfl, -⟩ := List.cons.inj h
            exact absurd backslash hc
          · obtain ⟨rfl, rest⟩ := List.cons.inj h
            exact (ih rest).imp (congrArg _) id

/-- The depth after some parts, unless a parenthesis closes at depth zero. -/
def depthAfter? : Nat → List Part → Option Nat
  | depth, [] => some depth
  | depth, .literal _ :: rest => depthAfter? depth rest
  | depth, .plain c :: rest =>
    if c = '(' then depthAfter? (depth + 1) rest
    else if c = ')' then
      match depth with
      | 0 => none
      | depth + 1 => depthAfter? depth rest
    else depthAfter? depth rest

/-- The depth to which a text leads that starts and ends outside literals. -/
def depthThrough? (depth : Nat) (text : List Char) : Option Nat :=
  (parts? text).bind (depthAfter? depth)

/-- A text whose parentheses match and whose literals end. -/
def IsBalanced (text : List Char) : Prop :=
  depthThrough? 0 text = some 0

instance : DecidablePred IsBalanced :=
  fun text => inferInstanceAs (Decidable (depthThrough? 0 text = some 0))

theorem depthAfter?_append {depth ps reached} (h : depthAfter? depth ps = some reached)
    (qs : List Part) : depthAfter? depth (ps ++ qs) = depthAfter? reached qs := by
  fun_induction depthAfter? depth ps with
  | case1 => cases h; rfl
  | case2 depth contents rest ih => exact ih h
  | case3 depth rest ih => simpa [depthAfter?] using ih h
  | case4 rest => cases h
  | case5 depth rest _ ih => simpa [depthAfter?] using ih h
  | case6 depth c rest hopen hclose ih => simpa [depthAfter?, hopen, hclose] using ih h

theorem depthAfter?_add {depth ps reached} (h : depthAfter? depth ps = some reached)
    (more : Nat) : depthAfter? (depth + more) ps = some (reached + more) := by
  fun_induction depthAfter? depth ps with
  | case1 => cases h; rfl
  | case2 depth contents rest ih => exact ih h
  | case3 depth rest ih =>
      simpa [depthAfter?, Nat.add_right_comm] using ih h
  | case4 rest => cases h
  | case5 rest depth _ ih =>
      rw [Nat.succ_add]
      simpa [depthAfter?] using ih h
  | case6 depth c rest hopen hclose ih => simpa [depthAfter?, hopen, hclose] using ih h

theorem depthThrough?_append {depth text reached} (h : depthThrough? depth text = some reached)
    (after : List Char) : depthThrough? depth (text ++ after) = depthThrough? reached after := by
  obtain ⟨ps, hps, hdepth⟩ := Option.bind_eq_some_iff.mp h
  rw [depthThrough?, parts?_append hps, depthThrough?]
  cases parts? after with
  | none => rfl
  | some qs => exact depthAfter?_append hdepth qs

/-- A balanced text leads from any depth back to it. -/
theorem IsBalanced.depthThrough? {text} (h : IsBalanced text) (depth : Nat) :
    depthThrough? depth text = some depth := by
  obtain ⟨ps, hps, hdepth⟩ := Option.bind_eq_some_iff.mp h
  rw [Text.depthThrough?, hps, Option.bind_some]
  simpa using depthAfter?_add hdepth depth

theorem depthThrough?_close (after : List Char) : depthThrough? 0 (')' :: after) = none := by
  rw [depthThrough?, parts?_cons_of_ne (by decide)]
  cases parts? after <;> rfl

/-- Where a balanced text stands before a closing parenthesis, the parenthesis shows its end. -/
theorem IsBalanced.eq_of_append_close {a b after after' : List Char} (ha : IsBalanced a)
    (hb : IsBalanced b) (h : a ++ ')' :: after = b ++ ')' :: after') : a = b ∧ after = after' := by
  -- Were one text longer, it would begin with the other and go on with the parenthesis.
  have ends : ∀ {a x : List Char}, IsBalanced a → ¬ IsBalanced (a ++ ')' :: x) := by
    intro a x ha hax
    rw [IsBalanced, depthThrough?_append ha, depthThrough?_close] at hax
    cases hax
  rcases List.append_eq_append_iff.mp h with ⟨x, hx, hafter⟩ | ⟨x, hx, hafter⟩
  · cases x with
    | nil => exact ⟨by simpa using hx.symm, by simpa using hafter⟩
    | cons c x =>
        obtain ⟨rfl, -⟩ := List.cons.inj hafter
        exact absurd (hx ▸ hb) (ends ha)
  · cases x with
    | nil => exact ⟨by simpa using hx, by simpa using hafter.symm⟩
    | cons c x =>
        obtain ⟨rfl, -⟩ := List.cons.inj hafter
        exact absurd (hx ▸ ha) (ends hb)

theorem intercalate_cons (separator first : List Char) (rest : List (List Char)) :
    List.intercalate separator (first :: rest) = first ++ rest.flatMap (separator ++ ·) := by
  induction rest generalizing first with
  | nil => simp
  | cons next rest ih =>
      rw [List.intercalate_cons_cons, ih, List.flatMap_cons]
      simp only [List.append_assoc]

/-- Where no first text begins with the stop, joined texts show whether there are any. So a
    separator may be thought before the first one too. -/
theorem separated_append_eq {separator : List Char} {stop : Char} {texts texts' : List (List Char)}
    (h : ∀ first ∈ texts.head?, ∀ later rest, first ++ later ≠ stop :: rest)
    (h' : ∀ first ∈ texts'.head?, ∀ later rest, first ++ later ≠ stop :: rest)
    {after after' : List Char}
    (joined : List.intercalate separator texts ++ stop :: after =
      List.intercalate separator texts' ++ stop :: after') :
    texts.flatMap (separator ++ ·) ++ stop :: after =
      texts'.flatMap (separator ++ ·) ++ stop :: after' := by
  cases texts with
  | nil =>
      cases texts' with
      | nil => exact joined
      | cons first' rest' =>
          rw [intercalate_cons, List.append_assoc] at joined
          exact absurd joined.symm (h' first' rfl _ _)
  | cons first rest =>
      rw [intercalate_cons, List.append_assoc] at joined
      cases texts' with
      | nil => exact absurd joined (h first rfl _ _)
      | cons first' rest' =>
          rw [intercalate_cons, List.append_assoc] at joined
          simp only [List.flatMap_cons, List.append_assoc, joined]

/-- A text that holds none of these characters. -/
def Lacks (avoided text : List Char) : Prop :=
  ∀ c ∈ text, c ∉ avoided

instance (avoided text : List Char) : Decidable (Lacks avoided text) :=
  List.decidableBAll (fun c => c ∉ avoided) text

theorem Lacks.mono {avoided fewer text : List Char} (h : Lacks avoided text)
    (subset : fewer ⊆ avoided) : Lacks fewer text :=
  fun c hc hfewer => h c hc (subset hfewer)

/-- A text that is over or goes on with one of these characters. -/
def StopsAt (stops text : List Char) : Prop :=
  ∀ c ∈ text.head?, c ∈ stops

/-- A text without stops ends where the first stop follows. -/
theorem eq_of_append_stop {stops a b after after' : List Char} (ha : Lacks stops a)
    (hb : Lacks stops b) (hafter : StopsAt stops after) (hafter' : StopsAt stops after')
    (h : a ++ after = b ++ after') : a = b ∧ after = after' := by
  have cut : ∀ {a after : List Char}, Lacks stops a → StopsAt stops after →
      (a ++ after).takeWhile (fun c => decide (c ∉ stops)) = a := by
    intro a after ha hafter
    rw [List.takeWhile_append_of_pos (by simpa [Lacks] using ha)]
    cases after with
    | nil => simp
    | cons c rest =>
        have stop : c ∈ stops := hafter c rfl
        simp [stop]
  have same : a = b := by rw [← cut ha hafter, h, cut hb hafter']
  subst same
  exact ⟨rfl, List.append_cancel_left h⟩

/-- A text ends where the first character follows that it does not hold. -/
theorem eq_of_append_cons {stop : Char} {a b after after' : List Char} (ha : stop ∉ a)
    (hb : stop ∉ b) (h : a ++ stop :: after = b ++ stop :: after') : a = b ∧ after = after' := by
  have lacks {text : List Char} (free : stop ∉ text) : Lacks [stop] text := by
    intro c hc same
    rw [List.mem_singleton.mp same] at hc
    exact free hc
  have stops (rest : List Char) : StopsAt [stop] (stop :: rest) := by simp [StopsAt]
  obtain ⟨same, rest⟩ := eq_of_append_stop (lacks ha) (lacks hb) (stops after) (stops after') h
  exact ⟨same, (List.cons.inj rest).2⟩

end Criteria.Text
