import Criteria.Proofs.Conflict
import Criteria.Proofs.Equality
import Criteria.Proofs.Inspection

/-! # What a history records

A history records a value that gives way to another, and nothing else. The record belongs to one
insertion: it shows the value of the nearest insertion before it under the same name, in the form
in which that was given, although the two are compared by what they denote. As no form is that of
two literals, every record shows a change.
-/

namespace Criteria

namespace Record

theorem text_overwritten (name : String) (old new : Literal) :
    (overwritten name old new).text =
      "DEBUG parameter '" ++ name ++ "' overwritten: " ++ old.inspect ++ " -> " ++
        new.inspect :=
  text_eq_foldl "parameter '" [name, "' overwritten: ", old.inspect, " -> ", new.inspect] rfl rfl

/-- The record shows that under this name one value took the place of another, in forms that
    differ whichever way the characters are written. -/
structure ShowsChange (record : Record) (name : String) (old new : Literal) : Prop where
  eq_overwritten : record = .overwritten name old new
  text_eq : record.text =
    "DEBUG parameter '" ++ name ++ "' overwritten: " ++ old.inspect ++ " -> " ++ new.inspect
  inspect_ne : old.inspect ≠ new.inspect
  forms_ne : ∀ form form', old.InspectsAs form → new.InspectsAs form' → form ≠ form'

theorem showsChange_overwritten {old new : Literal} (differ : ¬ old.SameValue new)
    (name : String) : (overwritten name old new).ShowsChange name old new := by
  have ne : old ≠ new := by
    rintro rfl
    exact differ (.of_agrees old.agrees_refl)
  refine ⟨rfl, text_overwritten name old new, mt Literal.inspect_inj.mp ne, ?_⟩
  rintro form _ hold hnew rfl
  exact ne (hold.unique hnew)

end Record

namespace Bindings

/-- The record of the insertion at one place among others, if it has one. -/
def recordAt? (writes : List (String × Literal)) (place : Nat) : Option Record :=
  writes[place]?.bind fun entry => (lastValue? (writes.take place) entry.1).bind fun old =>
    if old.agrees entry.2 then none else some (.overwritten entry.1 old entry.2)

/-- The insertion at `place` replaces `old` under `name` by `new`: the nearest insertion before it
    under the same name is one of `old`. -/
structure Replaces (writes : List (String × Literal)) (place : Nat) (name : String)
    (old new : Literal) : Prop where
  written : writes[place]? = some (name, new)
  before : ∃ earlier < place, writes[earlier]? = some (name, old) ∧
    ∀ between : Nat, earlier < between → between < place → ∀ value,
      writes[between]? ≠ some (name, value)

variable {writes : List (String × Literal)} {name : String} {old new : Literal} {place : Nat}

theorem lastValue?_concat (entry : String × Literal) :
    lastValue? (writes ++ [entry]) name =
      if entry.1 = name then some entry.2 else lastValue? writes name := by
  rw [lastValue?_append, lastValue?_singleton]
  split <;> rfl

theorem getElem?_concat_of_ne {entry : String × Literal} (h : entry.1 ≠ name) (i : Nat)
    (value : Literal) :
    (writes ++ [entry])[i]? = some (name, value) ↔ writes[i]? = some (name, value) := by
  rw [List.getElem?_append]
  split
  · rfl
  · rename_i outside
    rw [List.getElem?_eq_none (Nat.le_of_not_lt outside), List.getElem?_singleton]
    have apart : entry ≠ (name, value) := fun same => h (congrArg Prod.fst same)
    split <;> simp [apart]

theorem lastValue?_eq_some_iff :
    lastValue? writes name = some old ↔
      ∃ earlier : Nat, writes[earlier]? = some (name, old) ∧
        ∀ between, earlier < between → ∀ value, writes[between]? ≠ some (name, value) := by
  induction writes using List.reverseRecOn with
  | nil => simp [lastValue?]
  | append_singleton writes entry ih =>
      rw [lastValue?_concat]
      by_cases same : entry.1 = name
      · subst same
        have last : (writes ++ [entry])[writes.length]? = some entry := List.getElem?_concat_length
        rw [if_pos rfl, Option.some_inj]
        constructor
        · rintro rfl
          refine ⟨writes.length, last, fun between later value => ?_⟩
          rw [List.getElem?_eq_none (by simpa using Nat.succ_le_of_lt later)]
          exact Option.some_ne_none _ ∘ Eq.symm
        · rintro ⟨earlier, found, nothingLater⟩
          have inside : earlier < (writes ++ [entry]).length :=
            (List.getElem?_eq_some_iff.mp found).1
          rw [List.length_append, List.length_singleton] at inside
          have notBefore : ¬ earlier < writes.length := fun before =>
            nothingLater writes.length before entry.2 last
          obtain rfl : earlier = writes.length := by omega
          exact congrArg Prod.snd (Option.some.inj (last.symm.trans found))
      · rw [if_neg same, ih]
        simp only [ne_eq, getElem?_concat_of_ne same]

theorem lastValue?_take_eq_some_iff :
    lastValue? (writes.take place) name = some old ↔
      ∃ earlier < place, writes[earlier]? = some (name, old) ∧
        ∀ between : Nat, earlier < between → between < place → ∀ value,
          writes[between]? ≠ some (name, value) := by
  rw [lastValue?_eq_some_iff]
  simp only [List.getElem?_take]
  constructor
  · rintro ⟨earlier, found, nothingLater⟩
    have before : earlier < place := by
      by_contra outside
      rw [if_neg outside] at found
      cases found
    rw [if_pos before] at found
    refine ⟨earlier, before, found, fun between later inside value => ?_⟩
    simpa [inside] using nothingLater between later value
  · rintro ⟨earlier, before, found, nothingLater⟩
    refine ⟨earlier, by rw [if_pos before, found], fun between later value => ?_⟩
    split
    · exact nothingLater between later ‹_› value
    · exact Option.some_ne_none _ ∘ Eq.symm

theorem recordAt?_eq_some_iff {record : Record} :
    recordAt? writes place = some record ↔
      ∃ name old new, Replaces writes place name old new ∧ ¬ old.SameValue new ∧
        record = .overwritten name old new := by
  simp only [recordAt?, Option.bind_eq_some_iff, lastValue?_take_eq_some_iff,
    ← Literal.agrees_eq_true_iff]
  constructor
  · rintro ⟨⟨name, new⟩, written, old, before, hrecord⟩
    split at hrecord
    · cases hrecord
    · obtain rfl := Option.some.inj hrecord
      exact ⟨name, old, new, ⟨written, before⟩, ‹_›, rfl⟩
  · rintro ⟨name, old, new, replaces, differ, rfl⟩
    exact ⟨(name, new), replaces.written, old, replaces.before, if_neg differ⟩

/-- A later insertion does not change the record of an earlier one. -/
theorem recordAt?_concat_of_lt (entry : String × Literal) (h : place < writes.length) :
    recordAt? (writes ++ [entry]) place = recordAt? writes place := by
  rw [recordAt?, recordAt?, List.getElem?_append_left h,
    List.take_append_of_le_length (Nat.le_of_lt h)]

/-- The last insertion is recorded as it is when it is made. -/
theorem recordAt?_concat_length (value : Literal) :
    (recordAt? (writes ++ [(name, value)]) writes.length).toList =
      ((ofList writes).value.insert name value).records := by
  rw [recordAt?, List.getElem?_concat_length, List.take_left, records_insert, get?_ofList,
    Option.bind_some]
  cases lastValue? writes name with
  | none => rfl
  | some old =>
      rw [Option.bind_some]
      split <;> simp [*]

/-- One place after the other has its record. -/
theorem records_ofList (writes : List (String × Literal)) :
    (ofList writes).records = (List.range writes.length).filterMap (recordAt? writes) := by
  induction writes using List.reverseRecOn with
  | nil => rfl
  | append_singleton writes entry ih =>
      obtain ⟨name, value⟩ := entry
      have earlier : (List.range writes.length).filterMap (recordAt? (writes ++ [(name, value)])) =
          (List.range writes.length).filterMap (recordAt? writes) :=
        List.filterMap_congr fun place inside =>
          recordAt?_concat_of_lt (name, value) (List.mem_range.mp inside)
      have last : [writes.length].filterMap (recordAt? (writes ++ [(name, value)])) =
          ((ofList writes).value.insert name value).records := by
        rw [← recordAt?_concat_length, List.filterMap_cons]
        cases recordAt? (writes ++ [(name, value)]) writes.length <;> rfl
      rw [records_ofList_concat, ih, List.length_append, List.length_singleton, List.range_succ,
        List.filterMap_append, earlier, last]

namespace History

theorem records_run (h : History) :
    h.run.records = (List.range h.writes.length).filterMap (recordAt? h.writes) := by
  rw [run_eq_ofList, records_ofList]

theorem records_inserted (h : History) (name : String) (value : Literal) :
    (inserted h name value).run.records =
      h.run.records ++ (h.bindings.insert name value).records := by
  rw [run_inserted, run_extended, Logged.records_bind, insertAll_cons, Logged.records_bind]
  exact congrArg _ (List.append_nil _)

theorem get?_inserted (h : History) (name : String) (value : Literal) :
    (inserted h name value).bindings.get? name = some value := by
  rw [get?_bindings, writes, lastValue?_concat, if_pos rfl]

/-- A value that agrees with the one it replaces is not recorded. The next record shows it. -/
theorem records_inserted_inserted {h : History} {name : String} {old other new : Literal}
    (found : h.bindings.get? name = some old) (same : old.SameValue other)
    (differ : ¬ other.SameValue new) :
    (inserted h name other).run.records = h.run.records ∧
    (inserted (inserted h name other) name new).run.records =
      h.run.records ++ [.overwritten name other new] := by
  have silent : (inserted h name other).run.records = h.run.records := by
    rw [records_inserted, records_insert, found]
    simp [same.agrees]
  refine ⟨silent, ?_⟩
  rw [records_inserted, silent, records_insert, get?_inserted]
  rw [← Literal.agrees_eq_true_iff] at differ
  simp [differ]

/-- There is one record for each insertion that finds under its name a value of another kind or
    another number, in the order of the insertions. Its text has the name as it is, and the value
    of the nearest insertion before and the new one in inspected forms of theirs, which show each
    as it was given. An equal value of another form is stored without a record, and the next
    record shows its form. -/
theorem records_at_changes (h : History) :
    h.run.records = (List.range h.writes.length).filterMap (recordAt? h.writes) ∧
    (∀ place record, recordAt? h.writes place = some record ↔
      ∃ name old new, Replaces h.writes place name old new ∧ ¬ old.SameValue new ∧
        record = .overwritten name old new) ∧
    (∀ name old new,
      (Record.overwritten name old new).text =
        "DEBUG parameter '" ++ name ++ "' overwritten: " ++ old.inspect ++ " -> " ++
          new.inspect ∧
      old.InspectsAs old.inspect.toList ∧ new.InspectsAs new.inspect.toList) ∧
    ∀ name old other new, h.bindings.get? name = some old → old.SameValue other →
      ¬ other.SameValue new →
      (inserted h name other).run.records = h.run.records ∧
      (inserted (inserted h name other) name new).run.records =
        h.run.records ++ [.overwritten name other new] := by
  refine ⟨h.records_run, fun _ _ => recordAt?_eq_some_iff, ?_, ?_⟩
  · intro name old new
    exact ⟨Record.text_overwritten name old new, old.inspectsAs_inspect, new.inspectsAs_inspect⟩
  · intro name old other new found same differ
    exact records_inserted_inserted found same differ

/-- The second form of one is stored silently, and the record of its replacement shows it. -/
theorem records_at_changes_of_silent_form :
    (collected [("x", .decimal ⟨false, 10, 1, by decide, by decide⟩)]).bindings.get? "x" =
      some (.decimal ⟨false, 10, 1, by decide, by decide⟩) ∧
    Literal.SameValue (.decimal ⟨false, 10, 1, by decide, by decide⟩)
      (.decimal ⟨false, 100, 2, by decide, by decide⟩) ∧
    ¬ Literal.SameValue (.decimal ⟨false, 100, 2, by decide, by decide⟩) (.integer 2) ∧
    (inserted (inserted (collected [("x", .decimal ⟨false, 10, 1, by decide, by decide⟩)]) "x"
      (.decimal ⟨false, 100, 2, by decide, by decide⟩)) "x" (.integer 2)).run.records =
        [.overwritten "x" (.decimal ⟨false, 100, 2, by decide, by decide⟩) (.integer 2)] ∧
    (inserted (inserted (collected [("x", .decimal ⟨false, 10, 1, by decide, by decide⟩)]) "x"
      (.decimal ⟨false, 100, 2, by decide, by decide⟩)) "x" (.integer 2)).run.records.map
        Record.text = ["DEBUG parameter 'x' overwritten: Decimal(1.00) -> Integer(2)"] := by
  have found : (collected [("x", .decimal ⟨false, 10, 1, by decide, by decide⟩)]).bindings.get?
      "x" = some (.decimal ⟨false, 10, 1, by decide, by decide⟩) := by
    cbv
  have same : Literal.SameValue (.decimal ⟨false, 10, 1, by decide, by decide⟩)
      (.decimal ⟨false, 100, 2, by decide, by decide⟩) :=
    .decimal (Decimal.sameValue_iff_toRat_eq.mp (by decide))
  have differ : ¬ Literal.SameValue (.decimal ⟨false, 100, 2, by decide, by decide⟩)
      (.integer 2) := by
    intro alike
    cases alike
  obtain ⟨-, -, -, replaced⟩ :=
    records_at_changes (collected [("x", .decimal ⟨false, 10, 1, by decide, by decide⟩)])
  obtain ⟨-, records⟩ := replaced "x" _ _ _ found same differ
  have first : (collected [("x", .decimal ⟨false, 10, 1, by decide, by decide⟩)]).run.records =
      [] := by
    cbv
  rw [first, List.nil_append] at records
  refine ⟨found, same, differ, records, ?_⟩
  rw [records]
  decide +kernel

end History

variable {b : Bindings} {value : Literal} {record : Record}

theorem mem_records_insert_iff :
    record ∈ (b.insert name value).records ↔
      ∃ old, b.get? name = some old ∧ ¬ old.SameValue value ∧
        record = .overwritten name old value := by
  rw [records_insert]
  cases b.get? name with
  | none => simp
  | some old =>
      simp only [Option.some.injEq, exists_eq_left', ← Literal.agrees_eq_true_iff]
      split <;> simp [*]

theorem exists_showsChange_of_insert (h : record ∈ (b.insert name value).records) :
    ∃ old, b.get? name = some old ∧ record.ShowsChange name old value := by
  obtain ⟨old, found, differ, rfl⟩ := mem_records_insert_iff.mp h
  exact ⟨old, found, Record.showsChange_overwritten differ name⟩

/-- The records of a sequence of insertions are those of its insertions. -/
theorem exists_showsChange_of_insertAll {entries : List (String × Literal)}
    (h : record ∈ (b.insertAll entries).records) :
    ∃ name old new, record.ShowsChange name old new := by
  induction entries generalizing b with
  | nil => exact absurd h List.not_mem_nil
  | cons entry rest ih =>
      obtain ⟨name, value⟩ := entry
      rw [insertAll_cons, Logged.records_bind, List.mem_append] at h
      rcases h with h | h
      · obtain ⟨old, -, shows⟩ := exists_showsChange_of_insert h
        exact ⟨name, old, value, shows⟩
      · exact ih h

/-- No form fits two literals, whichever characters are written by their code points, and records
    use one form for each. So the record of an insertion shows the value that was found and the
    new one in different forms, and every record of a sequence of insertions shows such a change. -/
theorem overwritten_forms_differ (b : Bindings) :
    (∀ (v w : Literal) (form : List Char), v.InspectsAs form → w.InspectsAs form → v = w) ∧
    (∀ v : Literal, v.InspectsAs v.inspect.toList) ∧
    (∀ v w : Literal, v.inspect = w.inspect ↔ v = w) ∧
    (∀ name value, ∀ record ∈ (b.insert name value).records,
      ∃ old, b.get? name = some old ∧ record.ShowsChange name old value) ∧
    ∀ entries, ∀ record ∈ (b.insertAll entries).records,
      ∃ name old new, record.ShowsChange name old new := by
  refine ⟨fun _ _ _ hv hw => hv.unique hw, Literal.inspectsAs_inspect,
    fun _ _ => Literal.inspect_inj, ?_, ?_⟩
  · intro name value record h
    exact exists_showsChange_of_insert h
  · intro entries record h
    exact exists_showsChange_of_insertAll h

/-- A string that looks like two elements of a list shows as one, and a form that writes a letter
    by its code point is that of the letter. -/
theorem overwritten_forms_differ_of_lookalikes :
    (Record.overwritten "x" (.list [.string "a", .string "b"])
      (.list [.string "a\"), String(\"b"])) ∈
        ((ofList [("x", .list [.string "a", .string "b"])]).value.insert "x"
          (.list [.string "a\"), String(\"b"])).records ∧
    (Literal.list [.string "a", .string "b"]).inspect ≠
      (Literal.list [.string "a\"), String(\"b"]).inspect ∧
    (Literal.string "\u00e9").InspectsAs "String(\"\\u\x7be9\x7d\")".toList ∧
    ∀ v : Literal, v.InspectsAs "String(\"\\u\x7be9\x7d\")".toList → v = .string "\u00e9" := by
  obtain ⟨unique, -, -, inserted, -⟩ :=
    overwritten_forms_differ (ofList [("x", .list [.string "a", .string "b"])]).value
  have recorded : (Record.overwritten "x" (.list [.string "a", .string "b"])
      (.list [.string "a\"), String(\"b"])) ∈
        ((ofList [("x", .list [.string "a", .string "b"])]).value.insert "x"
          (.list [.string "a\"), String(\"b"])).records := by
    have records : ((ofList [("x", .list [.string "a", .string "b"])]).value.insert "x"
        (.list [.string "a\"), String(\"b"])).records =
          [.overwritten "x" (.list [.string "a", .string "b"])
            (.list [.string "a\"), String(\"b"])] := by
      cbv
    rw [records]
    exact List.mem_singleton_self _
  have found : (ofList [("x", .list [.string "a", .string "b"])]).value.get? "x" =
      some (.list [.string "a", .string "b"]) := by
    cbv
  have letter : Text.CharInspectsAs '\u00e9' ['\\', 'u', '\x7b', 'e', '9', '\x7d'] :=
    .code (by decide)
  have contents : Text.InspectsAs "\u00e9".toList ['\\', 'u', '\x7b', 'e', '9', '\x7d'] :=
    .cons letter .nil
  have code : (Literal.string "\u00e9").InspectsAs "String(\"\\u\x7be9\x7d\")".toList :=
    .string contents
  obtain ⟨old, hold, shows⟩ := inserted _ _ _ recorded
  obtain rfl := Option.some.inj (found.symm.trans hold)
  exact ⟨recorded, shows.inspect_ne, code, fun v hv => unique v _ _ hv code⟩

end Bindings

end Criteria
