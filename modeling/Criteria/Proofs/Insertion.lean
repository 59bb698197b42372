import Criteria.Bindings.Basic
import Mathlib.Data.List.Induction
import Mathlib.Data.List.Nodup
import Mathlib.Data.List.Permutation

/-! # What insertions leave behind

Bindings are seen in two ways, as entries in their order and through the index. The index is kept
exact by every insertion, so both ways show the same values. What a sequence of insertions
leaves is then given by two rules: a name stands where it was first inserted, with the value that
was last inserted under it.
-/

namespace Criteria.Bindings

/-- The names of some insertions, each once, in the order of their first insertion. -/
def firstNames (entries : List (String × Literal)) : List String :=
  (entries.map (·.1)).eraseDups

/-- The value of the last insertion under a name. -/
def lastValue? (entries : List (String × Literal)) (name : String) : Option Literal :=
  (entries.findRev? (·.1 == name)).map (·.2)

theorem lastValue?_append (before after : List (String × Literal)) (name : String) :
    lastValue? (before ++ after) name = (lastValue? after name).or (lastValue? before name) := by
  simp only [lastValue?, List.findRev?_eq_find?_reverse, List.reverse_append, List.find?_append,
    Option.map_or]

theorem lastValue?_singleton (name : String) (value : Literal) (other : String) :
    lastValue? [(name, value)] other = if name = other then some value else none := by
  by_cases h : name = other <;> simp [lastValue?, h]

theorem lastValue?_eq_none_iff {entries : List (String × Literal)} {name : String} :
    lastValue? entries name = none ↔ name ∉ entries.map (·.1) := by
  rw [lastValue?, List.findRev?_eq_find?_reverse, Option.map_eq_none_iff, List.find?_eq_none,
    List.mem_map, not_exists]
  simp only [List.mem_reverse, beq_iff_eq, not_and]

theorem mem_of_lastValue?_eq_some {entries : List (String × Literal)} {name : String}
    {value : Literal} (h : lastValue? entries name = some value) : (name, value) ∈ entries := by
  rw [lastValue?, List.findRev?_eq_find?_reverse] at h
  obtain ⟨⟨other, _⟩, hfound, rfl⟩ := Option.map_eq_some_iff.mp h
  obtain rfl : other = name := by simpa using List.find?_some hfound
  exact List.mem_reverse.mp (List.mem_of_find?_eq_some hfound)

theorem eraseDups_of_nodup {names : List String} (h : names.Nodup) : names.eraseDups = names := by
  induction names with
  | nil => rfl
  | cons name rest ih =>
      obtain ⟨hname, hrest⟩ := List.nodup_cons.mp h
      have others : rest.filter (fun other => !other == name) = rest := by
        apply List.filter_eq_self.mpr
        intro other hother
        simpa using fun same : other = name => hname (same ▸ hother)
      rw [List.eraseDups_cons, others, ih hrest]

theorem eraseDups_concat (names : List String) (name : String) :
    (names ++ [name]).eraseDups =
      if name ∈ names then names.eraseDups else names.eraseDups ++ [name] := by
  rw [List.eraseDups_append, List.cons_removeAll]
  by_cases h : name ∈ names
  · simp [h, List.removeAll]
  · simp [h, List.removeAll, List.eraseDups_cons]

theorem eraseDups_append_eraseDups (names others : List String) :
    (names ++ others.eraseDups).eraseDups = (names ++ others).eraseDups := by
  induction others using List.reverseRecOn with
  | nil => rfl
  | append_singleton others name ih =>
      rw [eraseDups_concat, ← List.append_assoc, eraseDups_concat]
      by_cases h : name ∈ others
      · rw [if_pos h, ih, if_pos (List.mem_append_right names h)]
      · rw [if_neg h, ← List.append_assoc, eraseDups_concat, ih]
        simp only [List.mem_append, List.mem_eraseDups]

/-- The index gives a name a position exactly when the entry there carries the name. -/
def Indexed (b : Bindings) : Prop :=
  ∀ (name : String) (position : Nat),
    b.index[name]? = some position ↔ b.names[position]? = some name

variable {b : Bindings} {name : String} {value : Literal}

theorem size_eq_length_names : b.size = b.names.length := by
  simp [size, names, toList]

theorem getElem?_names (b : Bindings) (position : Nat) :
    b.names[position]? = b.entries[position]?.map (·.1) := by
  simp [names, toList]

theorem names_empty : empty.names = [] := rfl

theorem get?_empty (name : String) : empty.get? name = none := by
  simp [get?, empty]

theorem indexed_empty : empty.Indexed := by
  intro name position
  have index : empty.index[name]? = none := Std.HashMap.getElem?_empty
  rw [index, names_empty]
  simp

theorem Indexed.nodup (h : b.Indexed) : b.names.Nodup := by
  rw [List.nodup_iff_getElem?_ne_getElem?]
  intro i j hij hj same
  obtain ⟨name, hname⟩ : ∃ name, b.names[j]? = some name :=
    ⟨_, List.getElem?_eq_getElem hj⟩
  have atFirst := (h name i).mpr (same.trans hname)
  have atSecond := (h name j).mpr hname
  have : i = j := Option.some.inj (atFirst.symm.trans atSecond)
  omega

theorem Indexed.index_eq_none_iff (h : b.Indexed) : b.index[name]? = none ↔ name ∉ b.names := by
  rw [List.mem_iff_getElem?, not_exists, Option.eq_none_iff_forall_ne_some]
  exact forall_congr' fun position => not_congr (h name position)

theorem Indexed.contains_iff (h : b.Indexed) : b.contains name = true ↔ name ∈ b.names := by
  rw [contains, Std.HashMap.contains_eq_isSome_getElem?, ← not_iff_not, ← h.index_eq_none_iff]
  simp

/-- Both views show the same values. -/
theorem Indexed.get?_eq_some_iff (h : b.Indexed) :
    b.get? name = some value ↔ (name, value) ∈ b.toList := by
  rw [List.mem_iff_getElem?, get?]
  constructor
  · intro found
    obtain ⟨position, hposition, hvalue⟩ := Option.bind_eq_some_iff.mp found
    obtain ⟨entry, hentry, rfl⟩ := Option.map_eq_some_iff.mp hvalue
    have carried := (h name position).mp hposition
    rw [getElem?_names, hentry, Option.map_some] at carried
    obtain rfl := Option.some.inj carried
    exact ⟨position, by simpa [toList] using hentry⟩
  · rintro ⟨position, hentry⟩
    have hentry : b.entries[position]? = some (name, value) := by simpa [toList] using hentry
    have carried : b.names[position]? = some name := by rw [getElem?_names, hentry]; rfl
    rw [(h name position).mpr carried, Option.bind_some, hentry]
    rfl

theorem Indexed.get?_eq_none_iff (h : b.Indexed) : b.get? name = none ↔ name ∉ b.names := by
  rw [names, List.mem_map, not_exists, Option.eq_none_iff_forall_ne_some]
  constructor
  · rintro none ⟨_, value⟩ ⟨hentry, rfl⟩
    exact none value (h.get?_eq_some_iff.mpr hentry)
  · intro none value found
    exact none (name, value) ⟨h.get?_eq_some_iff.mp found, rfl⟩

/-- The last value among the entries is the only one. -/
theorem Indexed.lastValue?_toList (h : b.Indexed) (name : String) :
    lastValue? b.toList name = b.get? name := by
  cases hlast : lastValue? b.toList name with
  | none => exact (h.get?_eq_none_iff.mpr (lastValue?_eq_none_iff.mp hlast)).symm
  | some value => exact (h.get?_eq_some_iff.mpr (mem_of_lastValue?_eq_some hlast)).symm

/-- The entries are the names in their order, each with the value that is found under it. -/
theorem Indexed.toList_eq (h : b.Indexed) :
    b.toList.map (fun entry => (entry.1, some entry.2)) =
      b.names.map fun name => (name, b.get? name) := by
  rw [names, List.map_map]
  apply List.map_congr_left
  intro entry hentry
  exact congrArg (Prod.mk entry.1) (h.get?_eq_some_iff.mpr hentry).symm

theorem Indexed.toList_congr {c : Bindings} (hb : b.Indexed) (hc : c.Indexed)
    (hnames : b.names = c.names) (hget : ∀ name, b.get? name = c.get? name) :
    b.toList = c.toList := by
  have inj : Function.Injective fun entry : String × Literal => (entry.1, some entry.2) := by
    rintro ⟨name, value⟩ ⟨name', value'⟩ same
    simpa using same
  apply inj.list_map
  rw [hb.toList_eq, hc.toList_eq, hnames]
  exact List.map_congr_left fun name _ => congrArg (Prod.mk name) (hget name)

/-- Where the entries stand makes no difference to a lookup. -/
theorem Indexed.get?_of_perm {c : Bindings} (hb : b.Indexed) (hc : c.Indexed)
    (h : b.toList.Perm c.toList) (name : String) : b.get? name = c.get? name := by
  apply Option.ext
  intro value
  rw [hb.get?_eq_some_iff, hc.get?_eq_some_iff, h.mem_iff]

theorem insert_fst : (b.insert name value).value.1 = b.get? name := by
  rw [insert, get?]
  cases b.index[name]? <;> rfl

/-- One insertion records at most the value it replaces. -/
theorem records_insert :
    (b.insert name value).records =
      match b.get? name with
      | none => []
      | some old => if old.agrees value then [] else [.overwritten name old value] := by
  rw [insert, get?]
  cases b.index[name]? with
  | none => rfl
  | some position =>
      cases hentry : b.entries[position]? <;> simp [hentry]

/-- A new name goes to the end. -/
theorem insert_of_index_eq_none (h : b.index[name]? = none) :
    (b.insert name value).value.2 =
      ⟨b.entries.push (name, value), b.index.insert name b.size⟩ := by
  rw [insert, h]

/-- A name that is there keeps its place. -/
theorem insert_of_index_eq_some {position : Nat} (h : b.index[name]? = some position) :
    (b.insert name value).value.2 =
      ⟨b.entries.modify position fun entry => (entry.1, value), b.index⟩ := by
  rw [insert, h]

theorem names_modify (position : Nat) :
    names ⟨b.entries.modify position fun entry => (entry.1, value), b.index⟩ = b.names := by
  apply List.ext_getElem?
  intro i
  rw [getElem?_names, getElem?_names, Array.getElem?_modify]
  split
  · rw [Option.map_map]
    rfl
  · rfl

theorem names_push (entry : String × Literal) (index : Std.HashMap String Nat) :
    names ⟨b.entries.push entry, index⟩ = b.names ++ [entry.1] := by
  simp [names, toList]

theorem Indexed.names_insert (h : b.Indexed) :
    (b.insert name value).value.2.names =
      if name ∈ b.names then b.names else b.names ++ [name] := by
  cases hindex : b.index[name]? with
  | none => rw [insert_of_index_eq_none hindex, names_push, if_neg (h.index_eq_none_iff.mp hindex)]
  | some position =>
      have there : name ∈ b.names := List.mem_of_getElem? ((h name position).mp hindex)
      rw [insert_of_index_eq_some hindex, names_modify, if_pos there]

theorem Indexed.insert (h : b.Indexed) : (b.insert name value).value.2.Indexed := by
  intro other position
  cases hindex : b.index[name]? with
  | none =>
      have absent := h.index_eq_none_iff.mp hindex
      rw [insert_of_index_eq_none hindex, names_push, Std.HashMap.getElem?_insert,
        size_eq_length_names]
      by_cases same : name = other
      · subst same
        grind
      · have := h other position
        grind
  | some old =>
      rw [insert_of_index_eq_some hindex, names_modify]
      exact h other position

/-- A position in the index is one of an entry with that name. -/
theorem Indexed.entry_of_index (h : b.Indexed) {position : Nat}
    (hindex : b.index[name]? = some position) :
    ∃ old, b.entries[position]? = some (name, old) := by
  have carried := (h name position).mp hindex
  rw [getElem?_names] at carried
  obtain ⟨⟨_, old⟩, hentry, rfl⟩ := Option.map_eq_some_iff.mp carried
  exact ⟨old, hentry⟩

theorem Indexed.get?_insert (h : b.Indexed) (other : String) :
    (b.insert name value).value.2.get? other =
      if name = other then some value else b.get? other := by
  cases hindex : b.index[name]? with
  | none =>
      rw [insert_of_index_eq_none hindex, get?, Std.HashMap.getElem?_insert]
      by_cases same : name = other
      · simp [same, size]
      · rw [if_neg (by simpa using same), if_neg same, get?]
        cases hother : b.index[other]? with
        | none => rfl
        | some place =>
            obtain ⟨old, hentry⟩ := h.entry_of_index hother
            have inside : place < b.entries.size := (Array.getElem?_eq_some_iff.mp hentry).1
            simp [Array.getElem?_push, Nat.ne_of_lt inside]
  | some position =>
      rw [insert_of_index_eq_some hindex, get?]
      obtain ⟨old, hentry⟩ := h.entry_of_index hindex
      by_cases same : name = other
      · subst same
        simp [hindex, Array.getElem?_modify, hentry]
      · rw [if_neg same, get?]
        cases hother : b.index[other]? with
        | none => rfl
        | some place =>
            obtain ⟨kept, hkept⟩ := h.entry_of_index hother
            have apart : position ≠ place := by
              rintro rfl
              exact same (congrArg Prod.fst (Option.some.inj (hentry.symm.trans hkept)))
            simp [Array.getElem?_modify, apart]

theorem insertAll_cons (entries : List (String × Literal)) :
    b.insertAll ((name, value) :: entries) =
      b.insert name value >>= fun inserted => inserted.2.insertAll entries := rfl

theorem insertAll_append (b : Bindings) (es fs : List (String × Literal)) :
    b.insertAll (es ++ fs) = b.insertAll es >>= fun between => between.insertAll fs := by
  induction es generalizing b with
  | nil => rfl
  | cons entry rest ih =>
      obtain ⟨name, value⟩ := entry
      rw [List.cons_append, insertAll_cons, insertAll_cons, bind_assoc]
      exact congrArg (b.insert name value >>= ·) (funext fun inserted => ih inserted.2)

theorem Indexed.insertAll (h : b.Indexed) (entries : List (String × Literal)) :
    (b.insertAll entries).value.Indexed := by
  induction entries generalizing b with
  | nil => exact h
  | cons entry rest ih => exact ih h.insert

theorem Indexed.names_insertAll (h : b.Indexed) (entries : List (String × Literal)) :
    (b.insertAll entries).value.names = (b.names ++ entries.map (·.1)).eraseDups := by
  induction entries using List.reverseRecOn with
  | nil =>
      rw [List.map_nil, List.append_nil, eraseDups_of_nodup h.nodup]
      rfl
  | append_singleton entries entry ih =>
      have last : ((b.insertAll entries).value.insert entry.1 entry.2).value.2.names = _ :=
        (h.insertAll entries).names_insert
      rw [insertAll_append, List.map_append, List.map_singleton, ← List.append_assoc,
        eraseDups_concat, ← ih]
      simp only [ih, List.mem_eraseDups] at last ⊢
      exact last

theorem Indexed.get?_insertAll (h : b.Indexed) (entries : List (String × Literal))
    (name : String) :
    (b.insertAll entries).value.get? name = (lastValue? entries name).or (b.get? name) := by
  induction entries generalizing b with
  | nil => rfl
  | cons entry rest ih =>
      obtain ⟨other, value⟩ := entry
      rw [insertAll_cons, Logged.value_bind, ih h.insert, h.get?_insert,
        ← List.singleton_append (l := rest), lastValue?_append, lastValue?_singleton,
        Option.or_assoc]
      split <;> rfl

theorem indexed_ofList (entries : List (String × Literal)) : (ofList entries).value.Indexed :=
  indexed_empty.insertAll entries

theorem names_ofList (entries : List (String × Literal)) :
    (ofList entries).value.names = firstNames entries := by
  rw [ofList, indexed_empty.names_insertAll, names_empty, List.nil_append, firstNames]

theorem get?_ofList (entries : List (String × Literal)) (name : String) :
    (ofList entries).value.get? name = lastValue? entries name := by
  rw [ofList, indexed_empty.get?_insertAll, get?_empty, Option.or_none]

theorem Indexed.toList_insertAll_congr {c : Bindings} (hb : b.Indexed) (hc : c.Indexed)
    (h : b.toList = c.toList) (entries : List (String × Literal)) :
    (b.insertAll entries).value.toList = (c.insertAll entries).value.toList := by
  apply (hb.insertAll entries).toList_congr (hc.insertAll entries)
  · rw [hb.names_insertAll, hc.names_insertAll, names, names, h]
  · intro name
    rw [hb.get?_insertAll, hc.get?_insertAll, hb.get?_of_perm hc (.of_eq h)]

/-- Merging what some insertions leave does what the insertions themselves would do. -/
theorem Indexed.toList_merge_ofList (h : b.Indexed) (entries : List (String × Literal)) :
    (b.merge (ofList entries).value).value.toList = (b.insertAll entries).value.toList := by
  have left := indexed_ofList entries
  apply (h.insertAll (ofList entries).value.toList).toList_congr (h.insertAll entries)
  · have names : (ofList entries).value.toList.map (·.1) = firstNames entries :=
      names_ofList entries
    rw [h.names_insertAll, h.names_insertAll, names, firstNames, eraseDups_append_eraseDups]
  · intro name
    rw [h.get?_insertAll, h.get?_insertAll, left.lastValue?_toList, get?_ofList]

end Criteria.Bindings
