import Criteria.Bindings.Json
import Criteria.Literal.Conversion
import Criteria.Proofs.JsonReading
import Criteria.Proofs.Reachability

/-! # Literals and bindings through JSON

A literal without decimals is found again when its JSON text is read and converted. The text of
bindings is one object, with each name once and in the order of the entries.
-/

namespace Criteria

namespace Literal

mutual
/-- The decimals in a literal, at any depth. -/
def decimals : Literal → List Decimal
  | .decimal d => [d]
  | .list values => decimalsList values
  | _ => []

def decimalsList : List Literal → List Decimal
  | [] => []
  | value :: rest => value.decimals ++ decimalsList rest
end

mutual
theorem isExact_toJson (value : Literal) (h : value.decimals = []) : value.toJson.IsExact := by
  cases value with
  | null | boolean | integer | string => trivial
  | decimal d => cases h
  | list values => exact isExactList_toJsonList values h
termination_by sizeOf value

theorem isExactList_toJsonList (values : List Literal) (h : decimalsList values = []) :
    Json.IsExactList (toJsonList values) := by
  cases values with
  | nil => trivial
  | cons value rest =>
      obtain ⟨first, others⟩ := List.append_eq_nil_iff.mp h
      exact ⟨isExact_toJson value first, isExactList_toJsonList rest others⟩
termination_by sizeOf values
end

mutual
theorem ofJson_toJson (value : Literal) (h : value.decimals = []) :
    ofJson value.toJson = .ok value := by
  cases value with
  | null | boolean | integer | string => rfl
  | decimal d => cases h
  | list values =>
      rw [toJson, ofJson, ofJsonList_toJsonList values h]
      rfl
termination_by sizeOf value

theorem ofJsonList_toJsonList (values : List Literal) (h : decimalsList values = []) :
    ofJsonList (toJsonList values) = .ok values := by
  cases values with
  | nil => rfl
  | cons value rest =>
      obtain ⟨first, others⟩ := List.append_eq_nil_iff.mp h
      rw [toJsonList, ofJsonList, ofJson_toJson value first, ofJsonList_toJsonList rest others]
      rfl
termination_by sizeOf values
end

end Literal

namespace Bindings

theorem isExactMembers_toJson {entries : List (String × Literal)}
    (h : ∀ entry ∈ entries, entry.2.decimals = []) :
    Json.IsExactMembers (entries.map fun (name, value) => (name, value.toJson)) := by
  induction entries with
  | nil => trivial
  | cons entry rest ih =>
      obtain ⟨first, others⟩ := List.forall_mem_cons.mp h
      exact ⟨entry.2.isExact_toJson first, ih others⟩

end Bindings

/-- Reading the JSON text of a literal without decimals and converting what was read gives the
    literal itself. The text of bindings that hold no decimals is read as one object with the
    names in their order, each of them once, and every member converts to the value that is
    bound to its name. -/
theorem toJson_reads_back :
    (∀ value : Literal, value.decimals = [] →
      (Json.parse? value.toJson.text).map Literal.ofJson = some (.ok value)) ∧
    ∀ b : Bindings, b.Reachable → (∀ entry ∈ b.toList, entry.2.decimals = []) →
      ∃ members, Json.parse? b.toJson.text = some (.object members) ∧
        (members.map (·.1)).Nodup ∧ members.map (·.1) = b.names ∧
        ∀ member ∈ members, ∃ value,
          b.get? member.1 = some value ∧ Literal.ofJson member.2 = .ok value := by
  refine ⟨fun value plain => ?_, fun b reachable plain => ?_⟩
  · rw [Json.parse?_text (value.isExact_toJson plain), Option.map_some, value.ofJson_toJson plain]
  · have exact : b.toJson.IsExact := Bindings.isExactMembers_toJson plain
    have names : (b.toList.map fun (name, value) => (name, value.toJson)).map (·.1) = b.names :=
      List.map_map
    refine ⟨_, Json.parse?_text exact, ?_, names, ?_⟩
    · rw [names]
      exact reachable.indexed.nodup
    · intro member hmember
      obtain ⟨entry, hentry, rfl⟩ := List.mem_map.mp hmember
      exact ⟨entry.2, reachable.indexed.get?_eq_some_iff.mpr hentry,
        entry.2.ofJson_toJson (plain entry hentry)⟩

/-- A list with an escaped string, the least integer and an empty list is read back, and so are
    two bindings. -/
theorem toJson_reads_back_of_escapes :
    (Json.parse? (Literal.toJson
        (.list [.string "\"\\\n\x07é", .integer Int64.minValue, .list []])).text).map
        Literal.ofJson =
      some (.ok (.list [.string "\"\\\n\x07é", .integer Int64.minValue, .list []])) ∧
    ∃ members,
      Json.parse? (Bindings.ofList [("b\"", .list [.null]), ("a", .string "x")]).value.toJson.text =
        some (.object members) ∧
      members.map (·.1) = ["b\"", "a"] := by
  have entries : (Bindings.ofList [("b\"", .list [.null]), ("a", .string "x")]).value.toList =
      [("b\"", .list [.null]), ("a", .string "x")] := by
    cbv
  have plain : ∀ entry ∈ (Bindings.ofList [("b\"", .list [.null]),
      ("a", .string "x")]).value.toList, entry.2.decimals = [] := by
    rw [entries, List.forall_mem_cons, List.forall_mem_singleton]
    exact ⟨rfl, rfl⟩
  refine ⟨toJson_reads_back.1 _ rfl, ?_⟩
  obtain ⟨members, read, -, names, -⟩ := toJson_reads_back.2 _ (.ofList _) plain
  refine ⟨members, read, names.trans ?_⟩
  rw [Bindings.names, entries]
  rfl

end Criteria
