import Criteria.Logged
import Std.Data.HashMap

/-! # Bindings

Named values for the placeholders of a rule. The entries are kept in the order in which their
names were first bound; binding a name again replaces its value in place. An index from names
to positions finds an entry without a search.
-/

namespace Criteria

structure Bindings where
  /-- Names with their values, in order of first binding. -/
  entries : Array (String × Literal)
  index : Std.HashMap String Nat

namespace Bindings

def empty : Bindings := ⟨#[], ∅⟩

instance : EmptyCollection Bindings := ⟨empty⟩

instance : Inhabited Bindings := ⟨empty⟩

def size (bindings : Bindings) : Nat :=
  bindings.entries.size

def isEmpty (bindings : Bindings) : Bool :=
  bindings.entries.isEmpty

def toList (bindings : Bindings) : List (String × Literal) :=
  bindings.entries.toList

def names (bindings : Bindings) : List String :=
  bindings.toList.map (·.1)

def get? (bindings : Bindings) (name : String) : Option Literal :=
  bindings.index[name]?.bind fun position => bindings.entries[position]?.map (·.2)

def contains (bindings : Bindings) (name : String) : Bool :=
  bindings.index.contains name

/-- Bind a name and return the value it was bound to before. Replacing a value by one that does
    not agree with it is recorded; the new value is stored in any case. -/
def insert (bindings : Bindings) (name : String) (value : Literal) :
    Logged (Option Literal × Bindings) :=
  match bindings.index[name]? with
  | none =>
    ⟨(none,
      { entries := bindings.entries.push (name, value)
        index := bindings.index.insert name bindings.size }), []⟩
  | some position =>
    let old := bindings.entries[position]?.map (·.2)
    let records :=
      match old with
      | some old => if old.agrees value then [] else [.overwritten name old value]
      | none => []
    ⟨(old,
      { bindings with
        entries := bindings.entries.modify position fun entry => (entry.1, value) }), records⟩

def insertAll (bindings : Bindings) : List (String × Literal) → Logged Bindings
  | [] => return bindings
  | (name, value) :: rest => do
    let (_, bindings) ← bindings.insert name value
    bindings.insertAll rest

def ofList (entries : List (String × Literal)) : Logged Bindings :=
  empty.insertAll entries

/-- Bind everything that the other bindings bind, in their order. -/
def merge (bindings other : Bindings) : Logged Bindings :=
  bindings.insertAll other.toList

/-- Whether the same names are bound to values that agree, in whatever order. With equally many
    names it is enough to look up one side's names in the other. -/
def agrees (bindings other : Bindings) : Bool :=
  bindings.size == other.size &&
    bindings.toList.all fun (name, value) =>
      match other.get? name with
      | some found => found.agrees value
      | none => false

end Bindings

end Criteria
