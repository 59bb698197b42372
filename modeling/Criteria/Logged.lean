import Criteria.Record
import Criteria.Refusal

/-! # Results with records

A logged result carries the records made on the way to it, in order. A build may be refused and
still carries the records made before.
-/

namespace Criteria

structure Logged (α : Type) where
  value : α
  records : List Record := []

namespace Logged

instance : Monad Logged where
  pure value := ⟨value, []⟩
  bind result next :=
    let after := next result.value
    ⟨after.value, result.records ++ after.records⟩

variable {α β : Type}

@[simp] theorem value_pure (a : α) : (pure a : Logged α).value = a := rfl

@[simp] theorem records_pure (a : α) : (pure a : Logged α).records = [] := rfl

@[simp] theorem value_bind (x : Logged α) (f : α → Logged β) :
    (x >>= f).value = (f x.value).value := rfl

@[simp] theorem records_bind (x : Logged α) (f : α → Logged β) :
    (x >>= f).records = x.records ++ (f x.value).records := rfl

instance : LawfulMonad Logged :=
  LawfulMonad.mk' Logged
    (fun x => by
      change Logged.mk _ _ = x
      simp)
    (fun _ _ => rfl)
    (fun x f g => by
      change Logged.mk _ _ = Logged.mk _ _
      simp [bind])

def note (record : Record) : Logged Unit :=
  ⟨(), [record]⟩

end Logged

/-- A construction that may be refused and reports what it does. -/
abbrev Build := ExceptT Refusal Logged

namespace Build

/-- The outcome of a build, with all its records. -/
def outcome {α : Type} (build : Build α) : Logged (Except Refusal α) :=
  build.run

end Build

end Criteria
