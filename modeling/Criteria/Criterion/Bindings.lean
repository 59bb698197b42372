import Criteria.Criterion.Basic

/-! # The bindings of a criterion

All leaves add their bindings to one mapping, from left to right. A name that two leaves bind
keeps the value of the later one.
-/

namespace Criteria.Criterion

mutual
/-- Add the bindings of every leaf to those collected so far. -/
def collectInto (collected : Bindings) : Criterion → Logged Bindings
  | .rule _ bindings => collected.merge bindings
  | .call _ _ => return collected
  | .joined _ first rest => do
    let collected ← first.collectInto collected
    collectListInto collected rest
  | .negated operand => operand.collectInto collected

def collectListInto (collected : Bindings) : List Criterion → Logged Bindings
  | [] => return collected
  | criterion :: rest => do
    let collected ← criterion.collectInto collected
    collectListInto collected rest
end

def bindings (criterion : Criterion) : Logged Bindings :=
  criterion.collectInto ∅

end Criteria.Criterion
