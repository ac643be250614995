/-
# Revisions

An operation on an immutable thing either leaves it as it is, and then gives back the
very thing, or makes a new one. A new one may happen to equal the old, so equality
does not tell the two apart.

Key definitions: `Revision`, `Revision.of`, `Revision.map`, `Revision.isUnchanged`,
`Revision.andThen`.
-/
namespace SeqQuery

/-- The outcome of an operation on an immutable thing. -/
inductive Revision (α : Type) where
  | unchanged
  | revised (new : α)
deriving Repr

namespace Revision

variable {α γ : Type}

/-- The thing as it is after the operation. -/
def of (old : α) : Revision α → α
  | .unchanged => old
  | .revised new => new

/-- The revision of a thing that holds the one revised. -/
def map (f : α → γ) : Revision α → Revision γ
  | .unchanged => .unchanged
  | .revised new => .revised (f new)

/-- Whether the operation gave back the very thing. -/
def isUnchanged : Revision α → Bool
  | .unchanged => true
  | .revised _ => false

/-- Goes on with another operation. The thing is unchanged only if neither operation
changes it. -/
def andThen {ε : Type} (old : α) (r : Revision α) (f : α → Except ε (Revision α)) :
    Except ε (Revision α) :=
  (f (r.of old)).map fun
    | .unchanged => r
    | .revised new => .revised new

@[simp] theorem of_unchanged (old : α) : of old .unchanged = old := rfl

@[simp] theorem of_revised (old new : α) : of old (.revised new) = new := rfl

@[simp] theorem isUnchanged_map (f : α → γ) (r : Revision α) :
    (r.map f).isUnchanged = r.isUnchanged := by
  cases r <;> rfl

end Revision
end SeqQuery
