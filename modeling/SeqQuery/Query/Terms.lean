/-
# Terms of a query

The operations that a query has active, as a set of six flags.

Key definitions: `Terms`, `Terms.union`, `Terms.contains`, `Terms.intersects`,
`Terms.bits`, `Terms.text`.
-/
namespace SeqQuery

/-- A set of query operations. -/
structure Terms where
  skip : Bool
  take : Bool
  filter : Bool
  order : Bool
  select : Bool
  distinct : Bool
deriving DecidableEq, Repr

namespace Terms

/-- No operation. -/
def none : Terms := ⟨false, false, false, false, false, false⟩

/-- The flags with the names of their operations. -/
def flags (t : Terms) : List (String × Bool) :=
  [("Skip", t.skip), ("Take", t.take), ("Where", t.filter), ("OrderBy", t.order),
    ("Select", t.select), ("Distinct", t.distinct)]

/-- The set of the operations with the given names. -/
def ofNames (names : List String) : Terms :=
  ⟨names.contains "Skip", names.contains "Take", names.contains "Where",
    names.contains "OrderBy", names.contains "Select", names.contains "Distinct"⟩

/-- The operations of either set. -/
def union (a b : Terms) : Terms :=
  ⟨a.skip || b.skip, a.take || b.take, a.filter || b.filter, a.order || b.order,
    a.select || b.select, a.distinct || b.distinct⟩

/-- The operations of both sets. -/
def inter (a b : Terms) : Terms :=
  ⟨a.skip && b.skip, a.take && b.take, a.filter && b.filter, a.order && b.order,
    a.select && b.select, a.distinct && b.distinct⟩

/-- Whether a set has every operation of another. -/
def contains (a b : Terms) : Bool :=
  a.inter b == b

/-- Whether a set is empty. -/
def isEmpty (a : Terms) : Bool :=
  a == none

/-- Whether two sets share an operation. -/
def intersects (a b : Terms) : Bool :=
  !(a.inter b).isEmpty

/-- The set as a number, one bit for each operation, that of `skip` being the lowest. -/
def bits (t : Terms) : Nat :=
  t.flags.foldr (fun (_, on) rest => 2 * rest + on.toNat) 0

/-- The text of a set. -/
def text (t : Terms) : String :=
  if t.isEmpty then "None"
  else String.intercalate ", " ((t.flags.filter (·.2)).map (·.1))

end Terms
end SeqQuery
