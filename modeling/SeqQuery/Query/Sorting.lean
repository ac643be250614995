/-
# Sort keys

The keys of a query are kept in the order in which they were added, newest first. A
key either starts a new group or continues the group before it. The newest group
sorts first and within a group the keys count in the order in which they were added.

Reversing turns every direction over without touching the keys. A key that is added
while the order is reversed is kept with its direction turned over, so that it comes
out as it was asked for.

Key definitions: `SortKey`, `SortClause`, `Sorting`, `Sorting.start`, `Sorting.push`,
`Sorting.reverse`, `Sorting.clauses`.
-/
import SeqQuery.Expr.Text

namespace SeqQuery

/-- A key as it is kept. -/
structure SortKey where
  key : Lambda
  ascending : Bool
  newGroup : Bool

/-- A key with the direction in which it sorts. -/
structure SortClause where
  key : Lambda
  ascending : Bool

/-- The text of a clause. -/
def SortClause.text (c : SortClause) : String :=
  c.key.text ++ if c.ascending then " asc" else " desc"

/-- The order of a query: at least one key, newest first. -/
structure Sorting where
  newest : SortKey
  older : List SortKey
  reversed : Bool

namespace Sorting

/-- An order by one key. -/
def start (key : Lambda) (ascending : Bool) : Sorting :=
  ⟨⟨key, ascending, true⟩, [], false⟩

/-- Adds a key, in a group of its own or in the newest group. -/
def push (s : Sorting) (key : Lambda) (newGroup ascending : Bool) : Sorting :=
  ⟨⟨key, ascending != s.reversed, newGroup⟩, s.newest :: s.older, s.reversed⟩

/-- Turns the order over. -/
def reverse (s : Sorting) : Sorting :=
  { s with reversed := !s.reversed }

/-- The keys, newest first. -/
def keys (s : Sorting) : List SortKey :=
  s.newest :: s.older

/-- The number of keys. -/
def length (s : Sorting) : Nat :=
  s.keys.length

/-- The clause of a key. -/
def clause (reversed : Bool) (k : SortKey) : SortClause :=
  ⟨k.key, k.ascending != reversed⟩

/-- The clauses of keys, newest first, after the clauses `group` of newer keys of the
same group, which are in the order in which they were added. -/
def grouped (reversed : Bool) (group : List SortClause) : List SortKey → List SortClause
  | [] => group
  | k :: older =>
    if k.newGroup then clause reversed k :: group ++ grouped reversed [] older
    else grouped reversed (clause reversed k :: group) older

/-- The clauses, the one that sorts first in front. -/
def clauses (s : Sorting) : List SortClause :=
  grouped s.reversed [] s.keys

@[simp] theorem length_start (key : Lambda) (ascending : Bool) :
    (start key ascending).length = 1 := rfl

@[simp] theorem length_push (s : Sorting) (key : Lambda) (newGroup ascending : Bool) :
    (s.push key newGroup ascending).length = s.length + 1 := rfl

@[simp] theorem length_reverse (s : Sorting) : s.reverse.length = s.length := rfl

/-- No clause is lost or added in grouping. -/
theorem length_grouped (reversed : Bool) : ∀ (group : List SortClause) (ks : List SortKey),
    (grouped reversed group ks).length = group.length + ks.length
  | group, [] => by simp [grouped]
  | group, k :: older => by
    by_cases h : k.newGroup
    · simp [grouped, h, length_grouped reversed [] older]
      omega
    · simp [grouped, h, length_grouped reversed _ older]
      omega

end Sorting
end SeqQuery
