/-
# Reading rows

One iteration of a query yields items: rows, and errors in place of rows that could
not be had. A reader takes items from the front until it knows its answer or meets an
error, and `Reading` also says how many it took.

There are two kinds of readers. A blocking one takes item after item. A suspendable
one looks at a token before each item and stops when the caller has cancelled.

Key definitions: `Item`, `Reading`, `Rows.first`, `Rows.only`, `Rows.foldAll`,
`Rows.toValues`, `Token`, `Rows.await`, `Rows.awaitFirst`, `Rows.awaitOnly`,
`Rows.awaitFold`, `Rows.awaitValues`.
-/
import SeqQuery.Query.Error

namespace SeqQuery

/-- What an iteration yields: a row or an error in its place. -/
abbrev Item := Except QueryError Value

/-- What a reader found, and the number of items it took. -/
structure Reading (α : Type) where
  outcome : Except QueryError α
  taken : Nat

namespace Reading

variable {α γ : Type}

/-- The reading with one more item taken in front. -/
def after (r : Reading α) : Reading α :=
  { r with taken := r.taken + 1 }

end Reading

namespace Rows

variable {α : Type}

/-! ### Blocking readers -/

/-- The first row, if there is one. -/
def first : List Item → Reading (Option Value)
  | [] => ⟨.ok none, 0⟩
  | item :: _ => ⟨item.map some, 1⟩

/-- The only row, if there is one; it is an error if there are more. -/
def only : List Item → Reading (Option Value)
  | [] => ⟨.ok none, 0⟩
  | .error e :: _ => ⟨.error e, 1⟩
  | [.ok v] => ⟨.ok (some v), 1⟩
  | .ok _ :: .ok _ :: _ => ⟨.error .multipleResults, 2⟩
  | .ok _ :: .error e :: _ => ⟨.error e, 2⟩

/-- Puts all rows together, one after the other. -/
def foldAll (step : α → Value → Except QueryError α) : α → List Item → Reading α
  | acc, [] => ⟨.ok acc, 0⟩
  | _, .error e :: _ => ⟨.error e, 1⟩
  | acc, .ok v :: rest =>
    match step acc v with
    | .ok acc => (foldAll step acc rest).after
    | .error e => ⟨.error e, 1⟩

/-- All rows, after those read before in reverse. -/
def toValues (before : List Value) : List Item → Reading (List Value)
  | [] => ⟨.ok before.reverse, 0⟩
  | .error e :: _ => ⟨.error e, 1⟩
  | .ok v :: rest => (toValues (v :: before) rest).after

end Rows

/-! ### Suspendable readers -/

/-- Whether the caller of a suspendable operation has cancelled it. -/
inductive Token where
  | live
  | cancelled
deriving DecidableEq, Repr

namespace Rows

variable {α : Type}

/-- The next row and the items after it, unless the operation is cancelled. -/
def await (token : Token) (items : List Item) : Except QueryError (Option (Value × List Item)) :=
  match token, items with
  | .cancelled, _ => .error .cancelled
  | .live, [] => .ok none
  | .live, .ok v :: rest => .ok (some (v, rest))
  | .live, .error e :: _ => .error e

/-- The number of items that waiting for one row takes. -/
def awaitCost (token : Token) (items : List Item) : Nat :=
  match token, items with
  | .live, _ :: _ => 1
  | _, _ => 0

/-- Waits for the first row, if there is one. -/
def awaitFirst (token : Token) (items : List Item) : Reading (Option Value) :=
  ⟨(await token items).map (·.map (·.1)), awaitCost token items⟩

/-- Waits for the only row, if there is one; it is an error if there are more. -/
def awaitOnly (token : Token) (items : List Item) : Reading (Option Value) :=
  match await token items with
  | .error e => ⟨.error e, awaitCost token items⟩
  | .ok none => ⟨.ok none, awaitCost token items⟩
  | .ok (some (v, rest)) =>
    let taken := awaitCost token items + awaitCost token rest
    match await token rest with
    | .error e => ⟨.error e, taken⟩
    | .ok none => ⟨.ok (some v), taken⟩
    | .ok (some _) => ⟨.error .multipleResults, taken⟩

/-- Waits for all rows and puts them together, one after the other. -/
def awaitFold (token : Token) (step : α → Value → Except QueryError α) :
    α → List Item → Reading α
  | acc, items =>
    match token, items with
    | .cancelled, _ => ⟨.error .cancelled, 0⟩
    | .live, [] => ⟨.ok acc, 0⟩
    | .live, item :: rest =>
      match item.bind (step acc) with
      | .ok acc => (awaitFold token step acc rest).after
      | .error e => ⟨.error e, 1⟩

/-- Waits for all rows. -/
def awaitValues (token : Token) (items : List Item) : Reading (List Value) :=
  awaitFold token (fun before v => .ok (before ++ [v])) [] items

end Rows
end SeqQuery
