/-
# Sample rows

Four records of two fields, numbered from 0 to 3 and named by their number, with the
lambdas that read them; and rows of plain integers.

Key definitions: `Sample.foo`, `Sample.fooMemory`, `Sample.fooReplies`,
`Sample.intMemory`, `Sample.blap`, `Sample.name`, `Sample.blapIs`, `Sample.intIs`.
-/
import SeqQuery.Backend.Reply

namespace SeqQuery.Sample

/-- The record type of the samples. -/
def foo : RecordTy :=
  ⟨"Foo", .ofList [("Blap", .int32), ("Name", .string)]⟩

/-- The names of the samples. -/
def names : List String := ["zero", "one", "two", "three"]

/-- The sample records. -/
def rows : List Value :=
  names.mapIdx fun i name => .record foo [.int32 (Int32.ofNat i), .string name]

/-- The samples as a store sends them. -/
def fooReplies : List Reply :=
  names.mapIdx fun i name => .array [.integer (Int64.ofNat i), .bulk name]

/-- The samples in memory. -/
def fooMemory : Memory := ⟨"memory", foo.ty, rows, false, 0⟩

/-- Integers in memory. -/
def intMemory (values : List Int32) : Memory :=
  ⟨"memory", .int32, values.map .int32, false, 0⟩

/-- The number of a sample, by a parameter with the given identity. -/
def blap (id : Nat) : Except ExprError Lambda :=
  let f : Param := ⟨id, "f", foo.ty⟩
  (Expr.mkMember (.param f) "Blap").map (⟨f, ·⟩)

/-- The name of a sample. -/
def name (id : Nat) : Except ExprError Lambda :=
  let f : Param := ⟨id, "f", foo.ty⟩
  (Expr.mkMember (.param f) "Name").map (⟨f, ·⟩)

/-- Applies an operator to the number of a sample and a constant. -/
def blapIs (id : Nat) (op : BinaryOp) (n : Int32) : Except ExprError Lambda := do
  let number ← blap id
  let body ← Expr.mkBinary op number.body (.ofValue (.int32 n))
  .ok ⟨number.param, body⟩

/-- Applies an operator to an integer and a constant. -/
def intIs (id : Nat) (op : BinaryOp) (n : Int32) : Except ExprError Lambda :=
  let x : Param := ⟨id, "x", .int32⟩
  (Expr.mkBinary op (.param x) (.ofValue (.int32 n))).map (⟨x, ·⟩)

end SeqQuery.Sample
