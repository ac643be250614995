/-
# Expressions that are built through the typing rules

`Expr.Built` is what the functions named `mk…` can make. Every such expression is
`Expr.Checked`: each node carries the type that its rule gives. The rules hardly depend
on how wide the types of the parts are: a part may be replaced by one of a narrower type,
and if the rule still accepts it, the type of the node stays, except that a choice may
narrow with its sides.

Key definitions: `Method.Signature`, `Expr.Built`.
Key theorems: `Ty.memberTy_narrows`, `Ty.join_narrows`, `UnaryOp.resultTy_narrows`,
`BinaryOp.resultTy_narrows`, `Method.Signature.narrows`, `Expr.Built.checked`.
-/
import SeqQuery.Proofs.Records

namespace SeqQuery

/-! ### Kinds of types -/

namespace Ty

theorem isInteger_iff {ty : Ty} : ty.isInteger ↔ ty = .int32 ∨ ty = .int64 := by
  cases ty <;> simp [isInteger]

theorem isNumeric_iff {ty : Ty} :
    ty.isNumeric ↔ ty = .int32 ∨ ty = .int64 ∨ ty = .float32 ∨ ty = .float64 := by
  cases ty <;> simp [isNumeric]

theorem not_nullable_of_integer {ty : Ty} (h : ty.isInteger) : ty.isNullable = false := by
  cases ty <;> simp_all [isInteger, isNullable]

theorem not_nullable_of_numeric {ty : Ty} (h : ty.isNumeric) : ty.isNullable = false := by
  cases ty <;> simp_all [isNumeric, isNullable]

/-- A type without null is narrowed by itself alone. -/
theorem Narrows.eq_of_not_nullable {narrow wide : Ty} (h : narrow.Narrows wide)
    (hwide : wide.isNullable = false) : narrow = wide := by
  rcases h with h | ⟨-, h⟩
  · exact h
  · rw [hwide] at h
    cases h

theorem Narrows.trans {a b c : Ty} (hab : a.Narrows b) (hbc : b.Narrows c) : a.Narrows c := by
  rcases hab with rfl | ⟨rfl, hb⟩
  · exact hbc
  · rcases hbc with rfl | ⟨-, hc⟩
    · exact .inr ⟨rfl, hb⟩
    · exact .inr ⟨rfl, hc⟩

theorem memberTy_eq_ok {target ty : Ty} {name : String} :
    target.memberTy name = .ok ty ↔
      ∃ r : RecordTy, target = r.ty ∧ r.fields.find? name = some ty := by
  unfold memberTy
  cases hr : target.record? with
  | none =>
    simp only [reduceCtorEq, false_iff, not_exists, not_and]
    intro r h
    rw [record?_eq_some.mpr h] at hr
    cases hr
  | some r =>
    have htarget := record?_eq_some.mp hr
    cases hf : r.fields.find? name with
    | none =>
      simp only [hf, reduceCtorEq, false_iff, not_exists, not_and]
      intro r' h hf'
      obtain rfl : r = r' := by
        rw [record?_eq_some.mpr h] at hr
        exact (Option.some.inj hr).symm
      rw [hf] at hf'
      cases hf'
    | some field =>
      simp only [hf, Except.ok.injEq]
      constructor
      · rintro rfl
        exact ⟨r, htarget, hf⟩
      · rintro ⟨r', h, hf'⟩
        obtain rfl : r = r' := by
          rw [record?_eq_some.mpr h] at hr
          exact (Option.some.inj hr).symm
        rw [hf] at hf'
        exact Option.some.inj hf'

/-! ### Rules under narrower parts -/

theorem memberTy_narrows {s s' ty ty' : Ty} {name : String} (hs : s'.Narrows s)
    (h : s.memberTy name = .ok ty) (h' : s'.memberTy name = .ok ty') : ty' = ty := by
  rcases hs with rfl | ⟨rfl, -⟩
  · exact Except.ok.inj (h'.symm.trans h)
  · cases h'

theorem join_narrows {a a' b b' ty ty' : Ty} (ha : a'.Narrows a) (hb : b'.Narrows b)
    (h : a.join b = .ok ty) (h' : a'.join b' = .ok ty') : ty'.Narrows ty := by
  have ha' : a'.Narrows ty := by
    rcases join_eq_ok.mp h with ⟨rfl, -⟩ | ⟨rfl, hab⟩
    · exact ha
    · exact ha.trans hab
  have hb' : b'.Narrows ty := by
    rcases join_eq_ok.mp h with ⟨rfl, hba⟩ | ⟨rfl, -⟩
    · exact hb.trans hba
    · exact hb
  rcases join_eq_ok.mp h' with ⟨rfl, -⟩ | ⟨rfl, -⟩
  · exact ha'
  · exact hb'

end Ty

namespace UnaryOp

theorem resultTy_not {s ty : Ty} : UnaryOp.not.resultTy s = .ok ty ↔
    (s = .bool ∨ s.isInteger) ∧ s = ty := by
  rw [resultTy, Outcome.guard_eq_ok]

/-- The operators that leave a number a number of its type. -/
def isSign : UnaryOp → Bool
  | .negate | .negateChecked | .plus => true
  | _ => false

theorem resultTy_sign {op : UnaryOp} (hop : op.isSign) {s ty : Ty} :
    op.resultTy s = .ok ty ↔ s.isNumeric ∧ s = ty := by
  cases op <;> simp only [isSign, Bool.false_eq_true] at hop <;>
    rw [resultTy, Outcome.guard_eq_ok]

theorem resultTy_convert {s target ty : Ty} :
    (UnaryOp.convert target).resultTy s = .ok ty ↔ target = ty := by
  simp [resultTy]

theorem resultTy_narrows {op : UnaryOp} {s s' ty ty' : Ty} (hs : s'.Narrows s)
    (h : op.resultTy s = .ok ty) (h' : op.resultTy s' = .ok ty') : ty' = ty := by
  rcases hs with rfl | ⟨rfl, -⟩
  · exact Except.ok.inj (h'.symm.trans h)
  · cases op with
    | convert target => rw [← resultTy_convert.mp h', ← resultTy_convert.mp h]
    | _ => simp [UnaryOp.resultTy, Ty.isInteger, Ty.isNumeric] at h'

end UnaryOp

namespace BinaryOp

variable {l r ty : Ty}

theorem resultTy_arith {op : Arith} : (BinaryOp.arith op).resultTy l r = .ok ty ↔
    l.isNumeric ∧ l = r ∧ l = ty := by
  rw [resultTy, Outcome.guard_eq_ok, and_assoc]

theorem resultTy_shift {op : Shift} : (BinaryOp.shift op).resultTy l r = .ok ty ↔
    l.isInteger ∧ r = .int32 ∧ l = ty := by
  rw [resultTy, Outcome.guard_eq_ok, and_assoc]

theorem resultTy_bits {op : Bits} : (BinaryOp.bits op).resultTy l r = .ok ty ↔
    l = r ∧ (l.isInteger ∨ l = .bool) ∧ l = ty := by
  rw [resultTy, Outcome.guard_eq_ok, and_assoc]

theorem resultTy_equality {op : Equality} : (BinaryOp.equality op).resultTy l r = .ok ty ↔
    (∃ joined, l.join r = .ok joined) ∧ .bool = ty := by
  rw [resultTy, Outcome.map_eq_ok]
  exact ⟨fun ⟨a, ha, h⟩ => ⟨⟨a, ha⟩, h⟩, fun ⟨⟨a, ha⟩, h⟩ => ⟨a, ha, h⟩⟩

theorem resultTy_relation {op : Relation} : (BinaryOp.relation op).resultTy l r = .ok ty ↔
    l = r ∧ l.isComparable ∧ .bool = ty := by
  rw [resultTy, Outcome.guard_eq_ok, and_assoc]

theorem resultTy_connective {op : Connective} : (BinaryOp.connective op).resultTy l r = .ok ty ↔
    l = .bool ∧ r = .bool ∧ .bool = ty := by
  rw [resultTy, Outcome.guard_eq_ok, and_assoc]

theorem isOk_join_string {s : Ty} : (s.join .string).isOk ↔ s.Narrows .string := by
  unfold Ty.join Ty.Narrows
  by_cases hs : s = .string
  · simp [hs, Except.isOk, Except.toBool]
  · by_cases hn : s = .null <;> simp [hs, hn, Ty.isNullable, Except.isOk, Except.toBool]

theorem resultTy_concat : BinaryOp.concat.resultTy l r = .ok ty ↔
    l.Narrows .string ∧ r.Narrows .string ∧ .string = ty := by
  rw [← isOk_join_string, ← isOk_join_string (s := r)]
  rw [resultTy, Outcome.guard_eq_ok, and_assoc]

/-- An operator gives narrower operands the same type as the wide ones, if it takes them. -/
theorem resultTy_narrows {op : BinaryOp} {l l' r r' ty ty' : Ty} (hl : l'.Narrows l)
    (h : op.resultTy l r = .ok ty) (h' : op.resultTy l' r' = .ok ty') : ty' = ty := by
  cases op with
  | arith op =>
    obtain ⟨hnum, -, rfl⟩ := resultTy_arith.mp h
    obtain ⟨-, -, rfl⟩ := resultTy_arith.mp h'
    exact hl.eq_of_not_nullable (Ty.not_nullable_of_numeric hnum)
  | shift op =>
    obtain ⟨hint, -, rfl⟩ := resultTy_shift.mp h
    obtain ⟨-, -, rfl⟩ := resultTy_shift.mp h'
    exact hl.eq_of_not_nullable (Ty.not_nullable_of_integer hint)
  | bits op =>
    obtain ⟨-, hint | rfl, rfl⟩ := resultTy_bits.mp h <;>
      obtain ⟨-, -, rfl⟩ := resultTy_bits.mp h'
    · exact hl.eq_of_not_nullable (Ty.not_nullable_of_integer hint)
    · exact hl.eq_of_not_nullable rfl
  | equality op => rw [← (resultTy_equality.mp h).2, ← (resultTy_equality.mp h').2]
  | relation op => rw [← (resultTy_relation.mp h).2.2, ← (resultTy_relation.mp h').2.2]
  | connective op => rw [← (resultTy_connective.mp h).2.2, ← (resultTy_connective.mp h').2.2]
  | concat => rw [← (resultTy_concat.mp h).2.2, ← (resultTy_concat.mp h').2.2]

end BinaryOp

namespace Method

/-- What a method may be called on, with what, and of what type the result is. -/
inductive Signature : Method → Option Ty → List Ty → Ty → Prop
  | addDays {days : Ty} (h : days.isNumeric) :
    Signature .addDays (some .timestamp) [days] .timestamp
  | abs {n : Ty} (h : n.isNumeric) : Signature .abs none [n] n
  | toUpper : Signature .toUpper (some .string) [] .string
  | toLower : Signature .toLower (some .string) [] .string
  | length : Signature .length (some .string) [] .int32
  | startsWith : Signature .startsWith (some .string) [.string] .bool
  | endsWith : Signature .endsWith (some .string) [.string] .bool
  | contains : Signature .contains (some .string) [.string] .bool
  | now : Signature .now none [] .timestamp

theorem resultTy_eq_ok {method : Method} {object : Option Ty} {args : List Ty} {ty : Ty}
    (h : method.resultTy object args = .ok ty) : method.Signature object args ty := by
  unfold resultTy at h
  simp only at h
  split at h
  · cases h
  · split at h
    · cases h
    · split at h
      · split at h
        · next hd =>
          cases h
          exact .addDays hd
        · cases h
      · split at h
        · next hn =>
          cases h
          exact .abs hn
        · cases h
      all_goals cases h
      all_goals constructor

/-- A method is called on an object exactly when it is not static. -/
theorem Signature.isSome_object {method : Method} {object : Option Ty} {args : List Ty} {ty : Ty}
    (h : method.Signature object args ty) : object.isSome = !method.isStatic := by
  cases h <;> rfl

/-- A method gives narrower arguments the same type as the wide ones. -/
theorem Signature.narrows {method : Method} {object object' : Option Ty} {args args' : List Ty}
    {ty ty' : Ty} (hargs : List.Forall₂ Ty.Narrows args' args)
    (h : method.Signature object args ty) (h' : method.Signature object' args' ty') : ty' = ty := by
  cases h with
  | abs hn =>
    cases h' with
    | abs hn' =>
      obtain ⟨hnarrow, -⟩ := List.forall₂_cons.mp hargs
      exact hnarrow.eq_of_not_nullable (Ty.not_nullable_of_numeric hn)
  | _ =>
    cases h'
    rfl

/-! ### Objects and arguments -/

theorem split_map {α β : Type} (method : Method) (f : α → β) (operands : List α) :
    method.split (operands.map f) =
      ((method.split operands).1.map f, (method.split operands).2.map f) := by
  unfold split
  split <;> simp

/-- Operands that are related one by one are so after they have been split. -/
theorem split_rel {α β : Type} {R : α → β → Prop} (method : Method) {as : List α} {bs : List β}
    (h : List.Forall₂ R as bs) :
    Option.Rel R (method.split as).1 (method.split bs).1 ∧
      List.Forall₂ R (method.split as).2 (method.split bs).2 := by
  unfold split
  split
  · exact ⟨.none, h⟩
  · cases h with
    | nil => exact ⟨.none, .nil⟩
    | cons hab hrest => exact ⟨.some hab, hrest⟩

/-- The object in front of the arguments gives back the operands, if there is an object
where one is needed. -/
theorem toList_split {α : Type} (method : Method) (operands : List α)
    (h : (method.split operands).1.isSome = !method.isStatic) :
    (method.split operands).1.toList ++ (method.split operands).2 = operands := by
  unfold split at *
  split
  · rfl
  · next hs => cases operands <;> simp_all

/-- An object and arguments are split again as they were put together. -/
theorem split_operands {α : Type} (method : Method) (object : Option α) (args : List α)
    (h : object.isSome = !method.isStatic) :
    method.split (object.toList ++ args) = (object, args) := by
  unfold split
  cases object <;> simp_all

end Method

/-! ### Built expressions -/

namespace Expr

theorem checkedAll_iff : ∀ {es : List Expr}, CheckedAll es ↔ ∀ e ∈ es, e.Checked
  | [] => by simp [CheckedAll]
  | _ :: _ => by simp [CheckedAll, checkedAll_iff]

theorem checkedBindings_iff : ∀ {bs : List (String × Expr)},
    CheckedBindings bs ↔ ∀ b ∈ bs, b.2.Checked
  | [] => by simp [CheckedBindings]
  | (_, _) :: _ => by simp [CheckedBindings, checkedBindings_iff]

/-- The expressions that the checking functions make out of one another. -/
inductive Built : Expr → Prop
  | value (v : Value) : Built (ofValue v)
  | const {v : Value} {ty : Ty} {e : Expr} (h : mkConst v ty = .ok e) : Built e
  | param (p : Param) : Built (.param p)
  | member {target e : Expr} {name : String} (ht : Built target)
      (h : mkMember target name = .ok e) : Built e
  | unary {op : UnaryOp} {operand e : Expr} (ho : Built operand)
      (h : mkUnary op operand = .ok e) : Built e
  | binary {op : BinaryOp} {left right e : Expr} (hl : Built left) (hr : Built right)
      (h : mkBinary op left right = .ok e) : Built e
  | cond {test ifTrue ifFalse e : Expr} (ht : Built test) (ha : Built ifTrue) (hb : Built ifFalse)
      (h : mkCond test ifTrue ifFalse = .ok e) : Built e
  | call {object : Option Expr} {method : Method} {args : List Expr} {e : Expr}
      (ho : ∀ o ∈ object, Built o) (ha : ∀ a ∈ args, Built a)
      (h : mkCall object method args = .ok e) : Built e
  | construct {record : RecordTy} {args : List Expr} {bindings : List (String × Expr)} {e : Expr}
      (ha : ∀ a ∈ args, Built a) (hb : ∀ b ∈ bindings, Built b.2)
      (h : mkConstruct record args bindings = .ok e) : Built e

theorem mkMember_eq_ok {target e : Expr} {name : String} :
    mkMember target name = .ok e ↔
      ∃ ty, target.ty.memberTy name = .ok ty ∧ .member target name ty = e :=
  Outcome.map_eq_ok

theorem mkUnary_eq_ok {op : UnaryOp} {operand e : Expr} :
    mkUnary op operand = .ok e ↔ ∃ ty, op.resultTy operand.ty = .ok ty ∧ .unary op operand ty = e :=
  Outcome.map_eq_ok

theorem mkBinary_eq_ok {op : BinaryOp} {left right e : Expr} :
    mkBinary op left right = .ok e ↔
      ∃ ty, op.resultTy left.ty right.ty = .ok ty ∧ .binary op left right ty = e :=
  Outcome.map_eq_ok

theorem mkCond_eq_ok {test ifTrue ifFalse e : Expr} :
    mkCond test ifTrue ifFalse = .ok e ↔ test.ty = .bool ∧
      ∃ ty, ifTrue.ty.join ifFalse.ty = .ok ty ∧ .cond test ifTrue ifFalse ty = e := by
  unfold mkCond
  by_cases h : test.ty = .bool <;> simp [h, Outcome.map_eq_ok]

theorem mkConst_eq_ok {v : Value} {ty : Ty} {e : Expr} :
    mkConst v ty = .ok e ↔ ty.admits v ∧ .const v ty = e := by
  unfold mkConst
  rw [Outcome.guard_eq_ok]

theorem mkCall_eq_ok {object : Option Expr} {method : Method} {args : List Expr} {e : Expr} :
    mkCall object method args = .ok e ↔
      ∃ ty, method.resultTy (object.map Expr.ty) (args.map Expr.ty) = .ok ty ∧
        .call method (object.toList ++ args) ty = e :=
  Outcome.map_eq_ok

theorem mkConstruct_eq_ok {record : RecordTy} {args : List Expr} {bindings : List (String × Expr)}
    {e : Expr} : mkConstruct record args bindings = .ok e ↔
      record.checkInits (args.map Expr.ty) (bindings.map fun (m, e) => (m, e.ty)) = .ok () ∧
        .construct record args bindings = e := by
  unfold mkConstruct
  rw [Outcome.map_eq_ok]
  exact ⟨fun ⟨_, hc, he⟩ => ⟨hc, he⟩, fun ⟨hc, he⟩ => ⟨(), hc, he⟩⟩

/-- A call of checked operands by its rule is checked. -/
theorem checked_mkCall {object : Option Expr} {method : Method} {args : List Expr} {e : Expr}
    (ho : ∀ o ∈ object, o.Checked) (ha : ∀ a ∈ args, a.Checked)
    (h : mkCall object method args = .ok e) : e.Checked := by
  obtain ⟨ty, hty, rfl⟩ := mkCall_eq_ok.mp h
  have hsome := (Method.resultTy_eq_ok hty).isSome_object
  rw [Option.isSome_map] at hsome
  simp only [Checked, checkedAll_iff, List.mem_append, Option.mem_toList]
  refine ⟨fun e he => he.elim (ho e) (ha e), ?_⟩
  rw [Method.split_map, Method.split_operands method object args hsome]
  exact hty

/-- Whatever is built by the checking functions is well-typed. -/
theorem Built.checked {e : Expr} (h : e.Built) : e.Checked := by
  induction h with
  | value v => trivial
  | const h =>
    obtain ⟨-, rfl⟩ := mkConst_eq_ok.mp h
    trivial
  | param p => trivial
  | member _ h iht =>
    obtain ⟨ty, hty, rfl⟩ := mkMember_eq_ok.mp h
    exact ⟨iht, hty⟩
  | unary _ h iho =>
    obtain ⟨ty, hty, rfl⟩ := mkUnary_eq_ok.mp h
    exact ⟨iho, hty⟩
  | binary _ _ h ihl ihr =>
    obtain ⟨ty, hty, rfl⟩ := mkBinary_eq_ok.mp h
    exact ⟨ihl, ihr, hty⟩
  | cond _ _ _ h iht iha ihb =>
    obtain ⟨htest, ty, hty, rfl⟩ := mkCond_eq_ok.mp h
    exact ⟨iht, iha, ihb, htest, hty⟩
  | call _ _ h iho iha => exact checked_mkCall iho iha h
  | construct _ _ h iha ihb =>
    obtain ⟨hc, rfl⟩ := mkConstruct_eq_ok.mp h
    exact ⟨checkedAll_iff.mpr iha, checkedBindings_iff.mpr ihb, hc⟩

end Expr
end SeqQuery
