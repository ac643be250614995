/-
# The sort order of a type is linear

Among the deep instances of one type without floating-point numbers two values tie in the
sort order only when they are equal, so the order is linear. Null comes first. Where the
language has relations between the values of a type, on numbers, texts and times, they see
the same order.

Key definition: `SeparatesOn`.
Key theorems: `Value.separatesOn_cmp`, `Ty.compareRelational?_eq_cmp`, `Value.cmp_linear`.
-/
import SeqQuery.Proofs.Evaluation
import SeqQuery.Proofs.SortOrder

namespace SeqQuery

/-- A comparison tells the values with a property apart: only equal ones tie. -/
def SeparatesOn {α : Type} (P : α → Prop) (cmp : α → α → Ordering) : Prop :=
  ∀ a b, P a → P b → cmp a b = .eq → a = b

theorem SeparatesOn.imp {α : Type} {P Q : α → Prop} {cmp : α → α → Ordering}
    (h : SeparatesOn P cmp) (hQ : ∀ a, Q a → P a) : SeparatesOn Q cmp :=
  fun a b ha hb => h a b (hQ a ha) (hQ b hb)

namespace Value

/-! ### Ties -/

theorem cmp_null_left {v : Value} (h : v ≠ .null) : Value.null.cmp v = .lt := by
  cases v <;> first | rfl | exact absurd rfl h

theorem cmp_null_right {v : Value} (h : v ≠ .null) : v.cmp .null = .gt := by
  cases v <;> first | rfl | exact absurd rfl h

/-- Null ties with itself alone. -/
theorem separatesOn_null {P : Value → Prop} (h : SeparatesOn P cmp) :
    SeparatesOn (fun v => v = .null ∨ P v) cmp := by
  intro a b ha hb htie
  by_cases hanull : a = .null
  · subst hanull
    by_contra hb'
    rw [cmp_null_left (Ne.symm hb')] at htie
    cases htie
  · by_cases hbnull : b = .null
    · subst hbnull
      rw [cmp_null_right hanull] at htie
      cases htie
    · exact h a b (ha.resolve_left hanull) (hb.resolve_left hbnull) htie

/-- Lists tie only when their items do one by one. -/
theorem cmpAll_cons_eq {a b : Value} {as bs : List Value} :
    cmpAll (a :: as) (b :: bs) = .eq ↔ cmp a b = .eq ∧ cmpAll as bs = .eq :=
  Ordering.then_eq_eq

theorem separatesOn_cmpAll {P : Value → Prop} (h : SeparatesOn P cmp) :
    SeparatesOn (fun vs => ∀ v ∈ vs, P v) cmpAll := by
  intro as
  induction as with
  | nil =>
    rintro (_ | ⟨b, bs⟩) - - htie
    · rfl
    · cases htie
  | cons a as ih =>
    rintro (_ | ⟨b, bs⟩) has hbs htie
    · cases htie
    · obtain ⟨hhead, htail⟩ := cmpAll_cons_eq.mp htie
      rw [List.forall_mem_cons] at has hbs
      rw [h a b has.1 hbs.1 hhead, ih bs has.2 hbs.2 htail]

mutual

/-- Deep instances of a type without floating-point numbers tie only when they are equal. -/
theorem separatesOn_cmp : ∀ {ty : Ty}, ty.isFloatFree →
    SeparatesOn (fun v => ty.admitsDeep v = true) cmp
  | .null, _ => by
    intro a b ha hb _
    rw [Ty.admitsDeep_nullTy.mp ha, Ty.admitsDeep_nullTy.mp hb]
  | .bool, _ => by
    intro a b ha hb htie
    obtain ⟨x, rfl⟩ := Ty.admitsDeep_bool.mp ha
    obtain ⟨y, rfl⟩ := Ty.admitsDeep_bool.mp hb
    have hxy : compare x y = .eq := htie
    rw [Std.LawfulEqOrd.compare_eq_iff_eq.mp hxy]
  | .int32, _ => by
    intro a b ha hb htie
    obtain ⟨x, rfl⟩ := Ty.admitsDeep_int32.mp ha
    obtain ⟨y, rfl⟩ := Ty.admitsDeep_int32.mp hb
    have hxy : compare x.toInt64.toInt y.toInt64.toInt = .eq := htie
    rw [Std.LawfulEqOrd.compare_eq_iff_eq, Int32.toInt_toInt64, Int32.toInt_toInt64,
      Int32.toInt_inj] at hxy
    rw [hxy]
  | .int64, _ => by
    intro a b ha hb htie
    obtain ⟨x, rfl⟩ := Ty.admitsDeep_int64.mp ha
    obtain ⟨y, rfl⟩ := Ty.admitsDeep_int64.mp hb
    have hxy : compare x.toInt y.toInt = .eq := htie
    rw [Std.LawfulEqOrd.compare_eq_iff_eq, Int64.toInt_inj] at hxy
    rw [hxy]
  | .timestamp, _ => by
    intro a b ha hb htie
    obtain ⟨x, rfl⟩ := Ty.admitsDeep_timestamp.mp ha
    obtain ⟨y, rfl⟩ := Ty.admitsDeep_timestamp.mp hb
    have hxy : compare x.toInt y.toInt = .eq := htie
    rw [Std.LawfulEqOrd.compare_eq_iff_eq, Int64.toInt_inj] at hxy
    rw [hxy]
  | .string, _ => by
    have htexts : SeparatesOn (fun v => ∃ s, v = .string s) cmp := by
      rintro _ _ ⟨s, rfl⟩ ⟨t, rfl⟩ htie
      have hst : compare s t = .eq := htie
      rw [Std.LawfulEqOrd.compare_eq_iff_eq.mp hst]
    exact (separatesOn_null htexts).imp fun v hv => Ty.admitsDeep_string.mp hv
  | .record name fields, h => by
    let r : RecordTy := ⟨name, fields⟩
    have hrecords : SeparatesOn (fun v => ∃ vs, v = .record r vs ∧
        List.Forall₂ (fun ty v => ty.admitsDeep v = true) fields.types vs) cmp := by
      rintro _ _ ⟨vs, rfl, hvs⟩ ⟨ws, rfl, hws⟩ htie
      rw [separatesOn_fields h vs ws hvs hws htie]
    exact (separatesOn_null hrecords).imp fun v hv => (Ty.admitsDeep_record (r := r)).mp hv
  | .list item, h => by
    have hlists : SeparatesOn (fun v => ∃ vs, v = .list vs ∧ ∀ v ∈ vs, item.admitsDeep v = true)
        cmp := by
      have hitem : SeparatesOn (fun v => item.admitsDeep v = true) cmp := separatesOn_cmp h
      rintro _ _ ⟨vs, rfl, hvs⟩ ⟨ws, rfl, hws⟩ htie
      rw [separatesOn_cmpAll hitem vs ws hvs hws htie]
    exact (separatesOn_null hlists).imp fun v hv => Ty.admitsDeep_list.mp hv

theorem separatesOn_fields : ∀ {fs : Fields}, fs.isFloatFree →
    SeparatesOn (fun vs => List.Forall₂ (fun ty v => ty.admitsDeep v = true) fs.types vs) cmpAll
  | .nil, _ => by
    rintro _ _ ⟨⟩ ⟨⟩ -
    rfl
  | .cons _ ty rest, h => by
    obtain ⟨hty, hrest⟩ := (Bool.and_eq_true _ _).mp h
    rintro _ _ (_ | ⟨ha, has⟩) (_ | ⟨hb, hbs⟩) htie
    obtain ⟨hhead, htail⟩ := cmpAll_cons_eq.mp htie
    rw [separatesOn_cmp hty _ _ ha hb hhead, separatesOn_fields hrest _ _ has hbs htail]

end

end Value

/-! ### Relations -/

/-- Relations see the sort order of numbers, texts and times. -/
theorem Ty.compareRelational?_eq_cmp {ty : Ty} (hfloat : ty.isFloatFree) (hty : ty.isComparable)
    {a b : Value} (ha : ty.admitsDeep a) (hb : ty.admitsDeep b) (hanull : a ≠ .null)
    (hbnull : b ≠ .null) : compareRelational? a b = some (a.cmp b) := by
  cases ty with
  | int32 =>
    obtain ⟨x, rfl⟩ := admitsDeep_int32.mp ha
    obtain ⟨y, rfl⟩ := admitsDeep_int32.mp hb
    rfl
  | int64 =>
    obtain ⟨x, rfl⟩ := admitsDeep_int64.mp ha
    obtain ⟨y, rfl⟩ := admitsDeep_int64.mp hb
    rfl
  | string =>
    obtain ⟨s, rfl⟩ := (admitsDeep_string.mp ha).resolve_left hanull
    obtain ⟨t, rfl⟩ := (admitsDeep_string.mp hb).resolve_left hbnull
    rfl
  | timestamp =>
    obtain ⟨x, rfl⟩ := admitsDeep_timestamp.mp ha
    obtain ⟨y, rfl⟩ := admitsDeep_timestamp.mp hb
    rfl
  | float32 | float64 => cases hfloat
  | null | bool | record name fields | list item => cases hty

/-- A relation is evaluated on the order that it sees between the values of its sides. -/
theorem Expr.eval_relation {env : Env} {l r : Expr} {a b : Value} (hl : l.eval env = .ok a)
    (hr : r.eval env = .ok b) (op : Relation) (ty : Ty) :
    (Expr.binary (.relation op) l r ty).eval env =
      .ok (.bool (op.holds (compareRelational? a b))) := by
  rw [eval_strict env rfl, hl, hr]
  rfl

namespace Value

/-- The sort order of a type without floating-point numbers is linear, null comes first in
it, and relations between values that have them agree with it. -/
theorem cmp_linear (ty : Ty) (hty : ty.isFloatFree) (a b c : Value) (ha : ty.admitsDeep a)
    (hb : ty.admitsDeep b) (hc : ty.admitsDeep c) :
    b.cmp a = (a.cmp b).swap ∧
    (a.cmp b ≠ .gt → b.cmp c ≠ .gt → a.cmp c ≠ .gt) ∧
    (a.cmp b = .lt → b.cmp c = .lt → a.cmp c = .lt) ∧
    (a.cmp b = .eq ↔ (a == b) = true) ∧
    (a ≠ .null → Value.null.cmp a = .lt ∧ a.cmp .null = .gt) ∧
    (ty.isComparable → a ≠ .null → b ≠ .null → ∀ (env : Env) (l r : Expr) (result : Ty),
      l.eval env = .ok a → r.eval env = .ok b →
      (Expr.binary (.relation .lt) l r result).eval env = .ok (.bool (a.cmp b).isLT) ∧
      (Expr.binary (.relation .le) l r result).eval env = .ok (.bool (a.cmp b).isLE) ∧
      (Expr.binary (.relation .gt) l r result).eval env = .ok (.bool (a.cmp b).isGT) ∧
      (Expr.binary (.relation .ge) l r result).eval env = .ok (.bool (a.cmp b).isGE)) := by
  have horders : OrdersOn (fun v => ty.admitsDeep v = true) cmp := ordersOn_cmp hty
  refine ⟨horders.swap ha hb, horders.trans ha hb hc, fun hab hbc => ?_, ?_, fun hnull => ?_, ?_⟩
  · exact horders.lt_of_lt_of_le ha hb hc hab (by simp [hbc])
  · rw [beq_iff hty ha]
    constructor
    · exact separatesOn_cmp hty a b ha hb
    · rintro rfl
      exact horders.refl ha
  · exact ⟨cmp_null_left hnull, cmp_null_right hnull⟩
  · intro hcomparable hanull hbnull env l r result hl hr
    have hcmp := ty.compareRelational?_eq_cmp hty hcomparable ha hb hanull hbnull
    simp only [Expr.eval_relation hl hr, hcmp, Relation.holds, and_self]

/-- Lists of records that differ deep inside, the least of which begins with null. -/
theorem cmp_linear_boxes :
    let r : RecordTy := ⟨"Box", .cons "name" .string (.cons "sizes" (.list .int32) .nil)⟩
    let a : Value := .list [.null]
    let b : Value := .list [.record r [.string "a", .list [.int32 (-1)]]]
    let c : Value := .list [.record r [.string "a", .list [.int32 (-1), .int32 0]]]
    (a.cmp b = .lt ∧ b.cmp c = .lt ∧ a.cmp c = .lt ∧ b.cmp a = .gt) ∧
      (Expr.binary (.relation .lt) (.const (.string "a") .string) (.const (.string "b") .string)
        .bool).eval .empty = .ok (.bool true) := by
  intro r a b c
  have ha : (Ty.list r.ty).admitsDeep a := rfl
  have hb : (Ty.list r.ty).admitsDeep b := rfl
  have hc : (Ty.list r.ty).admitsDeep c := rfl
  have hab : a.cmp b = .lt := by decide
  have hbc : b.cmp c = .lt := by decide
  obtain ⟨hswap, -, htrans, -⟩ := cmp_linear (.list r.ty) rfl a b c ha hb hc
  rw [hab] at hswap
  refine ⟨⟨hab, hbc, htrans hab hbc, hswap⟩, ?_⟩
  let s : Value := .string "a"
  let t : Value := .string "b"
  have hs : s ≠ .null := by simp [s]
  have ht : t ≠ .null := by simp [t]
  have hst : s.cmp t = .lt := by decide
  obtain ⟨-, -, -, -, -, hrelations⟩ := cmp_linear .string rfl s t t rfl rfl rfl
  obtain ⟨hlt, -⟩ := hrelations rfl hs ht .empty (.const s .string) (.const t .string) .bool rfl rfl
  rw [hst] at hlt
  exact hlt

end Value
end SeqQuery
