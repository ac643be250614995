/-
# The sort order and equality of values without floating-point numbers

Among the deep instances of one type the sort order is an order, and equality is
sameness, unless floating-point numbers occur: a NaN has no order and differs from itself.
Values of different types may have no order between them and count as equal, so that
the sort order of all values is not transitive.

Key definition: `Ty.isFloatFree`.
Key theorems: `Value.ordersOn_cmp`, `Value.equalOn_beq`.
-/
import SeqQuery.Proofs.Deep
import SeqQuery.Proofs.Outcome
import SeqQuery.Proofs.StableSort
import SeqQuery.Value.Order

namespace SeqQuery

mutual

/-- Whether no floating-point number can occur in the deep instances of a type. -/
def Ty.isFloatFree : Ty → Bool
  | .float32 | .float64 => false
  | .record _ fields => fields.isFloatFree
  | .list item => item.isFloatFree
  | _ => true

/-- Whether no floating-point number can occur in the values of fields. -/
def Fields.isFloatFree : Fields → Bool
  | .nil => true
  | .cons _ ty rest => ty.isFloatFree && rest.isFloatFree

end

theorem Fields.isFloatFree_iff : ∀ {fs : Fields}, fs.isFloatFree ↔ ∀ ty ∈ fs.types, ty.isFloatFree
  | .nil => by simp [isFloatFree, types]
  | .cons _ ty rest => by simp [isFloatFree, types, isFloatFree_iff]

namespace Value

/-! ### Order -/

/-- Values that are compared by a key are ordered as their keys are. -/
theorem ordersOn_of_key {κ : Type} [Ord κ] [Std.TransOrd κ] {P : Value → Prop} (key : Value → κ)
    (hcmp : ∀ a b, P a → P b → cmp a b = compare (key a) (key b)) : OrdersOn P cmp where
  swap := by
    intro a b ha hb
    rw [hcmp b a hb ha, hcmp a b ha hb]
    exact Std.OrientedCmp.eq_swap
  trans := by
    intro a b c ha hb hc hab hbc
    rw [hcmp a b ha hb] at hab
    rw [hcmp b c hb hc] at hbc
    rw [hcmp a c ha hc]
    rw [ne_eq, ← Ordering.isLE_iff_ne_gt] at hab hbc ⊢
    exact Std.TransCmp.isLE_trans hab hbc

/-- Null comes before all else. -/
theorem ordersOn_null {P : Value → Prop} (h : OrdersOn P cmp) (hP : ∀ v, P v → v ≠ .null) :
    OrdersOn (fun v => v = .null ∨ P v) cmp := by
  refine h.orLeast .null rfl (fun v hv => ?_) (fun v hv => ?_)
  · cases v <;> first | rfl | exact absurd rfl (hP _ hv)
  · cases v <;> first | rfl | exact absurd rfl (hP _ hv)

/-- Lists with a first item are ordered by it and then by the rest. -/
theorem ordersOn_cons {P : Value → Prop} {Q : List Value → Prop} (h : OrdersOn P cmp)
    (h' : OrdersOn Q cmpAll) : OrdersOn (fun l => ∃ v vs, l = v :: vs ∧ P v ∧ Q vs) cmpAll := by
  have hhead := h.comap (Q := fun l => ∃ v vs, l = v :: vs ∧ P v ∧ Q vs) (List.headD · .null) (by
    rintro _ ⟨v, vs, rfl, hv, -⟩
    exact hv)
  have htail := h'.comap (Q := fun l => ∃ v vs, l = v :: vs ∧ P v ∧ Q vs) List.tail (by
    rintro _ ⟨v, vs, rfl, -, hvs⟩
    exact hvs)
  refine (hhead.andThen htail).congr ?_
  rintro _ _ ⟨v, vs, rfl, -⟩ ⟨w, ws, rfl, -⟩
  rfl

/-- Lists of ordered items are ordered, a shorter one before those that go on. -/
theorem ordersOn_cmpAll {P : Value → Prop} (h : OrdersOn P cmp) :
    OrdersOn (fun vs => ∀ v ∈ vs, P v) cmpAll := by
  have hbounded : ∀ n, OrdersOn (fun vs : List Value => vs.length ≤ n ∧ ∀ v ∈ vs, P v) cmpAll := by
    intro n
    induction n with
    | zero =>
      have hnil : ∀ vs : List Value, vs.length ≤ 0 ∧ (∀ v ∈ vs, P v) → vs = [] := fun vs hvs =>
        List.length_eq_zero_iff.mp (Nat.le_zero.mp hvs.1)
      constructor
      · intro a b ha hb
        rw [hnil a ha, hnil b hb]
        rfl
      · intro a b c ha hb hc hab hbc
        rw [hnil b hb] at hab
        rw [hnil c hc]
        exact hab
    | succ n ih =>
      refine ((ordersOn_cons h ih).orLeast [] rfl ?_ ?_).imp ?_
      · rintro _ ⟨v, vs, rfl, -⟩
        rfl
      · rintro _ ⟨v, vs, rfl, -⟩
        rfl
      · rintro (_ | ⟨v, vs⟩) ⟨hlen, hvs⟩
        · exact .inl rfl
        · obtain ⟨hv, hrest⟩ := List.forall_mem_cons.mp hvs
          exact .inr ⟨v, vs, rfl, hv, Nat.le_of_succ_le_succ hlen, hrest⟩
  constructor
  · intro a b ha hb
    exact (hbounded (a.length + b.length)).swap ⟨by omega, ha⟩ ⟨by omega, hb⟩
  · intro a b c ha hb hc
    exact (hbounded (a.length + b.length + c.length)).trans ⟨by omega, ha⟩ ⟨by omega, hb⟩
      ⟨by omega, hc⟩

/-- What a record or list consists of. -/
def parts : Value → List Value
  | .record _ values => values
  | .list items => items
  | _ => []

/-- The integer that a number or time is. -/
def whole : Value → Int
  | .int32 n => n.toInt64.toInt
  | .int64 n => n.toInt
  | .timestamp ms => ms.toInt
  | _ => 0

mutual

/-- The deep instances of a type without floating-point numbers are ordered. -/
theorem ordersOn_cmp : ∀ {ty : Ty}, ty.isFloatFree →
    OrdersOn (fun v => ty.admitsDeep v = true) cmp
  | .null, _ => by
    refine ordersOn_of_key (fun _ => (0 : Nat)) fun a b ha hb => ?_
    rw [Ty.admitsDeep_nullTy.mp ha, Ty.admitsDeep_nullTy.mp hb]
    rfl
  | .bool, _ => by
    refine ordersOn_of_key (fun v => v.bool?.getD false) fun a b ha hb => ?_
    obtain ⟨x, rfl⟩ := Ty.admitsDeep_bool.mp ha
    obtain ⟨y, rfl⟩ := Ty.admitsDeep_bool.mp hb
    rfl
  | .int32, _ => by
    refine ordersOn_of_key whole fun a b ha hb => ?_
    obtain ⟨x, rfl⟩ := Ty.admitsDeep_int32.mp ha
    obtain ⟨y, rfl⟩ := Ty.admitsDeep_int32.mp hb
    rfl
  | .int64, _ => by
    refine ordersOn_of_key whole fun a b ha hb => ?_
    obtain ⟨x, rfl⟩ := Ty.admitsDeep_int64.mp ha
    obtain ⟨y, rfl⟩ := Ty.admitsDeep_int64.mp hb
    rfl
  | .timestamp, _ => by
    refine ordersOn_of_key whole fun a b ha hb => ?_
    obtain ⟨x, rfl⟩ := Ty.admitsDeep_timestamp.mp ha
    obtain ⟨y, rfl⟩ := Ty.admitsDeep_timestamp.mp hb
    rfl
  | .string, _ => by
    have htexts : OrdersOn (fun v => ∃ s, v = .string s) cmp := by
      refine ordersOn_of_key (fun v => v.string?.getD "") ?_
      rintro _ _ ⟨s, rfl⟩ ⟨t, rfl⟩
      rfl
    refine (ordersOn_null htexts ?_).imp fun v hv => Ty.admitsDeep_string.mp hv
    rintro _ ⟨s, rfl⟩ h
    cases h
  | .record name fields, h => by
    let r : RecordTy := ⟨name, fields⟩
    have hrecords : OrdersOn (fun v => ∃ vs, v = .record r vs ∧
        List.Forall₂ (fun ty v => ty.admitsDeep v = true) fields.types vs) cmp := by
      refine ((ordersOn_fields h).comap parts ?_).congr ?_
      · rintro _ ⟨vs, rfl, hvs⟩
        exact hvs
      · rintro _ _ ⟨vs, rfl, -⟩ ⟨ws, rfl, -⟩
        rfl
    refine (ordersOn_null hrecords ?_).imp fun v hv => (Ty.admitsDeep_record (r := r)).mp hv
    rintro _ ⟨vs, rfl, -⟩ h
    cases h
  | .list item, h => by
    have hlists : OrdersOn (fun v => ∃ vs, v = .list vs ∧ ∀ v ∈ vs, item.admitsDeep v = true)
        cmp := by
      have hitem : OrdersOn (fun v => item.admitsDeep v = true) cmp := ordersOn_cmp h
      refine ((ordersOn_cmpAll hitem).comap parts ?_).congr ?_
      · rintro _ ⟨vs, rfl, hvs⟩
        exact hvs
      · rintro _ _ ⟨vs, rfl, -⟩ ⟨ws, rfl, -⟩
        rfl
    refine (ordersOn_null hlists ?_).imp fun v hv => Ty.admitsDeep_list.mp hv
    rintro _ ⟨vs, rfl, -⟩ h
    cases h

/-- The values of the fields of a record without floating-point numbers are ordered. -/
theorem ordersOn_fields : ∀ {fs : Fields}, fs.isFloatFree →
    OrdersOn (fun vs => List.Forall₂ (fun ty v => ty.admitsDeep v = true) fs.types vs) cmpAll
  | .nil, _ => by
    constructor
    · rintro a b ⟨⟩ ⟨⟩
      rfl
    · rintro a b c ⟨⟩ ⟨⟩ ⟨⟩ hab _
      exact hab
  | .cons _ ty rest, h => by
    obtain ⟨hty, hrest⟩ := (Bool.and_eq_true _ _).mp h
    refine (ordersOn_cons (ordersOn_cmp hty) (ordersOn_fields hrest)).imp ?_
    rintro _ (_ | ⟨hv, hvs⟩)
    exact ⟨_, _, rfl, hv, hvs⟩

end

/-! ### Equality -/

theorem beqAll_iff : ∀ {as : List Value}, (∀ a ∈ as, ∀ b : Value, (a == b) = true ↔ a = b) →
    ∀ {bs : List Value}, beqAll as bs ↔ as = bs
  | [], _, [] => by simp [beqAll]
  | [], _, _ :: _ => by simp [beqAll]
  | _ :: _, _, [] => by simp [beqAll]
  | a :: as, h, b :: bs => by
    rw [List.forall_mem_cons] at h
    have hab : beq a b = true ↔ a = b := h.1 b
    rw [beqAll, Bool.and_eq_true, hab, beqAll_iff h.2, List.cons.injEq]

/-- A deep instance of a type without floating-point numbers is equal to itself alone. -/
theorem beq_iff : ∀ {v : Value} {ty : Ty}, ty.isFloatFree → ty.admitsDeep v → ∀ w : Value,
    (v == w) = true ↔ v = w := by
  intro v
  induction v with
  | record r values ih =>
    intro ty hty hv w
    cases ty <;> simp only [Ty.admitsDeep, Bool.false_eq_true] at hv
    case record name fields =>
      obtain ⟨-, hvalues⟩ := (Bool.and_eq_true _ _).mp hv
      have hfields : ∀ field ∈ fields.types, field.isFloatFree := Fields.isFloatFree_iff.mp hty
      have hsome : ∀ v ∈ values, ∃ field : Ty, field.isFloatFree ∧ field.admitsDeep v := by
        refine Outcome.forall_mem_of_forall₂ (Outcome.forall₂_imp_mem
          (Ty.eachDeep_iff.mp hvalues) fun field hmem v hv => ?_)
        exact ⟨field, hfields field hmem, hv⟩
      have heach : ∀ v ∈ values, ∀ w : Value, (v == w) = true ↔ v = w := by
        intro v hmem
        obtain ⟨field, hfield, hv⟩ := hsome v hmem
        exact ih v hmem hfield hv
      cases w with
      | record s others =>
        show (r == s && beqAll values others) = true ↔ _
        rw [Bool.and_eq_true, beq_iff_eq, beqAll_iff heach, Value.record.injEq]
      | _ =>
        show false = true ↔ _
        simp
  | list items ih =>
    intro ty hty hv w
    cases ty <;> simp only [Ty.admitsDeep, Bool.false_eq_true] at hv
    case list item =>
      rw [Ty.allDeep_iff] at hv
      have hitem : item.isFloatFree := hty
      have heach : ∀ v ∈ items, ∀ w : Value, (v == w) = true ↔ v = w := fun v hmem =>
        ih v hmem hitem (hv v hmem)
      cases w with
      | list others =>
        show beqAll items others = true ↔ _
        rw [beqAll_iff heach, Value.list.injEq]
      | _ =>
        show false = true ↔ _
        simp
  | float32 x =>
    intro ty hty hv
    cases ty <;> simp [Ty.admitsDeep, Ty.isFloatFree] at hv hty
  | float64 x =>
    intro ty hty hv
    cases ty <;> simp [Ty.admitsDeep, Ty.isFloatFree] at hv hty
  | _ =>
    intro ty _ _ w
    show beq _ w = true ↔ _
    cases w <;> simp [beq]

theorem equalOn_beq {ty : Ty} (h : ty.isFloatFree) :
    EqualOn fun v : Value => ty.admitsDeep v = true :=
  fun _ w hv _ => beq_iff h hv w

end Value
end SeqQuery
