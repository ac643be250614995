/-
# Values that are well-formed all the way down

`Ty.admits` looks at a record's type and not at what its fields hold. A deep instance of
a type is one whose record fields and list items are, again and again, instances of the
types that were declared for them. A value carries its own depth: one that is a deep
instance of some type is a deep instance of every type that admits it
(`admitsDeep_of_admits`), so a conversion that leaves a value alone keeps it deep.

Key definitions: `Ty.admitsDeep`, `Ty.Narrows`.
Key theorems: `Value.induction`, `Ty.admitsDeep_of_admits`, `Ty.admitsDeep_zero`,
`Ty.admitsDeep_join`.
-/
import Mathlib.Data.List.Forall2
import SeqQuery.Expr.Typing
import SeqQuery.Value.Coercion

namespace SeqQuery

/-- Induction on a value, with the hypothesis for every field of a record and every
item of a list. -/
@[elab_as_elim, induction_eliminator]
theorem Value.induction {motive : Value → Prop}
    (null : motive .null) (bool : ∀ b, motive (.bool b)) (int32 : ∀ n, motive (.int32 n))
    (int64 : ∀ n, motive (.int64 n)) (float32 : ∀ x, motive (.float32 x))
    (float64 : ∀ x, motive (.float64 x)) (string : ∀ s, motive (.string s))
    (timestamp : ∀ ms, motive (.timestamp ms))
    (record : ∀ ty values, (∀ v ∈ values, motive v) → motive (.record ty values))
    (list : ∀ items, (∀ v ∈ items, motive v) → motive (.list items)) : ∀ v, motive v
  | .null => null
  | .bool b => bool b
  | .int32 n => int32 n
  | .int64 n => int64 n
  | .float32 x => float32 x
  | .float64 x => float64 x
  | .string s => string s
  | .timestamp ms => timestamp ms
  | .record ty values =>
    record ty values fun v _ =>
      induction null bool int32 int64 float32 float64 string timestamp record list v
  | .list items =>
    list items fun v _ =>
      induction null bool int32 int64 float32 float64 string timestamp record list v

namespace Ty

mutual

/-- Whether a value is an instance of a type, and everything in it of what was declared
for it. -/
def admitsDeep : Ty → Value → Bool
  | ty, .null => ty.isNullable
  | .bool, .bool _ => true
  | .int32, .int32 _ => true
  | .int64, .int64 _ => true
  | .float32, .float32 _ => true
  | .float64, .float64 _ => true
  | .string, .string _ => true
  | .timestamp, .timestamp _ => true
  | .record name fields, .record r values => r == ⟨name, fields⟩ && eachDeep fields.types values
  | .list item, .list items => allDeep item items
  | _, _ => false

/-- Whether values are deep instances of types one by one. -/
def eachDeep : List Ty → List Value → Bool
  | [], [] => true
  | ty :: tys, v :: vs => admitsDeep ty v && eachDeep tys vs
  | _, _ => false

/-- Whether all values are deep instances of one type. -/
def allDeep : Ty → List Value → Bool
  | _, [] => true
  | ty, v :: vs => admitsDeep ty v && allDeep ty vs

end

theorem eachDeep_cons (ty : Ty) (tys : List Ty) (v : Value) (vs : List Value) :
    eachDeep (ty :: tys) (v :: vs) = (ty.admitsDeep v && eachDeep tys vs) := rfl

theorem eachDeep_iff : ∀ {tys : List Ty} {vs : List Value},
    eachDeep tys vs ↔ List.Forall₂ (fun ty v => ty.admitsDeep v = true) tys vs
  | [], [] => ⟨fun _ => .nil, fun _ => rfl⟩
  | [], _ :: _ => ⟨nofun, nofun⟩
  | _ :: _, [] => ⟨nofun, nofun⟩
  | ty :: tys, v :: vs => by
    rw [eachDeep_cons, Bool.and_eq_true, eachDeep_iff, List.forall₂_cons]

theorem allDeep_cons (ty : Ty) (v : Value) (vs : List Value) :
    allDeep ty (v :: vs) = (ty.admitsDeep v && allDeep ty vs) := rfl

theorem allDeep_iff {ty : Ty} : ∀ {vs : List Value}, allDeep ty vs ↔ ∀ v ∈ vs, ty.admitsDeep v
  | [] => ⟨fun _ => nofun, fun _ => rfl⟩
  | v :: vs => by
    rw [allDeep_cons, Bool.and_eq_true, allDeep_iff, List.forall_mem_cons]

/-! ### Deep instances by type -/

theorem admitsDeep_null {ty : Ty} : ty.admitsDeep .null = ty.isNullable := by
  cases ty <;> rfl

theorem admitsDeep_bool {v : Value} : Ty.bool.admitsDeep v ↔ ∃ b, v = .bool b := by
  constructor
  · intro h
    cases v with
    | bool b => exact ⟨b, rfl⟩
    | _ => cases h
  · rintro ⟨b, rfl⟩
    rfl

theorem admitsDeep_int32 {v : Value} : Ty.int32.admitsDeep v ↔ ∃ n, v = .int32 n := by
  constructor
  · intro h
    cases v with
    | int32 n => exact ⟨n, rfl⟩
    | _ => cases h
  · rintro ⟨n, rfl⟩
    rfl

theorem admitsDeep_int64 {v : Value} : Ty.int64.admitsDeep v ↔ ∃ n, v = .int64 n := by
  constructor
  · intro h
    cases v with
    | int64 n => exact ⟨n, rfl⟩
    | _ => cases h
  · rintro ⟨n, rfl⟩
    rfl

theorem admitsDeep_float32 {v : Value} : Ty.float32.admitsDeep v ↔ ∃ x, v = .float32 x := by
  constructor
  · intro h
    cases v with
    | float32 x => exact ⟨x, rfl⟩
    | _ => cases h
  · rintro ⟨x, rfl⟩
    rfl

theorem admitsDeep_float64 {v : Value} : Ty.float64.admitsDeep v ↔ ∃ x, v = .float64 x := by
  constructor
  · intro h
    cases v with
    | float64 x => exact ⟨x, rfl⟩
    | _ => cases h
  · rintro ⟨x, rfl⟩
    rfl

theorem admitsDeep_timestamp {v : Value} : Ty.timestamp.admitsDeep v ↔ ∃ ms, v = .timestamp ms := by
  constructor
  · intro h
    cases v with
    | timestamp ms => exact ⟨ms, rfl⟩
    | _ => cases h
  · rintro ⟨ms, rfl⟩
    rfl

theorem admitsDeep_nullTy {v : Value} : Ty.null.admitsDeep v ↔ v = .null := by
  constructor
  · intro h
    cases v with
    | null => rfl
    | _ => cases h
  · rintro rfl
    rfl

theorem admitsDeep_string {v : Value} :
    Ty.string.admitsDeep v ↔ v = .null ∨ ∃ s, v = .string s := by
  constructor
  · intro h
    cases v with
    | null => exact .inl rfl
    | string s => exact .inr ⟨s, rfl⟩
    | _ => cases h
  · rintro (rfl | ⟨s, rfl⟩) <;> rfl

theorem admitsDeep_record {r : RecordTy} {v : Value} :
    r.ty.admitsDeep v ↔ v = .null ∨ ∃ vs, v = .record r vs ∧
      List.Forall₂ (fun ty v => ty.admitsDeep v = true) r.fields.types vs := by
  have hrecord : ∀ (s : RecordTy) (vs : List Value),
      r.ty.admitsDeep (.record s vs) = (s == r && eachDeep r.fields.types vs) := fun _ _ => rfl
  constructor
  · intro h
    cases v with
    | null => exact .inl rfl
    | record s vs =>
      rw [hrecord, Bool.and_eq_true, beq_iff_eq, eachDeep_iff] at h
      obtain ⟨rfl, hvs⟩ := h
      exact .inr ⟨vs, rfl, hvs⟩
    | _ => cases h
  · rintro (rfl | ⟨vs, rfl, hvs⟩)
    · rfl
    · rw [hrecord, beq_self_eq_true, Bool.true_and, eachDeep_iff]
      exact hvs

theorem admitsDeep_list {item : Ty} {v : Value} :
    (Ty.list item).admitsDeep v ↔ v = .null ∨ ∃ vs, v = .list vs ∧
      ∀ v ∈ vs, item.admitsDeep v = true := by
  constructor
  · intro h
    cases v with
    | null => exact .inl rfl
    | list vs => exact .inr ⟨vs, rfl, allDeep_iff.mp h⟩
    | _ => cases h
  · rintro (rfl | ⟨vs, rfl, hvs⟩)
    · rfl
    · exact allDeep_iff.mpr hvs

/-! ### Deep and shallow instances -/

theorem admits_of_admitsDeep : ∀ {v : Value} {ty : Ty}, ty.admitsDeep v → ty.admits v := by
  intro v
  induction v with
  | list items ih =>
    intro ty h
    cases ty <;> simp only [admitsDeep, Bool.false_eq_true] at h
    case list item =>
      rw [allDeep_iff] at h
      simp only [admits, List.all_eq_true]
      exact fun v hv => ih v hv (h v hv)
  | record r values =>
    intro ty h
    cases ty <;> simp_all [admitsDeep, admits]
  | _ =>
    intro ty h
    cases ty <;> simp_all [admitsDeep, admits]

/-- A value that is well-formed all the way down for one type is so for every type that
admits it. -/
theorem admitsDeep_of_admits : ∀ {v : Value} {s t : Ty},
    s.admitsDeep v → t.admits v → t.admitsDeep v := by
  intro v
  induction v with
  | list items ih =>
    intro s t hs ht
    cases s <;> simp only [admitsDeep, Bool.false_eq_true] at hs
    case list a =>
      cases t <;> simp only [admits, Bool.false_eq_true, List.all_eq_true] at ht
      case list b =>
        rw [allDeep_iff] at hs
        simp only [admitsDeep, allDeep_iff]
        exact fun v hv => ih v hv (hs v hv) (ht v hv)
  | record r values =>
    intro s t hs ht
    cases s <;> simp only [admitsDeep, Bool.false_eq_true, Bool.and_eq_true, beq_iff_eq] at hs
    case record =>
      cases t <;> simp only [admits, Bool.false_eq_true, beq_iff_eq] at ht
      case record =>
        obtain ⟨hr, hvalues⟩ := hs
        obtain ⟨-, rfl⟩ := RecordTy.mk.inj (hr.symm.trans ht)
        simp only [admitsDeep, ht, beq_self_eq_true, hvalues, Bool.and_self]
  | _ =>
    intro s t hs ht
    cases t <;> simp_all [admitsDeep, admits]

/-- The zero of a type is one of its deep instances. -/
theorem admitsDeep_zero (ty : Ty) : ty.admitsDeep ty.zero := by
  cases ty <;> simp [zero, admitsDeep, isNullable]

/-! ### Types that a value may move to -/

/-- A type says no more than another: it is the same, or it is the type of null alone
where the other has null. -/
def Narrows (narrow wide : Ty) : Prop :=
  narrow = wide ∨ narrow = .null ∧ wide.isNullable

theorem Narrows.refl (ty : Ty) : ty.Narrows ty := .inl rfl

theorem Narrows.admitsDeep {narrow wide : Ty} (h : narrow.Narrows wide) {v : Value}
    (hv : narrow.admitsDeep v) : wide.admitsDeep v := by
  rcases h with rfl | ⟨rfl, hwide⟩
  · exact hv
  · rw [admitsDeep_nullTy] at hv
    rw [hv, admitsDeep_null]
    exact hwide

/-- Joining two types gives the one that the other narrows. -/
theorem join_eq_ok {a b ty : Ty} : a.join b = .ok ty ↔
    (ty = a ∧ b.Narrows a) ∨ (ty = b ∧ a.Narrows b) := by
  constructor
  · intro h
    unfold join at h
    split at h
    · next hab => exact .inl ⟨(Except.ok.inj h).symm, .inl hab.symm⟩
    · split at h
      · next hab => exact .inr ⟨(Except.ok.inj h).symm, .inr hab⟩
      · split at h
        · next hab => exact .inl ⟨(Except.ok.inj h).symm, .inr hab⟩
        · cases h
  · rintro (⟨rfl, rfl | ⟨rfl, hn⟩⟩ | ⟨rfl, rfl | ⟨rfl, hn⟩⟩)
    · simp [join]
    · by_cases hty : ty = .null <;> simp [join, hty, hn]
    · simp [join]
    · by_cases hty : ty = .null
      · simp [join, hty]
      · simp [join, hn, Ne.symm hty]

theorem admitsDeep_join {a b ty : Ty} (h : a.join b = .ok ty) {v : Value}
    (hv : a.admitsDeep v ∨ b.admitsDeep v) : ty.admitsDeep v := by
  rcases join_eq_ok.mp h with ⟨rfl, hb⟩ | ⟨rfl, ha⟩
  · exact hv.elim id hb.admitsDeep
  · exact hv.elim ha.admitsDeep id

end Ty
end SeqQuery
