/-
# New records, field by field

The checks of a new record say that every position is set at most once. So each field
has one source: the argument at its position, the binding whose name is first found
there, or else the zero of its type. `RecordTy.build_getElem?` says that of the record
that is built, repeated field names included.

Key definitions: `RecordTy.boundAt`.
Key theorems: `Fields.indexOf?_inj`, `RecordTy.checkInits_eq_ok`,
`RecordTy.checkBindings_fresh`, `RecordTy.setFields_getElem?`, `RecordTy.build_getElem?`,
`RecordTy.build_deep`.
-/
import SeqQuery.Expr.Substitution
import SeqQuery.Proofs.Deep
import SeqQuery.Proofs.Evaluation

namespace SeqQuery

/-! ### Positions and names -/

theorem exists_of_rel_some {α β : Type} {R : α → β → Prop} {x : Option α} {b : β}
    (h : Option.Rel R x (some b)) : ∃ a, x = some a ∧ R a b := by
  cases h with
  | some hab => exact ⟨_, rfl, hab⟩

theorem rel_or {α β : Type} {R : α → β → Prop} {x x' : Option α} {y y' : Option β}
    (h : Option.Rel R x y) (h' : Option.Rel R x' y') : Option.Rel R (x.or x') (y.or y') := by
  cases h with
  | none => exact h'
  | some h => exact .some h

/-- Two lists are related one by one exactly when they are at every position. -/
theorem forall₂_iff_getElem? {α β : Type} {R : α → β → Prop} : ∀ {as : List α} {bs : List β},
    List.Forall₂ R as bs ↔ ∀ i : Nat, Option.Rel R as[i]? bs[i]?
  | [], [] => by simp
  | [], b :: bs => by
    constructor
    · intro h
      cases h
    · intro h
      nomatch (h 0 : Option.Rel R none (some b))
  | a :: as, [] => by
    constructor
    · intro h
      cases h
    · intro h
      nomatch (h 0 : Option.Rel R (some a) none)
  | a :: as, b :: bs => by
    rw [List.forall₂_cons, forall₂_iff_getElem?]
    constructor
    · rintro ⟨hab, hrest⟩ (_ | i)
      · exact .some hab
      · exact hrest i
    · intro h
      refine ⟨?_, fun i => h (i + 1)⟩
      cases h 0 with
      | some hab => exact hab

namespace Fields

theorem indexOf?_lt {name : String} : ∀ {fs : Fields} {i : Nat},
    fs.indexOf? name = some i → i < fs.length
  | .nil, i, h => by simp [indexOf?] at h
  | .cons n ty rest, i, h => by
    by_cases hn : n = name
    · simp only [indexOf?, hn, if_true, Option.some.injEq] at h
      simp [length, ← h]
    · simp only [indexOf?, if_neg hn, Option.map_eq_some_iff] at h
      obtain ⟨j, hj, rfl⟩ := h
      have := indexOf?_lt hj
      simp [length, this]

/-- Two names that are found at one position are the same. -/
theorem indexOf?_inj {a b : String} : ∀ {fs : Fields} {i : Nat},
    fs.indexOf? a = some i → fs.indexOf? b = some i → a = b
  | .nil, i, ha, _ => by simp [indexOf?] at ha
  | .cons n ty rest, i, ha, hb => by
    rw [indexOf?] at ha hb
    by_cases hna : n = a <;> by_cases hnb : n = b
    · exact hna.symm.trans hnb
    · rw [if_pos hna] at ha
      rw [if_neg hnb, Option.map_eq_some_iff] at hb
      obtain ⟨_, _, rfl⟩ := hb
      simp at ha
    · rw [if_neg hna, Option.map_eq_some_iff] at ha
      rw [if_pos hnb] at hb
      obtain ⟨_, _, rfl⟩ := ha
      simp at hb
    · rw [if_neg hna, Option.map_eq_some_iff] at ha
      rw [if_neg hnb, Option.map_eq_some_iff] at hb
      obtain ⟨j, hj, rfl⟩ := ha
      obtain ⟨k, hk, hkj⟩ := hb
      obtain rfl : k = j := Nat.succ.inj hkj
      exact indexOf?_inj hj hk

theorem find?_eq_some {name : String} {fs : Fields} {ty : Ty} :
    fs.find? name = some ty ↔ ∃ i, fs.indexOf? name = some i ∧ fs.types[i]? = some ty := by
  rw [find?_eq_bind_indexOf?, Option.bind_eq_some_iff]

end Fields

/-- A record has a member exactly when it has a value at the position of the name. -/
theorem Value.readMember_record {r : RecordTy} {values : List Value} {name : String} {i : Nat}
    (hi : r.fields.indexOf? name = some i) {v : Value} :
    (Value.record r values).readMember name = .ok v ↔ values[i]? = some v := by
  have hfield : Value.field? name (.record r values) = values[i]? := by
    rw [field?, hi, Option.bind_some]
  rw [readMember, hfield]
  cases values[i]? <;> simp

theorem names_eq_of_forall₂ {α β : Type} {R : String × α → String × β → Prop}
    {as : List (String × α)} {bs : List (String × β)} (h : List.Forall₂ R as bs)
    (hR : ∀ a b, R a b → a.1 = b.1) : as.map (·.1) = bs.map (·.1) := by
  rw [← List.forall₂_eq_eq_eq, List.forall₂_map_left_iff, List.forall₂_map_right_iff]
  exact h.imp hR

/-! ### The checks of a new record -/

/-- A field can be set from any type that narrows its own. -/
theorem Ty.checkInit_eq_ok {field init : Ty} :
    field.checkInit init = .ok () ↔ init.Narrows field := by
  rw [checkInit, Outcome.bind_eq_ok]
  constructor
  · rintro ⟨joined, hjoin, h⟩
    split at h
    · next hf =>
      subst hf
      rcases join_eq_ok.mp hjoin with ⟨-, h⟩ | ⟨rfl, -⟩
      · exact h
      · exact .refl _
    · cases h
  · intro h
    exact ⟨field, join_eq_ok.mpr (.inl ⟨rfl, h⟩), by simp⟩

theorem checkArgs_eq_ok : ∀ {fields args : List Ty}, args.length ≤ fields.length →
    (checkArgs fields args = .ok () ↔
      List.Forall₂ Ty.Narrows args (fields.take args.length))
  | fields, [], _ => by cases fields <;> simp [checkArgs]
  | [], _ :: _, h => by simp at h
  | field :: fields, arg :: args, h => by
    have hlen : args.length ≤ fields.length := by simpa using h
    rw [checkArgs, Outcome.check_bind_eq_ok, Ty.checkInit_eq_ok, checkArgs_eq_ok hlen]
    simp

namespace RecordTy

variable {record : RecordTy}

theorem checkBindings_cons {positional : Nat} {bound : List Nat} {name : String} {init : Ty}
    {rest : List (String × Ty)} :
    record.checkBindings positional bound ((name, init) :: rest) = .ok () ↔
      ∃ i field, record.fields.indexOf? name = some i ∧ record.fields.find? name = some field ∧
        positional ≤ i ∧ i ∉ bound ∧ init.Narrows field ∧
        record.checkBindings positional (i :: bound) rest = .ok () := by
  rw [checkBindings]
  cases hi : record.fields.indexOf? name with
  | none => simp
  | some i =>
    cases hf : record.fields.find? name with
    | none => simp
    | some field =>
      by_cases hp : i < positional
      · simp [hp, Outcome.error_bind, Nat.not_le.mpr hp]
      · by_cases hb : i ∈ bound
        · simp [hp, hb, Outcome.error_bind]
        · simp [hp, hb, Outcome.check_bind_eq_ok, Ty.checkInit_eq_ok,
            Nat.le_of_not_lt hp]

/-- A binding sets a position that no argument and no earlier binding sets. -/
theorem checkBindings_fresh {positional : Nat} {name : String} {i : Nat}
    (hi : record.fields.indexOf? name = some i) :
    ∀ {bound : List Nat} {bindings : List (String × Ty)},
      record.checkBindings positional bound bindings = .ok () → name ∈ bindings.map (·.1) →
      positional ≤ i ∧ i ∉ bound
  | _, [], _, hmem => by simp at hmem
  | bound, (name', init) :: rest, h, hmem => by
    obtain ⟨j, field, hj, -, hp, hb, -, hrest⟩ := checkBindings_cons.mp h
    rcases List.mem_cons.mp hmem with rfl | hmem
    · obtain rfl := Option.some.inj (hi.symm.trans hj)
      exact ⟨hp, hb⟩
    · have ⟨hp', hb'⟩ := checkBindings_fresh hi hrest hmem
      exact ⟨hp', fun h => hb' (List.mem_cons_of_mem _ h)⟩

/-- A binding sets a field from a type that narrows the field's. -/
theorem narrows_of_checkBindings {positional : Nat} {name : String} {init : Ty} :
    ∀ {bound : List Nat} {bindings : List (String × Ty)},
      record.checkBindings positional bound bindings = .ok () → (name, init) ∈ bindings →
      ∃ i field, record.fields.indexOf? name = some i ∧ record.fields.types[i]? = some field ∧
        init.Narrows field
  | _, [], _, hmem => by simp at hmem
  | bound, (name', init') :: rest, h, hmem => by
    obtain ⟨i, field, hi, hf, -, -, hnarrow, hrest⟩ := checkBindings_cons.mp h
    rcases List.mem_cons.mp hmem with heq | hmem
    · obtain ⟨rfl, rfl⟩ := Prod.mk.inj heq
      obtain ⟨j, hj, hty⟩ := Fields.find?_eq_some.mp hf
      obtain rfl := Option.some.inj (hi.symm.trans hj)
      exact ⟨i, field, hi, hty, hnarrow⟩
    · exact narrows_of_checkBindings hrest hmem

theorem checkInits_eq_ok {args : List Ty} {bindings : List (String × Ty)} :
    record.checkInits args bindings = .ok () ↔
      args.length ≤ record.fields.length ∧
        List.Forall₂ Ty.Narrows args (record.fields.types.take args.length) ∧
        record.checkBindings args.length [] bindings = .ok () := by
  rw [checkInits]
  by_cases hlen : record.fields.length < args.length
  · simp [hlen, Outcome.error_bind, Nat.not_le.mpr hlen]
  · have hle : args.length ≤ record.fields.length := Nat.le_of_not_lt hlen
    simp only [hlen, if_false, Outcome.check_bind_eq_ok, hle, true_and]
    rw [checkArgs_eq_ok (by simpa using hle)]

/-! ### The record that is built -/

/-- The value that bindings give to a position. -/
def boundAt (record : RecordTy) {α : Type} (bindings : List (String × α)) (i : Nat) : Option α :=
  (bindings.find? fun b => record.fields.indexOf? b.1 == some i).map (·.2)

theorem boundAt_cons {α : Type} (name : String) (a : α) (rest : List (String × α)) (i : Nat) :
    record.boundAt ((name, a) :: rest) i =
      if record.fields.indexOf? name = some i then some a else record.boundAt rest i := by
  by_cases h : record.fields.indexOf? name = some i <;> simp [boundAt, h]

/-- A position that the bindings do not reach has no value from them. -/
theorem boundAt_eq_none {α : Type} {bindings : List (String × α)} {i : Nat}
    (h : ∀ name ∈ bindings.map (·.1), record.fields.indexOf? name ≠ some i) :
    record.boundAt bindings i = none := by
  simpa [boundAt] using h

theorem boundAt_eq_some {α : Type} {bindings : List (String × α)} {i : Nat} {a : α}
    (h : record.boundAt bindings i = some a) :
    ∃ name, (name, a) ∈ bindings ∧ record.fields.indexOf? name = some i := by
  rw [boundAt, Option.map_eq_some_iff] at h
  obtain ⟨⟨name, _⟩, hfind, rfl⟩ := h
  exact ⟨name, List.mem_of_find?_eq_some hfind, by simpa using List.find?_some hfind⟩

/-- Bindings of the same names bind related things at every position if they do for
every name. -/
theorem boundAt_rel {α β : Type} {R : α → β → Prop} (i : Nat) :
    ∀ {as : List (String × α)} {bs : List (String × β)},
      List.Forall₂ (fun a b => a.1 = b.1 ∧ R a.2 b.2) as bs →
      Option.Rel R (record.boundAt as i) (record.boundAt bs i)
  | [], [], .nil => .none
  | (name, a) :: as, (name', b) :: bs, .cons ⟨hname, hab⟩ hrest => by
    obtain rfl : name = name' := hname
    rw [boundAt_cons, boundAt_cons]
    by_cases hi : record.fields.indexOf? name = some i
    · rw [if_pos hi, if_pos hi]
      exact .some hab
    · rw [if_neg hi, if_neg hi]
      exact boundAt_rel i hrest

/-- What is bound at the position of a name is what is bound to the name. -/
theorem boundAt_indexOf? {α : Type} {name : String} {i : Nat}
    (hi : record.fields.indexOf? name = some i) : ∀ bindings : List (String × α),
    record.boundAt bindings i = bindings.lookup name
  | [] => rfl
  | (name', a) :: rest => by
    rw [boundAt_cons, boundAt_indexOf? hi rest, List.lookup_cons]
    by_cases h : name = name'
    · subst h
      simp [hi]
    · have hne : record.fields.indexOf? name' ≠ some i :=
        fun h' => h (Fields.indexOf?_inj hi h')
      simp [hne, beq_false_of_ne h]

/-- Setting fields by name gives every position what is bound there, and else leaves it. -/
theorem setFields_getElem? {positional : Nat} : ∀ {bound : List Nat}
    {bindings : List (String × Ty)} {ws : List (String × Value)} {values : List Value},
    record.checkBindings positional bound bindings = .ok () →
    bindings.map (·.1) = ws.map (·.1) → record.fields.length ≤ values.length →
    ∃ result, record.setFields values ws = .ok result ∧ result.length = values.length ∧
      ∀ i, result[i]? = (record.boundAt ws i).or values[i]?
  | _, [], [], values, _, _, _ => ⟨values, rfl, rfl, fun i => by simp [boundAt]⟩
  | _, [], _ :: _, _, _, hnames, _ => by simp at hnames
  | _, _ :: _, [], _, _, hnames, _ => by simp at hnames
  | bound, (name, init) :: bindings, (name', w) :: ws, values, h, hnames, hlen => by
    obtain ⟨rfl, hrestNames⟩ : name = name' ∧ bindings.map (·.1) = ws.map (·.1) := by
      simpa using hnames
    obtain ⟨j, field, hj, -, -, -, -, hrest⟩ := checkBindings_cons.mp h
    have hroom : record.fields.length ≤ (values.set j w).length := by
      rw [List.length_set]
      exact hlen
    obtain ⟨result, hresult, hsize, hget⟩ := setFields_getElem? hrest hrestNames hroom
    refine ⟨result, by rw [setFields, hj]; exact hresult, by simpa using hsize, fun i => ?_⟩
    rw [hget, boundAt_cons]
    by_cases hij : i = j
    · subst hij
      have hnone : record.boundAt ws i = none := by
        refine boundAt_eq_none fun name' hmem hname' => ?_
        have := (checkBindings_fresh hname' hrest (hrestNames ▸ hmem)).2
        exact this List.mem_cons_self
      have hi : i < values.length := Nat.lt_of_lt_of_le (Fields.indexOf?_lt hj) hlen
      simp [hnone, hj, hi]
    · have hne : ¬ some j = some i := fun h => hij (Option.some.inj h).symm
      rw [hj, if_neg hne, List.getElem?_set_ne (Ne.symm hij)]

/-- A new record has at each position the argument there, else what is bound there,
else the zero of the field's type. -/
theorem build_getElem? {args : List Ty} {bindings : List (String × Ty)} {vs : List Value}
    {ws : List (String × Value)} (h : record.checkInits args bindings = .ok ())
    (hargs : args.length = vs.length) (hnames : bindings.map (·.1) = ws.map (·.1)) :
    ∃ values, record.build vs ws = .ok (.record record values) ∧
      ∀ i, values[i]? =
        ((vs[i]?).or (record.boundAt ws i)).or (record.fields.types[i]?.map Ty.zero) := by
  obtain ⟨hle, -, hbindings⟩ := checkInits_eq_ok.mp h
  rw [hargs] at hle hbindings
  set start := vs ++ (record.fields.types.map Ty.zero).drop vs.length with hstart
  have hlen : start.length = record.fields.length := by simp [hstart]; omega
  obtain ⟨values, hset, hsize, hget⟩ := setFields_getElem? hbindings hnames (Nat.le_of_eq hlen.symm)
  refine ⟨values, ?_, fun i => ?_⟩
  · simp [build, ← hstart, hset, Outcome.ok_bind, Value.ofRecord?, hsize, hlen, Except.mapError]
  · rw [hget]
    by_cases hi : i < vs.length
    · have hnone : record.boundAt ws i = none := by
        refine boundAt_eq_none fun name hmem hname => ?_
        have := (checkBindings_fresh hname hbindings (hnames ▸ hmem)).1
        omega
      simp [hnone, hstart, List.getElem?_append_left hi, hi]
    · have hvs : vs[i]? = none := by simpa using hi
      have hrest : start[i]? = record.fields.types[i]?.map Ty.zero := by
        rw [hstart, List.getElem?_append_right (Nat.le_of_not_lt hi)]
        simp [Nat.le_of_not_lt hi]
      simp [hvs, hrest]

/-- A new record of deep instances is made and is itself deep. -/
theorem build_deep {args : List Ty} {bindings : List (String × Ty)} {vs : List Value}
    {ws : List (String × Value)} (h : record.checkInits args bindings = .ok ())
    (hvs : List.Forall₂ (fun ty v => ty.admitsDeep v = true) args vs)
    (hws : List.Forall₂ (fun b w => b.1 = w.1 ∧ b.2.admitsDeep w.2 = true) bindings ws) :
    ∃ v, record.build vs ws = .ok v ∧ record.ty.admitsDeep v := by
  have hnames := names_eq_of_forall₂ hws fun _ _ h => h.1
  obtain ⟨values, hbuild, hget⟩ := build_getElem? h hvs.length_eq hnames
  obtain ⟨hle, hargs, hbindings⟩ := checkInits_eq_ok.mp h
  refine ⟨_, hbuild, Ty.admitsDeep_record.mpr (.inr ⟨values, rfl, ?_⟩)⟩
  have hlen := hvs.length_eq
  rw [forall₂_iff_getElem?] at hargs hvs ⊢
  intro i
  rw [hget]
  cases hty : record.fields.types[i]? with
  | none =>
    have hi : record.fields.length ≤ i := by simpa using hty
    have hv : vs[i]? = none := List.getElem?_eq_none (by omega)
    have hw : record.boundAt ws i = none := by
      refine boundAt_eq_none fun name _ hname => ?_
      exact Nat.not_lt.mpr hi (Fields.indexOf?_lt hname)
    simp [hv, hw]
  | some field =>
    cases hv : vs[i]? with
    | some v =>
      -- the argument at the position
      obtain ⟨arg, harg, hdeep⟩ := exists_of_rel_some (hv ▸ hvs i)
      have hi : i < args.length := (List.getElem?_eq_some_iff.mp harg).1
      have hnarrow := hargs i
      rw [harg, List.getElem?_take_of_lt hi, hty] at hnarrow
      exact .some ((Option.rel_some_some.mp hnarrow).admitsDeep hdeep)
    | none =>
      cases hw : record.boundAt ws i with
      | some w =>
        -- the binding of the name that stands there
        have hrel : Option.Rel (fun ty v => ty.admitsDeep v = true) (record.boundAt bindings i)
            (record.boundAt ws i) := boundAt_rel i hws
        obtain ⟨init, hinit, hdeep⟩ := exists_of_rel_some (hw ▸ hrel)
        obtain ⟨name, hmem, hname⟩ := boundAt_eq_some hinit
        obtain ⟨j, field', hj, hty', hnarrow⟩ := narrows_of_checkBindings hbindings hmem
        obtain rfl : i = j := Option.some.inj (hname.symm.trans hj)
        obtain rfl : field = field' := Option.some.inj (hty.symm.trans hty')
        exact .some (hnarrow.admitsDeep hdeep)
      | none => exact .some (Ty.admitsDeep_zero field)

end RecordTy
end SeqQuery
