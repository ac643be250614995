/-
# The types of composed projections

A composition of two projections has exactly the type of the second when whatever sets a
field of a new record has the type of the field or is an untyped null. The expression that
replaces a member of a new record then has the type of the member
(`Expr.readMember_takesPlace`), so that every typing rule accepts what is put in the place
of a parameter and gives the type that it gave before (`Expr.subst_takesPlace`).

What is null without being a constant, such as a choice between two nulls, is accepted as
the setting of a field as well, and keeps its own type when the field is read from it. Then
a composition has another type than its second projection, or none at all
(`Query.select_returnTy_untyped`).

Key definitions: `RecordTy.setter?`, `Expr.Fills`, `Expr.TakesPlace`, `Lambda.SetsFields`,
`Query.IsExact`.
Key theorems: `RecordTy.initOf_of_fills`, `Expr.subst_takesPlace`, `Expr.IsExact.fold`,
`Lambda.IsExact.andThen`, `Query.IsExact.step`, `Query.select_returnTy`.
-/
import SeqQuery.Proofs.Joining
import SeqQuery.Proofs.Steps

namespace SeqQuery

/-! ### What sets a field -/

/-- The expression that sets a field of a new record, if there is one. -/
def RecordTy.setter? (record : RecordTy) (args : List Expr) (bindings : List (String × Expr))
    (name : String) : Option Expr :=
  (record.fields.indexOf? name).bind fun i => (args[i]?).or (bindings.lookup name)

/-- Whether an expression can be read in the place of a field of a type: it has the type, or
it is an untyped null, which takes it. -/
def Expr.Fills (field : Ty) (e : Expr) : Prop :=
  e.ty = field ∨ e = .const .null .null

namespace RecordTy

variable {record : RecordTy} {args args' : List Expr} {bindings bindings' : List (String × Expr)}
  {name : String}

theorem setter?_mem {init : Expr} (h : record.setter? args bindings name = some init) :
    init ∈ args ∨ ∃ b ∈ bindings, b.2 = init := by
  obtain ⟨i, hi, h⟩ := Option.bind_eq_some_iff.mp h
  rcases Option.or_eq_some_iff.mp h with h | ⟨-, h⟩
  · exact .inl (List.mem_of_getElem? h)
  · rw [← boundAt_indexOf? hi] at h
    obtain ⟨m, hmem, -⟩ := boundAt_eq_some h
    exact .inr ⟨_, hmem, rfl⟩

/-- Records of related arguments and bindings have related settings of their fields. -/
theorem setter?_rel {R : Expr → Expr → Prop} (hargs : List.Forall₂ R args args')
    (hbindings : List.Forall₂ (fun b c => b.1 = c.1 ∧ R b.2 c.2) bindings bindings') :
    Option.Rel R (record.setter? args bindings name) (record.setter? args' bindings' name) := by
  unfold setter?
  cases hi : record.fields.indexOf? name with
  | none => exact .none
  | some i =>
    have hbinding : Option.Rel R (record.boundAt bindings i) (record.boundAt bindings' i) :=
      boundAt_rel i hbindings
    rw [boundAt_indexOf? hi, boundAt_indexOf? hi] at hbinding
    exact rel_or (forall₂_iff_getElem?.mp hargs i) hbinding

/-- A field that nothing sets, or that is set by what can be read in its place, is read as
an expression of its type. -/
theorem initOf_of_fills {field : Ty} (hfield : record.fields.find? name = some field)
    (hfills : ∀ init, record.setter? args bindings name = some init →
      init.ty.Narrows field ∧ init.Fills field) :
    ∃ e, record.initOf args bindings name = .ok e ∧ e.ty = field ∧
      ((∃ v, e = .const v field) ∨ record.setter? args bindings name = some e) := by
  obtain ⟨i, hi, -⟩ := Fields.find?_eq_some.mp hfield
  simp only [setter?, hi, Option.bind_some] at hfills ⊢
  simp only [initOf, hi, hfield]
  cases hinit : (args[i]?).or (bindings.lookup name) with
  | none =>
    exact ⟨_, Expr.mkConst_eq_ok.mpr ⟨Ty.admits_zero field, rfl⟩, rfl, .inl ⟨_, rfl⟩⟩
  | some init =>
    obtain ⟨hnarrow, rfl | rfl⟩ := hfills init hinit
    · refine ⟨init, ?_, rfl, .inr rfl⟩
      cases init with
      | const v ty => exact if_pos rfl
      | _ => rfl
    · -- an untyped null is retyped, unless the field is one of nulls
      by_cases hnull : Ty.null = field
      · exact ⟨_, if_pos hnull, hnull, .inr rfl⟩
      · have hadmits : field.admits .null := by
          rcases hnarrow with h | ⟨-, h⟩
          · exact absurd h hnull
          · cases field <;> exact h
        refine ⟨_, ?_, rfl, .inl ⟨.null, rfl⟩⟩
        simp only [if_neg hnull]
        exact Expr.mkConst_eq_ok.mpr ⟨hadmits, rfl⟩

end RecordTy

/-! ### Exact expressions -/

namespace Expr

variable {types : Nat → Ty}

/-- Whether a parameter has the type that goes with its identity, and what sets a field of
a new record can be read in its place. -/
def IsExactAt (types : Nat → Ty) : Expr → Prop
  | .param p => p.IsTyped types
  | .construct record args bindings => ∀ name field init, record.fields.find? name = some field →
      record.setter? args bindings name = some init → init.Fills field
  | _ => True

/-- Well-typed, and with fields that are set by what can be read in their place. -/
structure IsExact (types : Nat → Ty) (e : Expr) : Prop where
  checked : e.Checked
  exact : e.All (IsExactAt types)

/-- An expression that can stand in the place of another, whatever is around it. -/
structure TakesPlace (types : Nat → Ty) (m e : Expr) : Prop extends m.IsExact types where
  ty : m.ty = e.ty
  null : e = .const .null .null → m = .const .null .null

theorem TakesPlace.fills {m e : Expr} (h : m.TakesPlace types e) (field : Ty)
    (he : e.Fills field) : m.Fills field := by
  rcases he with he | he
  · exact .inl (h.ty.trans he)
  · exact .inr (h.null he)

theorem isExactAt_construct {record : RecordTy} {es ms : List Expr} {bs cs : List (String × Expr)}
    (h : IsExactAt types (.construct record es bs))
    (hargs : List.Forall₂ (fun e m => ∀ field, e.Fills field → m.Fills field) es ms)
    (hbindings : List.Forall₂ (fun b c => b.1 = c.1 ∧ ∀ field, b.2.Fills field → c.2.Fills field)
      bs cs) : IsExactAt types (.construct record ms cs) := by
  intro name field init hfield hinit
  have hrel : Option.Rel _ (record.setter? es bs name) (record.setter? ms cs name) :=
    RecordTy.setter?_rel hargs hbindings
  rw [hinit] at hrel
  obtain ⟨e, he, hfills⟩ := exists_of_rel_some hrel
  exact hfills field (h name field e hfield he)

theorem IsExact.construct {record : RecordTy} {args : List Expr} {bindings : List (String × Expr)}
    (h : (Expr.construct record args bindings).IsExact types) :
    IsExactAt types (.construct record args bindings) ∧ (∀ e ∈ args, e.IsExact types) ∧
      ∀ b ∈ bindings, b.2.IsExact types := by
  obtain ⟨hself, hargs, hbindings⟩ := all_construct.mp h.exact
  obtain ⟨hcargs, hcbindings, -⟩ := h.checked
  exact ⟨hself, fun e he => ⟨checkedAll_iff.mp hcargs e he, hargs e he⟩,
    fun b hb => ⟨checkedBindings_iff.mp hcbindings b hb, hbindings b hb⟩⟩

/-! ### Folding -/

/-- Folding keeps expressions exact. -/
theorem IsExact.fold {e : Expr} (h : e.IsExact types) : e.fold.IsExact types := by
  refine ⟨(fold_checked h.checked).1, ?_⟩
  refine fold_bottomUp.all ?_ finish_checked ?_ e h.checked h.exact
  · intro e hc he
    have hfills : ∀ c ∈ e.children, ∀ field, c.Fills field → c.fold.Fills field := by
      rintro c hmem field (hty | rfl)
      · exact .inl ((fold_checked (hc.child c hmem)).2.trans hty)
      · exact .inr rfl
    cases e with
    | construct record es bs =>
      refine isExactAt_construct he ?_ ?_
      · rw [List.forall₂_map_right_iff, List.forall₂_same]
        exact fun e he => hfills e (List.mem_append_left _ he)
      · rw [List.forall₂_map_right_iff, List.forall₂_same]
        exact fun b hb => ⟨rfl, hfills b.2 (List.mem_append_right _ (List.mem_map_of_mem hb))⟩
    | _ => exact he
  · exact fun e _ => finish_all_of (fun _ _ => trivial) fun _ _ _ _ => trivial

/-! ### Nodes over what takes the place of their parts -/

/-- Reading a member of what takes the place of a target gives what takes the place of the
member. -/
theorem readMember_takesPlace {t e : Expr} {name : String} {ty : Ty} (ht : t.TakesPlace types e)
    (hty : e.ty.memberTy name = .ok ty) :
    ∃ m, t.readMember name = .ok m ∧ m.TakesPlace types (.member e name ty) := by
  rw [← ht.ty] at hty
  cases t with
  | construct record args bindings =>
    obtain ⟨hself, hargs, hbindings⟩ := ht.toIsExact.construct
    obtain ⟨r, hr, hfield⟩ := Ty.memberTy_eq_ok.mp hty
    obtain rfl : record = r := by cases record; cases r; cases hr; rfl
    have hfills : ∀ init, record.setter? args bindings name = some init →
        init.ty.Narrows ty ∧ init.Fills ty := by
      intro init hinit
      obtain ⟨i, hi, htypes⟩ := Fields.find?_eq_some.mp hfield
      have hsource : (args[i]?).or (bindings.lookup name) = some init := by
        simpa [RecordTy.setter?, hi] using hinit
      exact ⟨(RecordTy.narrows_of_source ht.checked.2.2 hi htypes hsource).2,
        hself name ty init hfield hinit⟩
    obtain ⟨m, hm, hmty, hset⟩ := RecordTy.initOf_of_fills hfield hfills
    refine ⟨m, hm, ?_, hmty, nofun⟩
    rcases hset with ⟨v, rfl⟩ | hset
    · exact ⟨trivial, all_const.mpr trivial⟩
    · rcases RecordTy.setter?_mem hset with hmem | ⟨b, hb, rfl⟩
      · exact hargs m hmem
      · exact hbindings b hb
  | _ =>
    exact ⟨_, mkMember_eq_ok.mpr ⟨ty, hty, rfl⟩,
      ⟨⟨ht.checked, hty⟩, all_member.mpr ⟨trivial, ht.exact⟩⟩, rfl, nofun⟩

theorem mkUnary_takesPlace {op : UnaryOp} {t e : Expr} {ty : Ty} (ht : t.TakesPlace types e)
    (hty : op.resultTy e.ty = .ok ty) :
    ∃ m, mkUnary op t = .ok m ∧ m.TakesPlace types (.unary op e ty) := by
  rw [← ht.ty] at hty
  exact ⟨_, mkUnary_eq_ok.mpr ⟨ty, hty, rfl⟩,
    ⟨⟨ht.checked, hty⟩, all_unary.mpr ⟨trivial, ht.exact⟩⟩, rfl, nofun⟩

theorem mkBinary_takesPlace {op : BinaryOp} {l' l r' r : Expr} {ty : Ty}
    (hl : l'.TakesPlace types l) (hr : r'.TakesPlace types r)
    (hty : op.resultTy l.ty r.ty = .ok ty) :
    ∃ m, mkBinary op l' r' = .ok m ∧ m.TakesPlace types (.binary op l r ty) := by
  rw [← hl.ty, ← hr.ty] at hty
  exact ⟨_, mkBinary_eq_ok.mpr ⟨ty, hty, rfl⟩,
    ⟨⟨hl.checked, hr.checked, hty⟩, all_binary.mpr ⟨trivial, hl.exact, hr.exact⟩⟩, rfl, nofun⟩

theorem mkCond_takesPlace {t' t a' a b' b : Expr} {ty : Ty} (ht : t'.TakesPlace types t)
    (ha : a'.TakesPlace types a) (hb : b'.TakesPlace types b) (htest : t.ty = .bool)
    (hty : a.ty.join b.ty = .ok ty) :
    ∃ m, mkCond t' a' b' = .ok m ∧ m.TakesPlace types (.cond t a b ty) := by
  rw [← ht.ty] at htest
  rw [← ha.ty, ← hb.ty] at hty
  exact ⟨_, mkCond_eq_ok.mpr ⟨htest, ty, hty, rfl⟩,
    ⟨⟨ht.checked, ha.checked, hb.checked, htest, hty⟩,
      all_cond.mpr ⟨trivial, ht.exact, ha.exact, hb.exact⟩⟩, rfl, nofun⟩

theorem map_ty_eq {es ms : List Expr} (h : List.Forall₂ (fun e m => m.TakesPlace types e) es ms) :
    ms.map Expr.ty = es.map Expr.ty := by
  rw [← List.forall₂_eq_eq_eq, List.forall₂_map_left_iff, List.forall₂_map_right_iff]
  exact (h.imp fun _ _ h => h.ty).flip

theorem mkCallOf_takesPlace {method : Method} {es ms : List Expr} {ty : Ty}
    (h : List.Forall₂ (fun e m => m.TakesPlace types e) es ms)
    (hty : method.resultTy (method.split (es.map Expr.ty)).1 (method.split (es.map Expr.ty)).2 =
      .ok ty) :
    ∃ m, mkCallOf method ms = .ok m ∧ m.TakesPlace types (.call method es ty) := by
  rw [← map_ty_eq h] at hty
  have hexact : ∀ m ∈ ms, m.IsExact types := Outcome.forall_mem_of_forall₂
    (h.imp fun _ _ h => h.toIsExact)
  exact ⟨_, mkCallOf_eq_ok.mpr ⟨ty, hty, rfl⟩,
    ⟨⟨checkedAll_iff.mpr fun m hm => (hexact m hm).checked, hty⟩,
      all_call.mpr ⟨trivial, fun m hm => (hexact m hm).exact⟩⟩, rfl, nofun⟩

theorem mkConstruct_takesPlace {record : RecordTy} {es ms : List Expr}
    {bs cs : List (String × Expr)} (h : (Expr.construct record es bs).IsExact types)
    (hargs : List.Forall₂ (fun e m => m.TakesPlace types e) es ms)
    (hbindings : List.Forall₂ (fun b c => b.1 = c.1 ∧ c.2.TakesPlace types b.2) bs cs) :
    ∃ m, mkConstruct record ms cs = .ok m ∧ m.TakesPlace types (.construct record es bs) := by
  have hinits := h.checked.2.2
  rw [← map_ty_eq hargs, ← map_named_ty_eq (hbindings.imp fun _ _ h => ⟨h.1, h.2.ty⟩)] at hinits
  have hexact : ∀ m ∈ ms, m.IsExact types := Outcome.forall_mem_of_forall₂
    (hargs.imp fun _ _ h => h.toIsExact)
  have hbexact : ∀ c ∈ cs, c.2.IsExact types := Outcome.forall_mem_of_forall₂
    (hbindings.imp fun _ _ h => h.2.toIsExact)
  have hself : IsExactAt types (.construct record ms cs) :=
    isExactAt_construct h.construct.1 (hargs.imp fun _ _ h => h.fills)
      (hbindings.imp fun _ _ h => ⟨h.1, h.2.fills⟩)
  refine ⟨_, mkConstruct_eq_ok.mpr ⟨hinits, rfl⟩, ⟨⟨?_, ?_, hinits⟩, ?_⟩, rfl, nofun⟩
  · exact checkedAll_iff.mpr fun m hm => (hexact m hm).checked
  · exact checkedBindings_iff.mpr fun c hc => (hbexact c hc).checked
  · exact all_construct.mpr ⟨hself, fun m hm => (hexact m hm).exact,
      fun c hc => (hbexact c hc).exact⟩

/-! ### Substitution -/

/-- Putting an exact expression in the place of a parameter of its type is never refused,
and gives an exact expression of the type of the original. -/
theorem subst_takesPlace {id : Nat} {image : Expr} (himage : image.IsExact types)
    (hid : image.ty = types id) (e : Expr) :
    e.IsExact types → ∃ m, subst id image e = .ok m ∧ m.TakesPlace types e := by
  induction e with
  | const v ty => exact fun he => ⟨_, rfl, he, rfl, fun h => h⟩
  | param p =>
    intro he
    have hp : p.ty = types p.id := all_param.mp he.exact
    by_cases h : p.id = id
    · refine ⟨image, congrArg Except.ok (if_pos h), himage, ?_, nofun⟩
      exact hid.trans (h ▸ hp.symm)
    · exact ⟨.param p, congrArg Except.ok (if_neg h), he, rfl, nofun⟩
  | member e name ty ih =>
    intro he
    obtain ⟨-, hall⟩ := all_member.mp he.exact
    obtain ⟨t, ht, htakes⟩ := ih ⟨he.checked.1, hall⟩
    obtain ⟨m, hm, hmtakes⟩ := readMember_takesPlace htakes he.checked.2
    exact ⟨m, Outcome.bind_eq_ok.mpr ⟨t, ht, hm⟩, hmtakes⟩
  | unary op e ty ih =>
    intro he
    obtain ⟨-, hall⟩ := all_unary.mp he.exact
    obtain ⟨t, ht, htakes⟩ := ih ⟨he.checked.1, hall⟩
    obtain ⟨m, hm, hmtakes⟩ := mkUnary_takesPlace htakes he.checked.2
    exact ⟨m, Outcome.bind_eq_ok.mpr ⟨t, ht, hm⟩, hmtakes⟩
  | binary op l r ty ihl ihr =>
    intro he
    obtain ⟨-, hl, hr⟩ := all_binary.mp he.exact
    obtain ⟨hcl, hcr, hty⟩ := he.checked
    obtain ⟨l', hl', hltakes⟩ := ihl ⟨hcl, hl⟩
    obtain ⟨r', hr', hrtakes⟩ := ihr ⟨hcr, hr⟩
    obtain ⟨m, hm, hmtakes⟩ := mkBinary_takesPlace hltakes hrtakes hty
    exact ⟨m, Outcome.bind_eq_ok.mpr ⟨l', hl', Outcome.bind_eq_ok.mpr ⟨r', hr', hm⟩⟩, hmtakes⟩
  | cond t a b ty iht iha ihb =>
    intro he
    obtain ⟨-, ht, ha, hb⟩ := all_cond.mp he.exact
    obtain ⟨hct, hca, hcb, htest, hty⟩ := he.checked
    obtain ⟨t', ht', httakes⟩ := iht ⟨hct, ht⟩
    obtain ⟨a', ha', hatakes⟩ := iha ⟨hca, ha⟩
    obtain ⟨b', hb', hbtakes⟩ := ihb ⟨hcb, hb⟩
    obtain ⟨m, hm, hmtakes⟩ := mkCond_takesPlace httakes hatakes hbtakes htest hty
    exact ⟨m, Outcome.bind_eq_ok.mpr ⟨t', ht', Outcome.bind_eq_ok.mpr ⟨a', ha',
      Outcome.bind_eq_ok.mpr ⟨b', hb', hm⟩⟩⟩, hmtakes⟩
  | call method es ty ih =>
    intro he
    obtain ⟨-, hall⟩ := all_call.mp he.exact
    obtain ⟨hces, hty⟩ := he.checked
    rw [checkedAll_iff] at hces
    obtain ⟨ms, hms⟩ := Outcome.exists_forall₂ fun e hmem =>
      ih e hmem ⟨hces e hmem, hall e hmem⟩
    obtain ⟨m, hm, htakes⟩ := mkCallOf_takesPlace (hms.imp fun _ _ h => h.2) hty
    exact ⟨m, Outcome.bind_eq_ok.mpr ⟨ms, substAll_eq_ok.mpr (hms.imp fun _ _ h => h.1), hm⟩,
      htakes⟩
  | construct record es bs ihe ihb =>
    intro he
    obtain ⟨-, hes, hbs⟩ := he.construct
    obtain ⟨ms, hms⟩ := Outcome.exists_forall₂ fun e hmem => ihe e hmem (hes e hmem)
    have hcs : ∀ b ∈ bs, ∃ c : String × Expr, b.1 = c.1 ∧ subst id image b.2 = .ok c.2 ∧
        c.2.TakesPlace types b.2 := by
      intro b hmem
      obtain ⟨m, hm, htakes⟩ := ihb b hmem (hbs b hmem)
      exact ⟨(b.1, m), rfl, hm, htakes⟩
    obtain ⟨cs, hcs⟩ := Outcome.exists_forall₂ hcs
    obtain ⟨m, hm, htakes⟩ := mkConstruct_takesPlace he (hms.imp fun _ _ h => h.2)
      (hcs.imp fun _ _ h => ⟨h.1, h.2.2⟩)
    exact ⟨m, Outcome.bind_eq_ok.mpr ⟨ms, substAll_eq_ok.mpr (hms.imp fun _ _ h => h.1),
      Outcome.bind_eq_ok.mpr ⟨cs,
        substBindings_eq_ok.mpr (hcs.imp fun _ _ h => ⟨h.1, h.2.1⟩), hm⟩⟩, htakes⟩

end Expr

/-! ### Composition -/

namespace Lambda

variable {types : Nat → Ty} {f g : Lambda}

/-- A lambda over a parameter of its type whose body is exact. -/
structure IsExact (types : Nat → Ty) (f : Lambda) : Prop where
  own : f.param.IsTyped types
  body : f.body.IsExact types

/-- A lambda built through the typing rules, whose parameters have the types that go with
their identities and whose new records set their fields by expressions of the fields' types
or by untyped nulls. -/
structure SetsFields (types : Nat → Ty) (f : Lambda) : Prop where
  built : f.body.Built
  own : f.param.IsTyped types
  params : ∀ p, .param p ∈ f.body.nodes → p.IsTyped types
  fields : ∀ record args bindings, .construct record args bindings ∈ f.body.nodes →
    ∀ name field init, record.fields.find? name = some field →
      record.setter? args bindings name = some init → init.ty = field ∨ init = .const .null .null

theorem SetsFields.isExact (h : f.SetsFields types) : f.IsExact types := by
  refine ⟨h.own, h.built.checked, fun n hn => ?_⟩
  cases n with
  | param p => exact h.params p hn
  | construct record args bindings => exact h.fields record args bindings hn
  | _ => trivial

/-- An identity gives what it is given. -/
theorem IsExact.returnTy_of_isIdentity (h : f.IsExact types) (hid : f.isIdentity) :
    f.returnTy = f.paramTy := by
  obtain ⟨p, hbody, hp⟩ := isIdentity_iff.mp hid
  have hty : p.IsTyped types := by
    have hall := h.body.exact
    rw [hbody, Expr.all_param] at hall
    exact hall
  rw [returnTy, hbody, paramTy, h.own, ← hp]
  exact hty

/-- Lambdas that fit together can be composed, and the composition has the parameter of the
first and the type of the second. -/
theorem IsExact.andThen (hf : f.IsExact types) (hg : g.IsExact types)
    (hty : g.paramTy = f.returnTy) :
    ∃ m, f.andThen g = .ok m ∧ m.IsExact types ∧ m.param = f.param ∧ m.returnTy = g.returnTy := by
  unfold Lambda.andThen
  rw [if_pos hty]
  by_cases hid : g.isIdentity
  · exact ⟨f, if_pos hid, hf, rfl, hty.symm.trans (hg.returnTy_of_isIdentity hid).symm⟩
  · rw [if_neg hid]
    have himage : f.body.ty = types g.param.id := hty.symm.trans hg.own
    obtain ⟨body, hbody, htakes⟩ := Expr.subst_takesPlace hf.body himage g.body hg.body
    refine ⟨_, Outcome.map_eq_ok.mpr ⟨body, hbody, rfl⟩, ⟨hf.own, htakes.toIsExact.fold⟩, rfl, ?_⟩
    exact (Expr.fold_checked htakes.checked).2.trans htakes.ty

end Lambda

/-! ### Chains of projections -/

namespace Query

variable {β σ : Type} {types : Nat → Ty} {q q' : Query β σ} {r : Revision (Query β σ)}
  {f g : Lambda}

/-- Whether an operation projects, if it does, by a lambda that sets fields so. -/
def Step.SetsFields (types : Nat → Ty) : Step σ → Prop
  | .select f => f.SetsFields types
  | _ => True

/-- A query with an exact projection of the rows of its origin, or none. -/
def IsExact (types : Nat → Ty) (q : Query β σ) : Prop :=
  ∀ f, q.projector = some f → f.IsExact types ∧ f.paramTy = q.originTy

theorem isExact_ofBackend (b : β) (origin : Ty) :
    (ofBackend b origin : Query β σ).IsExact types := by
  rintro f ⟨⟩

namespace IsExact

/-- A lambda over what a query shows becomes one of its type over the rows of the origin. -/
theorem onOrigin (h : q.IsExact types) (hg : g.IsExact types) (hty : g.paramTy = q.elementTy) :
    ∃ m, q.onOrigin g = .ok m ∧ m.IsExact types ∧ m.paramTy = q.originTy ∧
      m.returnTy = g.returnTy := by
  rw [onOrigin_eq]
  cases hp : q.projector with
  | none => exact ⟨g, rfl, hg, hty.trans (elementTy_of_none hp), rfl⟩
  | some f =>
    obtain ⟨hf, horigin⟩ := h f hp
    rw [elementTy_of_projector hp] at hty
    obtain ⟨m, hm, hexact, hparam, hreturn⟩ := hf.andThen hg hty
    exact ⟨m, Outcome.mapError_eq_ok.mpr hm, hexact, (congrArg Param.ty hparam).trans horigin,
      hreturn⟩

/-- A projection that is accepted gives the query its type. -/
theorem select (h : q.IsExact types) (hg : g.IsExact types) (hstep : q.select g = .ok r) :
    (r.of q).IsExact types ∧ (r.of q).elementTy = g.returnTy := by
  obtain ⟨hty, ⟨hid, rfl⟩ | ⟨m, projection, -, hm, hproject, hr⟩⟩ := select_eq_ok hstep
  · exact ⟨h, hty.symm.trans (hg.returnTy_of_isIdentity hid).symm⟩
  · obtain ⟨m', hm', hexact, hparam, hreturn⟩ := h.onOrigin hg hty
    obtain rfl : m' = m := Except.ok.inj (hm'.symm.trans hm)
    rw [hr]
    rcases Source.project_eq_ok hproject with ⟨hid, rfl⟩ | ⟨-, horigin, rfl⟩ | ⟨-, rfl⟩
    · refine ⟨nofun, ?_⟩
      exact hparam.symm.trans ((hexact.returnTy_of_isIdentity hid).symm.trans hreturn)
    · exact ⟨nofun, horigin.symm.trans hreturn⟩
    · constructor
      · rintro _ ⟨⟩
        exact ⟨⟨hexact.own, hexact.body.fold⟩, hparam⟩
      · exact (Expr.fold_checked hexact.body.checked).2.trans hreturn

/-- A projection of the type that a query shows is accepted unless repeats are dropped or
rows are limited. -/
theorem select_accepted (h : q.IsExact types) (hg : g.IsExact types)
    (hty : g.paramTy = q.elementTy) (hdistinct : q.isDistinct = false)
    (hlimits : q.isEmpty ∨ q.hasRange = false) : ∃ r, q.select g = .ok r := by
  obtain ⟨m, hm, -⟩ := h.onOrigin hg hty
  obtain ⟨next, hnext⟩ := Source.exists_project (f := m) hlimits
  exact exists_select hty hdistinct hm hnext

/-- Only projecting changes what is projected. -/
theorem step (h : q.IsExact types) {s : Step σ} (hs : s.SetsFields types)
    (hstep : q.step s = .ok r) : (r.of q).IsExact types := by
  rcases step_sameView hstep with ⟨f, rfl⟩ | ⟨flag, rfl⟩ | hsame
  · exact (h.select hs.isExact hstep).1
  · rcases distinct_eq_ok hstep with ⟨rfl, -⟩ | ⟨f, hp, -, rfl⟩
    · exact h
    · rintro _ ⟨⟩
      exact h f (congrArg (Option.map _) hp)
  · rw [IsExact, hsame.projector, hsame.origin]
    exact h

theorem steps {ops : List (Step σ)} (h : q.IsExact types) (hops : ∀ s ∈ ops, s.SetsFields types)
    (hsteps : q.steps ops = .ok q') : q'.IsExact types :=
  steps_keep (fun h hs hstep => h.step hs hstep) h hops hsteps

end IsExact

/-- Two lambdas that fit together can be composed, and the composition has the parameter of
the first and the type of the second. So a query takes any projection of what it shows,
unless repeats are dropped or rows are limited, and then has the type of the projection. -/
theorem select_returnTy (types : Nat → Ty) :
    (∀ f g : Lambda, f.SetsFields types → g.SetsFields types → g.paramTy = f.returnTy →
      ∃ m, f.andThen g = .ok m ∧ m.param = f.param ∧ m.paramTy = f.paramTy ∧
        m.returnTy = g.returnTy) ∧
    ∀ (b : β) (origin : Ty) (ops : List (Step σ)) (q : Query β σ) (g : Lambda),
      (∀ s ∈ ops, s.SetsFields types) → (ofBackend b origin).steps ops = .ok q →
      g.SetsFields types →
      (g.paramTy = q.elementTy → q.isDistinct = false → (q.isEmpty ∨ q.hasRange = false) →
        ∃ r, q.select g = .ok r) ∧
      ∀ r, q.select g = .ok r → (r.of q).elementTy = g.returnTy := by
  constructor
  · intro f g hf hg hty
    obtain ⟨m, hm, -, hparam, hreturn⟩ := hf.isExact.andThen hg.isExact hty
    exact ⟨m, hm, hparam, congrArg Param.ty hparam, hreturn⟩
  · intro b origin ops q g hops hq hg
    have h : q.IsExact types := (isExact_ofBackend b origin).steps hops hq
    exact ⟨h.select_accepted hg.isExact, fun r hr => (h.select hg.isExact hr).2⟩

/-- A text that is chosen and an untyped null set the fields of a pair, and both are read
from it as texts. -/
theorem select_returnTy_pair :
    let pair : RecordTy := ⟨"Pair", .cons "a" .string (.cons "b" .string .nil)⟩
    let x : Param := ⟨1, "x", .bool⟩
    let y : Param := ⟨2, "y", pair.ty⟩
    let chosen : Expr := .cond (.param x) (.ofValue (.string "s")) (.ofValue .null) .string
    let f : Lambda := ⟨x, .construct pair [chosen] [("b", .ofValue .null)]⟩
    let first : Lambda := ⟨y, .member (.param y) "a" .string⟩
    let second : Lambda := ⟨y, .member (.param y) "b" .string⟩
    (∃ m, f.andThen first = .ok m ∧ m.returnTy = .string) ∧
      ∃ q r, (ofBackend () .bool : Query Unit Unit).steps [.select f] = .ok q ∧
        q.select second = .ok r ∧ (r.of q).elementTy = .string := by
  intro pair x y chosen f first second
  let types : Nat → Ty := fun id => if id = 1 then .bool else pair.ty
  have hchosen : Expr.mkCond (.param x) (.ofValue (.string "s")) (.ofValue .null) = .ok chosen :=
    rfl
  have hpair : Expr.mkConstruct pair [chosen] [("b", .ofValue .null)] = .ok f.body := rfl
  have hf : f.SetsFields types := by
    refine ⟨.construct ?_ ?_ hpair, rfl, ?_, ?_⟩
    · simpa using .cond (.param x) (.value _) (.value _) hchosen
    · simpa using .value _
    · simp [f, chosen, Expr.ofValue, Expr.nodes, Expr.nodesAll, Expr.nodesBindings,
        Param.IsTyped, types, x]
    · intro record args bindings hmem name field init hfield hinit
      obtain ⟨rfl, rfl, rfl⟩ : record = pair ∧ args = [chosen] ∧
          bindings = [("b", .ofValue .null)] := by
        simpa [f, chosen, Expr.ofValue, Expr.nodes, Expr.nodesAll, Expr.nodesBindings] using hmem
      -- the choice is a text, and the other field is set by the null itself
      by_cases ha : "a" = name
      · obtain rfl : chosen = init := by
          simpa [RecordTy.setter?, Fields.indexOf?, pair, ha] using hinit
        obtain rfl : Ty.string = field := by simpa [Fields.find?, pair, ha] using hfield
        exact .inl rfl
      · obtain rfl : name = "b" := by
          by_contra hb
          simp [Fields.find?, pair, ha, Ne.symm hb] at hfield
        obtain rfl : Expr.ofValue .null = init := by
          simpa [RecordTy.setter?, Fields.indexOf?, pair] using hinit
        exact .inr rfl
  have hread : ∀ name, Expr.mkMember (.param y) name = .ok (.member (.param y) name .string) →
      (⟨y, .member (.param y) name .string⟩ : Lambda).SetsFields types := by
    intro name hmember
    refine ⟨.member (.param y) hmember, rfl, ?_, ?_⟩ <;> simp [Expr.nodes, Param.IsTyped, types, y]
  have hops : ∀ s ∈ [(.select f : Step Unit)], s.SetsFields types := by
    simpa [Step.SetsFields] using hf
  constructor
  · obtain ⟨m, hm, -, -, hty⟩ :=
      (select_returnTy (β := Unit) (σ := Unit) types).1 f first hf (hread "a" rfl) rfl
    exact ⟨m, hm, hty⟩
  · obtain ⟨haccepted, hty⟩ :=
      (select_returnTy types).2 () .bool [.select f] _ second hops rfl (hread "b" rfl)
    obtain ⟨r, hr⟩ := haccepted rfl rfl (.inr rfl)
    exact ⟨_, r, rfl, hr, hty r hr⟩

/-- A choice between two nulls sets a text, and is read from the record as no text: the
member is null, and its length cannot be asked for. -/
theorem select_returnTy_untyped :
    let record : RecordTy := ⟨"R", .cons "a" .string .nil⟩
    let x : Param := ⟨1, "x", .bool⟩
    let y : Param := ⟨2, "y", record.ty⟩
    let unset : Expr := .cond (.param x) (.ofValue .null) (.ofValue .null) .null
    let f : Lambda := ⟨x, .construct record [unset] []⟩
    let g : Lambda := ⟨y, .member (.param y) "a" .string⟩
    let length : Lambda := ⟨y, .call .length [g.body] .int32⟩
    (∀ h ∈ [f, g, length], h.body.Built) ∧
    g.paramTy = f.returnTy ∧ length.paramTy = f.returnTy ∧ g.returnTy = .string ∧
    f.andThen g = .ok ⟨x, unset⟩ ∧ (⟨x, unset⟩ : Lambda).returnTy = .null ∧
    f.andThen length = .error (.invalidOperation (.noOverload .length [])) ∧
    ∃ q, (ofBackend () .bool : Query Unit Unit).steps [.select f, .select g] = .ok q ∧
      q.elementTy = .null := by
  intro record x y unset f g length
  have hunset : Expr.mkCond (.param x) (.ofValue .null) (.ofValue .null) = .ok unset := rfl
  have hrecord : Expr.mkConstruct record [unset] [] = .ok f.body := rfl
  have hmember : Expr.mkMember (.param y) "a" = .ok g.body := rfl
  have hlength : Expr.mkCall (some g.body) .length [] = .ok length.body := rfl
  have hg : g.body.Built := .member (.param y) hmember
  refine ⟨?_, rfl, rfl, rfl, rfl, rfl, rfl, _, rfl, rfl⟩
  simp only [List.forall_mem_cons, List.not_mem_nil, false_implies, implies_true, and_true]
  refine ⟨.construct ?_ (by simp) hrecord, hg, .call (by simpa using hg) (by simp) hlength⟩
  simpa using .cond (.param x) (.value _) (.value _) hunset

end Query
end SeqQuery
