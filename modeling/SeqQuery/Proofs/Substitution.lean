/-
# Substitution keeps values

Putting an expression in the place of a parameter gives an expression that is well-typed,
of the same type or of null's alone (`Expr.Replaces.narrows`), and that has, where the
image has the value of the parameter, the value of the original. Types may narrow at a
choice and at a member of a new record, because a choice may become one between nulls
and a field may be set by null.

Reading a member of a new record needs most of the work: what sets the field is the
argument, the binding or the zero that the record would have been built with
(`Expr.initOf_sound`).

Key definitions: `Expr.Replaces`, `Vocabulary.receiving`.
Key theorems: `RecordTy.initOf_eq_ok`, `Expr.initOf_sound`,
`Expr.readMember_replaces`, `Expr.subst_replaces`.
-/
import SeqQuery.Expr.Substitution
import SeqQuery.Proofs.Vocabulary

namespace SeqQuery

/-! ### What sets a field -/

namespace RecordTy

variable {record : RecordTy} {args : List Expr} {bindings : List (String × Expr)}

/-- The expression that sets a field is the argument or the binding, a constant with the
type of the field, or the field's zero. -/
theorem initOf_eq_ok {name : String} {e : Expr} (h : record.initOf args bindings name = .ok e) :
    ∃ i field, record.fields.indexOf? name = some i ∧ record.fields.types[i]? = some field ∧
      ((args[i]?).or (bindings.lookup name) = none ∧ e = .const field.zero field ∨
        ∃ init, (args[i]?).or (bindings.lookup name) = some init ∧
          (e = init ∨ ∃ v ty, init = .const v ty ∧ field.admits v ∧ e = .const v field)) := by
  unfold initOf at h
  split at h
  · next i field hi hfind =>
    obtain ⟨j, hj, hfield⟩ := Fields.find?_eq_some.mp hfind
    obtain rfl : i = j := Option.some.inj (hi.symm.trans hj)
    refine ⟨i, field, hi, hfield, ?_⟩
    split at h
    · next hnone =>
      obtain ⟨-, rfl⟩ := Expr.mkConst_eq_ok.mp h
      exact .inl ⟨hnone, rfl⟩
    · next v ty hsome =>
      refine .inr ⟨_, hsome, ?_⟩
      split at h
      · exact .inl (Except.ok.inj h).symm
      · obtain ⟨hadmits, rfl⟩ := Expr.mkConst_eq_ok.mp h
        exact .inr ⟨v, ty, rfl, hadmits, rfl⟩
    · next init _ hsome => exact .inr ⟨init, hsome, .inl (Except.ok.inj h).symm⟩
  · cases h

/-- What sets a field is one of the arguments or bindings, of a type that narrows the
field's. -/
theorem narrows_of_source
    (hinits : record.checkInits (args.map Expr.ty) (bindings.map fun (m, e) => (m, e.ty)) = .ok ())
    {name : String} {i : Nat} {field : Ty} (hi : record.fields.indexOf? name = some i)
    (hfield : record.fields.types[i]? = some field) {init : Expr}
    (h : (args[i]?).or (bindings.lookup name) = some init) :
    (init ∈ args ∨ ∃ b ∈ bindings, b.2 = init) ∧ init.ty.Narrows field := by
  obtain ⟨-, hargs, hbindings⟩ := checkInits_eq_ok.mp hinits
  rcases Option.or_eq_some_iff.mp h with h | ⟨-, h⟩
  · refine ⟨.inl (List.mem_of_getElem? h), ?_⟩
    have hlt : i < (args.map Expr.ty).length := by
      rw [List.length_map]
      exact (List.getElem?_eq_some_iff.mp h).1
    have hrel := forall₂_iff_getElem?.mp hargs i
    rw [List.getElem?_map, h, List.getElem?_take_of_lt hlt, hfield] at hrel
    exact Option.rel_some_some.mp hrel
  · rw [← boundAt_indexOf? hi] at h
    obtain ⟨name', hmem, hname'⟩ := boundAt_eq_some h
    refine ⟨.inr ⟨_, hmem, rfl⟩, ?_⟩
    have hmem' : (name', init.ty) ∈ bindings.map fun (m, e) => (m, e.ty) :=
      List.mem_map.mpr ⟨_, hmem, rfl⟩
    obtain ⟨j, field', hj, hfield', hnarrow⟩ := narrows_of_checkBindings hbindings hmem'
    obtain rfl : i = j := Option.some.inj (hname'.symm.trans hj)
    obtain rfl : field = field' := Option.some.inj (hfield.symm.trans hfield')
    exact hnarrow

/-- A member that is read from a new record is the value of what sets it. -/
theorem eval_source {env : Env}
    (hinits : record.checkInits (args.map Expr.ty) (bindings.map fun (m, e) => (m, e.ty)) = .ok ())
    {name : String} {i : Nat} {field : Ty} (hi : record.fields.indexOf? name = some i)
    (hfield : record.fields.types[i]? = some field) {u v : Value}
    (hu : (Expr.construct record args bindings).eval env = .ok u) (hv : u.readMember name = .ok v) :
    ((args[i]?).or (bindings.lookup name) = none → v = field.zero) ∧
      ∀ init, (args[i]?).or (bindings.lookup name) = some init → init.eval env = .ok v := by
  rw [Expr.eval, Outcome.bind_eq_ok] at hu
  obtain ⟨vs, hvs, hu⟩ := hu
  obtain ⟨ws, hws, hu⟩ := Outcome.bind_eq_ok.mp hu
  rw [Expr.evalAll_eq_ok] at hvs
  rw [Expr.evalBindings_eq_ok] at hws
  have hnames : (bindings.map fun (m, e) => (m, e.ty)).map (·.1) = ws.map (·.1) := by
    rw [List.map_map]
    exact names_eq_of_forall₂ hws fun _ _ h => h.1
  have hlen : (args.map Expr.ty).length = vs.length := by
    rw [List.length_map]
    exact hvs.length_eq
  obtain ⟨values, hbuild, hget⟩ := build_getElem? hinits hlen hnames
  obtain rfl : Value.record record values = u := Except.ok.inj (hbuild.symm.trans hu)
  have hargi := forall₂_iff_getElem?.mp hvs i
  have hbindi : Option.Rel (fun e v => Expr.eval env e = .ok v) (record.boundAt bindings i)
      (record.boundAt ws i) := boundAt_rel i hws
  rw [Value.readMember_record hi, hget, hfield] at hv
  rw [← boundAt_indexOf? hi]
  cases harg : args[i]? with
  | some arg =>
    -- the argument at the position
    rw [harg] at hargi
    cases hw : vs[i]? with
    | none => simp [hw] at hargi
    | some w =>
      rw [hw, Option.rel_some_some] at hargi
      obtain rfl : w = v := by simpa [hw] using hv
      simpa using hargi
  | none =>
    have hvs' : vs[i]? = none := by
      cases hw : vs[i]? with
      | none => rfl
      | some w => simp [harg, hw] at hargi
    cases hbound : record.boundAt bindings i with
    | some init =>
      -- the binding of the name
      rw [hbound] at hbindi
      cases hw : record.boundAt ws i with
      | none => simp [hw] at hbindi
      | some w =>
        rw [hw, Option.rel_some_some] at hbindi
        obtain rfl : w = v := by simpa [hw, hvs'] using hv
        simpa using hbindi
    | none =>
      have hws' : record.boundAt ws i = none := by
        cases hw : record.boundAt ws i with
        | none => rfl
        | some w => simp [hbound, hw] at hbindi
      simpa [hvs', hws', eq_comm] using hv

end RecordTy

/-! ### Reading a member -/

/-- The vocabulary of an expression in which the parameter with an identity is going to
be replaced by something of a type. -/
def Vocabulary.receiving (V : Vocabulary) (id : Nat) (ty : Ty) : Vocabulary :=
  { V with param := fun p => (p.id = id → ty = p.ty) ∧ (p.id ≠ id → V.param p) }

namespace Expr

variable {V : Vocabulary} {env env' : Env}

/-- An expression over a vocabulary that can stand in the place of another. -/
structure Replaces (V : Vocabulary) (env env' : Env) (e' e : Expr) : Prop where
  within : e'.Over V
  narrows : e'.ty.Narrows e.ty
  refines : Refines env e env' e'

theorem Over.construct {record : RecordTy} {args : List Expr} {bindings : List (String × Expr)}
    (h : (Expr.construct record args bindings).Over V) :
    V.other record.ty ∧ (∀ e ∈ args, e.Over V) ∧ ∀ b ∈ bindings, b.2.Over V := by
  obtain ⟨hself, hargs, hbindings⟩ := all_construct.mp h.allowed
  obtain ⟨hcargs, hcbindings, -⟩ := h.checked
  exact ⟨hself, fun e he => ⟨checkedAll_iff.mp hcargs e he, hargs e he⟩,
    fun b hb => ⟨checkedBindings_iff.mp hcbindings b hb, hbindings b hb⟩⟩

/-- What sets a field of a new record can stand in the place of the member that is read
from the record. -/
theorem initOf_sound (hV : V.Closed) {record : RecordTy} {args : List Expr}
    {bindings : List (String × Expr)} (hc : (Expr.construct record args bindings).Over V)
    {name : String} {e : Expr} (h : record.initOf args bindings name = .ok e) :
    ∃ field, record.ty.memberTy name = .ok field ∧ e.Over V ∧ e.ty.Narrows field ∧
      ∀ env u v, (Expr.construct record args bindings).eval env = .ok u →
        u.readMember name = .ok v → e.eval env = .ok v := by
  obtain ⟨i, field, hi, hfield, hsource⟩ := RecordTy.initOf_eq_ok h
  have hinits := hc.checked.2.2
  obtain ⟨hself, hargs, hbindings⟩ := hc.construct
  have hmem : field ∈ record.fields.types := List.mem_of_getElem? hfield
  have hmember : record.ty.memberTy name = .ok field :=
    Ty.memberTy_eq_ok.mpr ⟨record, rfl, Fields.find?_eq_some.mpr ⟨i, hi, hfield⟩⟩
  refine ⟨field, hmember, ?_⟩
  rcases hsource with ⟨hnone, rfl⟩ | ⟨init, hsome, hinit⟩
  · refine ⟨⟨trivial, all_const.mpr (hV.zero hself hmem)⟩, .refl _, fun env u v hu hv => ?_⟩
    rw [(RecordTy.eval_source hinits hi hfield hu hv).1 hnone, eval]
  · obtain ⟨hin, hnarrow⟩ := RecordTy.narrows_of_source hinits hi hfield hsome
    have hover : init.Over V := by
      rcases hin with hin | ⟨b, hb, rfl⟩
      · exact hargs init hin
      · exact hbindings b hb
    have hvalue : ∀ env u v, (Expr.construct record args bindings).eval env = .ok u →
        u.readMember name = .ok v → init.eval env = .ok v := fun env u v hu hv =>
      (RecordTy.eval_source hinits hi hfield hu hv).2 init hsome
    rcases hinit with rfl | ⟨v, ty, rfl, hadmits, rfl⟩
    · exact ⟨hover, hnarrow, hvalue⟩
    · have hconst := hV.retype hself hmem (all_const.mp hover.allowed) hadmits
      exact ⟨⟨trivial, all_const.mpr hconst⟩, .refl _, hvalue⟩

/-- Reading a member of what replaces a target replaces the member. -/
theorem readMember_replaces (hV : V.Closed) {t e m : Expr} {name : String} {ty : Ty}
    (ht : Replaces V env env' t e) (hty : e.ty.memberTy name = .ok ty) (hself : V.other ty)
    (h : t.readMember name = .ok m) : Replaces V env env' m (.member e name ty) := by
  have hplain : mkMember t name = .ok m → Replaces V env env' m (.member e name ty) := by
    intro h
    obtain ⟨ty', hty', rfl⟩ := mkMember_eq_ok.mp h
    obtain rfl : ty' = ty := Ty.memberTy_narrows ht.narrows hty hty'
    exact ⟨⟨⟨ht.within.checked, hty'⟩, all_member.mpr ⟨hself, ht.within.allowed⟩⟩, .refl _,
      ht.refines.member name ty' ty'⟩
  cases t with
  | construct record args bindings =>
    obtain ⟨field, hfield, hover, hnarrow, hvalue⟩ := initOf_sound hV ht.within h
    obtain rfl : field = ty := Ty.memberTy_narrows ht.narrows hty hfield
    refine ⟨hover, hnarrow, fun v hv => ?_⟩
    rw [eval_member, Outcome.bind_eq_ok] at hv
    obtain ⟨u, hu, hv⟩ := hv
    exact hvalue env' u v (ht.refines u hu) hv
  | _ => exact hplain h

/-! ### Nodes over what replaces their parts -/

/-- A call rebuilt from its operands has all of them, in their order. -/
theorem mkCallOf_eq_ok {method : Method} {operands : List Expr} {e : Expr} :
    mkCallOf method operands = .ok e ↔
      ∃ ty, method.resultTy (method.split (operands.map Expr.ty)).1
        (method.split (operands.map Expr.ty)).2 = .ok ty ∧ .call method operands ty = e := by
  rw [mkCallOf, mkCall_eq_ok, Method.split_map]
  refine exists_congr fun ty => and_congr_right fun hty => ?_
  have hsome := (Method.resultTy_eq_ok hty).isSome_object
  rw [Option.isSome_map] at hsome
  rw [Method.toList_split method operands hsome]

namespace Replaces

variable {m : Expr} {ty : Ty}

theorem unary {op : UnaryOp} {t e : Expr} (hrep : Replaces V env env' t e)
    (hty : op.resultTy e.ty = .ok ty) (hself : V.other ty) (h : mkUnary op t = .ok m) :
    Replaces V env env' m (.unary op e ty) := by
  obtain ⟨ty', hty', rfl⟩ := mkUnary_eq_ok.mp h
  obtain rfl : ty' = ty := UnaryOp.resultTy_narrows hrep.narrows hty hty'
  exact ⟨⟨⟨hrep.within.checked, hty'⟩, all_unary.mpr ⟨hself, hrep.within.allowed⟩⟩, .refl _,
    hrep.refines.unary op ty' ty'⟩

theorem binary {op : BinaryOp} {l l' r r' : Expr} (hl : Replaces V env env' l' l)
    (hr : Replaces V env env' r' r) (hty : op.resultTy l.ty r.ty = .ok ty)
    (hself : V.binary op ty) (h : mkBinary op l' r' = .ok m) :
    Replaces V env env' m (.binary op l r ty) := by
  obtain ⟨ty', hty', rfl⟩ := mkBinary_eq_ok.mp h
  obtain rfl : ty' = ty := BinaryOp.resultTy_narrows hl.narrows hty hty'
  exact ⟨⟨⟨hl.within.checked, hr.within.checked, hty'⟩,
    all_binary.mpr ⟨hself, hl.within.allowed, hr.within.allowed⟩⟩, .refl _,
    hl.refines.binary hr.refines op ty' ty'⟩

/-- A choice may narrow with its sides. -/
theorem cond (hV : V.Closed) {t t' a a' b b' : Expr} (ht : Replaces V env env' t' t)
    (ha : Replaces V env env' a' a) (hb : Replaces V env env' b' b)
    (hjoin : a.ty.join b.ty = .ok ty) (hself : V.other ty) (h : mkCond t' a' b' = .ok m) :
    Replaces V env env' m (.cond t a b ty) := by
  obtain ⟨htest, ty', hty', rfl⟩ := mkCond_eq_ok.mp h
  have hnarrow : ty'.Narrows ty := Ty.join_narrows ha.narrows hb.narrows hjoin hty'
  refine ⟨⟨⟨ht.within.checked, ha.within.checked, hb.within.checked, htest, hty'⟩, ?_⟩, hnarrow,
    ht.refines.cond ha.refines hb.refines ty ty'⟩
  exact all_cond.mpr ⟨hV.narrow hnarrow hself, ht.within.allowed, ha.within.allowed,
    hb.within.allowed⟩

theorem call (hnow : env.now = env'.now) {method : Method} {es ms : List Expr}
    (hreps : List.Forall₂ (fun e m => Replaces V env env' m e) es ms)
    (hty : method.resultTy (method.split (es.map Expr.ty)).1 (method.split (es.map Expr.ty)).2 =
      .ok ty) (hself : V.other ty) (h : mkCallOf method ms = .ok m) :
    Replaces V env env' m (.call method es ty) := by
  obtain ⟨ty', hty', rfl⟩ := mkCallOf_eq_ok.mp h
  have hnarrows : List.Forall₂ Ty.Narrows (ms.map Expr.ty) (es.map Expr.ty) := by
    rw [List.forall₂_map_left_iff, List.forall₂_map_right_iff]
    exact (hreps.imp fun _ _ hrep => hrep.narrows).flip
  obtain rfl : ty' = ty := (Method.resultTy_eq_ok hty).narrows (method.split_rel hnarrows).2
    (Method.resultTy_eq_ok hty')
  have hover : ∀ m ∈ ms, m.Over V := Outcome.forall_mem_of_forall₂
    (hreps.imp fun _ _ hrep => hrep.within)
  refine ⟨⟨⟨checkedAll_iff.mpr fun m hm => (hover m hm).checked, hty'⟩, ?_⟩, .refl _, ?_⟩
  · exact all_call.mpr ⟨hself, fun m hm => (hover m hm).allowed⟩
  · exact .call hnow (hreps.imp fun _ _ hrep => hrep.refines) method ty' ty'

theorem construct {record : RecordTy} {es ms : List Expr} {bs cs : List (String × Expr)}
    (hreps : List.Forall₂ (fun e m => Replaces V env env' m e) es ms)
    (hbinds : List.Forall₂ (fun b c => b.1 = c.1 ∧ Replaces V env env' c.2 b.2) bs cs)
    (hself : V.other record.ty) (h : mkConstruct record ms cs = .ok m) :
    Replaces V env env' m (.construct record es bs) := by
  obtain ⟨hinits, rfl⟩ := mkConstruct_eq_ok.mp h
  have hover : ∀ m ∈ ms, m.Over V := Outcome.forall_mem_of_forall₂
    (hreps.imp fun _ _ hrep => hrep.within)
  have hbover : ∀ c ∈ cs, c.2.Over V := Outcome.forall_mem_of_forall₂
    (hbinds.imp fun _ _ hrep => hrep.2.within)
  refine ⟨⟨⟨?_, ?_, hinits⟩, ?_⟩, .refl _, ?_⟩
  · exact checkedAll_iff.mpr fun m hm => (hover m hm).checked
  · exact checkedBindings_iff.mpr fun c hc => (hbover c hc).checked
  · exact all_construct.mpr ⟨hself, fun m hm => (hover m hm).allowed,
      fun c hc => (hbover c hc).allowed⟩
  · exact .construct (hreps.imp fun _ _ hrep => hrep.refines)
      (hbinds.imp fun _ _ hrep => ⟨hrep.1, hrep.2.refines⟩) record

end Replaces

/-! ### Substitution -/

theorem substAll_eq_mapM (id : Nat) (image : Expr) : ∀ es : List Expr,
    substAll id image es = es.mapM (subst id image)
  | [] => rfl
  | e :: es => by
    rw [substAll, List.mapM_cons, substAll_eq_mapM id image es]
    rfl

theorem substAll_eq_ok {id : Nat} {image : Expr} {es ms : List Expr} :
    substAll id image es = .ok ms ↔ List.Forall₂ (fun e m => subst id image e = .ok m) es ms := by
  rw [substAll_eq_mapM, Outcome.mapM_eq_ok]

theorem substBindings_eq_mapM (id : Nat) (image : Expr) : ∀ bs : List (String × Expr),
    substBindings id image bs = bs.mapM fun b => (subst id image b.2).map (b.1, ·)
  | [] => rfl
  | (name, e) :: bs => by
    rw [substBindings, List.mapM_cons, substBindings_eq_mapM id image bs]
    cases subst id image e <;> rfl

theorem substBindings_eq_ok {id : Nat} {image : Expr} {bs cs : List (String × Expr)} :
    substBindings id image bs = .ok cs ↔
      List.Forall₂ (fun b c => b.1 = c.1 ∧ subst id image b.2 = .ok c.2) bs cs := by
  rw [substBindings_eq_mapM, Outcome.mapM_named_eq_ok]

/-- Putting an expression in the place of a parameter gives what can stand in the place of
the original: where the image has the value of the parameter, the result has the value of
the original. -/
theorem subst_replaces (hV : V.Closed) (hnow : env.now = env'.now) {id : Nat} {image : Expr}
    (himage : image.Over V) (hparam : ∀ p : Param, p.id = id → Refines env (.param p) env' image)
    (hother : ∀ p : Param, p.id ≠ id → Refines env (.param p) env' (.param p)) (e : Expr) :
    e.Over (V.receiving id image.ty) → ∀ {m : Expr}, subst id image e = .ok m →
      Replaces V env env' m e := by
  induction e with
  | const v ty =>
    intro he m h
    obtain rfl := Except.ok.inj h
    have hself : V.const v ty := all_const.mp he.allowed
    exact ⟨⟨trivial, all_const.mpr hself⟩, .refl _, fun v hv => hv⟩
  | param p =>
    intro he m h
    rw [subst] at h
    obtain rfl := Except.ok.inj h
    obtain ⟨hty, hself⟩ := all_param.mp he.allowed
    by_cases hp : p.id = id
    · rw [if_pos hp]
      exact ⟨himage, .inl (hty hp), hparam p hp⟩
    · rw [if_neg hp]
      exact ⟨⟨trivial, all_param.mpr (hself hp)⟩, .refl _, hother p hp⟩
  | member e name ty ih =>
    intro he m h
    obtain ⟨t, ht, h⟩ := Outcome.bind_eq_ok.mp h
    obtain ⟨hself, hallowed⟩ := all_member.mp he.allowed
    exact readMember_replaces hV (ih ⟨he.checked.1, hallowed⟩ ht) he.checked.2 hself h
  | unary op e ty ih =>
    intro he m h
    obtain ⟨t, ht, h⟩ := Outcome.bind_eq_ok.mp h
    obtain ⟨hself, hallowed⟩ := all_unary.mp he.allowed
    exact (ih ⟨he.checked.1, hallowed⟩ ht).unary he.checked.2 hself h
  | binary op l r ty ihl ihr =>
    intro he m h
    obtain ⟨l', hl', h⟩ := Outcome.bind_eq_ok.mp h
    obtain ⟨r', hr', h⟩ := Outcome.bind_eq_ok.mp h
    obtain ⟨hself, hl, hr⟩ := all_binary.mp he.allowed
    obtain ⟨hcl, hcr, hty⟩ := he.checked
    exact (ihl ⟨hcl, hl⟩ hl').binary (ihr ⟨hcr, hr⟩ hr') hty hself h
  | cond t a b ty iht iha ihb =>
    intro he m h
    obtain ⟨t', ht', h⟩ := Outcome.bind_eq_ok.mp h
    obtain ⟨a', ha', h⟩ := Outcome.bind_eq_ok.mp h
    obtain ⟨b', hb', h⟩ := Outcome.bind_eq_ok.mp h
    obtain ⟨hself, ht, ha, hb⟩ := all_cond.mp he.allowed
    obtain ⟨hct, hca, hcb, -, hjoin⟩ := he.checked
    exact .cond hV (iht ⟨hct, ht⟩ ht') (iha ⟨hca, ha⟩ ha') (ihb ⟨hcb, hb⟩ hb') hjoin hself h
  | call method es ty ih =>
    intro he m h
    obtain ⟨ms, hms, h⟩ := Outcome.bind_eq_ok.mp h
    obtain ⟨hself, hes⟩ := all_call.mp he.allowed
    obtain ⟨hces, hty⟩ := he.checked
    rw [checkedAll_iff] at hces
    have hreps : List.Forall₂ (fun e m => Replaces V env env' m e) es ms :=
      Outcome.forall₂_imp_mem (substAll_eq_ok.mp hms) fun e hmem m hm =>
        ih e hmem ⟨hces e hmem, hes e hmem⟩ hm
    exact .call hnow hreps hty hself h
  | construct record es bs ihe ihb =>
    intro he m h
    obtain ⟨ms, hms, h⟩ := Outcome.bind_eq_ok.mp h
    obtain ⟨cs, hcs, h⟩ := Outcome.bind_eq_ok.mp h
    obtain ⟨hself, hes, hbs⟩ := he.construct
    have hreps : List.Forall₂ (fun e m => Replaces V env env' m e) es ms :=
      Outcome.forall₂_imp_mem (substAll_eq_ok.mp hms) fun e hmem m hm => ihe e hmem (hes e hmem) hm
    have hbinds : List.Forall₂ (fun b c => b.1 = c.1 ∧ Replaces V env env' c.2 b.2) bs cs :=
      Outcome.forall₂_imp_mem (substBindings_eq_ok.mp hcs) fun b hmem c hc =>
        ⟨hc.1, ihb b hmem (hbs b hmem) hc.2⟩
    exact .construct hreps hbinds hself h

end Expr
end SeqQuery
