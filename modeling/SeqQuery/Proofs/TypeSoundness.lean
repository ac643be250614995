/-
# Type soundness

What a well-typed expression evaluates to is a deep instance of its type, whenever its
constants and the values of its parameters are. If the evaluation fails, then for a
reason that types do not speak of: an overflow, a division by zero, a null where an
object or an argument is needed, or a value that cannot be converted. It never fails
for a missing parameter, a value of a wrong kind, an unknown member or a wrong number of
fields.

Each table of operators or methods has one lemma that holds its typing rule against
what it gives for values.

Key definitions: `ExprError.Expected`, `Expr.ConvertsTo`.
Key theorems: `UnaryOp.apply_ends`, `BinaryOp.apply_ends`, `Method.apply_ends`,
`Value.readMember_ends`, `Expr.eval_ends`, `Expr.eval_deep`, `Expr.type_soundness`.
-/
import SeqQuery.Proofs.Checked

namespace SeqQuery

/-- The errors that a well-typed expression may end in, where `target` says which types
it converts to. -/
inductive ExprError.Expected (target : Ty → Prop) : ExprError → Prop
  | overflow (operation : String) : Expected target (.overflow operation)
  | divisionByZero : Expected target .divisionByZero
  | nullRead (member : String) : Expected target (.invalidOperation (.nullRead member))
  | nullCall (method : Method) : Expected target (.invalidOperation (.nullCall method))
  | nullArgument (method : Method) {kinds : List String} (h : Value.null.typeName ∈ kinds) :
      Expected target (.invalidOperation (.badArguments method kinds))
  | conversion (v : Value) {ty : Ty} (h : target ty) :
      Expected target (.value (v.coercionError ty))

open ExprError (Expected)

variable {target : Ty → Prop}

theorem ExprError.Expected.mono {target' : Ty → Prop} (ht : ∀ ty, target ty → target' ty)
    {e : ExprError} (h : Expected target e) : Expected target' e := by
  cases h with
  | conversion v h => exact .conversion v (ht _ h)
  | nullArgument method h => exact .nullArgument method h
  | _ => constructor

/-- The outcome is a deep instance of a type or an error that is expected. -/
abbrev Lands (target : Ty → Prop) (ty : Ty) (outcome : Except ExprError Value) : Prop :=
  Ends (fun v => ty.admitsDeep v = true) (Expected target) outcome

/-! ### Arithmetic -/

theorem inBits_ends (bits : Nat) (operation : String) (n : Int) :
    Ends (fun _ => True) (Expected target) (inBits bits operation n) := by
  unfold inBits
  split
  · exact .ok trivial
  · exact .error (.overflow operation)

theorem Arith.onInts_ends (op : Arith) (bits : Nat) (a b : Int) :
    Ends (fun _ => True) (Expected target) (op.onInts bits a b) := by
  cases op <;> simp only [onInts]
  case add | sub | mul => exact .ok trivial
  case addChecked | subChecked | mulChecked => exact inBits_ends ..
  case div =>
    split
    · exact .error .divisionByZero
    · exact inBits_ends ..
  case rem =>
    split
    · exact .error .divisionByZero
    · exact (inBits_ends ..).map fun _ _ => trivial

theorem Arith.apply_ends (op : Arith) {ty : Ty} (hty : ty.isNumeric) {v w : Value}
    (hv : ty.admitsDeep v) (hw : ty.admitsDeep w) : Lands target ty (op.apply v w) := by
  rcases Ty.isNumeric_iff.mp hty with rfl | rfl | rfl | rfl
  · obtain ⟨a, rfl⟩ := Ty.admitsDeep_int32.mp hv
    obtain ⟨b, rfl⟩ := Ty.admitsDeep_int32.mp hw
    exact (op.onInts_ends 32 _ _).map fun _ _ => rfl
  · obtain ⟨a, rfl⟩ := Ty.admitsDeep_int64.mp hv
    obtain ⟨b, rfl⟩ := Ty.admitsDeep_int64.mp hw
    exact (op.onInts_ends 64 _ _).map fun _ _ => rfl
  · obtain ⟨x, rfl⟩ := Ty.admitsDeep_float32.mp hv
    obtain ⟨y, rfl⟩ := Ty.admitsDeep_float32.mp hw
    exact .ok rfl
  · obtain ⟨x, rfl⟩ := Ty.admitsDeep_float64.mp hv
    obtain ⟨y, rfl⟩ := Ty.admitsDeep_float64.mp hw
    exact .ok rfl

/-! ### Operators -/

/-- A converted value is an instance of the target, and deep because nothing but
scalars is ever made anew. -/
theorem Value.admitsDeep_convert {s t : Ty} {v w : Value} (hv : s.admitsDeep v)
    (h : v.convert t = .ok w) : t.admitsDeep w := by
  unfold convert at h
  split at h
  · next ht =>
    cases h
    exact Ty.admitsDeep_of_admits hv ht
  · split at h
    · next hw =>
      cases h
      cases v <;> cases t <;> simp only [convert?, ofInteger?, ofFloating?, reduceCtorEq] at hw <;>
        (cases hw; rfl)
    · cases h

theorem UnaryOp.apply_ends {op : UnaryOp} {s ty : Ty} (h : op.resultTy s = .ok ty) {v : Value}
    (hv : s.admitsDeep v) : Lands (fun t => op = .convert t) ty (op.apply v) := by
  cases op with
  | convert t =>
    obtain rfl := resultTy_convert.mp h
    rw [UnaryOp.apply]
    cases hconvert : v.convert t with
    | ok w => exact .ok (Value.admitsDeep_convert hv hconvert)
    | error e =>
      obtain rfl : v.coercionError t = e := by
        unfold Value.convert at hconvert
        split at hconvert
        · cases hconvert
        · split at hconvert <;> cases hconvert
          rfl
      exact .error (.conversion v rfl)
  | not =>
    obtain ⟨hs | hs, rfl⟩ := resultTy_not.mp h
    · subst hs
      obtain ⟨b, rfl⟩ := Ty.admitsDeep_bool.mp hv
      exact .ok rfl
    · rcases Ty.isInteger_iff.mp hs with rfl | rfl
      · obtain ⟨n, rfl⟩ := Ty.admitsDeep_int32.mp hv
        exact .ok rfl
      · obtain ⟨n, rfl⟩ := Ty.admitsDeep_int64.mp hv
        exact .ok rfl
  | _ =>
    obtain ⟨hs, rfl⟩ := (resultTy_sign rfl).mp h
    rcases Ty.isNumeric_iff.mp hs with rfl | rfl | rfl | rfl
    · obtain ⟨n, rfl⟩ := Ty.admitsDeep_int32.mp hv
      first | exact .ok rfl | exact (inBits_ends ..).map fun _ _ => rfl
    · obtain ⟨n, rfl⟩ := Ty.admitsDeep_int64.mp hv
      first | exact .ok rfl | exact (inBits_ends ..).map fun _ _ => rfl
    · obtain ⟨x, rfl⟩ := Ty.admitsDeep_float32.mp hv
      exact .ok rfl
    · obtain ⟨x, rfl⟩ := Ty.admitsDeep_float64.mp hv
      exact .ok rfl

theorem Bits.apply_ends (op : Bits) {ty : Ty} (hty : ty.isInteger ∨ ty = .bool) {v w : Value}
    (hv : ty.admitsDeep v) (hw : ty.admitsDeep w) : Lands target ty (op.apply v w) := by
  rcases hty with hty | rfl
  · rcases Ty.isInteger_iff.mp hty with rfl | rfl
    · obtain ⟨a, rfl⟩ := Ty.admitsDeep_int32.mp hv
      obtain ⟨b, rfl⟩ := Ty.admitsDeep_int32.mp hw
      cases op <;> exact .ok rfl
    · obtain ⟨a, rfl⟩ := Ty.admitsDeep_int64.mp hv
      obtain ⟨b, rfl⟩ := Ty.admitsDeep_int64.mp hw
      cases op <;> exact .ok rfl
  · obtain ⟨a, rfl⟩ := Ty.admitsDeep_bool.mp hv
    obtain ⟨b, rfl⟩ := Ty.admitsDeep_bool.mp hw
    cases op <;> exact .ok rfl

theorem Shift.apply_ends (op : Shift) {ty : Ty} (hty : ty.isInteger) {v w : Value}
    (hv : ty.admitsDeep v) (hw : Ty.int32.admitsDeep w) : Lands target ty (op.apply v w) := by
  obtain ⟨amount, rfl⟩ := Ty.admitsDeep_int32.mp hw
  rcases Ty.isInteger_iff.mp hty with rfl | rfl
  · obtain ⟨a, rfl⟩ := Ty.admitsDeep_int32.mp hv
    cases op <;> exact .ok rfl
  · obtain ⟨a, rfl⟩ := Ty.admitsDeep_int64.mp hv
    cases op <;> exact .ok rfl

theorem Value.concatPart_ends {ty : Ty} (hty : ty.Narrows .string) {v : Value}
    (hv : ty.admitsDeep v) : Ends (fun _ => True) (Expected target) v.concatPart := by
  rcases Ty.admitsDeep_string.mp (hty.admitsDeep hv) with rfl | ⟨s, rfl⟩ <;> exact .ok trivial

/-- An operator ends well on values of the types that it takes. A connective is not
among them when it is evaluated, but holds to its type as well. -/
theorem BinaryOp.apply_ends {op : BinaryOp} {l r ty : Ty} (h : op.resultTy l r = .ok ty)
    {v w : Value} (hv : l.admitsDeep v) (hw : r.admitsDeep w) :
    Lands target ty (op.apply v w) := by
  cases op with
  | arith op =>
    obtain ⟨hnum, rfl, rfl⟩ := resultTy_arith.mp h
    exact op.apply_ends hnum hv hw
  | bits op =>
    obtain ⟨rfl, hint, rfl⟩ := resultTy_bits.mp h
    exact op.apply_ends hint hv hw
  | shift op =>
    obtain ⟨hint, rfl, rfl⟩ := resultTy_shift.mp h
    exact op.apply_ends hint hv hw
  | equality op =>
    obtain ⟨-, rfl⟩ := resultTy_equality.mp h
    cases op <;> exact .ok rfl
  | relation op =>
    obtain ⟨-, -, rfl⟩ := resultTy_relation.mp h
    exact .ok rfl
  | connective op =>
    obtain ⟨rfl, rfl, rfl⟩ := resultTy_connective.mp h
    obtain ⟨a, rfl⟩ := Ty.admitsDeep_bool.mp hv
    obtain ⟨b, rfl⟩ := Ty.admitsDeep_bool.mp hw
    cases op <;> exact .ok rfl
  | concat =>
    obtain ⟨hl, hr, rfl⟩ := resultTy_concat.mp h
    refine (Value.concatPart_ends hl hv).bind fun first _ => ?_
    refine (Value.concatPart_ends hr hw).bind fun second _ => ?_
    exact .ok rfl

/-! ### Methods -/

theorem timeAfter_ends (ms : Int64) (days : Float) :
    Lands target .timestamp (timeAfter ms days) := by
  simp only [timeAfter]
  split
  · exact .error (.overflow _)
  · exact (inBits_ends ..).map fun _ _ => rfl

/-- A number is a double when one is needed. -/
theorem Value.exists_float {ty : Ty} (hty : ty.isNumeric) {v : Value} (hv : ty.admitsDeep v) :
    ∃ x, v.float? = some x := by
  rcases Ty.isNumeric_iff.mp hty with rfl | rfl | rfl | rfl
  · obtain ⟨n, rfl⟩ := Ty.admitsDeep_int32.mp hv
    exact ⟨_, rfl⟩
  · obtain ⟨n, rfl⟩ := Ty.admitsDeep_int64.mp hv
    exact ⟨_, rfl⟩
  · obtain ⟨x, rfl⟩ := Ty.admitsDeep_float32.mp hv
    exact ⟨_, rfl⟩
  · obtain ⟨x, rfl⟩ := Ty.admitsDeep_float64.mp hv
    exact ⟨_, rfl⟩

/-- A method ends well on an object and arguments of the types that it takes. -/
theorem Method.apply_ends (now : Int64) {method : Method} {object : Option Ty} {args : List Ty}
    {ty : Ty} (h : method.Signature object args ty) {o : Option Value} {vs : List Value}
    (ho : Option.Rel (fun t v => t.admitsDeep v = true) object o)
    (hvs : List.Forall₂ (fun t v => t.admitsDeep v = true) args vs) :
    Lands target ty (method.apply now o vs) := by
  cases h with
  | addDays hdays =>
    rcases ho with ho | _
    rcases hvs with _ | ⟨hv, _ | _⟩
    obtain ⟨ms, rfl⟩ := Ty.admitsDeep_timestamp.mp ho
    obtain ⟨x, hx⟩ := Value.exists_float hdays hv
    simp only [Method.apply, hx]
    exact timeAfter_ends ms x
  | abs hn =>
    rcases ho with _ | _
    rcases hvs with _ | ⟨hv, _ | _⟩
    rcases Ty.isNumeric_iff.mp hn with rfl | rfl | rfl | rfl
    · obtain ⟨n, rfl⟩ := Ty.admitsDeep_int32.mp hv
      rw [Method.apply]
      exact (inBits_ends ..).map fun _ _ => rfl
    · obtain ⟨n, rfl⟩ := Ty.admitsDeep_int64.mp hv
      rw [Method.apply]
      exact (inBits_ends ..).map fun _ _ => rfl
    · obtain ⟨x, rfl⟩ := Ty.admitsDeep_float32.mp hv
      exact .ok rfl
    · obtain ⟨x, rfl⟩ := Ty.admitsDeep_float64.mp hv
      exact .ok rfl
  | now =>
    rcases ho with _ | _
    rcases hvs with _ | _
    exact .ok rfl
  | toUpper | toLower =>
    rcases ho with ho | _
    rcases hvs with _ | _
    rcases Ty.admitsDeep_string.mp ho with rfl | ⟨s, rfl⟩
    · exact .error (.nullCall _)
    · exact .ok rfl
  | length =>
    rcases ho with ho | _
    rcases hvs with _ | _
    rcases Ty.admitsDeep_string.mp ho with rfl | ⟨s, rfl⟩
    · exact .error (.nullCall _)
    · rw [Method.apply]
      exact (inBits_ends ..).map fun _ _ => rfl
  | startsWith | endsWith | contains =>
    rcases ho with ho | _
    rcases hvs with _ | ⟨hv, _ | _⟩
    rcases Ty.admitsDeep_string.mp ho with rfl | ⟨s, rfl⟩
    · exact .error (.nullCall _)
    · rcases Ty.admitsDeep_string.mp hv with rfl | ⟨part, rfl⟩
      · exact .error (.nullArgument _ List.mem_cons_self)
      · exact .ok rfl

/-! ### Members -/

/-- Reading a member of a deep record gives a deep instance of the member's type, and
fails on null alone. -/
theorem Value.readMember_ends {s ty : Ty} {name : String} (h : s.memberTy name = .ok ty)
    {v : Value} (hv : s.admitsDeep v) : Lands target ty (v.readMember name) := by
  obtain ⟨r, rfl, hfind⟩ := Ty.memberTy_eq_ok.mp h
  obtain ⟨i, hi, hty⟩ := Fields.find?_eq_some.mp hfind
  rcases Ty.admitsDeep_record.mp hv with rfl | ⟨vs, rfl, hvs⟩
  · exact .error (.nullRead name)
  · have hrel := forall₂_iff_getElem?.mp hvs i
    rw [hty] at hrel
    cases hw : vs[i]? with
    | none => simp [hw] at hrel
    | some w =>
      rw [hw, Option.rel_some_some] at hrel
      rw [(readMember_record hi).mpr hw]
      exact .ok hrel

/-! ### Expressions -/

namespace Expr

/-- Whether a conversion to a type is among the nodes. -/
def ConvertsTo (ns : List Expr) (t : Ty) : Prop :=
  ∃ e ty, .unary (.convert t) e ty ∈ ns

variable {ns : List Expr} {env : Env} {E : ExprError → Prop}

/-- A Boolean side ends in a Boolean. -/
theorem evalBool_ends {e : Expr} (hty : e.ty = .bool)
    (h : Ends (fun v => e.ty.admitsDeep v = true) E (e.eval env)) :
    Ends (fun _ => True) E (e.evalBool env) := by
  refine Ends.bind h fun v hv => ?_
  rw [hty] at hv
  obtain ⟨b, rfl⟩ := Ty.admitsDeep_bool.mp hv
  exact .ok trivial

/-- An expression among whose nodes all constants are deep ends in a deep instance of its
type or in an error of the kinds that operators and parameters end in, if its parameters
have deep values or end in such an error. -/
theorem eval_ends_of (hE : ∀ err, Expected (ConvertsTo ns) err → E err)
    (hconst : ∀ v ty, .const v ty ∈ ns → ty.admitsDeep v)
    (hparam : ∀ p, .param p ∈ ns → Ends (fun v => p.ty.admitsDeep v = true) E (eval env (.param p)))
    (e : Expr) (hns : e.All (· ∈ ns)) (hc : e.Checked) :
    Ends (fun v => e.ty.admitsDeep v = true) E (e.eval env) := by
  induction e with
  | const v ty => exact .ok (hconst v ty (all_const.mp hns))
  | param p => exact hparam p (all_param.mp hns)
  | member e name ty ih =>
    obtain ⟨hce, hty⟩ := hc
    rw [eval_member]
    exact (ih (all_member.mp hns).2 hce).bind fun v hv => (Value.readMember_ends hty hv).mono hE
  | unary op e ty ih =>
    obtain ⟨hce, hty⟩ := hc
    obtain ⟨hself, he⟩ := all_unary.mp hns
    rw [eval_unary]
    refine (ih he hce).bind fun v hv => ?_
    refine (UnaryOp.apply_ends hty hv).mono fun err herr => hE err (herr.mono ?_)
    rintro t rfl
    exact ⟨e, ty, hself⟩
  | binary op l r ty ihl ihr =>
    obtain ⟨hcl, hcr, hty⟩ := hc
    obtain ⟨-, hl, hr⟩ := all_binary.mp hns
    have hleft := ihl hl hcl
    have hright := ihr hr hcr
    cases hop : op.isStrict with
    | true =>
      rw [eval_strict env hop]
      exact hleft.bind fun v hv => hright.bind fun w hw => (BinaryOp.apply_ends hty hv hw).mono hE
    | false =>
      obtain ⟨op, rfl⟩ := BinaryOp.isStrict_eq_false.mp hop
      obtain ⟨htl, htr, rfl⟩ := BinaryOp.resultTy_connective.mp hty
      rw [eval_connective]
      refine (evalBool_ends htl hleft).bind fun a _ => ?_
      split
      · exact .ok rfl
      · exact (evalBool_ends htr hright).map fun _ _ => rfl
  | cond t a b ty iht iha ihb =>
    obtain ⟨hct, hca, hcb, htest, hty⟩ := hc
    obtain ⟨-, ht, ha, hb⟩ := all_cond.mp hns
    rw [eval_cond]
    refine (evalBool_ends htest (iht ht hct)).bind fun c _ => ?_
    split
    · exact (iha ha hca).imp fun v hv => Ty.admitsDeep_join hty (.inl hv)
    · exact (ihb hb hcb).imp fun v hv => Ty.admitsDeep_join hty (.inr hv)
  | call method es ty ih =>
    obtain ⟨hces, hty⟩ := hc
    have hes := (all_call.mp hns).2
    have hoperands : Ends (List.Forall₂ (fun e v => e.ty.admitsDeep v = true) es) E
        (es.mapM (eval env)) :=
      .mapM fun e he => ih e he (hes e he) (checkedAll_iff.mp hces e he)
    rw [eval_call, evalAll_eq_mapM]
    refine hoperands.bind fun vs hvs => ?_
    have hdeep : List.Forall₂ (fun t v => t.admitsDeep v = true) (es.map Expr.ty) vs :=
      List.forall₂_map_left_iff.mpr hvs
    obtain ⟨ho, hargs⟩ := method.split_rel hdeep
    exact (Method.apply_ends env.now (Method.resultTy_eq_ok hty) ho hargs).mono hE
  | construct record es bs ihe ihb =>
    obtain ⟨hces, hcbs, hinits⟩ := hc
    obtain ⟨-, hes, hbs⟩ := all_construct.mp hns
    have hargs : Ends (List.Forall₂ (fun e v => e.ty.admitsDeep v = true) es) E
        (es.mapM (eval env)) :=
      .mapM fun e he => ihe e he (hes e he) (checkedAll_iff.mp hces e he)
    have hbindings : Ends
        (List.Forall₂ (fun b w => b.1 = w.1 ∧ b.2.ty.admitsDeep w.2 = true) bs) E
        (bs.mapM fun b => (eval env b.2).map (b.1, ·)) :=
      .mapM fun b hb => (ihb b hb (hbs b hb) (checkedBindings_iff.mp hcbs b hb)).map
        fun w hw => ⟨rfl, hw⟩
    rw [eval_construct, evalAll_eq_mapM, evalBindings_eq_mapM]
    refine hargs.bind fun vs hvs => hbindings.bind fun ws hws => ?_
    obtain ⟨v, hbuild, hdeep⟩ := RecordTy.build_deep hinits
      (List.forall₂_map_left_iff.mpr hvs) (List.forall₂_map_left_iff.mpr hws)
    rw [hbuild]
    exact .ok hdeep

/-- An expression among whose nodes all constants are deep, under deep values for all its
parameters, ends in a deep instance of its type or in an error that is expected. -/
theorem eval_ends (hconst : ∀ v ty, .const v ty ∈ ns → ty.admitsDeep v)
    (hparam : ∀ p, .param p ∈ ns → ∃ v, env.find? p = some v ∧ p.ty.admitsDeep v) (e : Expr)
    (hns : e.All (· ∈ ns)) (hc : e.Checked) : Lands (ConvertsTo ns) e.ty (e.eval env) := by
  refine eval_ends_of (fun err herr => herr) hconst (fun p hp => ?_) e hns hc
  obtain ⟨v, hv, hdeep⟩ := hparam p hp
  rw [eval, hv]
  exact .ok hdeep

/-- What an expression with deep constants evaluates to is a deep instance of its type,
whenever the parameters that have values have deep ones. -/
theorem eval_deep (hconst : ∀ v ty, .const v ty ∈ ns → ty.admitsDeep v)
    (hparam : ∀ p v, .param p ∈ ns → env.find? p = some v → p.ty.admitsDeep v) {e : Expr}
    (hns : e.All (· ∈ ns)) (hc : e.Checked) {v : Value} (hv : e.eval env = .ok v) :
    e.ty.admitsDeep v := by
  have hends : ∀ p, .param p ∈ ns →
      Ends (fun v => p.ty.admitsDeep v = true) (fun _ => True) (eval env (.param p)) := by
    intro p hp
    rw [eval]
    cases hfind : env.find? p with
    | none => exact .error trivial
    | some w => exact .ok (hparam p w hp hfind)
  exact (eval_ends_of (fun _ _ => trivial) hconst hends e hns hc).of_ok hv

/-- An expression with deep constants has no value but a deep instance of its type where no
parameter has one. -/
theorem eval_empty_deep {e : Expr} (hconst : ∀ v ty, .const v ty ∈ e.nodes → ty.admitsDeep v)
    (hc : e.Checked) {v : Value} (hv : e.eval .empty = .ok v) : e.ty.admitsDeep v := by
  refine eval_deep hconst ?_ (fun n hn => hn) hc hv
  intro p w _ hw
  cases hw

/-- An expression that is built through the typing rules, with deep constants and under
deep values for its parameters, evaluates to a deep instance of its type or fails as
`ExprError.Expected` says. -/
theorem type_soundness (env : Env) (e : Expr) (he : e.Built)
    (hconst : ∀ v ty, .const v ty ∈ e.nodes → ty.admitsDeep v)
    (hparam : ∀ p, .param p ∈ e.nodes → ∃ v, env.find? p = some v ∧ p.ty.admitsDeep v) :
    (∀ v, e.eval env = .ok v → e.ty.admitsDeep v) ∧
      ∀ err, e.eval env = .error err → Expected (ConvertsTo e.nodes) err := by
  have hends := eval_ends hconst hparam e (fun n hn => hn) he.checked
  exact ⟨fun v hv => hends.of_ok hv, fun err herr => hends.of_error herr⟩

/-- A text that is no integer fails to convert, and in no other way. -/
theorem type_soundness_convert_text :
    let p : Param := ⟨0, "x", .string⟩
    let e : Expr := .unary (.convert .int32) (.param p) .int32
    Expected (ConvertsTo e.nodes) (.value ((Value.string "seven").coercionError .int32)) := by
  intro p e
  have hmake : mkUnary (.convert .int32) (.param p) = .ok e := rfl
  have hbuilt : e.Built := .unary (.param p) hmake
  refine (type_soundness (.single 0 p (.string "seven")) e hbuilt ?_ ?_).2 _ rfl
  · intro v ty h
    simp [e, nodes] at h
  · intro q hq
    obtain rfl : q = p := by simpa [e, nodes] using hq
    exact ⟨.string "seven", rfl, rfl⟩

end Expr
end SeqQuery
