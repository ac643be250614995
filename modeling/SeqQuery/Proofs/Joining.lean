/-
# The laws of composed and joined lambdas

A composition has the value that its two lambdas have one after the other, a conjunction
holds where both predicates hold, and a negation where its predicate does not. The laws
are for arguments where the parts have values: a composition may have a value where its
second lambda has none, because a member that is read from a new record no longer needs
the other fields.

Key definitions: `Vocabulary.Exact`, `Vocabulary.own`, `Vocabulary.Sound`,
`Vocabulary.Stable`, `Lambda.Over`.
Key theorems: `Lambda.fold_sound`, `Lambda.andThen_eq_ok`, `Lambda.andThen_sound`,
`Lambda.andThen_apply`, `Lambda.withParam_sound`, `Lambda.conjoin_value`,
`Lambda.conjoin_test`, `Lambda.Over.andThen`, `Lambda.Over.conjoin`, `Lambda.Over.negate`.
-/
import SeqQuery.Lambda
import SeqQuery.Proofs.Substitution

namespace SeqQuery

/-- A vocabulary without sums and products of floating-point numbers. -/
def Vocabulary.Exact (V : Vocabulary) : Prop :=
  ∀ n, V.Allows n → n.isFloatSum = false

theorem Vocabulary.exact_noFloatSum : noFloatSum.Exact :=
  fun _ => allows_noFloatSum.mp

/-- The vocabulary of lambdas over a parameter, which has one type throughout. -/
def Vocabulary.own (W : Vocabulary) (p : Param) : Vocabulary :=
  W.receiving p.id p.ty

/-- Whether a parameter has the type of every known parameter with its identity. -/
def Param.Fits (known : Param → Prop) (p : Param) : Prop :=
  ∀ q, known q → q.id = p.id → p.ty = q.ty

/-- Whether a parameter has the type that goes with its identity. -/
def Param.IsTyped (types : Nat → Ty) (p : Param) : Prop :=
  p.ty = types p.id

theorem Param.IsTyped.fits {types : Nat → Ty} {p : Param} (h : p.IsTyped types) :
    p.Fits (Param.IsTyped types) := by
  intro q hq hid
  rw [h, hq, hid]

/-- Whether lambdas over a vocabulary can be composed, joined, negated and folded. -/
structure Vocabulary.Sound (W : Vocabulary) : Prop where
  closed : ∀ p, (W.own p).Closed
  exact : ∀ p, (W.own p).Exact
  joins : W.binary (.connective .and) .bool
  negates : W.other .bool

/-- Whether lambdas over a vocabulary that are composed, joined and folded stay within it. -/
structure Vocabulary.Stable (W : Vocabulary) : Prop where
  closed : ∀ p, (W.own p).Closed
  joins : W.binary (.connective .and) .bool

theorem Vocabulary.Sound.stable {W : Vocabulary} (hW : W.Sound) : W.Stable :=
  ⟨hW.closed, hW.joins⟩

/-- The part of a vocabulary with no parameters but those that are known. -/
def Vocabulary.knowing (W : Vocabulary) (known : Param → Prop) : Vocabulary :=
  { W with param := fun p => W.param p ∧ known p }

theorem Param.Fits.knowing {known : Param → Prop} {p : Param} (h : p.Fits known) (W : Vocabulary) :
    p.Fits (W.knowing known).param :=
  fun q hq => h q hq.2

namespace Env

variable {now : Int64} {p q : Param} {v : Value}

theorem find?_single (h : q.id = p.id) : (single now p v).find? q = some v := by
  simp [find?, single, h]

theorem find?_single_ne (h : q.id ≠ p.id) : (single now p v).find? q = none := by
  simp [find?, single, List.lookup_cons, beq_false_of_ne h]

end Env

theorem Expr.Checked.over_noFloatSum {e : Expr} (he : e.Checked)
    (hsum : ∀ n ∈ e.nodes, n.isFloatSum = false) : e.Over .noFloatSum :=
  ⟨he, fun n hn => Vocabulary.allows_noFloatSum.mpr (hsum n hn)⟩

/-- A well-typed expression may have the parameter with an identity replaced, if that has one
type throughout. -/
theorem Expr.Checked.over_receiving {e : Expr} {id : Nat} {ty : Ty} (he : e.Checked)
    (hsum : ∀ n ∈ e.nodes, n.isFloatSum = false)
    (hparam : ∀ p, .param p ∈ e.nodes → p.id = id → ty = p.ty) :
    e.Over (Vocabulary.noFloatSum.receiving id ty) := by
  refine ⟨he, fun n hn => ?_⟩
  have hallows := (he.over_noFloatSum hsum).allowed n hn
  cases n with
  | param p => exact ⟨hparam p hn, fun _ => trivial⟩
  | _ => exact hallows

/-- A negation loses its `!`, and everything else gets one. -/
theorem Expr.negate_eq_ok {e m : Expr} (h : e.negate = .ok m) :
    (∃ ty, e = .unary .not m ty) ∨ Expr.mkUnary .not e = .ok m := by
  unfold Expr.negate at h
  split at h
  · obtain rfl := Except.ok.inj h
    exact .inl ⟨_, rfl⟩
  · exact .inr h

theorem UnaryOp.not_apply_eq_bool {v : Value} {b : Bool}
    (h : UnaryOp.not.apply v = .ok (.bool b)) : v = .bool !b := by
  cases v <;> simp_all [UnaryOp.apply]

namespace Lambda

variable {V : Vocabulary} {now : Int64}

/-- A test succeeds exactly when the lambda gives a Boolean. -/
theorem test_eq_ok {f : Lambda} {v : Value} {b : Bool} :
    f.test now v = .ok b ↔ f.apply now v = .ok (.bool b) :=
  Expr.evalBool_eq_ok

theorem isIdentity_iff {f : Lambda} :
    f.isIdentity ↔ ∃ p : Param, f.body = .param p ∧ p.id = f.param.id := by
  unfold isIdentity
  split
  · next p hbody =>
    simp only [hbody, Expr.param.injEq, exists_eq_left']
    exact beq_iff_eq (a := p.id) (b := f.param.id)
  · next hbody =>
    simp only [Bool.false_eq_true, false_iff, not_exists, not_and]
    exact fun p hp => absurd hp (hbody p)

theorem apply_of_isIdentity {f : Lambda} (h : f.isIdentity) (now : Int64) (v : Value) :
    f.apply now v = .ok v := by
  obtain ⟨p, hbody, hp⟩ := isIdentity_iff.mp h
  rw [apply, hbody, Expr.eval, Env.find?_single hp]

/-- Putting an image in the place of a parameter stays within the vocabulary. -/
theorem subst_over (hV : V.Closed) {id : Nat} {image e m : Expr} (himage : image.Over V)
    (he : e.Over (V.receiving id image.ty)) (h : Expr.subst id image e = .ok m) :
    m.Over V ∧ m.ty.Narrows e.ty := by
  -- no parameter has a value in the empty environment
  have hempty : ∀ q : Param, Expr.Refines .empty (.param q) .empty image := by
    intro q u hu
    cases hu
  have hrep := Expr.subst_replaces hV rfl himage (fun q _ => hempty q) (fun q _ => .refl _) e he h
  exact ⟨hrep.within, hrep.narrows⟩

/-- Putting an image in the place of the one parameter that has a value. -/
theorem subst_value (hV : V.Closed) {image e m : Expr} {p : Param} (himage : image.Over V)
    (he : e.Over (V.receiving p.id image.ty)) (h : Expr.subst p.id image e = .ok m)
    {now : Int64} {q : Param} {x y z : Value} (hy : image.eval (.single now q x) = .ok y)
    (hz : e.eval (.single now p y) = .ok z) : m.eval (.single now q x) = .ok z := by
  have hnow : (Env.single now p y).now = (Env.single now q x).now := rfl
  refine (Expr.subst_replaces hV hnow himage ?_ ?_ e he h).refines z hz
  · intro r hr u hu
    rw [Expr.eval, Env.find?_single hr] at hu
    rw [hy]
    exact hu
  · intro r hr u hu
    rw [Expr.eval, Env.find?_single_ne hr] at hu
    cases hu

/-! ### Folding -/

theorem fold_sound (hV : V.Closed) (hexact : V.Exact) {f : Lambda} (hf : f.body.Over V) :
    f.fold.body.Over V ∧
      ∀ now v u, f.apply now v = .ok u → f.fold.apply now v = .ok u := by
  refine ⟨hf.fold hV, fun now v u hu => ?_⟩
  exact Expr.fold_refines hf.checked (hf.allowed.imp hexact) _ u hu

/-! ### Composition -/

/-- A composition with an identity is the first lambda. Else the body of the first lambda is
put in the place of the parameter of the second. -/
theorem andThen_eq_ok {f g m : Lambda} (h : f.andThen g = .ok m) : g.paramTy = f.returnTy ∧
    ((g.isIdentity ∧ m = f) ∨ ∃ body, Expr.subst g.param.id f.body g.body = .ok body ∧
      m = ⟨f.param, body.fold⟩) := by
  unfold andThen at h
  split at h
  · next hty =>
    refine ⟨hty, ?_⟩
    split at h
    · next hid => exact .inl ⟨hid, (Except.ok.inj h).symm⟩
    · obtain ⟨body, hbody, rfl⟩ := Outcome.map_eq_ok.mp h
      exact .inr ⟨body, hbody, rfl⟩
  · cases h

theorem paramTy_of_andThen {f g m : Lambda} (h : f.andThen g = .ok m) :
    g.paramTy = f.returnTy :=
  (andThen_eq_ok h).1

theorem param_of_andThen {f g m : Lambda} (h : f.andThen g = .ok m) : m.param = f.param := by
  obtain ⟨-, ⟨-, rfl⟩ | ⟨body, -, rfl⟩⟩ := andThen_eq_ok h <;> rfl

/-- A conjunction has the parameter of its first predicate, over which the second is put. -/
theorem conjoin_eq_ok {f g m : Lambda} (h : f.conjoin g = .ok m) : ∃ aligned,
    g.withParam f.param = .ok aligned ∧
      (BinaryOp.connective .and).resultTy f.body.ty aligned.body.ty = .ok .bool ∧
      m = ⟨f.param, (Expr.binary (.connective .and) f.body aligned.body .bool).fold⟩ := by
  obtain ⟨aligned, haligned, h⟩ := Outcome.bind_eq_ok.mp h
  obtain ⟨body, hbody, h⟩ := Outcome.bind_eq_ok.mp h
  obtain rfl := Except.ok.inj h
  obtain ⟨ty, hty, rfl⟩ := Expr.mkBinary_eq_ok.mp hbody
  obtain ⟨-, -, rfl⟩ := BinaryOp.resultTy_connective.mp hty
  exact ⟨aligned, haligned, hty, rfl⟩

theorem param_of_conjoin {f g m : Lambda} (h : f.conjoin g = .ok m) : m.param = f.param := by
  obtain ⟨aligned, -, -, rfl⟩ := conjoin_eq_ok h
  rfl

/-- A composition stays within the vocabulary. -/
theorem andThen_over (hV : V.Closed) {f g m : Lambda} (hf : f.body.Over V)
    (hg : g.body.Over (V.receiving g.param.id f.returnTy)) (h : f.andThen g = .ok m) :
    m.body.Over V ∧ m.returnTy.Narrows g.returnTy := by
  obtain ⟨-, ⟨hid, rfl⟩ | ⟨body, hbody, rfl⟩⟩ := andThen_eq_ok h
  · obtain ⟨p, hp, hown⟩ := isIdentity_iff.mp hid
    have hty := (Expr.all_param.mp (hp ▸ hg.allowed)).1 hown
    refine ⟨hf, .inl ?_⟩
    rw [hty, returnTy, hp]
    rfl
  · obtain ⟨hover, hnarrows⟩ := subst_over hV hf hg hbody
    refine ⟨hover.fold hV, ?_⟩
    rw [returnTy, (Expr.fold_checked hover.checked).2]
    exact hnarrows

/-- A composition stays within the vocabulary, has the parameter of the first lambda, and
has the value of the second at the value of the first. -/
theorem andThen_sound (hV : V.Closed) (hexact : V.Exact) {f g m : Lambda} (hf : f.body.Over V)
    (hg : g.body.Over (V.receiving g.param.id f.returnTy)) (h : f.andThen g = .ok m) :
    m.body.Over V ∧ m.param = f.param ∧ ∀ now x y z, f.apply now x = .ok y →
      g.apply now y = .ok z → m.apply now x = .ok z := by
  refine ⟨(andThen_over hV hf hg h).1, param_of_andThen h, fun now x y z hy hz => ?_⟩
  obtain ⟨-, ⟨hid, rfl⟩ | ⟨body, hbody, rfl⟩⟩ := andThen_eq_ok h
  · rw [apply_of_isIdentity hid] at hz
    rw [hy]
    exact hz
  · have hover := (subst_over hV hf hg hbody).1
    exact Expr.fold_refines hover.checked (hover.allowed.imp hexact) _ z
      (subst_value hV hf hg hbody hy hz)

/-- A composition of well-typed lambdas, as folding and composing leave them, has the value that
they have one after the other. The parameter of the second lambda has one type throughout its
body. -/
theorem andThen_apply (now : Int64) (f g m : Lambda) (hf : f.body.Checked) (hg : g.body.Checked)
    (hfsum : ∀ n ∈ f.body.nodes, n.isFloatSum = false)
    (hgsum : ∀ n ∈ g.body.nodes, n.isFloatSum = false)
    (hparam : ∀ p, .param p ∈ g.body.nodes → p.id = g.param.id → p.ty = g.param.ty)
    (hm : f.andThen g = .ok m) (x y z : Value) (hy : f.apply now x = .ok y)
    (hz : g.apply now y = .ok z) : m.apply now x = .ok z := by
  have hty := paramTy_of_andThen hm
  have hfover := hf.over_noFloatSum hfsum
  have hgover : g.body.Over (Vocabulary.noFloatSum.receiving g.param.id f.returnTy) :=
    hg.over_receiving hgsum fun p hp hid => hty.symm.trans (hparam p hp hid).symm
  have hsound := andThen_sound Vocabulary.closed_noFloatSum Vocabulary.exact_noFloatSum hfover
    hgover hm
  exact hsound.2.2 now x y z hy hz

/-- A member of a new record is read from the argument that sets it. -/
theorem andThen_apply_member :
    let pair : RecordTy := ⟨"Pair", .cons "a" .int32 (.cons "b" .string .nil)⟩
    let x : Param := ⟨1, "x", .int32⟩
    let y : Param := ⟨2, "y", pair.ty⟩
    let f : Lambda := ⟨x, .construct pair [.param x] []⟩
    let g : Lambda := ⟨y, .unary .negate (.member (.param y) "a" .int32) .int32⟩
    ∃ m, f.andThen g = .ok m ∧ m.apply 0 (.int32 5) = .ok (.int32 (-5)) := by
  intro pair x y f g
  have hconstruct : Expr.mkConstruct pair [.param x] [] = .ok f.body := rfl
  have hmember : Expr.mkMember (.param y) "a" = .ok (.member (.param y) "a" .int32) := rfl
  have hnegate : Expr.mkUnary .negate (.member (.param y) "a" .int32) = .ok g.body := rfl
  have hf : f.body.Built := .construct (by simpa using .param x) (by simp) hconstruct
  have hg : g.body.Built := .unary (.member (.param y) hmember) hnegate
  have hm : f.andThen g = .ok ⟨x, .unary .negate (.param x) .int32⟩ := rfl
  refine ⟨_, hm, andThen_apply 0 f g _ hf.checked hg.checked ?_ ?_ ?_ hm (.int32 5) _
    (.int32 (-5)) rfl rfl⟩
  · simp [f, Expr.nodes, Expr.nodesAll, Expr.nodesBindings, Expr.isFloatSum]
  · simp [g, Expr.nodes, Expr.isFloatSum]
  · intro p hp _
    obtain rfl : p = y := by simpa [g, Expr.nodes] using hp
    rfl

/-! ### Conjunction -/

/-- The same lambda over another parameter of its type has the same values. -/
theorem withParam_sound (hV : V.Closed) {f m : Lambda} {p : Param}
    (hp : ∀ q : Param, q.id = p.id → p.ty = q.ty → V.param q)
    (hf : f.body.Over (V.receiving f.param.id p.ty)) (h : f.withParam p = .ok m) :
    m.body.Over V ∧
      ∀ now x z, f.apply now x = .ok z → m.body.eval (.single now p x) = .ok z := by
  unfold Lambda.withParam at h
  split at h
  · next hsame =>
    obtain rfl := Except.ok.inj h
    have hid : f.param.id = p.id := beq_iff_eq.mp hsame
    refine ⟨⟨hf.checked, hf.allowed.imp fun n hn => ?_⟩, fun now x z hz => ?_⟩
    · cases n with
      | param q =>
        by_cases hq : q.id = f.param.id
        · exact hp q (hq.trans hid) (hn.1 hq)
        · exact hn.2 hq
      | _ => exact hn
    · rw [apply, Env.single, hid] at hz
      exact hz
  · split at h
    · obtain ⟨body, hbody, rfl⟩ := Outcome.map_eq_ok.mp h
      have himage : (Expr.param p).Over V := ⟨trivial, Expr.all_param.mpr (hp p rfl rfl)⟩
      refine ⟨(subst_over hV himage hf hbody).1, fun now x z hz => ?_⟩
      refine subst_value hV himage hf hbody ?_ hz
      rw [Expr.eval, Env.find?_single rfl]
    · cases h

/-- What is folded to a conjunction stays within the vocabulary. -/
theorem joined_over {f aligned : Lambda} (hjoins : V.binary (.connective .and) .bool)
    (hf : f.body.Over V) (haligned : aligned.body.Over V)
    (hbool : (BinaryOp.connective .and).resultTy f.body.ty aligned.body.ty = .ok .bool) :
    (Expr.binary (.connective .and) f.body aligned.body .bool).Over V :=
  ⟨⟨hf.checked, haligned.checked, hbool⟩,
    Expr.all_binary.mpr ⟨hjoins, hf.allowed, haligned.allowed⟩⟩

/-- A conjunction stays within the vocabulary and gives a Boolean. -/
theorem conjoin_over (hV : V.Closed) (hjoins : V.binary (.connective .and) .bool) {f g m : Lambda}
    (hp : ∀ q : Param, q.id = f.param.id → f.paramTy = q.ty → V.param q) (hf : f.body.Over V)
    (hg : g.body.Over (V.receiving g.param.id f.paramTy)) (h : f.conjoin g = .ok m) :
    m.body.Over V ∧ m.returnTy = .bool := by
  obtain ⟨aligned, haligned, hbool, rfl⟩ := conjoin_eq_ok h
  have hjoined := joined_over hjoins hf (withParam_sound hV hp hg haligned).1 hbool
  exact ⟨hjoined.fold hV, (Expr.fold_checked hjoined.checked).2⟩

/-- A conjunction passes where both predicates pass; the second is asked only where the
first passes. -/
theorem conjoin_value (hV : V.Closed) (hexact : V.Exact)
    (hjoins : V.binary (.connective .and) .bool) {f g m : Lambda}
    (hp : ∀ q : Param, q.id = f.param.id → f.paramTy = q.ty → V.param q) (hf : f.body.Over V)
    (hg : g.body.Over (V.receiving g.param.id f.paramTy)) (h : f.conjoin g = .ok m)
    {now : Int64} {x : Value} {a b : Bool} (ha : f.test now x = .ok a)
    (hb : a = true → g.test now x = .ok b) : m.test now x = .ok (a && b) := by
  obtain ⟨aligned, haligned, hbool, rfl⟩ := conjoin_eq_ok h
  obtain ⟨hover, hvalue⟩ := withParam_sound hV hp hg haligned
  have hjoined := joined_over hjoins hf hover hbool
  rw [test_eq_ok]
  refine Expr.fold_refines hjoined.checked (hjoined.allowed.imp hexact) _ _ ?_
  rw [Expr.eval_connective, Outcome.bind_eq_ok]
  refine ⟨a, ha, ?_⟩
  cases a with
  | false => rfl
  | true =>
    have hg := hvalue now x _ (test_eq_ok.mp (hb rfl))
    rw [if_neg (by decide), Outcome.map_eq_ok]
    exact ⟨b, Expr.evalBool_eq_ok.mpr hg, rfl⟩

/-- A conjunction of well-typed predicates, as folding and composing leave them, has the
parameter of the first. It fails to hold where the first does not, even if the second has no
value there, and is as the second where the first holds. The parameter of the second predicate
has one type throughout its body. -/
theorem conjoin_test (now : Int64) (f g m : Lambda) (hf : f.body.Checked) (hg : g.body.Checked)
    (hfsum : ∀ n ∈ f.body.nodes, n.isFloatSum = false)
    (hgsum : ∀ n ∈ g.body.nodes, n.isFloatSum = false)
    (hparam : ∀ p, .param p ∈ g.body.nodes → p.id = g.param.id → p.ty = g.param.ty)
    (hty : g.paramTy = f.paramTy) (hm : f.conjoin g = .ok m) :
    m.param = f.param ∧ ∀ x,
      (f.test now x = .ok false → m.test now x = .ok false) ∧
      ∀ b, f.test now x = .ok true → g.test now x = .ok b → m.test now x = .ok b := by
  have hfover := hf.over_noFloatSum hfsum
  have hgover : g.body.Over (Vocabulary.noFloatSum.receiving g.param.id f.paramTy) :=
    hg.over_receiving hgsum fun p hp hid => hty.symm.trans (hparam p hp hid).symm
  have hvalue : ∀ {x a b}, f.test now x = .ok a → (a = true → g.test now x = .ok b) →
      m.test now x = .ok (a && b) := fun ha hb =>
    conjoin_value Vocabulary.closed_noFloatSum Vocabulary.exact_noFloatSum rfl
      (fun _ _ _ => trivial) hfover hgover hm ha hb
  refine ⟨param_of_conjoin hm, fun x => ⟨fun hfalse => ?_, fun b htrue hb => ?_⟩⟩
  · exact hvalue (b := false) hfalse nofun
  · exact hvalue htrue fun _ => hb

/-- Where the first predicate does not hold the second would divide by zero. -/
theorem conjoin_test_quotient :
    let x : Param := ⟨1, "x", .int32⟩
    let y : Param := ⟨2, "y", .int32⟩
    let zero : Expr := .const (.int32 0) .int32
    let five : Expr := .const (.int32 5) .int32
    let ten : Expr := .const (.int32 10) .int32
    let f : Lambda := ⟨x, .binary (.equality .ne) (.param x) zero .bool⟩
    let g : Lambda := ⟨y, .binary (.equality .eq)
      (.binary (.arith .div) ten (.param y) .int32) five .bool⟩
    ∃ m, f.conjoin g = .ok m ∧ m.param = x ∧
      (g.test 0 (.int32 0) = .error .divisionByZero ∧ m.test 0 (.int32 0) = .ok false) ∧
      m.test 0 (.int32 2) = .ok true := by
  intro x y zero five ten f g
  have hne : Expr.mkBinary (.equality .ne) (.param x) zero = .ok f.body := rfl
  have hdiv : Expr.mkBinary (.arith .div) ten (.param y) =
      .ok (.binary (.arith .div) ten (.param y) .int32) := rfl
  have heq : Expr.mkBinary (.equality .eq) (.binary (.arith .div) ten (.param y) .int32) five =
      .ok g.body := rfl
  have hf : f.body.Built := .binary (.param x) (.value _) hne
  have hg : g.body.Built := .binary (.binary (.value _) (.param y) hdiv) (.value _) heq
  have hm : f.conjoin g = .ok ⟨x, .binary (.connective .and) f.body
      (.binary (.equality .eq) (.binary (.arith .div) ten (.param x) .int32) five .bool) .bool⟩ :=
    rfl
  have hlaw := conjoin_test 0 f g _ hf.checked hg.checked ?hfsum ?hgsum ?hparam rfl hm
  case hfsum => simp [f, zero, Expr.nodes, Expr.isFloatSum, BinaryOp.isAssociative]
  case hgsum => simp [g, ten, five, Expr.nodes, Expr.isFloatSum, BinaryOp.isAssociative]
  case hparam =>
    intro p hp _
    obtain rfl : p = y := by simpa [g, ten, five, Expr.nodes] using hp
    rfl
  refine ⟨_, hm, hlaw.1, ⟨rfl, (hlaw.2 (.int32 0)).1 rfl⟩, ?_⟩
  exact (hlaw.2 (.int32 2)).2 true rfl rfl

/-! ### Lambdas over a vocabulary -/

variable {W : Vocabulary}

/-- Well-typed, and of nothing but what a vocabulary allows besides the lambda's own
parameter. -/
def Over (W : Vocabulary) (f : Lambda) : Prop :=
  f.body.Over (W.own f.param)

/-- An identity gives what it is given. -/
theorem Over.returnTy_of_isIdentity {f : Lambda} (hf : f.Over W) (hid : f.isIdentity) :
    f.returnTy = f.paramTy := by
  obtain ⟨p, hp, hown⟩ := isIdentity_iff.mp hid
  have hall := hf.allowed
  rw [hp, Expr.all_param] at hall
  rw [returnTy, hp]
  exact (hall.1 hown).symm

theorem over_receiving {e : Expr} {p q : Param} (h : e.Over (W.own p)) (hq : q.Fits W.param)
    {ty : Ty} (hty : p.ty = ty) : e.Over ((W.own q).receiving p.id ty) := by
  refine ⟨h.checked, h.allowed.imp fun n hn => ?_⟩
  cases n with
  | param r =>
    refine ⟨fun hr => hty.symm.trans (hn.1 hr), fun hr => ?_⟩
    exact ⟨fun hrq => hq r (hn.2 hr) hrq, fun _ => hn.2 hr⟩
  | _ => exact hn

theorem Over.foldSound (hW : W.Sound) {f : Lambda} (hf : f.Over W) :
    f.fold.Over W ∧ ∀ now v u, f.apply now v = .ok u → f.fold.apply now v = .ok u :=
  fold_sound (hW.closed f.param) (hW.exact f.param) hf

/-- A composition stays within the vocabulary. -/
theorem Over.andThen_over (hW : W.Stable) {f g m : Lambda} (hf : f.Over W)
    (hfits : f.param.Fits W.param) (hg : g.Over W) (h : f.andThen g = .ok m) :
    m.Over W ∧ m.returnTy.Narrows g.returnTy := by
  have hg' := over_receiving hg hfits (paramTy_of_andThen h)
  rw [Over, param_of_andThen h]
  exact Lambda.andThen_over (hW.closed f.param) hf hg' h

theorem Over.andThen (hW : W.Sound) {f g m : Lambda} (hf : f.Over W) (hfits : f.param.Fits W.param)
    (hg : g.Over W) (h : f.andThen g = .ok m) :
    m.Over W ∧ m.param = f.param ∧ ∀ now x y z, f.apply now x = .ok y →
      g.apply now y = .ok z → m.apply now x = .ok z := by
  have hg' := over_receiving hg hfits (paramTy_of_andThen h)
  obtain ⟨-, hparam, hvalue⟩ := andThen_sound (hW.closed f.param) (hW.exact f.param) hf hg' h
  exact ⟨(hf.andThen_over hW.stable hfits hg h).1, hparam, hvalue⟩

theorem own_param {p : Param} (q : Param) (hid : q.id = p.id) (hty : p.ty = q.ty) :
    (W.own p).param q :=
  ⟨fun _ => hty, fun hne => absurd hid hne⟩

/-- A conjunction stays within the vocabulary and gives a Boolean. -/
theorem Over.conjoin_over (hW : W.Stable) {f g m : Lambda} (hf : f.Over W)
    (hfits : f.param.Fits W.param) (hg : g.Over W) (hty : g.paramTy = f.paramTy)
    (h : f.conjoin g = .ok m) : m.Over W ∧ m.returnTy = .bool := by
  rw [Over, param_of_conjoin h]
  exact Lambda.conjoin_over (hW.closed f.param) hW.joins own_param hf
    (over_receiving hg hfits hty) h

/-- A conjunction has the parameter of its first predicate, and passes where both
predicates pass; the second is asked only where the first passes. -/
theorem Over.conjoin (hW : W.Sound) {f g m : Lambda} (hf : f.Over W) (hfits : f.param.Fits W.param)
    (hg : g.Over W) (hty : g.paramTy = f.paramTy) (h : f.conjoin g = .ok m) :
    m.Over W ∧ m.param = f.param ∧ ∀ now x a b, f.test now x = .ok a →
      (a = true → g.test now x = .ok b) → m.test now x = .ok (a && b) := by
  refine ⟨(hf.conjoin_over hW.stable hfits hg hty h).1, param_of_conjoin h,
    fun now x a b ha hb => ?_⟩
  exact conjoin_value (hW.closed f.param) (hW.exact f.param) hW.joins own_param hf
    (over_receiving hg hfits hty) h ha hb

/-! ### Negation -/

/-- A negated predicate is over the same parameter and passes where the predicate does not. -/
theorem Over.negate (hW : W.Sound) {f m : Lambda} (hf : f.Over W) (hm : m.returnTy = .bool)
    (h : f.negate = .ok m) :
    m.Over W ∧ m.param = f.param ∧ ∀ now x b, f.test now x = .ok b → m.test now x = .ok !b := by
  obtain ⟨body, hbody, rfl⟩ := Outcome.map_eq_ok.mp h
  rcases Expr.negate_eq_ok hbody with ⟨ty, hnot⟩ | hnot
  · obtain ⟨param, _⟩ := f
    obtain rfl : _ = Expr.unary .not body ty := hnot
    refine ⟨⟨hf.checked.1, (Expr.all_unary.mp hf.allowed).2⟩, rfl, fun now x b hb => ?_⟩
    rw [test_eq_ok, apply, Expr.eval_unary, Outcome.bind_eq_ok] at hb
    obtain ⟨v, hv, hb⟩ := hb
    rw [UnaryOp.not_apply_eq_bool hb] at hv
    exact test_eq_ok.mpr hv
  · obtain ⟨ty, hty, rfl⟩ := Expr.mkUnary_eq_ok.mp hnot
    obtain rfl : ty = .bool := hm
    refine ⟨⟨⟨hf.checked, hty⟩, Expr.all_unary.mpr ⟨hW.negates, hf.allowed⟩⟩, rfl, ?_⟩
    intro now x b hb
    rw [test_eq_ok] at hb ⊢
    rw [apply, Expr.eval_unary, Outcome.bind_eq_ok]
    exact ⟨_, hb, rfl⟩

end Lambda
end SeqQuery
