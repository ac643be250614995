/-
# Plain lambdas

A lambda is plain when all its constants are deep instances of their types and no
floating-point number can occur at any of its nodes. It takes deep instances to deep
instances, and composing and joining keep lambdas plain. Parameters other than the lambda's
own may stand in it where they are known; they have no value, so that nothing is evaluated
there.

Key definitions: `Lambda.IsPlain`, `Vocabulary.plain`.
Key theorems: `Vocabulary.sound_plain`, `Vocabulary.sound_noFloatSum`,
`Lambda.Over.apply_deep`, `Lambda.Over.isFloatFree`.
-/
import SeqQuery.Proofs.Joining
import SeqQuery.Proofs.SortOrder
import SeqQuery.Proofs.TypeSoundness

namespace SeqQuery

/-- A well-typed lambda over its own parameter alone, with deep constants and without
floating-point numbers. -/
structure Lambda.IsPlain (f : Lambda) : Prop where
  built : f.body.Built
  closed : ∀ p, .param p ∈ f.body.nodes → p.id = f.param.id ∧ p.ty = f.param.ty
  floatFree : ∀ n ∈ f.body.nodes, n.ty.isFloatFree
  deep : ∀ v ty, .const v ty ∈ f.body.nodes → ty.admitsDeep v

theorem Ty.Narrows.isFloatFree {narrow wide : Ty} (h : narrow.Narrows wide)
    (hwide : wide.isFloatFree) : narrow.isFloatFree := by
  rcases h with rfl | ⟨rfl, -⟩
  · exact hwide
  · rfl

namespace Vocabulary

/-- Deep constants, and no floating-point numbers. -/
def plain : Vocabulary where
  const v ty := ty.isFloatFree ∧ ty.admitsDeep v
  param p := p.ty.isFloatFree
  binary _ ty := ty.isFloatFree
  other ty := ty.isFloatFree

end Vocabulary

variable {known : Param → Prop}

namespace Expr

variable {e : Expr} {p : Param} {v u : Value}

/-- Plain expressions give deep instances of their types. -/
theorem Over.eval_deep (he : e.Over ((Vocabulary.plain.knowing known).own p))
    (hv : p.ty.admitsDeep v) {now : Int64} (hu : e.eval (.single now p v) = .ok u) :
    e.ty.admitsDeep u := by
  have hconst : ∀ w ty, .const w ty ∈ e.nodes → ty.admitsDeep w := fun w ty hmem =>
    (he.allowed _ hmem).2
  have hparam : ∀ q w, .param q ∈ e.nodes → (Env.single now p v).find? q = some w →
      q.ty.admitsDeep w := by
    intro q w hmem hw
    by_cases hq : q.id = p.id
    · rw [Env.find?_single hq] at hw
      obtain rfl := Option.some.inj hw
      rw [← (he.allowed _ hmem).1 hq]
      exact hv
    · rw [Env.find?_single_ne hq] at hw
      cases hw
  exact Expr.eval_deep hconst hparam (fun n hn => hn) he.checked hu

theorem Over.isFloatFree (he : e.Over ((Vocabulary.plain.knowing known).own p))
    (hp : p.ty.isFloatFree) : e.ty.isFloatFree := by
  have hself := he.allowed.self
  cases e with
  | const v ty => exact hself.1
  | param q =>
    by_cases hq : q.id = p.id
    · show q.ty.isFloatFree
      rw [← hself.1 hq]
      exact hp
    · exact (hself.2 hq).1
  | _ => exact hself

end Expr

namespace Vocabulary

theorem closed_plain (p : Param) : ((plain.knowing known).own p).Closed where
  narrow hnarrow hwide := hnarrow.isFloatFree hwide
  zero hr hfield := ⟨Fields.isFloatFree_iff.mp hr _ hfield, Ty.admitsDeep_zero _⟩
  retype hr hfield hv hadmits :=
    ⟨Fields.isFloatFree_iff.mp hr _ hfield, Ty.admitsDeep_of_admits hv.2 hadmits⟩
  combined hop hnum := ⟨hop, Value.admitsDeep_ty hnum⟩
  evaluated := by
    intro e v hc hall hready hv
    constructor
    · cases e with
      | const v ty => cases hready
      | param q => cases hready
      | _ => exact hall.self
    · exact Expr.eval_empty_deep (fun w ty hmem => (hall _ hmem).2) hc hv

theorem exact_plain (p : Param) : ((plain.knowing known).own p).Exact := by
  intro n hn
  cases n with
  | binary op l r ty =>
    have hty : ty.isFloatFree := hn
    cases ty <;> simp_all [Expr.isFloatSum, Ty.isFloat, Ty.isFloatFree]
  | _ => rfl

theorem sound_plain : (plain.knowing known).Sound where
  closed := closed_plain
  exact := exact_plain
  joins := rfl
  negates := rfl

theorem sound_noFloatSum : (noFloatSum.knowing known).Sound where
  closed p := by
    constructor
    all_goals intros; trivial
  exact p n hn := by
    cases n with
    | binary op l r ty => exact hn
    | _ => rfl
  joins := rfl
  negates := trivial

end Vocabulary

namespace Lambda

variable {f : Lambda} {now : Int64} {v u : Value}

theorem IsPlain.toOver (h : f.IsPlain) : f.Over (Vocabulary.plain.knowing known) := by
  refine ⟨h.built.checked, fun n hn => ?_⟩
  cases n with
  | const v ty => exact ⟨h.floatFree _ hn, h.deep v ty hn⟩
  | param p =>
    obtain ⟨hid, hty⟩ := h.closed p hn
    exact ⟨fun _ => hty.symm, fun hne => absurd hid hne⟩
  | _ => exact h.floatFree _ hn

/-- Plain lambdas have no sums of floating-point numbers. -/
theorem Over.toNoFloatSum (hf : f.Over (Vocabulary.plain.knowing known)) :
    f.Over (Vocabulary.noFloatSum.knowing known) := by
  refine ⟨hf.checked, hf.allowed.imp fun n hn => ?_⟩
  have hsum := Vocabulary.exact_plain f.param n hn
  cases n with
  | param q => exact ⟨hn.1, fun hq => ⟨trivial, (hn.2 hq).2⟩⟩
  | binary op l r ty => exact hsum
  | _ => trivial

theorem isPlain_identity {p : Param} (hp : p.ty.isFloatFree) : (identity p).IsPlain := by
  refine ⟨.param p, ?_, ?_, ?_⟩
  · rintro q hq
    obtain rfl : q = p := by simpa [identity, Expr.nodes] using hq
    exact ⟨rfl, rfl⟩
  · intro n hn
    obtain rfl : n = .param p := by simpa [identity, Expr.nodes] using hn
    exact hp
  · intro v ty hv
    simp [identity, Expr.nodes] at hv

theorem Over.apply_deep (hf : f.Over (Vocabulary.plain.knowing known))
    (hv : f.paramTy.admitsDeep v) (hu : f.apply now v = .ok u) : f.returnTy.admitsDeep u :=
  Expr.Over.eval_deep hf hv hu

theorem Over.isFloatFree (hf : f.Over (Vocabulary.plain.knowing known))
    (hp : f.paramTy.isFloatFree) : f.returnTy.isFloatFree :=
  Expr.Over.isFloatFree hf hp

end Lambda
end SeqQuery
