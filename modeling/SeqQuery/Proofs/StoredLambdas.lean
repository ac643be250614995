/-
# The lambdas that a query keeps

The filter, the projection and the sort keys of a query speak of the rows of its origin,
whatever the query shows when they are added: what is added to a projected query is composed
with the projection first, which has the parameter of the projection. A filter that is joined
to another is put over the parameter of that one first. So if all lambdas that are added are
over a vocabulary, all that are kept are over it as well (`Query.Over.step`), and what a
query keeps is closed if what is added is (`Query.Over.wellFormed`).

A composition can have a narrower type than its second lambda, because a member that is read
from a new record is what sets it. A predicate stays a predicate: nothing is narrower than
the type of Booleans.

Key definitions: `Vocabulary.mentioning`, `Lambda.FitsOn`, `Query.Over`,
`Query.Step.lambda?`, `Query.Step.Over`, `Lambda.IsClosed`, `Query.WellFormed`,
`Query.Step.IsClosed`, `Lambda.IsBuilt`.
Key theorems: `Query.Over.onOrigin`, `Query.Over.step`, `Query.Over.steps`,
`Query.Over.wellFormed`.
-/
import SeqQuery.Proofs.Joining
import SeqQuery.Proofs.Steps

namespace SeqQuery

variable {β σ : Type} {W : Vocabulary}

namespace Vocabulary

/-- All constants and operations, and the parameters that are known. -/
def mentioning (known : Param → Prop) : Vocabulary where
  const _ _ := True
  param := known
  binary _ _ := True
  other _ := True

theorem stable_mentioning (known : Param → Prop) : (mentioning known).Stable where
  closed p := by
    constructor
    all_goals intros; trivial
  joins := trivial

end Vocabulary

/-! ### Lambdas over the values of a type -/

namespace Lambda

variable {ty : Ty} {f g m : Lambda}

/-- A lambda over the values of a type, of nothing but what a vocabulary allows. Its
parameter has the type of those that are known, so that other lambdas can be composed with
it and joined to it. -/
structure FitsOn (W : Vocabulary) (ty : Ty) (f : Lambda) : Prop where
  within : f.Over W
  paramTy : f.paramTy = ty
  fits : f.param.Fits W.param

namespace FitsOn

theorem fold (hW : W.Stable) (hf : f.FitsOn W ty) : f.fold.FitsOn W ty :=
  ⟨hf.within.fold (hW.closed f.param), hf.paramTy, hf.fits⟩

theorem returnTy_fold (hf : f.FitsOn W ty) : f.fold.returnTy = f.returnTy :=
  (Expr.fold_checked hf.within.checked).2

/-- A composition is over what its first lambda is over. -/
theorem andThen (hW : W.Stable) (hf : f.FitsOn W ty) (hg : g.Over W) (h : f.andThen g = .ok m) :
    m.FitsOn W ty ∧ m.returnTy.Narrows g.returnTy := by
  have hparam := param_of_andThen h
  obtain ⟨hover, hnarrows⟩ := hf.within.andThen_over hW hf.fits hg h
  refine ⟨⟨hover, ?_, ?_⟩, hnarrows⟩
  · rw [Lambda.paramTy, hparam]
    exact hf.paramTy
  · rw [hparam]
    exact hf.fits

theorem conjoin (hW : W.Stable) (hf : f.FitsOn W ty) (hg : g.FitsOn W ty)
    (h : f.conjoin g = .ok m) : m.FitsOn W ty ∧ m.returnTy = .bool := by
  have hparam := param_of_conjoin h
  obtain ⟨hover, hbool⟩ :=
    hf.within.conjoin_over hW hf.fits hg.within (hg.paramTy.trans hf.paramTy.symm) h
  refine ⟨⟨hover, ?_, ?_⟩, hbool⟩
  · rw [Lambda.paramTy, hparam]
    exact hf.paramTy
  · rw [hparam]
    exact hf.fits

end FitsOn
end Lambda

namespace Query

variable {q q' : Query β σ} {r : Revision (Query β σ)} {f g : Lambda}

/-- A query whose lambdas are over the rows of its origin and of nothing but what a
vocabulary allows. -/
structure Over (W : Vocabulary) (q : Query β σ) : Prop where
  predicate : ∀ p, q.source.predicate = some p → p.FitsOn W q.originTy ∧ p.returnTy = .bool
  projector : ∀ f, q.projector = some f → f.FitsOn W q.originTy
  keys : ∀ c ∈ q.clauses, c.key.FitsOn W q.originTy

namespace Over

theorem ofBackend (b : β) (origin : Ty) : (Query.ofBackend b origin : Query β σ).Over W :=
  ⟨nofun, nofun, nofun⟩

/-- A lambda over the rows that a query shows becomes one over the rows of its origin. -/
theorem onOrigin (hW : W.Stable) (h : q.Over W) (hf : f.Over W) (hfits : f.param.Fits W.param)
    (hty : f.paramTy = q.elementTy) (hg : q.onOrigin f = .ok g) :
    g.FitsOn W q.originTy ∧ g.returnTy.Narrows f.returnTy := by
  rw [onOrigin_eq] at hg
  cases hp : q.projector with
  | none =>
    simp only [hp] at hg
    obtain rfl := Except.ok.inj hg
    exact ⟨⟨hf, hty.trans (elementTy_of_none hp), hfits⟩, .refl _⟩
  | some p =>
    simp only [hp, Outcome.mapError_eq_ok] at hg
    exact (h.projector p hp).andThen hW hf hg

/-! ### Operations keep lambdas within a vocabulary -/

theorem withProjection (h : q.Over W) {projection : Option Projection}
    (hf : ∀ p, projection = some p → p.lambda.FitsOn W q.originTy) :
    (⟨q.source, projection⟩ : Query β σ).Over W := by
  refine ⟨h.predicate, fun f hproj => ?_, h.keys⟩
  obtain ⟨p, hp, rfl⟩ := Option.map_eq_some_iff.mp hproj
  exact hf p hp

theorem withRange (h : q.Over W) (skip : Nat) (take : Option Nat) :
    (q.withSource { q.source with skip, take }).Over W :=
  ⟨h.predicate, h.projector, h.keys⟩

theorem sortedBy (h : q.Over W) {s : Sorting} (hs : ∀ c ∈ s.clauses, c.key.FitsOn W q.originTy) :
    (q.sortedBy s).Over W :=
  ⟨h.predicate, h.projector, hs⟩

/-- A predicate alone, or joined to the filter so far, is a predicate over the origin. -/
theorem joined (hW : W.Stable) (h : q.Over W) {joined : Lambda} (hg : g.FitsOn W q.originTy)
    (hbool : g.returnTy = .bool) (hjoined : (q.source.predicate = none ∧ joined = g) ∨
      ∃ existing, q.source.predicate = some existing ∧ existing.conjoin g = .ok joined) :
    joined.FitsOn W q.originTy ∧ joined.returnTy = .bool := by
  rcases hjoined with ⟨-, rfl⟩ | ⟨existing, hsome, hconjoin⟩
  · exact ⟨hg, hbool⟩
  · exact (h.predicate existing hsome).1.conjoin hW hg hconjoin

theorem filter (hW : W.Stable) (h : q.Over W) (hf : f.Over W) (hfits : f.param.Fits W.param)
    (hstep : q.filter f = .ok r) : (r.of q).Over W := by
  obtain ⟨hty, hbool, g, hg, ⟨rfl, -⟩ | ⟨-, joined, rfl, hjoined⟩⟩ := filter_eq_ok hstep
  · exact h
  · obtain ⟨hgfits, hnarrows⟩ := h.onOrigin hW hf hfits hty hg
    have hgbool : g.fold.returnTy = .bool := by
      rw [hgfits.returnTy_fold]
      rw [hbool] at hnarrows
      exact hnarrows.eq_of_not_nullable rfl
    refine ⟨?_, h.projector, h.keys⟩
    rintro _ ⟨⟩
    exact h.joined hW (hgfits.fold hW) hgbool hjoined

theorem orderBy (hW : W.Stable) (h : q.Over W) {key : Lambda} {newGroup ascending : Bool}
    (hkey : key.Over W) (hfits : key.param.Fits W.param)
    (hstep : q.orderBy key newGroup ascending = .ok r) : (r.of q).Over W := by
  obtain ⟨hty, g, hg, ⟨rfl, -⟩ | ⟨-, rfl⟩⟩ := orderBy_eq_ok hstep
  · exact h
  · have hgfits := (h.onOrigin hW hkey hfits hty hg).1
    exact h.sortedBy (forall_clauses_added.mpr ⟨hgfits.fold hW, h.keys⟩)

theorem reverse (h : q.Over W) (hstep : q.reverse = .ok r) : (r.of q).Over W := by
  rcases reverse_eq_ok hstep with ⟨rfl, -⟩ | ⟨-, s, hs, rfl⟩
  · exact h
  · refine h.sortedBy (Sorting.forall_clauses_reverse.mpr ?_)
    rw [← clauses_of_some hs]
    exact h.keys

theorem select (hW : W.Stable) (h : q.Over W) (hf : f.Over W) (hfits : f.param.Fits W.param)
    (hstep : q.select f = .ok r) : (r.of q).Over W := by
  obtain ⟨hty, ⟨-, rfl⟩ | ⟨g, projection, -, hg, hproject, hr⟩⟩ := select_eq_ok hstep
  · exact h
  · rw [hr]
    rcases Source.project_eq_ok hproject with ⟨-, rfl⟩ | ⟨-, -, rfl⟩ | ⟨-, rfl⟩
    · exact h.withProjection nofun
    · exact h.withProjection nofun
    · refine h.withProjection ?_
      rintro _ ⟨⟩
      exact (h.onOrigin hW hf hfits hty hg).1.fold hW

theorem distinct (h : q.Over W) {flag : Bool} (hstep : q.distinct flag = .ok r) :
    (r.of q).Over W := by
  rcases distinct_eq_ok hstep with ⟨rfl, -⟩ | ⟨f, hp, -, rfl⟩
  · exact h
  · refine h.withProjection ?_
    rintro _ ⟨⟩
    exact h.projector f (congrArg (Option.map _) hp)

end Over

/-! ### Chains of operations -/

/-- The lambda of an operation, if it has one. -/
def Step.lambda? : Step σ → Option Lambda
  | .filter f | .orderBy f _ _ | .select f => some f
  | .skip _ | .take _ | .reverse | .distinct _ | .withState _ => none

/-- An operation whose lambda is over a vocabulary. -/
def Step.Over (W : Vocabulary) (s : Step σ) : Prop :=
  ∀ f, s.lambda? = some f → f.Over W ∧ f.param.Fits W.param

/-- An operation with a lambda over a vocabulary keeps the lambdas of a query over it. -/
theorem Over.step (hW : W.Stable) (h : q.Over W) {s : Step σ} (hs : s.Over W)
    (hstep : q.step s = .ok r) : (r.of q).Over W := by
  cases s with
  | filter f => exact h.filter hW (hs f rfl).1 (hs f rfl).2 hstep
  | skip n =>
    obtain ⟨-, rfl⟩ := skip_eq_ok hstep
    rcases q.skipRows_cases n.toInt.toNat with ⟨hr, -⟩ | hr <;> rw [hr]
    · exact h
    · exact h.withRange _ _
  | take n =>
    obtain ⟨-, rfl⟩ := take_eq_ok hstep
    rcases q.takeRows_cases n.toInt.toNat with ⟨hr, -⟩ | ⟨-, hr⟩ <;> rw [hr]
    · exact h
    · exact h.withRange _ _
  | orderBy key newGroup ascending => exact h.orderBy hW (hs key rfl).1 (hs key rfl).2 hstep
  | reverse => exact h.reverse hstep
  | select f => exact h.select hW (hs f rfl).1 (hs f rfl).2 hstep
  | distinct flag => exact h.distinct hstep
  | withState state =>
    obtain rfl := Except.ok.inj hstep
    exact ⟨h.predicate, h.projector, h.keys⟩

theorem Over.steps (hW : W.Stable) {ops : List (Step σ)} (h : q.Over W)
    (hops : ∀ s ∈ ops, s.Over W) (hsteps : q.steps ops = .ok q') : q'.Over W :=
  steps_keep (fun h hs hstep => h.step hW hs hstep) h hops hsteps

end Query

/-! ### Closed lambdas -/

/-- A lambda that mentions no parameter but its own. -/
def Lambda.IsClosed (f : Lambda) : Prop :=
  ∀ p, .param p ∈ f.body.nodes → p.id = f.param.id ∧ p.ty = f.param.ty

/-- Everything but parameters. -/
def Vocabulary.closedTerms : Vocabulary :=
  .mentioning fun _ => False

section Closed

variable {f : Lambda}

theorem Lambda.IsClosed.over_closedTerms (h : f.IsClosed) (hbuilt : f.body.Built) :
    f.Over .closedTerms := by
  refine ⟨hbuilt.checked, fun n hn => ?_⟩
  cases n with
  | param p =>
    obtain ⟨hid, hty⟩ := h p hn
    exact ⟨fun _ => hty.symm, fun hne => absurd hid hne⟩
  | _ => trivial

theorem Lambda.Over.isClosed (h : f.Over .closedTerms) : f.IsClosed := by
  intro p hp
  obtain ⟨hty, hknown⟩ := h.allowed _ hp
  have hid : p.id = f.param.id := by
    by_contra hne
    exact hknown hne
  exact ⟨hid, (hty hid).symm⟩

end Closed

namespace Query

variable {q : Query β σ}

/-- A query whose filter, projection and keys are closed lambdas over the rows of its origin,
the filter being a predicate. -/
structure WellFormed (q : Query β σ) : Prop where
  predicate : ∀ p, q.source.predicate = some p →
    p.paramTy = q.originTy ∧ p.returnTy = .bool ∧ p.IsClosed
  projector : ∀ f, q.projector = some f → f.paramTy = q.originTy ∧ f.IsClosed
  keys : ∀ c ∈ q.clauses, c.key.paramTy = q.originTy ∧ c.key.IsClosed

theorem Over.wellFormed (h : q.Over .closedTerms) : q.WellFormed := by
  refine ⟨fun p hp => ?_, fun f hf => ?_, fun c hc => ?_⟩
  · obtain ⟨hfits, hbool⟩ := h.predicate p hp
    exact ⟨hfits.paramTy, hbool, hfits.within.isClosed⟩
  · exact ⟨(h.projector f hf).paramTy, (h.projector f hf).within.isClosed⟩
  · exact ⟨(h.keys c hc).paramTy, (h.keys c hc).within.isClosed⟩

/-- An operation with a closed lambda, if it has one. -/
def Step.IsClosed (s : Step σ) : Prop :=
  ∀ f, s.lambda? = some f → f.body.Built ∧ f.IsClosed

theorem Step.IsClosed.over_closedTerms {s : Step σ} (h : s.IsClosed) : s.Over .closedTerms := by
  intro f hf
  obtain ⟨hbuilt, hclosed⟩ := h f hf
  exact ⟨hclosed.over_closedTerms hbuilt, fun _ hq => absurd hq id⟩

end Query

/-! ### Lambdas with typed parameters -/

/-- A lambda built through the typing rules, all of whose parameters have the types that go
with their identities. -/
structure Lambda.IsBuilt (types : Nat → Ty) (f : Lambda) : Prop where
  built : f.body.Built
  own : f.param.IsTyped types
  params : ∀ p, .param p ∈ f.body.nodes → p.IsTyped types

/-- Everything, with parameters of the types that go with their identities. -/
def Vocabulary.typedTerms (types : Nat → Ty) : Vocabulary :=
  .mentioning (Param.IsTyped types)

theorem Lambda.IsBuilt.over_typedTerms {types : Nat → Ty} {f : Lambda} (h : f.IsBuilt types) :
    f.Over (.typedTerms types) ∧ f.param.Fits (Vocabulary.typedTerms types).param := by
  refine ⟨⟨h.built.checked, fun n hn => ?_⟩, h.own.fits⟩
  cases n with
  | param p =>
    refine ⟨fun hid => ?_, fun _ => h.params p hn⟩
    rw [h.own, h.params p hn, hid]
  | _ => trivial

end SeqQuery
