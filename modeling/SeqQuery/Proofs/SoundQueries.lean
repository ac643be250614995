/-
# Queries of sound lambdas

A query over rows in memory is composed from lambdas that are sound: the projection and
the sort keys are plain, and the filter has no sums of floating-point numbers. Every
operation keeps this, because a lambda over the rows that a query shows becomes one over
the rows of its origin that is as sound, and has the value that it has at what the query
shows (`Query.ComposedView.onOrigin_within`). Where only what a query shows counts, the
filter and the keys may be anything (`Query.PlainView`).

The lambdas may mention parameters that are known, besides their own. A known parameter
has one type, and a lambda that other lambdas are composed with or joined to has to have
it as well.

Key definitions: `Query.view`, `Query.PlainView`, `Query.SoundFor`, `Query.IsComposed`,
`Lambda.IsTyped`, `Lambda.IsDeep`, `Query.Step.IsSound`, `Query.Step.ProjectsDeep`.
Key theorems: `Query.ComposedView.onOrigin_within`, `Query.ComposedView.step`,
`Query.IsComposed.step`, `Query.IsComposed.steps`.
-/
import SeqQuery.Proofs.MemoryRun
import SeqQuery.Proofs.Steps

namespace SeqQuery

variable {σ : Type} {known : Param → Prop} {m : Memory} {q : Query Memory σ}

/-- Rows that are deep instances of a type without floating-point numbers. -/
structure Memory.IsPlain (m : Memory) : Prop where
  deep : ∀ v ∈ m.rows, m.origin.admitsDeep v
  floatFree : m.origin.isFloatFree

namespace Query

/-! ### Rows as a query shows them -/

/-- What a query shows of a row of its origin. -/
def view (now : Int64) (q : Query Memory σ) (v : Value) : Value :=
  match q.projector with
  | none => v
  | some f => f.valueAt now v

/-- Whether a query can show a row of its origin. -/
def HasViewAt (now : Int64) (q : Query Memory σ) (v : Value) : Prop :=
  ∀ f, q.projector = some f → f.HasValueAt now v

/-! ### Sound queries -/

/-- A query over rows in memory whose projection is plain. -/
structure PlainView (known : Param → Prop) (m : Memory) (q : Query Memory σ) : Prop where
  backend : q.source.backend = m
  origin : q.source.origin = m.origin
  projector : ∀ f, q.projector = some f → f.PlainOn known m.origin

/-- A query whose keys are plain as well and whose filter has no sums of floating-point
numbers. -/
structure SoundFor (known : Param → Prop) (m : Memory) (q : Query Memory σ) : Prop
    extends PlainView known m q where
  predicate : ∀ p, q.source.predicate = some p → p.ExactOn known m.origin
  keys : ∀ c ∈ q.clauses, c.key.PlainOn known m.origin

/-- A query to which projections can be added: the parameter of its projection has the type
of known parameters. -/
structure ComposedView (known : Param → Prop) (m : Memory) (q : Query Memory σ) : Prop
    extends PlainView known m q where
  projectorFits : ∀ f, q.projector = some f → f.param.Fits known

/-- A sound query to which all lambdas can be added. -/
structure IsComposed (known : Param → Prop) (m : Memory) (q : Query Memory σ) : Prop
    extends SoundFor known m q, ComposedView known m q where
  predicateFits : ∀ p, q.source.predicate = some p → p.param.Fits known

namespace PlainView

variable {now : Int64} {v u : Value}

theorem elementTy_floatFree (h : q.PlainView known m) (hm : m.origin.isFloatFree) :
    q.elementTy.isFloatFree := by
  cases hproj : q.projector with
  | none =>
    rw [elementTy_of_none hproj, h.origin]
    exact hm
  | some f =>
    rw [elementTy_of_projector hproj]
    exact (h.projector f hproj).isFloatFree hm

theorem view_deep (h : q.PlainView known m) (hv : m.origin.admitsDeep v)
    (hview : q.HasViewAt now v) : q.elementTy.admitsDeep (q.view now v) := by
  cases hproj : q.projector with
  | none =>
    rw [elementTy_of_none hproj, h.origin]
    simp only [view, hproj]
    exact hv
  | some f =>
    rw [elementTy_of_projector hproj]
    simp only [view, hproj]
    exact (h.projector f hproj).valueAt_deep hv (hview f hproj)

theorem withProjection (h : q.PlainView known m) {projection : Option Projection}
    (hf : ∀ p, projection = some p → p.lambda.PlainOn known m.origin) :
    (⟨q.source, projection⟩ : Query Memory σ).PlainView known m := by
  refine ⟨h.backend, h.origin, ?_⟩
  intro f hproj
  obtain ⟨p, hp, rfl⟩ := Option.map_eq_some_iff.mp hproj
  exact hf p hp

end PlainView

namespace SoundFor

theorem withPredicate (h : q.SoundFor known m) {p : Lambda} (hp : p.ExactOn known m.origin) :
    (q.withSource { q.source with predicate := some p }).SoundFor known m := by
  refine ⟨⟨h.backend, h.origin, h.projector⟩, ?_, h.keys⟩
  rintro _ ⟨⟩
  exact hp

theorem withProjection (h : q.SoundFor known m) {projection : Option Projection}
    (hf : ∀ p, projection = some p → p.lambda.PlainOn known m.origin) :
    (⟨q.source, projection⟩ : Query Memory σ).SoundFor known m :=
  ⟨h.toPlainView.withProjection hf, h.predicate, h.keys⟩

theorem sortedBy (h : q.SoundFor known m) {s : Sorting}
    (hkeys : ∀ c ∈ s.clauses, c.key.PlainOn known m.origin) : (q.sortedBy s).SoundFor known m :=
  ⟨⟨h.backend, h.origin, h.projector⟩, h.predicate, hkeys⟩

end SoundFor

/-! ### Lambdas over the rows of the origin -/

namespace ComposedView

variable {W : Vocabulary} {f g : Lambda}

/-- A lambda over the rows of a query becomes a lambda over the rows of its origin, of the
same vocabulary as the projection, with the value that it has at what the query shows. -/
theorem onOrigin_within (h : q.ComposedView known m) (hW : (W.knowing known).Sound)
    (hproj : ∀ f, q.projector = some f → f.On (W.knowing known) m.origin)
    (hf : f.On (W.knowing known) q.elementTy) (hg : q.onOrigin f = .ok g) :
    g.On (W.knowing known) m.origin ∧ ∀ now v u, q.HasViewAt now v →
      f.apply now (q.view now v) = .ok u → g.apply now v = .ok u := by
  rw [onOrigin_eq] at hg
  cases hp : q.projector with
  | none =>
    simp only [hp] at hg
    obtain rfl := Except.ok.inj hg
    rw [elementTy_of_none hp, h.origin] at hf
    refine ⟨hf, fun now v u _ hu => ?_⟩
    simp only [view, hp] at hu
    exact hu
  | some p =>
    simp only [hp, Outcome.mapError_eq_ok] at hg
    obtain ⟨hover, hparam, hvalue⟩ :=
      (hproj p hp).within.andThen hW ((h.projectorFits p hp).knowing W) hf.within hg
    refine ⟨⟨hover, ?_⟩, fun now v u hview hu => ?_⟩
    · rw [Lambda.paramTy, hparam]
      exact (hproj p hp).paramTy
    · simp only [view, hp] at hu
      exact hvalue now v _ u (hview p hp) hu

theorem onOrigin_plain (h : q.ComposedView known m) (hf : f.PlainOn known q.elementTy)
    (hg : q.onOrigin f = .ok g) : g.PlainOn known m.origin ∧ ∀ now v u, q.HasViewAt now v →
      f.apply now (q.view now v) = .ok u → g.apply now v = .ok u :=
  h.onOrigin_within Vocabulary.sound_plain h.projector hf hg

theorem onOrigin_exact (h : q.ComposedView known m) (hf : f.ExactOn known q.elementTy)
    (hg : q.onOrigin f = .ok g) : g.ExactOn known m.origin ∧ ∀ now v u, q.HasViewAt now v →
      f.apply now (q.view now v) = .ok u → g.apply now v = .ok u :=
  h.onOrigin_within Vocabulary.sound_noFloatSum (fun f hf => (h.projector f hf).toExactOn) hf hg

theorem onOrigin_fits (h : q.ComposedView known m) (hf : f.param.Fits known)
    (hg : q.onOrigin f = .ok g) : g.param.Fits known := by
  rw [onOrigin_eq] at hg
  cases hp : q.projector with
  | none =>
    simp only [hp] at hg
    obtain rfl := Except.ok.inj hg
    exact hf
  | some p =>
    simp only [hp, Outcome.mapError_eq_ok] at hg
    rw [Lambda.param_of_andThen hg]
    exact h.projectorFits p hp

/-! ### Operations keep a view -/

theorem withProjection (h : q.ComposedView known m) {projection : Option Projection}
    (hf : ∀ p, projection = some p → p.lambda.PlainOn known m.origin ∧ p.lambda.param.Fits known) :
    (⟨q.source, projection⟩ : Query Memory σ).ComposedView known m := by
  refine ⟨h.toPlainView.withProjection fun p hp => (hf p hp).1, ?_⟩
  intro f hproj
  obtain ⟨p, hp, rfl⟩ := Option.map_eq_some_iff.mp hproj
  exact (hf p hp).2

theorem sameView (h : q.ComposedView known m) {q' : Query Memory σ} (hsame : q'.SameView q) :
    q'.ComposedView known m := by
  refine ⟨⟨hsame.backend.trans h.backend, hsame.origin.trans h.origin, ?_⟩, ?_⟩
  · rw [hsame.projector]
    exact h.projector
  · rw [hsame.projector]
    exact h.projectorFits

variable {r : Revision (Query Memory σ)}

theorem select (h : q.ComposedView known m) (hf : f.Over (Vocabulary.plain.knowing known))
    (hfits : f.param.Fits known) (hstep : q.select f = .ok r) :
    (r.of q).ComposedView known m ∧ (r.of q).source = q.source := by
  obtain ⟨hty, ⟨-, rfl⟩ | ⟨g, projection, -, hg, hproject, hnext⟩⟩ := select_eq_ok hstep
  · exact ⟨h, rfl⟩
  · obtain ⟨hfplain, -⟩ := (h.onOrigin_plain ⟨hf, hty⟩ hg).1.fold Vocabulary.sound_plain
    have hgfits := h.onOrigin_fits hfits hg
    rw [hnext]
    refine ⟨?_, rfl⟩
    rcases Source.project_eq_ok hproject with ⟨-, rfl⟩ | ⟨-, -, rfl⟩ | ⟨-, rfl⟩
    · exact h.withProjection nofun
    · exact h.withProjection nofun
    · refine h.withProjection ?_
      rintro _ ⟨⟩
      exact ⟨hfplain, hgfits⟩

theorem distinct (h : q.ComposedView known m) {flag : Bool} (hstep : q.distinct flag = .ok r) :
    (r.of q).ComposedView known m ∧ (r.of q).source = q.source := by
  rcases distinct_eq_ok hstep with ⟨rfl, -⟩ | ⟨f, hp, -, rfl⟩
  · exact ⟨h, rfl⟩
  · have hproj : q.projector = some f := by rw [projector, hp]; rfl
    refine ⟨h.withProjection ?_, rfl⟩
    rintro _ ⟨⟩
    exact ⟨h.projector f hproj, h.projectorFits f hproj⟩

end ComposedView

namespace IsComposed

variable {W : Vocabulary} {f g : Lambda}

/-- A predicate alone, or joined to the filter so far, is sound. -/
theorem joined_exact (h : q.IsComposed known m) {joined : Lambda} (hg : g.ExactOn known m.origin)
    (hjoined : (q.source.predicate = none ∧ joined = g) ∨
      ∃ existing, q.source.predicate = some existing ∧ existing.conjoin g = .ok joined) :
    joined.ExactOn known m.origin := by
  rcases hjoined with ⟨-, rfl⟩ | ⟨existing, hsome, hconjoin⟩
  · exact hg
  · have hexisting := h.predicate existing hsome
    obtain ⟨hover, hparam, -⟩ := hexisting.within.conjoin Vocabulary.sound_noFloatSum
      ((h.predicateFits existing hsome).knowing _) hg.within
      (hg.paramTy.trans hexisting.paramTy.symm) hconjoin
    refine ⟨hover, ?_⟩
    rw [Lambda.paramTy, hparam]
    exact hexisting.paramTy

/-! ### Operations keep a query sound -/

theorem withRange (h : q.IsComposed known m) (skip : Nat) (take : Option Nat) :
    (q.withSource { q.source with skip, take }).IsComposed known m :=
  ⟨⟨⟨h.backend, h.origin, h.projector⟩, h.predicate, h.keys⟩, h.projectorFits, h.predicateFits⟩

theorem sortedBy (h : q.IsComposed known m) {s : Sorting}
    (hkeys : ∀ c ∈ s.clauses, c.key.PlainOn known m.origin) :
    (q.sortedBy s).IsComposed known m :=
  ⟨h.toSoundFor.sortedBy hkeys, h.projectorFits, h.predicateFits⟩

theorem withView (h : q.IsComposed known m) {q' : Query Memory σ} (hview : q'.ComposedView known m)
    (hsource : q'.source = q.source) : q'.IsComposed known m := by
  obtain ⟨source, projection⟩ := q'
  obtain rfl : source = q.source := hsource
  exact ⟨⟨hview.toPlainView, h.predicate, h.keys⟩, hview.projectorFits, h.predicateFits⟩

variable {r : Revision (Query Memory σ)} {p : Lambda}

theorem filter (h : q.IsComposed known m) (hp : p.Over (Vocabulary.noFloatSum.knowing known))
    (hfits : p.param.Fits known) (hstep : q.filter p = .ok r) : (r.of q).IsComposed known m := by
  obtain ⟨hty, -, g, hg, ⟨rfl, -⟩ | ⟨-, joined, rfl, hjoined⟩⟩ := filter_eq_ok hstep
  · exact h
  · obtain ⟨hfexact, -⟩ := (h.onOrigin_exact ⟨hp, hty⟩ hg).1.fold Vocabulary.sound_noFloatSum
    refine ⟨h.toSoundFor.withPredicate (h.joined_exact hfexact hjoined), h.projectorFits, ?_⟩
    rintro _ ⟨⟩
    rcases hjoined with ⟨-, rfl⟩ | ⟨existing, hsome, hconjoin⟩
    · have hgfits := h.onOrigin_fits hfits hg
      exact hgfits
    · rw [Lambda.param_of_conjoin hconjoin]
      exact h.predicateFits existing hsome

theorem orderBy (h : q.IsComposed known m) {key : Lambda} {newGroup ascending : Bool}
    (hkey : key.Over (Vocabulary.plain.knowing known))
    (hstep : q.orderBy key newGroup ascending = .ok r) : (r.of q).IsComposed known m := by
  obtain ⟨hty, g, hg, ⟨rfl, -⟩ | ⟨-, rfl⟩⟩ := orderBy_eq_ok hstep
  · exact h
  · obtain ⟨hfplain, -⟩ := (h.onOrigin_plain ⟨hkey, hty⟩ hg).1.fold Vocabulary.sound_plain
    exact h.sortedBy (forall_clauses_added.mpr ⟨hfplain, h.keys⟩)

theorem reverse (h : q.IsComposed known m) (hstep : q.reverse = .ok r) :
    (r.of q).IsComposed known m := by
  rcases reverse_eq_ok hstep with ⟨rfl, -⟩ | ⟨-, s, hs, rfl⟩
  · exact h
  · refine h.sortedBy (Sorting.forall_clauses_reverse.mpr ?_)
    rw [← clauses_of_some hs]
    exact h.keys

theorem select (h : q.IsComposed known m) {f : Lambda}
    (hf : f.Over (Vocabulary.plain.knowing known)) (hfits : f.param.Fits known)
    (hstep : q.select f = .ok r) : (r.of q).IsComposed known m :=
  have hview := h.toComposedView.select hf hfits hstep
  h.withView hview.1 hview.2

theorem distinct (h : q.IsComposed known m) {flag : Bool} (hstep : q.distinct flag = .ok r) :
    (r.of q).IsComposed known m :=
  have hview := h.toComposedView.distinct hstep
  h.withView hview.1 hview.2

theorem skipRows (h : q.IsComposed known m) (n : Nat) :
    ((q.skipRows n).of q).IsComposed known m := by
  rcases skipRows_cases q n with ⟨hr, -⟩ | hr
  · rw [hr]
    exact h
  · rw [hr]
    exact h.withRange _ _

theorem takeRows (h : q.IsComposed known m) (n : Nat) :
    ((q.takeRows n).of q).IsComposed known m := by
  rcases takeRows_cases q n with ⟨hr, -⟩ | ⟨-, hr⟩
  · rw [hr]
    exact h
  · rw [hr]
    exact h.withRange _ _

end IsComposed
end Query

/-! ### Chains of sound operations -/

/-- A well-typed lambda without floating-point numbers, all of whose parameters have the
types that go with their identities. -/
structure Lambda.IsTyped (types : Nat → Ty) (f : Lambda) : Prop where
  built : f.body.Built
  floatFree : ∀ n ∈ f.body.nodes, n.ty.isFloatFree
  own : f.param.IsTyped types
  params : ∀ p, .param p ∈ f.body.nodes → p.IsTyped types

/-- Such a lambda with constants that are deep instances of their types. -/
structure Lambda.IsDeep (types : Nat → Ty) (f : Lambda) : Prop extends f.IsTyped types where
  deep : ∀ v ty, .const v ty ∈ f.body.nodes → ty.admitsDeep v

section Typed

variable {types : Nat → Ty} {f : Lambda}

theorem Lambda.isDeep_identity {p : Param} (hp : p.IsTyped types) (hfree : p.ty.isFloatFree) :
    (identity p).IsDeep types := by
  refine ⟨⟨.param p, ?_, hp, ?_⟩, ?_⟩ <;> simp [identity, Expr.nodes, Expr.ty, hfree, hp]

/-- An operator on what a deep lambda gives makes a deep lambda. -/
theorem Lambda.IsDeep.unary (h : f.IsDeep types) {op : UnaryOp} {e : Expr}
    (he : Expr.mkUnary op f.body = .ok e) (hfree : e.ty.isFloatFree) :
    (⟨f.param, e⟩ : Lambda).IsDeep types := by
  have hbuilt := h.built.unary he
  obtain ⟨ty, -, rfl⟩ := Expr.mkUnary_eq_ok.mp he
  refine ⟨⟨hbuilt, ?_, h.own, ?_⟩, ?_⟩
  · exact List.forall_mem_cons.mpr ⟨hfree, h.floatFree⟩
  · simpa [Expr.nodes] using h.params
  · simpa [Expr.nodes] using h.deep

theorem Lambda.IsTyped.over (h : f.IsTyped types) :
    f.Over (Vocabulary.noFloatSum.knowing (Param.IsTyped types)) := by
  refine ⟨h.built.checked, fun n hn => ?_⟩
  cases n with
  | param p =>
    refine ⟨fun hid => ?_, fun _ => ⟨trivial, h.params p hn⟩⟩
    rw [h.own, h.params p hn, hid]
  | binary op l r ty =>
    have hty : ty.isFloatFree := h.floatFree _ hn
    cases ty <;> simp_all [Vocabulary.Allows, Vocabulary.own, Vocabulary.receiving,
      Vocabulary.knowing, Vocabulary.noFloatSum, Ty.isFloat, Ty.isFloatFree]
  | _ => trivial

theorem Lambda.IsDeep.over (h : f.IsDeep types) :
    f.Over (Vocabulary.plain.knowing (Param.IsTyped types)) := by
  refine ⟨h.built.checked, fun n hn => ?_⟩
  have hfree := h.floatFree n hn
  cases n with
  | const v ty => exact ⟨hfree, h.deep v ty hn⟩
  | param p =>
    refine ⟨fun hid => ?_, fun _ => ⟨hfree, h.params p hn⟩⟩
    rw [h.own, h.params p hn, hid]
  | _ => exact hfree

end Typed

namespace Query

/-- An operation with typed lambdas, which are deep where rows are sorted or projected. -/
def Step.IsSound (types : Nat → Ty) : Step σ → Prop
  | .filter p => p.IsTyped types
  | .orderBy key _ _ => key.IsDeep types
  | .select f => f.IsDeep types
  | .skip _ | .take _ | .reverse | .distinct _ | .withState _ => True

namespace IsComposed

variable {types : Nat → Ty} {q' : Query Memory σ}

/-- All rows in memory, before any operation. -/
theorem init : (m.query : Query Memory σ).IsComposed known m :=
  ⟨⟨⟨rfl, rfl, nofun⟩, nofun, nofun⟩, nofun, nofun⟩

/-- A sound operation keeps a query sound. -/
theorem step (h : q.IsComposed (Param.IsTyped types) m) {s : Step σ} (hs : s.IsSound types)
    {r : Revision (Query Memory σ)} (hstep : q.step s = .ok r) :
    (r.of q).IsComposed (Param.IsTyped types) m := by
  cases s with
  | filter p => exact h.filter hs.over hs.own.fits hstep
  | skip n =>
    obtain ⟨-, rfl⟩ := skip_eq_ok hstep
    exact h.skipRows _
  | take n =>
    obtain ⟨-, rfl⟩ := take_eq_ok hstep
    exact h.takeRows _
  | orderBy key newGroup ascending => exact h.orderBy hs.over hstep
  | reverse => exact h.reverse hstep
  | select f => exact h.select hs.over hs.own.fits hstep
  | distinct flag => exact h.distinct hstep
  | withState state =>
    obtain rfl := Except.ok.inj hstep
    exact ⟨⟨⟨h.backend, h.origin, h.projector⟩, h.predicate, h.keys⟩, h.projectorFits,
      h.predicateFits⟩

/-- Sound operations keep a query sound. -/
theorem steps {ops : List (Step σ)} (h : q.IsComposed (Param.IsTyped types) m)
    (hops : ∀ s ∈ ops, s.IsSound types) (hsteps : q.steps ops = .ok q') :
    q'.IsComposed (Param.IsTyped types) m :=
  steps_keep (fun h hs hstep => h.step hs hstep) h hops hsteps

end IsComposed

/-- An operation that is typed and deep if it is a projection. -/
def Step.ProjectsDeep (types : Nat → Ty) : Step σ → Prop
  | .select f => f.IsDeep types
  | .filter _ | .orderBy .. | .skip _ | .take _ | .reverse | .distinct _ | .withState _ => True

namespace ComposedView

variable {types : Nat → Ty} {q' : Query Memory σ}

/-- Operations keep a view plain, whatever they filter and sort by. -/
theorem step (h : q.ComposedView (Param.IsTyped types) m) {s : Step σ} (hs : s.ProjectsDeep types)
    {r : Revision (Query Memory σ)} (hstep : q.step s = .ok r) :
    (r.of q).ComposedView (Param.IsTyped types) m := by
  rcases step_sameView hstep with ⟨f, rfl⟩ | ⟨flag, rfl⟩ | hsame
  · exact (h.select hs.over hs.own.fits hstep).1
  · exact (h.distinct hstep).1
  · exact h.sameView hsame

theorem steps {ops : List (Step σ)} (h : q.ComposedView (Param.IsTyped types) m)
    (hops : ∀ s ∈ ops, s.ProjectsDeep types) (hsteps : q.steps ops = .ok q') :
    q'.ComposedView (Param.IsTyped types) m :=
  steps_keep (fun h hs hstep => h.step hs hstep) h hops hsteps

end ComposedView
end Query
end SeqQuery
