/-
# Members are read from rows, not from new records

An expression is resolved when no member in it is read right from a new record. Composing
lambdas keeps a resolved projection resolved whatever it is composed with, so that a chain of
projections that build records out of one another does not nest: what replaces the parameter
may be a new record, and a member that is then read from it is replaced by what sets the
field, which is a part of the image and resolved itself. Reads of the second lambda from its
own new records go the same way. Folding afterwards does not make a new record stand where
none stood, since a connective that comes down to one side is a Boolean.

A projection that is selected where a query has none is stored without being composed with
anything, and a composition that comes down to the identity leaves a query without one. So
the projection of a query stays resolved along a chain of operations if those that start
anew are resolved.

Key definitions: `Expr.readsNew`, `Expr.Resolved`, `Lambda.IsResolved`.
Key theorems: `Expr.subst_resolved`, `Expr.Resolved.fold`, `Lambda.andThen_resolved`,
`Query.step_resolved`, `Query.andThen_steps_resolved`, `Query.select_reads_new`.
-/
import SeqQuery.Proofs.Joining
import SeqQuery.Proofs.Steps

namespace SeqQuery
namespace Expr

/-- Whether an expression is a new record. -/
def isConstruct : Expr → Bool
  | .construct _ _ _ => true
  | _ => false

/-- Whether a node reads a member right from a new record. -/
def readsNew : Expr → Bool
  | .member target _ _ => target.isConstruct
  | _ => false

/-- Well-typed, and without a member that is read right from a new record. -/
structure Resolved (e : Expr) : Prop where
  checked : e.Checked
  noReads : ∀ n ∈ e.nodes, n.readsNew = false

variable {e m : Expr}

theorem resolved_of_children (hc : e.Checked) (hself : e.readsNew = false)
    (h : ∀ c ∈ e.children, c.Resolved) : e.Resolved :=
  ⟨hc, all_iff_children.mpr ⟨hself, fun c hmem => (h c hmem).noReads⟩⟩

theorem Resolved.child (h : e.Resolved) : ∀ c ∈ e.children, c.Resolved := fun c hmem =>
  ⟨h.checked.child c hmem, (all_iff_children.mp h.noReads).2 c hmem⟩

theorem resolved_const (v : Value) (ty : Ty) : (Expr.const v ty).Resolved :=
  resolved_of_children trivial rfl (List.forall_mem_nil _)

/-! ### Substitution -/

/-- What sets a field of a resolved new record is resolved. -/
theorem Resolved.initOf {record : RecordTy} {args : List Expr} {bindings : List (String × Expr)}
    {name : String} (h : (Expr.construct record args bindings).Resolved)
    (hm : record.initOf args bindings name = .ok m) : m.Resolved := by
  obtain ⟨i, field, hi, hfield, ⟨-, rfl⟩ | ⟨init, hinit, hsource⟩⟩ := RecordTy.initOf_eq_ok hm
  · exact resolved_const _ _
  · rcases hsource with rfl | ⟨v, ty, -, -, rfl⟩
    · have hin := (RecordTy.narrows_of_source h.checked.2.2 hi hfield hinit).1
      refine h.child m (List.mem_append.mpr ?_)
      exact hin.imp_right fun ⟨b, hb, heq⟩ => List.mem_map.mpr ⟨b, hb, heq⟩
    · exact resolved_const _ _

/-- A member of a resolved expression is read from what is no new record, or it is what sets
the field. -/
theorem Resolved.readMember {name : String} (h : e.Resolved) (hm : e.readMember name = .ok m) :
    m.Resolved := by
  have hplain : e.isConstruct = false → mkMember e name = .ok m → m.Resolved := by
    intro hself hm
    obtain ⟨ty, hty, rfl⟩ := mkMember_eq_ok.mp hm
    refine resolved_of_children ⟨h.checked, hty⟩ hself ?_
    rw [children, List.forall_mem_singleton]
    exact h
  cases e with
  | construct record args bindings => exact h.initOf hm
  | _ => exact hplain rfl hm

/-- Putting a resolved expression in the place of a parameter resolves any expression. -/
theorem subst_resolved {id : Nat} {image : Expr} (himage : image.Resolved) (e : Expr) :
    ∀ {m : Expr}, subst id image e = .ok m → m.Resolved := by
  induction e with
  | const v ty =>
    intro m h
    obtain rfl := Except.ok.inj h
    exact resolved_const v ty
  | param p =>
    intro m h
    rw [subst] at h
    obtain rfl := Except.ok.inj h
    split
    · exact himage
    · exact resolved_of_children trivial rfl (List.forall_mem_nil _)
  | member e name ty ih =>
    intro m h
    obtain ⟨t, ht, h⟩ := Outcome.bind_eq_ok.mp h
    exact (ih ht).readMember h
  | unary op e ty ih =>
    intro m h
    obtain ⟨t, ht, h⟩ := Outcome.bind_eq_ok.mp h
    obtain ⟨ty', hty, rfl⟩ := mkUnary_eq_ok.mp h
    refine resolved_of_children ⟨(ih ht).checked, hty⟩ rfl ?_
    simpa [children] using ih ht
  | binary op l r ty ihl ihr =>
    intro m h
    obtain ⟨l', hl, h⟩ := Outcome.bind_eq_ok.mp h
    obtain ⟨r', hr, h⟩ := Outcome.bind_eq_ok.mp h
    obtain ⟨ty', hty, rfl⟩ := mkBinary_eq_ok.mp h
    refine resolved_of_children ⟨(ihl hl).checked, (ihr hr).checked, hty⟩ rfl ?_
    simpa [children] using ⟨ihl hl, ihr hr⟩
  | cond t a b ty iht iha ihb =>
    intro m h
    obtain ⟨t', ht, h⟩ := Outcome.bind_eq_ok.mp h
    obtain ⟨a', ha, h⟩ := Outcome.bind_eq_ok.mp h
    obtain ⟨b', hb, h⟩ := Outcome.bind_eq_ok.mp h
    obtain ⟨htest, ty', hty, rfl⟩ := mkCond_eq_ok.mp h
    refine resolved_of_children
      ⟨(iht ht).checked, (iha ha).checked, (ihb hb).checked, htest, hty⟩ rfl ?_
    simpa [children] using ⟨iht ht, iha ha, ihb hb⟩
  | call method es ty ih =>
    intro m h
    obtain ⟨ms, hms, h⟩ := Outcome.bind_eq_ok.mp h
    obtain ⟨ty', hty, rfl⟩ := mkCallOf_eq_ok.mp h
    have hresolved : ∀ m ∈ ms, m.Resolved := Outcome.forall_mem_of_forall₂
      (Outcome.forall₂_imp_mem (substAll_eq_ok.mp hms) fun e hmem m hm => ih e hmem hm)
    exact resolved_of_children
      ⟨checkedAll_iff.mpr fun m hm => (hresolved m hm).checked, hty⟩ rfl hresolved
  | construct record es bs ihe ihb =>
    intro m h
    obtain ⟨ms, hms, h⟩ := Outcome.bind_eq_ok.mp h
    obtain ⟨cs, hcs, h⟩ := Outcome.bind_eq_ok.mp h
    obtain ⟨hinits, rfl⟩ := mkConstruct_eq_ok.mp h
    have hargs : ∀ m ∈ ms, m.Resolved := Outcome.forall_mem_of_forall₂
      (Outcome.forall₂_imp_mem (substAll_eq_ok.mp hms) fun e hmem m hm => ihe e hmem hm)
    have hbindings : ∀ c ∈ cs, c.2.Resolved := Outcome.forall_mem_of_forall₂
      (Outcome.forall₂_imp_mem (substBindings_eq_ok.mp hcs) fun b hmem c hc => ihb b hmem hc.2)
    refine resolved_of_children ⟨checkedAll_iff.mpr fun m hm => (hargs m hm).checked,
      checkedBindings_iff.mpr fun c hc => (hbindings c hc).checked, hinits⟩ rfl ?_
    rw [children, List.forall_mem_append, List.forall_mem_map]
    exact ⟨hargs, hbindings⟩

/-! ### Folding -/

theorem regroupOnto?_isConstruct {op : BinaryOp} {outer inner : Expr}
    (h : regroupOnto? op outer inner = some m) : m.isConstruct = false := by
  obtain ⟨c, s, l, r, ty, d, rest, cd, -, -, -, -, hmk⟩ := regroupOnto?_eq_some h
  obtain ⟨ty', -, rfl⟩ := mkBinary_eq_ok.mp hmk
  rfl

/-- A finished node that is no Boolean is a new record only if the node is. -/
theorem isConstruct_of_finish (hc : e.Checked) (hty : e.ty ≠ .bool) :
    e.finish.isConstruct → e.isConstruct := by
  refine finish_induction (motive := fun n => n.isConstruct → e.isConstruct) e id
    (fun e' h hnew => ?_) fun s e' _ h hnew => ?_
  · rcases simplify?_eq_some h with
      ⟨op, l, r, ty, side, rfl, -, rfl⟩ | ⟨op, l, r, ty, rfl, -, hregroup⟩
    · obtain ⟨-, -, rfl⟩ := BinaryOp.resultTy_connective.mp hc.2.2
      exact absurd rfl hty
    · -- what is regrouped is an operation on two operands again
      obtain ⟨outer, inner, -, honto⟩ := regroup?_eq_some hregroup
      rw [regroupOnto?_isConstruct honto] at hnew
      cases hnew
  · obtain ⟨-, v, -, rfl⟩ := evaluate?_eq_some h
    cases hnew

/-- Folding makes no other expression of a record type a new record. -/
theorem isConstruct_of_fold (hc : e.Checked) (hty : e.ty ≠ .bool) (h : e.fold.isConstruct) :
    e.isConstruct := by
  have hnode : (e.mapChildren Expr.fold).Checked :=
    hc.mapChildren fun c hmem => fold_checked (hc.child c hmem)
  rw [fold_bottomUp e] at h
  rw [← ty_mapChildren Expr.fold e] at hty
  have hself := isConstruct_of_finish hnode hty h
  cases e <;> exact hself

/-- A node that reads from no new record does not after what is below it has been folded. -/
theorem readsNew_mapChildren_fold (hc : e.Checked) (h : e.readsNew = false) :
    (e.mapChildren Expr.fold).readsNew = false := by
  cases e with
  | member target name ty =>
    obtain ⟨record, hrecord, -⟩ := Ty.memberTy_eq_ok.mp hc.2
    have hty : target.ty ≠ .bool := by
      rw [hrecord]
      nofun
    have hfold := isConstruct_of_fold hc.1 hty
    rw [Bool.eq_false_iff] at h ⊢
    exact fun hnew => h (hfold hnew)
  | _ => rfl

theorem Resolved.fold (h : e.Resolved) : e.fold.Resolved where
  checked := (fold_checked h.checked).1
  noReads := fold_bottomUp.all (fun _ hc hn => readsNew_mapChildren_fold hc hn) finish_checked
    (fun _ _ hn => finish_all_of (fun _ _ => rfl) (fun _ _ _ _ => rfl) hn) e h.checked h.noReads

end Expr

namespace Lambda

/-- A well-typed lambda that reads no member right from a new record. -/
def IsResolved (f : Lambda) : Prop :=
  f.body.Resolved

/-- A composition is resolved when its first lambda is, whatever the second one is. -/
theorem andThen_resolved {f g m : Lambda} (hf : f.IsResolved) (h : f.andThen g = .ok m) :
    m.IsResolved := by
  obtain ⟨-, ⟨-, rfl⟩ | ⟨body, hbody, rfl⟩⟩ := andThen_eq_ok h
  · exact hf
  · exact (Expr.subst_resolved hf g.body hbody).fold

end Lambda

namespace Query

variable {β σ : Type} {q q' : Query β σ} {r : Revision (Query β σ)}

/-- Every operation leaves the projection of a query resolved, if one that starts anew is
resolved. -/
theorem step_resolved {s : Step σ} (hq : ∀ f ∈ q.projector, f.IsResolved)
    (hstart : ∀ g, s = .select g → q.projector = none → g.IsResolved) (h : q.step s = .ok r) :
    ∀ f ∈ (r.of q).projector, f.IsResolved := by
  rcases step_sameView h with ⟨g, rfl⟩ | ⟨flag, rfl⟩ | hsame
  · obtain ⟨-, ⟨-, rfl⟩ | ⟨composed, projection, -, hcomposed, hproject, hr⟩⟩ := select_eq_ok h
    · exact hq
    have hresolved : composed.IsResolved := by
      rw [onOrigin_eq] at hcomposed
      cases hprojector : q.projector with
      | none =>
        rw [hprojector] at hcomposed
        obtain rfl := Except.ok.inj hcomposed
        exact hstart g rfl hprojector
      | some f =>
        rw [hprojector] at hcomposed
        exact Lambda.andThen_resolved (hq f hprojector) (Outcome.mapError_eq_ok.mp hcomposed)
    rw [hr]
    rcases Source.project_eq_ok hproject with ⟨-, rfl⟩ | ⟨-, -, rfl⟩ | ⟨-, rfl⟩
    · intro f hf
      cases hf
    · intro f hf
      cases hf
    · rintro f ⟨⟩
      exact Expr.Resolved.fold hresolved
  · rcases distinct_eq_ok h with ⟨rfl, -⟩ | ⟨f, hprojection, -, rfl⟩
    · exact hq
    · rintro f' ⟨⟩
      refine hq f ?_
      rw [projector, hprojection]
      rfl
  · rw [hsame.projector]
    exact hq

/-- A chain of operations leaves the projection of a query resolved, if all those that start
anew are resolved. -/
theorem steps_resolved : ∀ {ops : List (Step σ)} {q : Query β σ},
    (∀ f ∈ q.projector, f.IsResolved) →
    (∀ pre g post mid, ops = pre ++ .select g :: post → q.steps pre = .ok mid →
      mid.projector = none → g.IsResolved) →
    q.steps ops = .ok q' → ∀ f ∈ q'.projector, f.IsResolved
  | [], q, hq, _, h => by
    obtain rfl := Except.ok.inj h
    exact hq
  | s :: rest, q, hq, hstart, h => by
    obtain ⟨r, hr, h⟩ := steps_cons_eq_ok.mp h
    have hnext : ∀ f ∈ (r.of q).projector, f.IsResolved := by
      refine step_resolved hq (fun g hs hnone => ?_) hr
      exact hstart [] g rest q (by rw [hs, List.nil_append]) rfl hnone
    refine steps_resolved hnext (fun pre g post mid hrest hmid hnone => ?_) h
    refine hstart (s :: pre) g post mid ?_ (steps_cons_eq_ok.mpr ⟨r, hr, hmid⟩) hnone
    rw [hrest, List.cons_append]

/-- Composing a resolved lambda with any other gives a resolved one. So a query with a resolved
projection has one after any chain of accepted operations, if those projections in it are
resolved that are selected where the query has none. -/
theorem andThen_steps_resolved (β σ : Type) :
    (∀ f g m : Lambda, f.IsResolved → f.andThen g = .ok m → m.IsResolved) ∧
      ∀ (q q' : Query β σ) (ops : List (Step σ)), (∀ f ∈ q.projector, f.IsResolved) →
        (∀ pre g post mid, ops = pre ++ .select g :: post → q.steps pre = .ok mid →
          mid.projector = none → g.IsResolved) →
        q.steps ops = .ok q' → ∀ f ∈ q'.projector, f.IsResolved :=
  ⟨fun _ _ _ hf h => Lambda.andThen_resolved hf h, fun _ _ _ hq hstart h =>
    steps_resolved hq hstart h⟩

/-- From `x => new B(new A(x))` and `y => new A(y.a.n)` comes `x => new A(x)`. -/
theorem andThen_steps_resolved_nested :
    let a : RecordTy := ⟨"A", .cons "n" .int32 .nil⟩
    let b : RecordTy := ⟨"B", .cons "a" a.ty .nil⟩
    let x : Param := ⟨0, "x", .int32⟩
    let y : Param := ⟨1, "y", b.ty⟩
    let f : Lambda := ⟨x, .construct b [.construct a [.param x] []] []⟩
    let inner : Expr := .member (.param y) "a" a.ty
    let g : Lambda := ⟨y, .construct a [.member inner "n" .int32] []⟩
    let m : Lambda := ⟨x, .construct a [.param x] []⟩
    let q : Query Unit Unit := .ofBackend () .int32
    let q' : Query Unit Unit := ⟨q.source, some ⟨m, false⟩⟩
    (f.andThen g = .ok m ∧ m.IsResolved) ∧
      q.steps [.select f, .select g] = .ok q' ∧ ∀ f ∈ q'.projector, f.IsResolved := by
  intro a b x y f inner g m q q'
  have hf : f.IsResolved := by
    refine ⟨⟨⟨⟨⟨trivial, trivial⟩, trivial, rfl⟩, trivial⟩, trivial, rfl⟩, ?_⟩
    simp [f, Expr.nodes, Expr.nodesAll, Expr.nodesBindings, Expr.readsNew]
  have hcompose := (andThen_steps_resolved Unit Unit).1 f g m hf rfl
  have hsteps := (andThen_steps_resolved Unit Unit).2 q q' [.select f, .select g]
  refine ⟨⟨rfl, hcompose⟩, rfl, hsteps (fun f hf => by cases hf) ?_ rfl⟩
  intro pre g' post mid hops hmid hnone
  rcases pre with _ | ⟨s, _ | ⟨s', pre⟩⟩
  · obtain ⟨hfirst, -⟩ := List.cons.inj hops
    obtain rfl := Step.select.inj hfirst
    exact hf
  · -- the query has the first projection by then
    obtain ⟨rfl, -⟩ := List.cons.inj hops
    obtain rfl := Except.ok.inj hmid
    cases hnone
  · simp at hops

/-- The projection `z => new R(z).a + 1` is stored as it is once `y => y.a` has undone
`x => new R(x)`, from which the chain started. -/
theorem select_reads_new :
    let r : RecordTy := ⟨"R", .cons "a" .int32 .nil⟩
    let x : Param := ⟨0, "x", .int32⟩
    let y : Param := ⟨1, "y", r.ty⟩
    let z : Param := ⟨2, "z", .int32⟩
    let f : Lambda := ⟨x, .construct r [.param x] []⟩
    let g : Lambda := ⟨y, .member (.param y) "a" .int32⟩
    let field : Expr := .member (.construct r [.param z] []) "a" .int32
    let h : Lambda := ⟨z, .binary (.arith .add) field (.ofValue (.int32 1)) .int32⟩
    let q : Query Unit Unit := .ofBackend () .int32
    f.body.Built ∧ g.body.Built ∧ h.body.Built ∧ f.IsResolved ∧
      ∃ q₁ q₃, q.steps [.select f] = .ok q₁ ∧ q₁.projector = some f ∧
        q₁.steps [.select g, .select h] = .ok q₃ ∧
          ∃ m ∈ q₃.projector, ∃ n ∈ m.body.nodes, n.readsNew := by
  intro r x y z f g field h q
  have hmakef : Expr.mkConstruct r [.param x] [] = .ok f.body := rfl
  have hmakeg : Expr.mkMember (.param y) "a" = .ok g.body := rfl
  have hmakez : Expr.mkConstruct r [.param z] [] = .ok (.construct r [.param z] []) := rfl
  have hmakefield : Expr.mkMember (.construct r [.param z] []) "a" = .ok field := rfl
  have hmakeh : Expr.mkBinary (.arith .add) field (.ofValue (.int32 1)) = .ok h.body := rfl
  have hbuilt : ∀ p : Param, ∀ e ∈ [Expr.param p], e.Built := by
    intro p e he
    rw [List.mem_singleton.mp he]
    exact .param p
  have hf : f.body.Built := .construct (hbuilt x) (List.forall_mem_nil _) hmakef
  have hg : g.body.Built := .member (.param y) hmakeg
  have hz : (Expr.construct r [.param z] []).Built :=
    .construct (hbuilt z) (List.forall_mem_nil _) hmakez
  have hh : h.body.Built := .binary (.member hz hmakefield) (.value _) hmakeh
  have hresolved : f.IsResolved := by
    refine ⟨hf.checked, ?_⟩
    simp [f, Expr.nodes, Expr.nodesAll, Expr.nodesBindings, Expr.readsNew]
  refine ⟨hf, hg, hh, hresolved, _, _, rfl, rfl, rfl, h, rfl, field, ?_, rfl⟩
  simp [h, Expr.nodes, Expr.self_mem_nodes]

end Query
end SeqQuery
