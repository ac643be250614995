/-
# Terminals mean what lists mean

A terminal is answered through a rewritten query: a predicate becomes a filter, `all` asks
whether any row fails, an index skips rows, membership filters by equality, and a query
that is known to have no rows is not run at all. Every one of these has the answer that the
same question has on the list that the query gives.

What is read first must be an instance of the type that the terminal promises, and what is
filtered before it is sorted must come in the order of the list, so projections and keys
need deep constants. Predicates and members need not have them.

Key definitions: `Terminal.predicate?`, `Terminal.onList`.
Key theorems: `Query.IsComposed.toValues_filter`, `Lambda.equals_sound`,
`Query.execute_onList`.
-/
import Mathlib
import SeqQuery.Proofs.Answers
import SeqQuery.Proofs.Pushdown

namespace SeqQuery

variable {σ : Type} {known : Param → Prop} {m : Memory} {q : Query Memory σ}

/-! ### Questions about lists -/

/-- The rows that pass a predicate, if one is given. -/
def passing (now : Int64) (p : Option Lambda) (rows : List Value) : List Value :=
  match p with
  | none => rows
  | some p => rows.filter (Outcome.passes (p.test now))

/-- The predicate that a terminal is given. -/
def Terminal.predicate? : Terminal → Option Lambda
  | .count p | .longCount p | .any p | .first p | .firstOrDefault p | .single p
  | .singleOrDefault p | .last p | .lastOrDefault p => p
  | .all p => some p
  | .average _ | .sum _ | .min _ | .max _ | .elementAt _ | .elementAtOrDefault _
  | .contains _ => none

/-- The answer of a terminal on a list of values of a type, if it asks from the front. -/
def Terminal.onList (now : Int64) (ty : Ty) (rows : List Value) (t : Terminal) :
    Option (Except QueryError Value) :=
  let passed := passing now t.predicate? rows
  match t with
  | .count _ => Aggregate.count.onList .int32 passed
  | .longCount _ => Aggregate.count.onList .int64 passed
  | .any _ => Aggregate.any.onList .bool passed
  | .all p => some (.ok (.bool (rows.all (Outcome.passes (p.test now)))))
  | .first _ => Aggregate.first.onList ty passed
  | .firstOrDefault _ => Aggregate.firstOrDefault.onList ty passed
  | .single _ => Aggregate.single.onList ty passed
  | .singleOrDefault _ => Aggregate.singleOrDefault.onList ty passed
  | .elementAt (.fromStart n) => some (rows[n]?.elim (.error .emptyResult) .ok)
  | .elementAtOrDefault (.fromStart n) => some (rows[n]?.elim (.ok ty.zero) .ok)
  | .contains v => some (.ok (.bool (rows.any (· == v))))
  | _ => none

/-! ### Filters on the list of a query -/

namespace Query

variable {rows : List Value} {p : Lambda} {r : Revision (Query Memory σ)}

/-- An accepted filter keeps of the list that a query gives what passes it. -/
theorem IsComposed.toValues_filter (h : q.IsComposed known m) (hm : m.IsPlain)
    (hp : p.Over (Vocabulary.noFloatSum.knowing known)) (hstep : q.filter p = .ok r)
    (hrows : (q.toValues Memory.backend).outcome = .ok rows)
    (htests : ∀ v ∈ rows, ∃ b, p.test m.now v = .ok b) :
    ((r.of q).toValues Memory.backend).outcome =
      .ok (rows.filter (Outcome.passes (p.test m.now))) := by
  have hgiven := hrows
  obtain ⟨hty, -, g, hg, hrevision⟩ := filter_eq_ok hstep
  rw [Memory.toValues_eq_ok] at hrows
  split at hrows
  · next hempty =>
    subst hrows
    rcases hrevision with ⟨rfl, -⟩ | ⟨hrange, -⟩
    · exact hgiven
    · rw [isEmpty_of_hasRange hrange] at hempty
      cases hempty
  · next hempty =>
    obtain ⟨kept, sorted, all, hyields, hwindow⟩ := Yields.of_run hm h.toSoundFor hrows
    rcases hrevision with ⟨rfl, hempty' | hconst⟩ | ⟨hrange, joined, hr, -⟩
    · exact absurd hempty' hempty
    · have hself : rows.filter (Outcome.passes (p.test m.now)) = rows := by
        rw [List.filter_eq_self]
        intro v hv
        obtain ⟨b, hb⟩ := htests v hv
        rw [← hwindow] at hv
        rw [Outcome.passes_of_ok hb]
        exact hyields.test_of_const h hm.floatFree ⟨hp, hty⟩ hg hconst
          (Memory.mem_of_mem_window hv) hb
      rw [hself]
      exact hgiven
    · -- without row limits the list is all that the query yields
      rw [Memory.window_of_hasRange hrange] at hwindow
      subst hwindow
      have hfiltered : all.filterM (p.test m.now) =
          .ok (all.filter (Outcome.passes (p.test m.now))) :=
        Outcome.filterM_eq_ok.mpr ⟨htests, rfl⟩
      obtain ⟨kept', sorted', hyields'⟩ := hyields.filter h hm.floatFree
        (Bool.eq_false_iff.mpr hempty) ⟨hp, hty⟩ hstep hfiltered
      have hrun := hyields'.run_eq hm.floatFree
      have hrange' : (r.of q).hasRange = false := by
        rw [hr]
        exact hrange
      rw [Memory.window_of_hasRange hrange'] at hrun
      exact Memory.toValues_of_run hrun

/-- A predicate that may be missing keeps what passes it. -/
theorem IsComposed.toValues_filterBy (h : q.IsComposed known m) (hm : m.IsPlain)
    {p : Option Lambda} (hp : ∀ f, p = some f → f.Over (Vocabulary.noFloatSum.knowing known))
    (hstep : q.filterBy p = .ok r) (hrows : (q.toValues Memory.backend).outcome = .ok rows)
    (htests : ∀ f, p = some f → ∀ v ∈ rows, ∃ b, f.test m.now v = .ok b) :
    ((r.of q).toValues Memory.backend).outcome = .ok (passing m.now p rows) ∧
      (r.of q).elementTy = q.elementTy ∧ (r.of q).backend = q.backend := by
  cases p with
  | none =>
    obtain rfl := Except.ok.inj hstep
    exact ⟨hrows, rfl, rfl⟩
  | some p =>
    have hsame : (r.of q).SameView q := filter_sameView hstep
    exact ⟨h.toValues_filter hm (hp p rfl) hstep hrows (htests p rfl), hsame.elementTy,
      hsame.backend⟩

end Query

theorem mem_of_mem_passing {now : Int64} {p : Option Lambda} {rows : List Value} {v : Value}
    (h : v ∈ passing now p rows) : v ∈ rows := by
  cases p with
  | none => exact h
  | some p => exact (List.mem_filter.mp h).1

/-- No row passes the negation of a predicate exactly when all rows pass the predicate. -/
theorem isEmpty_passing_negated {now : Int64} {p negated : Lambda} {rows : List Value}
    (h : ∀ v ∈ rows, ∃ b, p.test now v = .ok b ∧ negated.test now v = .ok !b) :
    (passing now (some negated) rows).isEmpty = rows.all (Outcome.passes (p.test now)) := by
  rw [Bool.eq_iff_iff, List.isEmpty_iff, passing, List.filter_eq_nil_iff, List.all_eq_true]
  refine forall₂_congr fun v hv => ?_
  obtain ⟨b, hb, hnot⟩ := h v hv
  rw [Outcome.passes_of_ok hb, Outcome.passes_of_ok hnot, Bool.not_eq_true, Bool.not_eq_false']

/-- The equality predicate passes exactly the rows that are equal to the value. -/
theorem Lambda.equals_sound {v : Value} {ty : Ty} {p : Lambda} (h : Lambda.equals v ty = .ok p) :
    p.Over (Vocabulary.noFloatSum.knowing known) ∧ ∀ now w, p.test now w = .ok (w == v) := by
  obtain ⟨constant, hconstant, h⟩ := Outcome.bind_eq_ok.mp h
  obtain ⟨body, hbody, h⟩ := Outcome.bind_eq_ok.mp h
  obtain rfl := Except.ok.inj h
  obtain ⟨-, rfl⟩ := Expr.mkConst_eq_ok.mp hconstant
  obtain ⟨ty', hty', rfl⟩ := Expr.mkBinary_eq_ok.mp hbody
  refine ⟨⟨⟨trivial, trivial, hty'⟩, Expr.all_binary.mpr ⟨rfl, ?_, Expr.all_const.mpr trivial⟩⟩, ?_⟩
  · exact Expr.all_param.mpr ⟨fun _ => rfl, fun hne => absurd rfl hne⟩
  · intro now w
    rw [Lambda.test_eq_ok, Lambda.apply, Expr.eval_strict _ rfl, Outcome.bind_eq_ok]
    refine ⟨w, ?_, rfl⟩
    rw [Expr.eval, Env.find?_single rfl]

/-- Some row passes equality with a value exactly when the value is among the rows. -/
theorem any_passing_equals {now : Int64} {v : Value} {p : Lambda} {rows : List Value}
    (h : ∀ w, p.test now w = .ok (w == v)) :
    (!(passing now (some p) rows).isEmpty) = rows.any (· == v) := by
  rw [Bool.eq_iff_iff, List.any_eq_true, Bool.not_eq_true', List.isEmpty_eq_false_iff_exists_mem]
  refine exists_congr fun w => ?_
  rw [passing, List.mem_filter, Outcome.passes_of_ok (h w)]

/-! ### Terminals -/

namespace Query

variable {types : Nat → Ty} {rows : List Value} {t : Terminal} {request : Request Memory σ}
  {r : Revision (Query Memory σ)} {answer : Except QueryError Value}

/-- A terminal that filters first is answered as on the rows that pass. -/
theorem IsComposed.execute_filterBy (h : q.IsComposed known m) (hm : m.IsPlain)
    (hscans : m.allowsFullScans) (hrows : (q.toValues Memory.backend).outcome = .ok rows)
    {p : Option Lambda} (hp : ∀ f, p = some f → f.Over (Vocabulary.noFloatSum.knowing known))
    (htests : ∀ f, p = some f → ∀ v ∈ rows, ∃ b, f.test m.now v = .ok b)
    (hrewrite : q.rewrite t = .ok request) (hstep : q.filterBy p = .ok r)
    (hquery : request.query = r.of q)
    (hty : request.aggregate.Promises (r.of q).elementTy request.resultTy)
    (hanswer : request.aggregate.onList request.resultTy (passing m.now p rows) = some answer) :
    (q.execute Memory.backend t).outcome = answer := by
  obtain ⟨hpassed, helement, hbackend⟩ := h.toValues_filterBy hm hp hstep hrows htests
  have hsame : (r.of q).backend = m := hbackend.trans h.backend
  rw [← hquery] at hpassed helement hsame hty
  refine execute_of_request hrewrite hpassed (fun _ => hsame ▸ hscans) (fun v hv => ?_) hty hanswer
  rw [helement]
  exact Ty.admits_of_admitsDeep (h.toSoundFor.toValues_deep hm hrows v (mem_of_mem_passing hv))

/-- Whether all rows pass is answered by whether none fails. -/
theorem IsComposed.execute_all (h : q.IsComposed known m) (hm : m.IsPlain)
    (hscans : m.allowsFullScans) (hrows : (q.toValues Memory.backend).outcome = .ok rows)
    {p : Lambda} (hp : p.Over (Vocabulary.noFloatSum.knowing known))
    (htests : ∀ v ∈ rows, ∃ b, p.test m.now v = .ok b)
    (haccepted : q.rewrite (.all p) = .ok request) :
    (q.execute Memory.backend (.all p)).outcome =
      .ok (.bool (rows.all (Outcome.passes (p.test m.now)))) := by
  obtain ⟨negated, hnegated, hrequest⟩ := Outcome.bind_eq_ok.mp haccepted
  obtain ⟨r, hr, rfl⟩ := Outcome.map_eq_ok.mp hrequest
  obtain ⟨-, hty, -⟩ := filter_eq_ok hr
  obtain ⟨hover, -, hnot⟩ :=
    hp.negate Vocabulary.sound_noFloatSum hty (Outcome.mapError_eq_ok.mp hnegated)
  have hboth : ∀ v ∈ rows, ∃ b, p.test m.now v = .ok b ∧ negated.test m.now v = .ok !b :=
    fun v hv =>
      let ⟨b, hb⟩ := htests v hv
      ⟨b, hb, hnot _ _ _ hb⟩
  refine h.execute_filterBy hm hscans hrows (p := some negated) ?_ ?_ haccepted hr rfl rfl ?_
  · rintro _ ⟨⟩
    exact hover
  · rintro _ ⟨⟩ v hv
    obtain ⟨b, -, hb⟩ := hboth v hv
    exact ⟨_, hb⟩
  · rw [← isEmpty_passing_negated hboth]
    rfl

/-- Whether a value is among the rows is answered by whether a row is equal to it. -/
theorem IsComposed.execute_contains (h : q.IsComposed known m) (hm : m.IsPlain)
    (hscans : m.allowsFullScans) (hrows : (q.toValues Memory.backend).outcome = .ok rows)
    {v : Value} (haccepted : q.rewrite (.contains v) = .ok request) :
    (q.execute Memory.backend (.contains v)).outcome = .ok (.bool (rows.any (· == v))) := by
  have hrequest := haccepted
  rw [rewrite] at hrequest
  split at hrequest
  · obtain ⟨p, hp, hrequest⟩ := Outcome.bind_eq_ok.mp hrequest
    obtain ⟨r, hr, rfl⟩ := Outcome.map_eq_ok.mp hrequest
    obtain ⟨hover, hpasses⟩ := Lambda.equals_sound (Outcome.mapError_eq_ok.mp hp)
    refine h.execute_filterBy hm hscans hrows (p := some p) ?_ ?_ haccepted hr rfl rfl ?_
    · rintro _ ⟨⟩
      exact hover
    · rintro _ ⟨⟩ w -
      exact ⟨_, hpasses _ w⟩
    · rw [← any_passing_equals (hpasses m.now)]
      rfl
  · cases hrequest

/-- A terminal that the resolver accepts is answered as on the list that the query gives. -/
theorem execute_onList (types : Nat → Ty) (m : Memory) (hm : m.IsPlain)
    (hscans : m.allowsFullScans) (hsize : m.rows.length ≤ maxRows) (ops : List (Step σ))
    (hops : ∀ s ∈ ops, s.IsSound types) (q : Query Memory σ) (hq : m.query.steps ops = .ok q)
    (rows : List Value) (hrows : (q.toValues Memory.backend).outcome = .ok rows) (t : Terminal)
    (ht : ∀ p, t.predicate? = some p → p.IsTyped types ∧ ∀ v ∈ rows, ∃ b, p.test m.now v = .ok b)
    (request : Request Memory σ) (haccepted : q.rewrite t = .ok request)
    (answer : Except QueryError Value)
    (hanswer : t.onList m.now q.elementTy rows = some answer) :
    (q.execute Memory.backend t).outcome = answer := by
  have h : q.IsComposed (Param.IsTyped types) m := IsComposed.init.steps hops hq
  have hover : ∀ p, t.predicate? = some p →
      p.Over (Vocabulary.noFloatSum.knowing (Param.IsTyped types)) := fun p hp => (ht p hp).1.over
  have htests : ∀ p, t.predicate? = some p → ∀ v ∈ rows, ∃ b, p.test m.now v = .ok b :=
    fun p hp => (ht p hp).2
  have hbackend : q.backend = m := h.backend
  have hdropped := Memory.toValues_skipRows (hbackend ▸ hsize) hrows
  cases t with
  | count p =>
    obtain ⟨r, hr, rfl⟩ := Outcome.map_eq_ok.mp haccepted
    exact h.execute_filterBy hm hscans hrows hover htests haccepted hr rfl (.inl rfl) hanswer
  | longCount p =>
    obtain ⟨r, hr, rfl⟩ := Outcome.map_eq_ok.mp haccepted
    exact h.execute_filterBy hm hscans hrows hover htests haccepted hr rfl (.inr rfl) hanswer
  | any p =>
    obtain ⟨r, hr, rfl⟩ := Outcome.map_eq_ok.mp haccepted
    exact h.execute_filterBy hm hscans hrows hover htests haccepted hr rfl rfl hanswer
  | all p =>
    obtain rfl := Option.some.inj hanswer
    exact h.execute_all hm hscans hrows (hover p rfl) (htests p rfl) haccepted
  | first p | firstOrDefault p | single p | singleOrDefault p =>
    obtain ⟨r, hr, rfl⟩ := Outcome.map_eq_ok.mp haccepted
    obtain ⟨-, helement, -⟩ := h.toValues_filterBy hm hover hr hrows htests
    refine h.execute_filterBy hm hscans hrows hover htests haccepted hr rfl rfl ?_
    rw [← hanswer, ← helement]
    rfl
  | elementAt index | elementAtOrDefault index =>
    cases index with
    | fromEnd n => cases hanswer
    | fromStart n =>
      obtain rfl := Except.ok.inj haccepted
      refine (h.skipRows n).toSoundFor.execute_of_request hm haccepted rfl (hdropped n)
        (fun _ => hscans) rfl ?_
      rw [← hanswer]
      show (_ : Aggregate).onList ((q.skipRows n).of q).elementTy _ = _
      rw [(q.skipRows_sameView n).elementTy]
      exact congrArg (fun v => some (Option.elim v _ _)) List.head?_drop
  | contains v =>
    obtain rfl := Option.some.inj hanswer
    exact h.execute_contains hm hscans hrows haccepted
  | last p | lastOrDefault p => cases hanswer
  | average f | sum f | min f | max f => cases hanswer

/-- The first of negated, sorted numbers without repeats that is not the least. -/
theorem execute_onList_negated :
    let x : Param := ⟨0, "x", .int32⟩
    let m : Memory := ⟨"numbers", .int32, [.int32 3, .int32 1, .int32 2, .int32 1], true, 0⟩
    let negated : Lambda := ⟨x, .unary .negate (.param x) .int32⟩
    let others : Lambda :=
      ⟨x, .binary (.equality .ne) (.param x) (.const (.int32 (-3)) .int32) .bool⟩
    let ops : List (Step Unit) :=
      [.select negated, .distinct true, .orderBy (.identity x) true true]
    ∃ q : Query Memory Unit, m.query.steps ops = .ok q ∧
      (q.toValues Memory.backend).outcome = .ok [.int32 (-3), .int32 (-2), .int32 (-1)] ∧
      (q.execute Memory.backend (.first (some others))).outcome = .ok (.int32 (-2)) := by
  intro x m negated others ops
  let types : Nat → Ty := fun _ => .int32
  have hm : m.IsPlain := by
    refine ⟨?_, rfl⟩
    simp [m, Ty.admitsDeep]
  have hidentity : (Lambda.identity x).IsDeep types := Lambda.isDeep_identity rfl rfl
  have hnegate : Expr.mkUnary .negate (.param x) = .ok negated.body := rfl
  have hnegated : negated.IsDeep types := hidentity.unary hnegate rfl
  have hne : Expr.mkBinary (.equality .ne) (.param x) (.ofValue (.int32 (-3))) = .ok others.body :=
    rfl
  have hothers : others.IsTyped types := by
    refine ⟨.binary (.param x) (.value _) hne, ?_, rfl, ?_⟩ <;>
      simp [others, x, Expr.nodes, Expr.ty, Ty.isFloatFree, Param.IsTyped, types]
  have hops : ∀ s ∈ ops, s.IsSound types := by
    simp [ops, Step.IsSound, hnegated, hidentity]
  refine ⟨_, rfl, ?hrows, ?_⟩
  case hrows => cbv
  refine execute_onList types m hm rfl (by decide) ops hops _ rfl _ (by cbv) _ ?_ _ rfl _ ?_
  · rintro _ ⟨⟩
    refine ⟨hothers, ?_⟩
    simp only [List.forall_mem_cons]
    exact ⟨⟨_, rfl⟩, ⟨_, rfl⟩, ⟨_, rfl⟩, List.forall_mem_nil _⟩
  · cbv

/-- Without deep constants a list has rows that are not of its type, which the first one is
held to, and keys that have no order, so that a filter in front of the sorting changes the
order of what is left. -/
theorem execute_ne_onList_shallow :
    let r : RecordTy := ⟨"R", .cons "A" .int32 .nil⟩
    let x : Param := ⟨0, "x", .int32⟩
    let text : Expr := .member (.const (.record r [.string "a"]) r.ty) "A" .int32
    let isZero : Expr := .binary (.equality .eq) (.param x) (.const (.int32 0) .int32) .bool
    let isOther : Lambda :=
      ⟨x, .binary (.equality .ne) (.param x) (.const (.int32 0) .int32) .bool⟩
    let named : Lambda := ⟨x, text⟩
    let key : Lambda := ⟨x, .cond isZero text (.param x) .int32⟩
    let numbers (rows : List Value) : Memory := ⟨"numbers", .int32, rows, true, 0⟩
    let zero := numbers [.int32 0]
    let four := numbers [.int32 2, .int32 0, .int32 0, .int32 1]
    (zero.IsPlain ∧ four.IsPlain ∧
      ∀ f ∈ [named, key, isOther], f.IsTyped fun _ => .int32) ∧
    (∃ q : Query Memory Unit, zero.query.steps [.select named] = .ok q ∧
      (q.toValues Memory.backend).outcome = .ok [.string "a"] ∧
      (Terminal.first none).onList 0 q.elementTy [.string "a"] = some (.ok (.string "a")) ∧
      (q.execute Memory.backend (.first none)).outcome =
        .error (.coercionFailure "String" "Int32")) ∧
    ∃ q : Query Memory Unit, four.query.steps [.orderBy key true true] = .ok q ∧
      (q.toValues Memory.backend).outcome = .ok four.rows ∧
      (Terminal.first (some isOther)).onList 0 q.elementTy four.rows =
        some (.ok (.int32 2)) ∧
      (q.execute Memory.backend (.first (some isOther))).outcome = .ok (.int32 1) := by
  intro r x text isZero isOther named key numbers zero four
  have hmember : Expr.mkMember (.ofValue (.record r [.string "a"])) "A" = .ok text := rfl
  have htest : Expr.mkBinary (.equality .eq) (.param x) (.ofValue (.int32 0)) = .ok isZero := rfl
  have hcond : Expr.mkCond isZero text (.param x) = .ok key.body := rfl
  have hne : Expr.mkBinary (.equality .ne) (.param x) (.ofValue (.int32 0)) = .ok isOther.body :=
    rfl
  have htext : text.Built := .member (.value _) hmember
  have hzero : isZero.Built := .binary (.param x) (.value _) htest
  refine ⟨⟨⟨?_, rfl⟩, ⟨?_, rfl⟩, ?_⟩, ⟨_, rfl, ?_, rfl, ?_⟩, ⟨_, rfl, ?_, ?_, ?_⟩⟩
  · simp [zero, numbers, Ty.admitsDeep]
  · simp [four, numbers, Ty.admitsDeep]
  · simp only [List.forall_mem_cons]
    refine ⟨⟨htext, ?_, rfl, ?_⟩, ⟨.cond hzero htext (.param x) hcond, ?_, rfl, ?_⟩,
      ⟨.binary (.param x) (.value _) hne, ?_, rfl, ?_⟩, List.forall_mem_nil _⟩ <;>
      simp [named, key, isOther, isZero, text, x, r, Expr.nodes, Expr.ty, RecordTy.ty,
        Ty.isFloatFree, Fields.isFloatFree, Param.IsTyped]
  all_goals cbv

end Query
end SeqQuery
