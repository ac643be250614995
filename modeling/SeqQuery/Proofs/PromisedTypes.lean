/-
# Answers are of the types that were promised

A terminal promises a type before anything is read (`Terminal.resultTy`). The answer may then
come from the table of answers for no rows, or from a backend, of which nothing is known.
What comes from the table is a value of the promised type, because that table is only asked
with the aggregate of the same terminal (`Aggregate.ofNoRows_admits`). What comes from a
backend is held to the type: a value that is left alone is one of its values already, and one
that is converted becomes one, whichever of the two conversions does it
(`coerceResult_admits`).

A typed shortcut therefore only meets values that it can hand out.

Key definitions: `Request.CanGive`, `OfValue.Reads`.
Key theorems: `Value.convertChecked_admits`, `coerceResult_admits`,
`Aggregate.ofNoRows_admits`, `Query.execute_admits`, `Query.executeLater_admits`,
`Query.executeAs_of_promise`, `Query.answers_as_promised`.
-/
import SeqQuery.Proofs.Requests
import SeqQuery.Proofs.Waiting

namespace SeqQuery

variable {β σ : Type}

/-! ### Conversions end in values of their target -/

namespace Value

variable {v w : Value} {ty : Ty}

theorem ofInteger?_admits {n : Int64} (h : ofInteger? n ty = some w) : ty.admits w := by
  cases ty <;> cases h <;> rfl

theorem ofFloating?_admits {x : Float} (h : ofFloating? x ty = some w) : ty.admits w := by
  cases ty <;> cases h <;> rfl

theorem ofFloatingInRange?_admits {x : Float} (h : ofFloatingInRange? x ty = some w) :
    ty.admits w := by
  cases ty with
  | int32 | int64 =>
    obtain ⟨-, hw⟩ := Option.ite_none_right_eq_some.mp h
    cases hw
    rfl
  | _ => cases h

theorem convert?_admits (h : v.convert? ty = some w) : ty.admits w := by
  cases v with
  | int32 n => exact ofInteger?_admits h
  | int64 n => exact ofInteger?_admits h
  | float32 x => exact ofFloating?_admits h
  | float64 x => exact ofFloating?_admits h
  | timestamp ms => cases ty <;> cases h; rfl
  | _ => cases h

/-- A conversion gives a value of its target. -/
theorem convert_admits (h : v.convert ty = .ok w) : ty.admits w := by
  unfold convert at h
  split at h
  · next hv => exact Except.ok.inj h ▸ hv
  · split at h
    · next u hu => exact Except.ok.inj h ▸ convert?_admits hu
    · cases h

/-- A checked conversion gives a value of its target. -/
theorem convertChecked_admits (h : v.convertChecked ty = .ok w) : ty.admits w := by
  have hrange : ∀ {x : Float} {e : ValueError},
      ((ofFloatingInRange? x ty).map Except.ok).getD (.error e) = .ok w → ty.admits w := by
    intro x e hx
    cases hw : ofFloatingInRange? x ty with
    | none =>
      rw [hw] at hx
      cases hx
    | some u =>
      rw [hw] at hx
      exact Except.ok.inj hx ▸ ofFloatingInRange?_admits hw
  unfold convertChecked at h
  split at h
  · exact (Outcome.guard_eq_ok.mp h).2 ▸ rfl
  · exact hrange h
  · exact hrange h
  · exact hrange h
  · exact hrange h
  · exact convert_admits h

end Value

/-- What an answer is held to is what it is. -/
theorem coerceResult_admits {ty : Ty} {v w : Value} (h : coerceResult ty v = .ok w) :
    ty.admits w := by
  unfold coerceResult at h
  split at h
  · next hv => exact Except.ok.inj h ▸ hv
  · exact Value.convertChecked_admits (Outcome.mapError_eq_ok.mp h)

/-! ### Answers for no rows -/

/-- The table of answers for no rows keeps the promise of the terminal that asks for the
aggregate. -/
theorem Aggregate.ofNoRows_admits {t : Terminal} {element : Ty} {v : Value}
    (h : t.aggregate.ofNoRows (t.resultTy element) = .ok v) : (t.resultTy element).admits v := by
  cases t with
  | any p | all p | contains u => exact Except.ok.inj h ▸ rfl
  | count p | longCount p | sum f | firstOrDefault p | singleOrDefault p | lastOrDefault p
  | elementAtOrDefault index => exact Except.ok.inj h ▸ Ty.admits_zero _
  | first p | single p | last p | average f | min f | max f | elementAt index => cases h

/-! ### Answers to terminals -/

/-- The answers that a request can have: the one for no rows, and anything that is held to
the type promised. -/
def Request.CanGive (request : Request β σ) (v : Value) : Prop :=
  request.aggregate.ofNoRows request.resultTy = .ok v ∨
    ∃ w, coerceResult request.resultTy w = .ok v

namespace Query

variable {b : Backend β σ} {token : Token} {q : Query β σ} {t : Terminal} {v : Value}
  {request : Request β σ}

theorem execute_canGive (h : (q.execute b t).outcome = .ok v) :
    ∃ request, q.rewrite t = .ok request ∧ request.CanGive v := by
  cases hresolve : q.resolve t with
  | error e =>
    rw [execute, hresolve] at h
    cases h
  | ok resolution =>
    rw [execute, hresolve] at h
    obtain ⟨request, hrewrite, rfl | ⟨u, rfl, hu⟩⟩ := resolve_eq_ok hresolve
    · obtain ⟨w, -, hw⟩ := Outcome.bind_eq_ok.mp h
      exact ⟨request, hrewrite, .inr ⟨w, hw⟩⟩
    · exact ⟨request, hrewrite, .inl (Except.ok.inj h ▸ hu)⟩

/-- Whatever a request can give is of the type that its terminal promises. -/
theorem canGive_admits (h : q.rewrite t = .ok request) (hv : request.CanGive v) :
    (t.resultTy request.query.elementTy).admits v := by
  obtain ⟨r, -, -, rfl⟩ := rewrite_eq_ok.mp h
  rcases hv with hnone | ⟨w, hw⟩
  · exact Aggregate.ofNoRows_admits hnone
  · exact coerceResult_admits hw

/-- An answer is of the type that its terminal promises, over any backend. -/
theorem execute_admits (h : (q.execute b t).outcome = .ok v) : ∃ request,
    q.rewrite t = .ok request ∧ (t.resultTy request.query.elementTy).admits v := by
  obtain ⟨request, hrewrite, hv⟩ := execute_canGive h
  exact ⟨request, hrewrite, canGive_admits hrewrite hv⟩

/-- An answer that was waited for is of the type that its terminal promises. -/
theorem executeLater_admits (h : (q.executeLater b token t).outcome = .ok v) : ∃ request,
    q.rewrite t = .ok request ∧ (t.resultTy request.query.elementTy).admits v := by
  rw [executeLater_eq] at h
  exact execute_admits h

end Query

/-! ### Typed shortcuts -/

/-- The values of a type are those that `wrap` makes of plain ones, which are read back. -/
structure OfValue.Reads {α : Type} [OfValue α] (ty : Ty) (wrap : α → Value) : Prop where
  exists_wrap : ∀ {v : Value}, ty.admits v → ∃ a, v = wrap a
  ofValue_wrap : ∀ a, OfValue.ofValue (wrap a) = .ok a

namespace OfValue.Reads

theorem int32 : Reads .int32 Value.int32 where
  exists_wrap {v} h := by
    cases v with
    | int32 n => exact ⟨n, rfl⟩
    | _ => cases h
  ofValue_wrap _ := rfl

theorem int64 : Reads .int64 Value.int64 where
  exists_wrap {v} h := by
    cases v with
    | int64 n => exact ⟨n, rfl⟩
    | _ => cases h
  ofValue_wrap _ := rfl

theorem bool : Reads .bool Value.bool where
  exists_wrap {v} h := by
    cases v with
    | bool flag => exact ⟨flag, rfl⟩
    | _ => cases h
  ofValue_wrap _ := rfl

end OfValue.Reads

namespace Query

variable {b : Backend β σ} {q : Query β σ} {t : Terminal} {v : Value}

/-- Where a terminal promises a type whatever the rows are, a plain type that reads the values
of the promised one back reads the answer. -/
theorem executeAs_of_promise {α : Type} [OfValue α] {ty : Ty} {wrap : α → Value}
    (hreads : OfValue.Reads ty wrap) (hty : ∀ element, t.resultTy element = ty)
    (h : (q.execute b t).outcome = .ok v) :
    ∃ a, v = wrap a ∧ (q.executeAs α b t).outcome = .ok a := by
  obtain ⟨request, -, hv⟩ := execute_admits h
  rw [hty] at hv
  obtain ⟨a, rfl⟩ := hreads.exists_wrap hv
  refine ⟨a, rfl, ?_⟩
  rw [executeAs, Run.andThen, h]
  exact hreads.ofValue_wrap a

/-- Over a backend of which nothing is known, an answer is of the type that its terminal
promises for the rows of the rewritten query, and a typed shortcut hands the answer out
wherever there is one. -/
theorem answers_as_promised (b : Backend β σ) (q : Query β σ) :
    (∀ t v, (q.execute b t).outcome = .ok v → ∃ request,
      q.rewrite t = .ok request ∧ (t.resultTy request.query.elementTy).admits v) ∧
      (∀ v, (q.execute b (.count none)).outcome = .ok v →
        ∃ n, v = .int32 n ∧ (q.count b).outcome = .ok n) ∧
      (∀ v, (q.execute b (.longCount none)).outcome = .ok v →
        ∃ n, v = .int64 n ∧ (q.longCount b).outcome = .ok n) ∧
      (∀ v, (q.execute b (.any none)).outcome = .ok v →
        ∃ flag, v = .bool flag ∧ (q.any b).outcome = .ok flag) ∧
      (∀ p v, (q.execute b (.all p)).outcome = .ok v →
        ∃ flag, v = .bool flag ∧ (q.all b p).outcome = .ok flag) ∧
      (∀ u v, (q.execute b (.contains u)).outcome = .ok v →
        ∃ flag, v = .bool flag ∧ (q.contains b u).outcome = .ok flag) := by
  refine ⟨fun t v h => execute_admits h, fun v h => ?_, fun v h => ?_, fun v h => ?_,
    fun p v h => ?_, fun u v h => ?_⟩
  · exact executeAs_of_promise .int32 (fun _ => rfl) h
  · exact executeAs_of_promise .int64 (fun _ => rfl) h
  · exact executeAs_of_promise .bool (fun _ => rfl) h
  · exact executeAs_of_promise .bool (fun _ => rfl) h
  · exact executeAs_of_promise .bool (fun _ => rfl) h

/-- A backend that gives a wide 7 for every aggregate: it is handed out as a narrow count, as a
least row of wide integers, and as an average in the precision that goes with the rows, and
refused as a truth value. -/
theorem answers_as_promised_sevens :
    let p : Producer Unit Unit :=
      ⟨fun _ => "sevens", fun _ => false, fun _ => .ok [], fun _ _ => none⟩
    let b : Backend Unit Unit :=
      ⟨p, fun _ _ => .ofOutcome (.ok (.int64 7)), fun _ _ _ => .ofOutcome (.ok (.int64 7))⟩
    let Answers (q : Query Unit Unit) (t : Terminal) (v : Value) : Prop :=
      (q.execute b t).outcome = .ok v ∧ ∃ request, q.rewrite t = .ok request ∧
        (t.resultTy request.query.elementTy).admits v
    let wide : Query Unit Unit := .ofBackend () .int64
    let single : Query Unit Unit := .ofBackend () .float32
    (Answers wide (.count none) (.int32 7) ∧ (wide.count b).outcome = .ok 7) ∧
      Answers wide (.min none) (.int64 7) ∧
      Answers wide (.average none) (.float64 (7 : Int64).toFloat) ∧
      Answers single (.average none) (.float32 (7 : Int64).toFloat32) ∧
      (wide.any b).outcome = .error (.coercionFailure "Int64" "Bool") := by
  intro p b Answers wide single
  have hcount : (wide.execute b (.count none)).outcome = .ok (.int32 7) := rfl
  have hmin : (wide.execute b (.min none)).outcome = .ok (.int64 7) := rfl
  have hwide : (wide.execute b (.average none)).outcome = .ok (.float64 (7 : Int64).toFloat) := rfl
  have hsingle : (single.execute b (.average none)).outcome =
      .ok (.float32 (7 : Int64).toFloat32) := rfl
  obtain ⟨hadmits, hcounted, -⟩ := answers_as_promised b wide
  obtain ⟨n, hn, hanswer⟩ := hcounted _ hcount
  cases hn
  refine ⟨⟨⟨hcount, hadmits _ _ hcount⟩, hanswer⟩, ⟨hmin, hadmits _ _ hmin⟩,
    ⟨hwide, hadmits _ _ hwide⟩, ⟨hsingle, ?_⟩, rfl⟩
  exact (answers_as_promised b single).1 _ _ hsingle

end Query
end SeqQuery
