/-
# Aggregates of a list

An aggregate is answered from the first row of a query, from its first two rows or from all
of them. Over rows in memory these are the head of the list that the query gives, its only
item and its length, and a query that is known to have no rows is answered like an empty
list (`Query.execute_of_request`).

Key definitions: `onlyOr`, `countAs`, `Aggregate.onList`, `Aggregate.Promises`.
Key theorems: `Rows.foldAll_count`, `Memory.read_one`, `Memory.aggregate_onList`,
`Query.execute_of_request`.
-/
import SeqQuery.Proofs.Limits

namespace SeqQuery

variable {σ : Type} {q : Query Memory σ} {rows : List Value}

/-! ### Answers on lists -/

/-- The only item of a list, which must not have more. -/
def onlyOr (absent : Except QueryError Value) : List Value → Except QueryError Value
  | [] => absent
  | [v] => .ok v
  | _ :: _ :: _ => .error .multipleResults

/-- A number of rows as a value of an integer type, if it fits. -/
def countAs (ty : Ty) (n : Nat) : Except QueryError Value :=
  if Nat.pow 2 63 ≤ n then .error (.coercionFailure "count" "Int64")
  else if ty = .int64 then .ok (.int64 (Int64.ofNat n))
  else if n < Nat.pow 2 31 then .ok (.int32 (Int32.ofNat n))
  else .error (.coercionFailure "Int64" "Int32")

/-- The answer of an aggregate on a list, if it is one that asks for rows or their number.
The type is that of the answer. -/
def Aggregate.onList (ty : Ty) (rows : List Value) :
    Aggregate → Option (Except QueryError Value)
  | .first => some (rows.head?.elim (.error .emptyResult) .ok)
  | .firstOrDefault => some (rows.head?.elim (.ok ty.zero) .ok)
  | .single => some (onlyOr (.error .emptyResult) rows)
  | .singleOrDefault => some (onlyOr (.ok ty.zero) rows)
  | .count => some (countAs ty rows.length)
  | .any => some (.ok (.bool !rows.isEmpty))
  | .notAny => some (.ok (.bool rows.isEmpty))
  | .average | .minimum | .maximum | .sum => none

/-- Whether a type is one in which an aggregate of rows can be promised. -/
def Aggregate.Promises (element ty : Ty) : Aggregate → Prop
  | .first | .firstOrDefault | .single | .singleOrDefault => ty = element
  | .count => ty = .int32 ∨ ty = .int64
  | .any | .notAny => ty = .bool
  | .average | .minimum | .maximum | .sum => False

theorem onlyOr_take (absent : Except QueryError Value) : ∀ rows : List Value,
    onlyOr absent (rows.take 2) = onlyOr absent rows
  | [] => rfl
  | [_] => rfl
  | _ :: _ :: _ => rfl

/-! ### Readers -/

theorem fits_natCast (bits n : Nat) : fits bits n = decide (n < Nat.pow 2 (bits - 1)) := by
  rw [Bool.eq_iff_iff]
  simp only [fits, Bool.and_eq_true, decide_eq_true_eq]
  omega

namespace Rows

theorem first_outcome : ∀ rows : List Value, (first (rows.map .ok)).outcome = .ok rows.head?
  | [] => rfl
  | _ :: _ => rfl

theorem only_outcome (absent : Except QueryError Value) : ∀ rows : List Value,
    (only (rows.map .ok)).outcome.bind (Producer.rowOr absent) = onlyOr absent rows
  | [] => rfl
  | [_] => rfl
  | _ :: _ :: _ => rfl

/-- Counting rows one by one ends in an error as soon as there are more than 64 bits hold. -/
theorem foldAll_count (ty : Ty) : ∀ (rows : List Value) (t : Tally) (n : Nat), t.count = n →
    n < Nat.pow 2 63 → (foldAll (Tally.add .count ty) t (rows.map .ok)).outcome =
      if n + rows.length < Nat.pow 2 63 then .ok { t with count := ↑(n + rows.length) }
      else .error (.coercionFailure "count" "Int64")
  | [], t, n, ht, hn => by
    obtain ⟨count, integers, floats⟩ := t
    obtain rfl : count = n := ht
    rw [List.length_nil, Nat.add_zero, if_pos hn]
    rfl
  | v :: rows, t, n, ht, hn => by
    have hnext : t.count + 1 = ((n + 1 : Nat) : Int) := by
      rw [ht, Int.natCast_succ]
    have hadd : Tally.add .count ty t v =
        if n + 1 < Nat.pow 2 63 then .ok { t with count := ↑(n + 1) }
        else .error (.coercionFailure "count" "Int64") := by
      rw [Tally.add, Tally.within64, hnext, fits_natCast]
      by_cases hlt : n + 1 < Nat.pow 2 63
      · rw [decide_eq_true hlt, if_pos rfl, if_pos hlt]
        rfl
      · rw [decide_eq_false hlt, if_neg Bool.false_ne_true, if_neg hlt]
        rfl
    rw [List.map_cons, foldAll, hadd, List.length_cons]
    by_cases hlt : n + 1 < Nat.pow 2 63
    · have ih := foldAll_count ty rows { t with count := ↑(n + 1) } (n + 1) rfl hlt
      rw [if_pos hlt]
      show (foldAll _ _ _).outcome = _
      rw [ih, Nat.add_assoc, Nat.add_comm 1]
    · rw [if_neg hlt, if_neg (by omega)]

end Rows

/-! ### Numbers of rows -/

/-- An integer survives its conversion to 32 bits exactly when it fits there. -/
theorem toInt64_toInt32_ofInt {n : Int} (hn : fits 64 n) :
    (Int64.ofInt n).toInt32.toInt64 = Int64.ofInt n ↔ fits 32 n := by
  have hpow : (Nat.pow 2 (64 - 1) : Int) = 2 ^ 63 := rfl
  have hpow' : (Nat.pow 2 (32 - 1) : Int) = 2147483648 := rfl
  simp only [fits, Bool.and_eq_true, decide_eq_true_eq, hpow, hpow'] at hn ⊢
  rw [← Int64.toInt_inj, Int32.toInt_toInt64, Int64.toInt_toInt32,
    Int64.toInt_ofInt_of_le hn.2 hn.1, Int.bmod_def]
  split <;> omega

/-- A count survives its conversion to 32 bits exactly when it fits there. -/
theorem toInt64_toInt32_ofNat {n : Nat} (hn : n < Nat.pow 2 63) :
    (Int64.ofInt n).toInt32.toInt64 = Int64.ofInt n ↔ n < Nat.pow 2 31 := by
  rw [toInt64_toInt32_ofInt (by rw [fits_natCast, decide_eq_true hn]), fits_natCast,
    decide_eq_true_iff]

theorem coerce_count {ty : Ty} (hty : ty = .int32 ∨ ty = .int64) {n : Nat}
    (hn : n < Nat.pow 2 63) : coerceResult ty (.int64 (Int64.ofInt n)) = countAs ty n := by
  rw [countAs, if_neg (Nat.not_le.mpr hn)]
  rcases hty with rfl | rfl
  · show (if (Int64.ofInt n).toInt32.toInt64 = Int64.ofInt n then
        Except.ok (Value.int32 (Int64.ofInt n).toInt32) else .error _).mapError QueryError.ofValue = _
    by_cases h : n < Nat.pow 2 31
    · rw [if_pos ((toInt64_toInt32_ofNat hn).mpr h), if_neg (by decide), if_pos h,
        Int64.toInt32_ofInt]
      rfl
    · rw [if_neg (mt (toInt64_toInt32_ofNat hn).mp h), if_neg (by decide), if_neg h]
      rfl
  · rfl

/-! ### Answers of the promised type -/

theorem coerceResult_eq {ty : Ty} {v : Value} (h : ty.admits v) : coerceResult ty v = .ok v := by
  rw [coerceResult, if_pos h]

theorem coerce_rowOr {ty : Ty} {absent : Except QueryError Value} {row : Option Value}
    (habsent : absent.bind (coerceResult ty) = absent) (hrow : ∀ v, row = some v → ty.admits v) :
    (Producer.rowOr absent row).bind (coerceResult ty) = row.elim absent .ok := by
  cases row with
  | none => exact habsent
  | some v => exact coerceResult_eq (hrow v rfl)

theorem coerce_onlyOr {ty : Ty} {absent : Except QueryError Value}
    (habsent : absent.bind (coerceResult ty) = absent) (hrows : ∀ v ∈ rows, ty.admits v) :
    (onlyOr absent rows).bind (coerceResult ty) = onlyOr absent rows := by
  match rows with
  | [] => exact habsent
  | [v] => exact coerceResult_eq (hrows v List.mem_cons_self)
  | _ :: _ :: _ => rfl

/-! ### Reading from a query -/

namespace Memory

/-- Reading one row of a query gives the head of its list. -/
theorem read_one {α : Type} (h : q.backend.run q = .ok rows)
    (f : Option Value → Except QueryError α) :
    ((Memory.producer.read ((q.takeRows 1).of q).keepRepeats Rows.first).andThen f).outcome =
      f rows.head? := by
  obtain ⟨n, hn, htake⟩ := q.takeRows_take 1
  rw [Run.andThen, read_outcome, run_keepRepeats hn htake (run_takeRows h 1)]
  show (Rows.first _).outcome.bind f = _
  rw [Rows.first_outcome]
  cases rows <;> rfl

theorem read_two (h : q.backend.run q = .ok rows) (absent : Except QueryError Value) :
    ((Memory.producer.read ((q.takeRows 2).of q) Rows.only).andThen
      (Producer.rowOr absent)).outcome = onlyOr absent rows := by
  rw [Run.andThen, read_outcome, run_takeRows h 2]
  show (Rows.only _).outcome.bind _ = _
  rw [Rows.only_outcome, onlyOr_take]

theorem read_count (h : q.backend.run q = .ok rows) (ty : Ty) :
    ((Memory.producer.read q (Rows.foldAll (Tally.add .count ty) .zero)).andThen
        (Tally.finish .count ty)).outcome =
      if rows.length < Nat.pow 2 63 then .ok (.int64 (Int64.ofInt rows.length))
      else .error (.coercionFailure "count" "Int64") := by
  have hcount := Rows.foldAll_count ty rows .zero 0 rfl (by decide)
  rw [Nat.zero_add] at hcount
  rw [Run.andThen, read_outcome, h]
  show (Rows.foldAll _ _ _).outcome.bind _ = _
  rw [hcount]
  split <;> rfl

theorem shortCircuit?_eq_none (hempty : q.isEmpty = false) (a : Aggregate) (ty : Ty) :
    q.shortCircuit? a ty = none := by
  rw [Query.shortCircuit?, hempty, if_neg Bool.false_ne_true]

/-- An aggregate of a query that may have rows is answered by reading them, unless rows
would have to be sorted. -/
theorem aggregate_eq (hempty : q.isEmpty = false) {a : Aggregate} (hmin : a ≠ .minimum)
    (hmax : a ≠ .maximum) : Memory.backend.aggregate q a = Memory.producer.readAggregate q a := by
  show Producer.answerBy (Memory.producer.answer (Memory.producer.readAggregate · .first) · .first)
    (Memory.producer.readAggregate · a) q a = _
  have hfirst : q.asFirst? a = .ok none := by
    cases a <;> first | rfl | contradiction
  simp only [Producer.answerBy, shortCircuit?_eq_none hempty, hfirst]

/-- An aggregate of a query is answered as on the list that the query gives, in the type
that is promised. -/
theorem aggregate_onList (hempty : q.isEmpty = false) (h : q.backend.run q = .ok rows)
    {a : Aggregate} (hscans : a = .count → q.backend.allowsFullScans)
    (hrows : ∀ v ∈ rows, q.elementTy.admits v) {ty : Ty} (hty : a.Promises q.elementTy ty)
    {answer : Except QueryError Value} (hanswer : a.onList ty rows = some answer) :
    (Memory.backend.aggregate q a).outcome.bind (coerceResult ty) = answer := by
  have hmin : a ≠ .minimum := by rintro rfl; cases hty
  have hmax : a ≠ .maximum := by rintro rfl; cases hty
  rw [aggregate_eq hempty hmin hmax]
  have hzero : (Except.ok q.elementTy.zero).bind (coerceResult q.elementTy) =
      .ok q.elementTy.zero := coerceResult_eq (Ty.admits_zero _)
  have hhead : ∀ v, rows.head? = some v → q.elementTy.admits v := fun v hv =>
    hrows v (List.mem_of_mem_head? hv)
  cases a with
  | first =>
    obtain rfl := hty
    obtain rfl := Option.some.inj hanswer
    show ((Memory.producer.read _ Rows.first).andThen (Producer.rowOr _)).outcome.bind _ = _
    rw [read_one h]
    exact coerce_rowOr rfl hhead
  | firstOrDefault =>
    obtain rfl := hty
    obtain rfl := Option.some.inj hanswer
    show ((Memory.producer.read _ Rows.first).andThen (Producer.rowOr _)).outcome.bind _ = _
    rw [read_one h]
    exact coerce_rowOr hzero hhead
  | single =>
    obtain rfl := hty
    obtain rfl := Option.some.inj hanswer
    show ((Memory.producer.read _ Rows.only).andThen (Producer.rowOr _)).outcome.bind _ = _
    rw [read_two h]
    exact coerce_onlyOr rfl hrows
  | singleOrDefault =>
    obtain rfl := hty
    obtain rfl := Option.some.inj hanswer
    show ((Memory.producer.read _ Rows.only).andThen (Producer.rowOr _)).outcome.bind _ = _
    rw [read_two h]
    exact coerce_onlyOr hzero hrows
  | any | notAny =>
    obtain rfl := hty
    obtain rfl := Option.some.inj hanswer
    show ((Memory.producer.read _ Rows.first).andThen _).outcome.bind _ = _
    rw [read_one h]
    cases rows <;> rfl
  | count =>
    obtain rfl := Option.some.inj hanswer
    have hread : Memory.producer.readAggregate q .count =
        (Memory.producer.read q (Rows.foldAll (Tally.add .count q.elementTy) .zero)).andThen
          (Tally.finish .count q.elementTy) := if_pos (hscans rfl)
    rw [hread, read_count h]
    split
    · next hlt => exact coerce_count hty hlt
    · next hge =>
      rw [countAs, if_pos (Nat.not_lt.mp hge)]
      rfl
  | _ => cases hty

end Memory

/-! ### Terminals -/

namespace Query

/-- An accepted terminal is answered by its request, which needs no backend where the query
of the request is known to have no rows. -/
theorem execute_eq {t : Terminal} {request : Request Memory σ} (h : q.rewrite t = .ok request) :
    (q.execute Memory.backend t).outcome =
      if request.query.isEmpty then request.aggregate.ofNoRows request.resultTy
      else (Memory.backend.aggregate request.query request.aggregate).outcome.bind
        (coerceResult request.resultTy) := by
  rw [execute, resolve, h, Outcome.ok_bind, shortCircuit?]
  by_cases hempty : request.query.isEmpty
  · rw [if_pos hempty, if_pos hempty]
    cases request.aggregate.ofNoRows request.resultTy <;> rfl
  · rw [if_neg hempty, if_neg hempty]
    rfl

/-- No rows are answered like an empty list. -/
theorem ofNoRows_onList {a : Aggregate} {element ty : Ty} (hty : a.Promises element ty)
    {answer : Except QueryError Value} (hanswer : a.onList ty [] = some answer) :
    a.ofNoRows ty = answer := by
  cases a with
  | count =>
    obtain rfl := Option.some.inj hanswer
    rcases hty with rfl | rfl <;> rfl
  | average | minimum | maximum | sum => cases hty
  | _ =>
    obtain rfl := Option.some.inj hanswer
    rfl

/-- An accepted terminal is answered as on the list that the query of its request gives. -/
theorem execute_of_request {t : Terminal} {request : Request Memory σ}
    (h : q.rewrite t = .ok request)
    (hrows : (request.query.toValues Memory.backend).outcome = .ok rows)
    (hscans : request.aggregate = .count → request.query.backend.allowsFullScans)
    (hadmits : ∀ v ∈ rows, request.query.elementTy.admits v)
    (hty : request.aggregate.Promises request.query.elementTy request.resultTy)
    {answer : Except QueryError Value}
    (hanswer : request.aggregate.onList request.resultTy rows = some answer) :
    (q.execute Memory.backend t).outcome = answer := by
  rw [execute_eq h]
  rw [Memory.toValues_eq_ok] at hrows
  split at hrows
  · next hempty =>
    subst hrows
    rw [if_pos hempty]
    exact ofNoRows_onList hty hanswer
  · next hempty =>
    rw [if_neg hempty]
    exact Memory.aggregate_onList (Bool.eq_false_iff.mpr hempty) hrows hscans hadmits hty hanswer

/-! ### Sound queries -/

variable {known : Param → Prop} {m : Memory}

/-- A query gives deep instances of the type of its rows. -/
theorem SoundFor.toValues_deep (h : q.SoundFor known m) (hm : m.IsPlain)
    (hrows : (q.toValues Memory.backend).outcome = .ok rows) :
    ∀ v ∈ rows, q.elementTy.admitsDeep v := by
  rw [Memory.toValues_eq_ok] at hrows
  split at hrows
  · subst hrows
    exact nofun
  · obtain ⟨kept, sorted, all, hyields, rfl⟩ := Yields.of_run hm h hrows
    exact fun v hv => hyields.deep hm.floatFree v (Memory.mem_of_mem_window hv)

/-- An accepted terminal, whose request is for a sound query, is answered as on the list
that that query gives. -/
theorem SoundFor.execute_of_request {q' : Query Memory σ} (h : q'.SoundFor known m)
    (hm : m.IsPlain) {t : Terminal} {request : Request Memory σ}
    (hrewrite : q.rewrite t = .ok request) (hquery : request.query = q')
    (hrows : (q'.toValues Memory.backend).outcome = .ok rows)
    (hscans : request.aggregate = .count → m.allowsFullScans)
    (hty : request.aggregate.Promises q'.elementTy request.resultTy)
    {answer : Except QueryError Value}
    (hanswer : request.aggregate.onList request.resultTy rows = some answer) :
    (q.execute Memory.backend t).outcome = answer := by
  subst hquery
  have hbackend : request.query.backend = m := h.backend
  refine Query.execute_of_request hrewrite hrows ?_ ?_ hty hanswer
  · rw [hbackend]
    exact hscans
  · exact fun v hv => Ty.admits_of_admitsDeep (h.toValues_deep hm hrows v hv)

end Query
end SeqQuery
