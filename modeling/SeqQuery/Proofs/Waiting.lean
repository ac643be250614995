/-
# Waiting for rows gives what reading them gives

Blocking and suspendable operations have loops of their own, with the token looked at in
different places. While nobody cancels, each suspendable reader takes the same items as its
blocking twin and ends alike; only the list of all rows is put together from the other end
(`Rows.awaitFold_toValues`). All else is built from the readers in the same way, the detour
through the first row of a sorted query included (`Producer.toBackend_waiting_live`).

A terminal that is waited for is one that is executed over a backend whose aggregates are
those waited for (`Query.executeLater_eq`): what is resolved without the backend does not
look at the token, and a cancelled operation has a backend that refuses everything.

Key definitions: `Backend.waiting`.
Key theorems: `Rows.awaitFold_live`, `Rows.awaitFold_toValues`, `Query.executeLater_eq`,
`Producer.toBackend_waiting_live`, `Query.executeLater_agrees`.
-/
import SeqQuery.Query.Execute

namespace SeqQuery

variable {α β σ : Type}

/-! ### Readers -/

namespace Rows

@[simp] theorem awaitFirst_live (items : List Item) : awaitFirst .live items = first items := by
  match items with
  | [] => rfl
  | .ok v :: rest => rfl
  | .error e :: rest => rfl

@[simp] theorem awaitOnly_live (items : List Item) : awaitOnly .live items = only items := by
  match items with
  | [] => rfl
  | .error e :: rest => rfl
  | [.ok v] => rfl
  | .ok v :: .ok w :: rest => rfl
  | .ok v :: .error e :: rest => rfl

@[simp] theorem awaitFold_live (step : α → Value → Except QueryError α) :
    ∀ (items : List Item) (acc : α), awaitFold .live step acc items = foldAll step acc items
  | [], _ => by rw [awaitFold, foldAll]
  | .error e :: rest, acc => by
    rw [awaitFold, foldAll]
    rfl
  | .ok v :: rest, acc => by
    have hbind : (Except.ok v : Item).bind (step acc) = step acc v := rfl
    rw [awaitFold, foldAll, hbind]
    cases step acc v with
    | error e => rfl
    | ok next => exact congrArg Reading.after (awaitFold_live step rest next)

/-- A list that grows at its end is the one that grew at its front, turned around. -/
theorem awaitFold_toValues : ∀ (items : List Item) (before : List Value),
    awaitFold .live (fun before v => .ok (before ++ [v])) before.reverse items =
      toValues before items
  | [], before => by rw [awaitFold, toValues]
  | .error e :: rest, before => by
    rw [awaitFold, toValues]
    rfl
  | .ok v :: rest, before => by
    have hnext : (Except.ok v : Item).bind (fun v => .ok (before.reverse ++ [v])) =
        .ok (v :: before).reverse := by
      rw [List.reverse_cons]
      rfl
    rw [awaitFold, toValues, hnext]
    exact congrArg Reading.after (awaitFold_toValues rest (v :: before))

@[simp] theorem awaitValues_live (items : List Item) :
    awaitValues .live items = toValues [] items :=
  awaitFold_toValues items []

/-- Whoever has cancelled takes nothing. -/
@[simp] theorem awaitValues_cancelled (items : List Item) :
    awaitValues .cancelled items = ⟨.error .cancelled, 0⟩ := by
  rw [awaitValues, awaitFold]

end Rows

/-! ### Backends -/

/-- The backend whose aggregates are those waited for. -/
def Backend.waiting (b : Backend β σ) (token : Token) : Backend β σ where
  toProducer := b.toProducer
  aggregate :=
    match token with
    | .live => b.aggregateLater .live
    | .cancelled => fun _ _ => .ofOutcome (.error .cancelled)
  aggregateLater := b.aggregateLater

namespace Producer

variable (p : Producer β σ)

theorem awaitAggregate_live : p.awaitAggregate .live = p.readAggregate := by
  have hfirst : Rows.awaitFirst .live = Rows.first := funext Rows.awaitFirst_live
  have honly : Rows.awaitOnly .live = Rows.only := funext Rows.awaitOnly_live
  have hall : (Rows.awaitFold .live : _ → Tally → _) = Rows.foldAll :=
    funext fun step => funext fun acc => funext fun items => Rows.awaitFold_live step items acc
  rw [awaitAggregate, readAggregate, hfirst, honly, hall]

/-- Over the rows of a producer an aggregate that is waited for is the one that is read. -/
theorem toBackend_waiting_live : p.toBackend.waiting .live = p.toBackend := by
  have hlater : p.toBackend.aggregateLater .live = p.toBackend.aggregate := by
    funext q aggregate
    simp only [toBackend, answerLater, answer, awaitAggregate_live]
  rw [Backend.waiting, hlater]

end Producer

/-! ### Terminals and lists -/

namespace Query

variable {q : Query β σ} {t : Terminal} {request : Request β σ}

/-- Waiting for the answer to a terminal is executing it over aggregates that are waited
for. -/
theorem executeLater_eq (b : Backend β σ) (token : Token) (q : Query β σ) (t : Terminal) :
    q.executeLater b token t = q.execute (b.waiting token) t := by
  unfold executeLater execute
  cases token <;> rfl

theorem execute_of_ask (b : Backend β σ) (h : q.resolve t = .ok (.ask request)) :
    q.execute b t =
      (b.aggregate request.query request.aggregate).andThen (coerceResult request.resultTy) := by
  rw [execute, h]

/-- What is resolved without the backend is the same over every backend. -/
theorem execute_of_not_ask (h : ∀ request, q.resolve t ≠ .ok (.ask request))
    (b b' : Backend β σ) : q.execute b t = q.execute b' t := by
  unfold execute
  split
  · rfl
  · rfl
  · next request hask => exact absurd hask (h request)

theorem toValuesLater_live (b : Backend β σ) (q : Query β σ) :
    q.toValuesLater b .live = q.toValues b := by
  rw [toValuesLater, toValues, funext Rows.awaitValues_live]

theorem toValuesLater_cancelled (b : Backend β σ) (q : Query β σ) :
    (q.toValuesLater b .cancelled).outcome =
      if q.isEmpty then .ok [] else b.iterate q >>= fun _ => .error .cancelled := by
  rw [toValuesLater]
  split
  · rfl
  · rw [Producer.read]
    cases b.iterate q with
    | error e => rfl
    | ok items => exact congrArg Reading.outcome (Rows.awaitValues_cancelled items)

/-- Over the rows of a producer, terminals and lists that are waited for end as those that
are read, and take the same items. If the operation was cancelled beforehand, a terminal is
answered as far as that needs no backend; a list is empty where that is known, and else ends
in the error of the iteration or in being cancelled. -/
theorem executeLater_agrees (p : Producer β σ) (q : Query β σ) :
    (∀ t, q.executeLater p.toBackend .live t = q.execute p.toBackend t) ∧
      q.toValuesLater p.toBackend .live = q.toValues p.toBackend ∧
      (∀ t, (∀ request, q.resolve t ≠ .ok (.ask request)) →
        q.executeLater p.toBackend .cancelled t = q.execute p.toBackend t) ∧
      (∀ t request, q.resolve t = .ok (.ask request) →
        q.executeLater p.toBackend .cancelled t = .ofOutcome (.error .cancelled)) ∧
      (q.toValuesLater p.toBackend .cancelled).outcome =
        if q.isEmpty then .ok [] else p.iterate q >>= fun _ => .error .cancelled := by
  refine ⟨fun t => ?_, toValuesLater_live _ q, fun t h => ?_, fun t request h => ?_,
    toValuesLater_cancelled _ q⟩
  · rw [executeLater_eq, p.toBackend_waiting_live]
  · rw [executeLater_eq]
    exact execute_of_not_ask h _ _
  · rw [executeLater_eq, execute_of_ask _ h]
    rfl

/-- A row and an error after it: a single row is waited for, given up, and given up where no
rows are left, and so are the rows. -/
theorem executeLater_agrees_single :
    let p : Producer Unit Unit := ⟨fun _ => "rows", fun _ => false,
      fun _ => .ok [.ok (.int32 7), .error (.backend "lost")], fun _ _ => none⟩
    let q : Query Unit Unit := .ofBackend () .int32
    let nothing : Query Unit Unit := (q.takeRows 0).of q
    let single : Terminal := .singleOrDefault none
    (∃ request, q.resolve single = .ok (.ask request)) ∧
      (q.executeLater p.toBackend .live single).outcome = .error (.backend "lost") ∧
      q.executeLater p.toBackend .cancelled single = .ofOutcome (.error .cancelled) ∧
      nothing.resolve single = .ok (.done (.int32 0)) ∧
      nothing.executeLater p.toBackend .cancelled single = .ofOutcome (.ok (.int32 0)) ∧
      (q.toValuesLater p.toBackend .live).outcome = .error (.backend "lost") ∧
      (q.toValuesLater p.toBackend .cancelled).outcome = .error .cancelled := by
  intro p q nothing single
  have hask : ∃ request, q.resolve single = .ok (.ask request) := ⟨_, rfl⟩
  have hdone : nothing.resolve single = .ok (.done (.int32 0)) := rfl
  obtain ⟨hlive, hvalues, -, hcancelled, hlist⟩ := executeLater_agrees p q
  obtain ⟨-, -, hdecided, -, -⟩ := executeLater_agrees p nothing
  refine ⟨hask, ?_, ?_, hdone, ?_, ?_, ?_⟩
  · rw [hlive single]
    rfl
  · obtain ⟨request, h⟩ := hask
    exact hcancelled single request h
  · have hnever : ∀ request, nothing.resolve single ≠ .ok (.ask request) := by
      intro request h
      cases hdone.symm.trans h
    exact hdecided single hnever
  · rw [hvalues]
    rfl
  · exact hlist

end Query
end SeqQuery
