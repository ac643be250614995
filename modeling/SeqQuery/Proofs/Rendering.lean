/-
# The text of a query is that of the query that runs

An aggregate is answered from rows by iterating one query, or it is refused. Which query
that is depends on the query, the aggregate and whether full scans are allowed, and on no
row (`Producer.iterated?`). Blocking and waiting runs iterate it
(`Producer.aggregate_iterates`, `Producer.aggregateLater_iterates`), and rendering looks
for its text (`Backend.renderAggregate?_eq`). So where a backend can write queries, but not
aggregates of them, the text of an aggregate is that of the query that runs for it, or
names the backend if none runs.

This is so for all aggregates but three. Rendering does not look for the query that is
read for a sum or an average, and it asks for the text of another aggregate where it is to
write that there are no rows, so their text always names the backend
(`Query.render_unshown`).

Key definitions: `Producer.rowsFor?`, `Producer.iterated?`, `Run.Iterates`,
`Producer.WritesRows`.
Key theorems: `Producer.aggregate_iterates`, `Producer.aggregateLater_iterates`,
`Backend.renderAggregate?_eq`, `Query.render_shows_iterated`, `Query.render_unshown`.
-/
import SeqQuery.Proofs.Steps
import SeqQuery.Query.Render

namespace SeqQuery

variable {α β σ : Type} {q r : Query β σ} {a : Aggregate}

/-! ### Queries with rows -/

namespace Query

/-- A query stays one with rows when it is sorted by its rows. -/
theorem isEmpty_of_orderByRows {ascending : Bool} (hrows : q.isEmpty = false)
    (h : q.keepRepeats.orderByRows ascending = .ok r) : r.isEmpty = false := by
  obtain ⟨revision, hrevision, h⟩ := Outcome.bind_eq_ok.mp h
  obtain rfl := Except.ok.inj h
  have hkept : q.keepRepeats.source.isEmpty = false := by
    rw [source_keepRepeats]
    exact hrows
  rcases Source.orderBy_eq_ok hrevision with ⟨rfl, -⟩ | ⟨-, rfl⟩
  · exact hkept
  · exact hkept

/-- A query is sorted for the least and the greatest row only. -/
theorem extreme_of_asFirst? (h : q.asFirst? a ≠ .ok none) : a = .minimum ∨ a = .maximum := by
  cases a with
  | minimum => exact .inl rfl
  | maximum => exact .inr rfl
  | _ => exact absurd rfl h

theorem isEmpty_of_asFirst? (hrows : q.isEmpty = false) (h : q.asFirst? a = .ok (some r)) :
    r.isEmpty = false := by
  have hsorted (ascending : Bool) (h : (if q.projection.isNone && q.elementTy.record?.isSome
      then .ok none else (q.keepRepeats.orderByRows ascending).map some) = .ok (some r)) :
      r.isEmpty = false := by
    split at h
    · cases h
    · obtain ⟨_, h, ⟨⟩⟩ := Outcome.map_eq_ok.mp h
      exact isEmpty_of_orderByRows hrows h
  cases a with
  | minimum => exact hsorted true h
  | maximum => exact hsorted false h
  | _ => cases h

end Query

/-! ### The query that is iterated -/

/-- A run iterates a query, or it iterates none and is refused. -/
def Run.Iterates (run : Run β σ α) : Option (Query β σ) → Prop
  | some q => ∃ taken, run.scans = [⟨q, taken⟩]
  | none => run.scans = [] ∧ ∃ e, run.outcome = .error e

theorem Run.Iterates.andThen {γ : Type} {run : Run β σ α} {q? : Option (Query β σ)}
    (h : run.Iterates q?) (f : α → Except QueryError γ) : (run.andThen f).Iterates q? := by
  cases q? with
  | some q => exact h
  | none =>
    obtain ⟨hscans, e, he⟩ := h
    exact ⟨hscans, e, by rw [Run.andThen, he]; rfl⟩

namespace Producer

variable {p : Producer β σ}

/-- The query that is iterated when an aggregate is answered from the rows, if one is. -/
def rowsFor? (p : Producer β σ) (q : Query β σ) : Aggregate → Option (Query β σ)
  | .first | .firstOrDefault | .any | .notAny => some ((q.takeRows 1).of q).keepRepeats
  | .single | .singleOrDefault => some ((q.takeRows 2).of q)
  | .count | .sum | .average => if p.allowsFullScans q.backend then some q else none
  | .minimum | .maximum => none

/-- The query that is iterated for an aggregate of a query with rows, if one is. -/
def iterated? (p : Producer β σ) (q : Query β σ) (a : Aggregate) : Option (Query β σ) :=
  match q.asFirst? a with
  | .error _ => none
  | .ok (some sorted) => p.rowsFor? sorted .first
  | .ok none => p.rowsFor? q a

theorem read_iterates (p : Producer β σ) (q : Query β σ) (reader : List Item → Reading α) :
    (p.read q reader).Iterates (some q) := by
  unfold read
  cases p.iterate q with
  | error e => exact ⟨0, rfl⟩
  | ok items => exact ⟨_, rfl⟩

/-- Whatever the readers, they read the same query. -/
theorem readWith_iterates (p : Producer β σ)
    (first only : List Item → Reading (Option Value))
    (all : (Tally → Value → Except QueryError Tally) → Tally → List Item → Reading Tally)
    (q : Query β σ) (a : Aggregate) :
    (p.readWith first only all q a).Iterates (p.rowsFor? q a) := by
  cases a with
  | first | firstOrDefault | any | notAny | single | singleOrDefault =>
    exact (read_iterates ..).andThen _
  | count | sum | average =>
    simp only [readWith, rowsFor?]
    split
    · exact (read_iterates ..).andThen _
    · exact ⟨rfl, _, rfl⟩
  | minimum | maximum => exact ⟨rfl, _, rfl⟩

/-- Answering through the first row of a sorted query, where there is one, or else
directly. -/
theorem answerBy_iterates {first direct : Query β σ → Run β σ Value}
    (hfirst : ∀ r, r.isEmpty = false → (first r).Iterates (p.rowsFor? r .first))
    (hdirect : (direct q).Iterates (p.rowsFor? q a)) (hrows : q.isEmpty = false) :
    (answerBy first direct q a).Iterates (p.iterated? q a) := by
  unfold answerBy iterated?
  rw [Query.shortCircuit?, if_neg (Bool.eq_false_iff.mp hrows)]
  cases hsorted : q.asFirst? a with
  | error e => exact ⟨rfl, e, rfl⟩
  | ok sorted? =>
    cases sorted? with
    | none => exact hdirect
    | some sorted => exact hfirst sorted (Query.isEmpty_of_asFirst? hrows hsorted)

/-- Answering an aggregate in the way of a backend, with any way to read rows. -/
theorem answers_iterate (read : Query β σ → Aggregate → Run β σ Value)
    (hread : ∀ r a, (read r a).Iterates (p.rowsFor? r a)) (hrows : q.isEmpty = false)
    (a : Aggregate) :
    (answerBy (answerBy (read · .first) (read · .first) · .first) (read · a) q a).Iterates
      (p.iterated? q a) := by
  refine answerBy_iterates (fun r hr => ?_) (hread q a) hrows
  exact answerBy_iterates (fun s _ => hread s .first) (hread r .first) hr

theorem aggregate_iterates (p : Producer β σ) (hrows : q.isEmpty = false) (a : Aggregate) :
    (p.toBackend.aggregate q a).Iterates (p.iterated? q a) :=
  answers_iterate p.readAggregate (fun _ _ => readWith_iterates ..) hrows a

theorem aggregateLater_iterates (p : Producer β σ) (token : Token) (hrows : q.isEmpty = false)
    (a : Aggregate) : (p.toBackend.aggregateLater token q a).Iterates (p.iterated? q a) :=
  answers_iterate (p.awaitAggregate token) (fun _ _ => readWith_iterates ..) hrows a

end Producer

/-! ### The query that is shown -/

/-- The aggregates of which rendering looks for the query that runs. -/
def Aggregate.isShown : Aggregate → Bool
  | .first | .firstOrDefault | .any | .single | .singleOrDefault | .count => true
  | .minimum | .maximum => true
  | .notAny | .sum | .average => false

/-- The producer can write every query, but no aggregate of any. -/
structure Producer.WritesRows (p : Producer β σ) : Prop where
  plain : ∀ q, ∃ text, p.render? q none = some text ∧ text ≠ ""
  aggregate : ∀ q a text, p.render? q (some a) = some text → text = ""

namespace Backend

variable {b : Backend β σ}

theorem ask_plain (hb : b.WritesRows) (q : Query β σ) : b.ask q none = b.render? q none := by
  obtain ⟨text, htext, hne⟩ := hb.plain q
  rw [ask, htext, Option.filter_some, if_pos (by simpa using hne)]

theorem ask_aggregate (hb : b.WritesRows) (q : Query β σ) (a : Aggregate) :
    b.ask q (some a) = none := by
  rw [ask, Option.filter_eq_none_iff]
  intro text htext
  simp [hb.aggregate q a text htext]

theorem renderRead?_eq (ha : a.isShown) (q : Query β σ) :
    b.renderRead? q a = (b.rowsFor? q a).bind (b.ask · none) := by
  cases a with
  | first | firstOrDefault | any | single | singleOrDefault | minimum | maximum => rfl
  | count =>
    simp only [renderRead?, Producer.rowsFor?]
    split <;> rfl
  | notAny | sum | average => cases ha

theorem renderRead?_unshown (hb : b.WritesRows) (ha : ¬ a.isShown) (q : Query β σ) :
    b.renderRead? q a = none := by
  cases a with
  | notAny => exact ask_aggregate hb q .any
  | sum | average => rfl
  | _ => exact absurd rfl ha

theorem renderRead?_of_asFirst? (h : q.asFirst? a ≠ .ok none) : b.renderRead? q a = none := by
  obtain rfl | rfl := Query.extreme_of_asFirst? h <;> rfl

/-- Rendering an aggregate is rendering the query that is iterated for it. -/
theorem renderAggregate?_eq (hb : b.WritesRows) (ha : a.isShown) (q : Query β σ) :
    b.renderAggregate? q a = (b.iterated? q a).bind (b.ask · none) := by
  unfold renderAggregate? Producer.iterated?
  simp only [ask_aggregate hb, Option.none_or]
  cases hsorted : q.asFirst? a with
  | error e => rw [renderRead?_of_asFirst? (by simp [hsorted]), Option.none_or]; rfl
  | ok sorted? =>
    cases sorted? with
    | none => exact renderRead?_eq ha q
    | some sorted => rw [renderRead?_of_asFirst? (by simp [hsorted]), Option.or_none]; rfl

theorem renderAggregate?_unshown (hb : b.WritesRows) (ha : ¬ a.isShown) (q : Query β σ) :
    b.renderAggregate? q a = none := by
  have hdirect : q.asFirst? a = .ok none := by
    by_contra h
    obtain rfl | rfl := Query.extreme_of_asFirst? h <;> exact ha rfl
  unfold renderAggregate?
  simp only [ask_aggregate hb, hdirect, Option.none_or, renderRead?_unshown hb ha]

end Backend

namespace Query

variable {b : Backend β σ}

theorem render_aggregate (b : Backend β σ) (q : Query β σ) (a : Aggregate) :
    q.render b (some a) =
      (b.renderAggregate? q a).getD (a.name ++ ":" ++ b.name q.backend) := rfl

/-- The text of an aggregate is that of the query that a run iterates for it, or names the
backend if the run iterates none. -/
theorem render_of_iterates (hb : b.WritesRows) (ha : a.isShown) {run : Run β σ α}
    (hrun : run.Iterates (b.iterated? q a)) :
    (∃ r taken, run.scans = [⟨r, taken⟩] ∧ b.render? r none = some (q.render b (some a))) ∨
      run.scans = [] ∧ (∃ e, run.outcome = .error e) ∧
        q.render b (some a) = a.name ++ ":" ++ b.name q.backend := by
  rw [render_aggregate, Backend.renderAggregate?_eq hb ha]
  cases hiterated : b.iterated? q a with
  | none =>
    rw [hiterated] at hrun
    exact .inr ⟨hrun.1, hrun.2, rfl⟩
  | some r =>
    rw [hiterated] at hrun
    obtain ⟨taken, hscans⟩ := hrun
    obtain ⟨text, htext, -⟩ := hb.plain r
    refine .inl ⟨r, taken, hscans, ?_⟩
    rw [Option.bind_some, Backend.ask_plain hb, htext, Option.getD_some]

/-- Rendering shows what runs. For a backend that can write queries, but no aggregates of
them, the text of an aggregate is that of the one query that is iterated for it, or the
aggregate is refused without iterating and the text names it and the backend. -/
theorem render_shows_iterated (p : Producer β σ) (hp : p.WritesRows) (q : Query β σ)
    (hrows : q.isEmpty = false) (a : Aggregate) (ha : a.isShown) (token : Token) :
    ∀ run ∈ [p.toBackend.aggregate q a, p.toBackend.aggregateLater token q a],
      (∃ r taken, run.scans = [⟨r, taken⟩] ∧
          p.render? r none = some (q.render p.toBackend (some a))) ∨
        run.scans = [] ∧ (∃ e, run.outcome = .error e) ∧
          q.render p.toBackend (some a) = a.name ++ ":" ++ p.name q.backend := by
  have hb : p.toBackend.WritesRows := hp
  intro run hrun
  refine render_of_iterates hb ha ?_
  obtain rfl | rfl := by simpa using hrun
  · exact p.aggregate_iterates hrows a
  · exact p.aggregateLater_iterates token hrows a

/-- The least row is the first one of the sorted query, and that query is shown. -/
theorem render_shows_iterated_minimum :
    let text (q : Query Unit Unit) : String :=
      if q.source.sorting.isSome then "sorted rows" else "rows"
    let p : Producer Unit Unit :=
      ⟨fun _ => "plain", fun _ => false, fun _ => .ok [.ok (.int32 3)],
        fun q aggregate => aggregate.elim (some (text q)) fun _ => none⟩
    let q : Query Unit Unit := .ofBackend () .int32
    let shown := q.render p.toBackend (some .minimum)
    shown = "sorted rows" ∧ ∃ r taken,
      (p.toBackend.aggregate q .minimum).scans = [⟨r, taken⟩] ∧ p.render? r none = some shown := by
  intro text p q shown
  have htext (q : Query Unit Unit) : text q ≠ "" := by
    unfold text
    split <;> decide
  have hp : p.WritesRows := ⟨fun q => ⟨text q, rfl, htext q⟩, fun _ _ _ h => by cases h⟩
  refine ⟨rfl, ?_⟩
  rcases render_shows_iterated p hp q rfl .minimum rfl .live _ List.mem_cons_self with
    hshown | ⟨hscans, -⟩
  · exact hshown
  · cases hscans

/-- The text of the other aggregates names them and the backend, whatever runs. -/
theorem render_unshown (hb : b.WritesRows) (ha : ¬ a.isShown) (q : Query β σ) :
    q.render b (some a) = a.name ++ ":" ++ b.name q.backend := by
  rw [render_aggregate, Backend.renderAggregate?_unshown hb ha, Option.getD_none]

end Query
end SeqQuery
