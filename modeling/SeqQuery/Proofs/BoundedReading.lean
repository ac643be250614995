/-
# Terminals that look at one or two rows

All terminals but counts, sums and averages know their answer after one item, or after two
where a single row is asked for. Over the rows of a producer their runs have one of two forms:
an outcome that needs no rows, or one iteration by a reader that stops within the reach of
the terminal (`ReadsOnce`). The shortcut for no rows, the detour through the first row of a
sorted query and the types that are promised keep a run in this form. A run of this form
takes no more items than the reach and cannot tell producers apart whose iterations begin
alike, so that no later row is ever observed, were it one that fails.

Key definitions: `Terminal.reach`, `ReadsWithin`, `AgreeWithin`, `ReadsOnce`.
Key theorems: `ReadsOnce.scans_le`, `ReadsOnce.eq_of_agree`, `ReadsOnce.aggregate`,
`ReadsOnce.execute`, `Query.execute_reads_within`.
-/
import SeqQuery.Proofs.Requests
import SeqQuery.Query.Execute

namespace SeqQuery

variable {α β σ : Type} {m n : Nat}

/-! ### How far an aggregate reaches -/

/-- The number of items after which the answer to an aggregate is known, if there is one. -/
def Aggregate.reach : Aggregate → Option Nat
  | .count | .sum | .average => none
  | .single | .singleOrDefault => some 2
  | .first | .firstOrDefault | .any | .notAny | .minimum | .maximum => some 1

/-- The number of items after which the answer to a terminal is known, if there is one. -/
def Terminal.reach : Terminal → Option Nat
  | .count _ | .longCount _ | .sum _ | .average _ => none
  | .single _ | .singleOrDefault _ => some 2
  | .any _ | .all _ | .contains _ | .first _ | .firstOrDefault _ | .last _ | .lastOrDefault _
  | .min _ | .max _ | .elementAt _ | .elementAtOrDefault _ => some 1

theorem Terminal.reach_aggregate (t : Terminal) : t.aggregate.reach = t.reach := by
  cases t <;> rfl

/-! ### Readers that stop early -/

/-- A reader takes at most `n` items, and what comes after them makes no difference. -/
structure ReadsWithin (n : Nat) (reader : List Item → Reading α) : Prop where
  taken_le : ∀ items, (reader items).taken ≤ n
  of_take : ∀ items, reader (items.take n) = reader items

theorem ReadsWithin.mono {reader : List Item → Reading α} (h : ReadsWithin m reader)
    (hmn : m ≤ n) : ReadsWithin n reader where
  taken_le items := Nat.le_trans (h.taken_le items) hmn
  of_take items := by
    have htake : (items.take n).take m = items.take m := by
      rw [List.take_take, Nat.min_eq_left hmn]
    rw [← h.of_take (items.take n), htake, h.of_take]

theorem Rows.first_within : ReadsWithin 1 Rows.first where
  taken_le items := by
    cases items with
    | nil => exact Nat.zero_le 1
    | cons item rest => exact Nat.le_refl 1
  of_take items := by
    cases items <;> rfl

theorem Rows.only_within : ReadsWithin 2 Rows.only where
  taken_le items := by
    unfold Rows.only
    split <;> simp
  of_take items := by
    match items with
    | [] => rfl
    | [item] => rfl
    | .error e :: item :: rest => rfl
    | .ok v :: .ok w :: rest => rfl
    | .ok v :: .error e :: rest => rfl

/-! ### Runs that read once -/

/-- Two iterations fail alike, or begin with the same `n` items. -/
def AgreeWithin (n : Nat) (x y : Except QueryError (List Item)) : Prop :=
  x.map (·.take n) = y.map (·.take n)

namespace Producer

variable {p p' : Producer β σ} {q : Query β σ} {reader : List Item → Reading α}

/-- Reading iterates the query once. -/
theorem read_scans (hreader : ReadsWithin n reader) :
    ∃ taken ≤ n, (p.read q reader).scans = [⟨q, taken⟩] := by
  unfold read
  cases p.iterate q with
  | error e => exact ⟨0, Nat.zero_le n, rfl⟩
  | ok items => exact ⟨_, hreader.taken_le items, rfl⟩

theorem read_eq_of_agree (hreader : ReadsWithin n reader)
    (h : AgreeWithin n (p.iterate q) (p'.iterate q)) : p'.read q reader = p.read q reader := by
  unfold read
  cases hx : p.iterate q with
  | error e =>
    cases hy : p'.iterate q with
    | error e' =>
      rw [AgreeWithin, hx, hy] at h
      cases h
      rfl
    | ok items' =>
      rw [AgreeWithin, hx, hy] at h
      cases h
  | ok items =>
    cases hy : p'.iterate q with
    | error e' =>
      rw [AgreeWithin, hx, hy] at h
      cases h
    | ok items' =>
      rw [AgreeWithin, hx, hy] at h
      have hitems : items.take n = items'.take n := Except.ok.inj h
      have hreading : reader items' = reader items := by
        rw [← hreader.of_take items', ← hitems, hreader.of_take]
      simp only [hreading]

end Producer

/-- The runs over a producer that iterate one query at most, and take at most `n` items. -/
inductive ReadsOnce (n : Nat) : (Producer β σ → Run β σ α) → Prop
  | answer (outcome : Except QueryError α) : ReadsOnce n fun _ => .ofOutcome outcome
  | read {γ : Type} (q : Query β σ) {reader : List Item → Reading γ}
      (hreader : ReadsWithin n reader) (f : γ → Except QueryError α) :
      ReadsOnce n fun p => (p.read q reader).andThen f

namespace ReadsOnce

variable {run : Producer β σ → Run β σ α}

theorem mono (h : ReadsOnce m run) (hmn : m ≤ n) : ReadsOnce n run := by
  cases h with
  | answer outcome => exact .answer outcome
  | read q hreader f => exact .read q (hreader.mono hmn) f

theorem andThen {γ : Type} (h : ReadsOnce n run) (g : α → Except QueryError γ) :
    ReadsOnce n fun p => (run p).andThen g := by
  cases h with
  | answer outcome => exact .answer (outcome.bind g)
  | read q hreader f =>
    have hchain : ∀ {ζ : Type} (r : Run β σ ζ) (f : ζ → Except QueryError α),
        (r.andThen f).andThen g = r.andThen fun a => (f a).bind g := by
      rintro ζ ⟨outcome, scans⟩ f
      cases outcome <;> rfl
    simp only [hchain]
    exact .read q hreader _

/-- One query is iterated at most, and at most `n` items are taken. -/
theorem scans_le (h : ReadsOnce n run) (p : Producer β σ) :
    (run p).scans.length ≤ 1 ∧ ∀ scan ∈ (run p).scans, scan.taken ≤ n := by
  cases h with
  | answer outcome => exact ⟨Nat.zero_le 1, List.forall_mem_nil _⟩
  | @read γ q reader hreader f =>
    obtain ⟨taken, htaken, hscans⟩ := Producer.read_scans (p := p) (q := q) hreader
    have hscans : ((p.read q reader).andThen f).scans = [⟨q, taken⟩] := hscans
    rw [hscans]
    exact ⟨Nat.le_refl 1, List.forall_mem_singleton.mpr htaken⟩

/-- Producers whose iterations begin alike are not told apart. -/
theorem eq_of_agree (h : ReadsOnce n run) {p p' : Producer β σ}
    (hagree : ∀ scan ∈ (run p).scans,
      AgreeWithin n (p.iterate scan.query) (p'.iterate scan.query)) : run p' = run p := by
  cases h with
  | answer outcome => rfl
  | @read γ q reader hreader f =>
    obtain ⟨taken, -, hscans⟩ := Producer.read_scans (p := p) (q := q) hreader
    have hmem : (⟨q, taken⟩ : Scan β σ) ∈ (p.read q reader).scans :=
      hscans ▸ List.mem_singleton_self _
    exact congrArg (·.andThen f) (Producer.read_eq_of_agree hreader (hagree _ hmem))

end ReadsOnce

/-! ### Aggregates and terminals read once -/

namespace ReadsOnce

variable {q : Query β σ} {a : Aggregate} {t : Terminal}

theorem readAggregate (ha : a.reach = some n) :
    ReadsOnce n fun p : Producer β σ => p.readAggregate q a := by
  have one : ∀ f, ReadsOnce 1 fun p : Producer β σ =>
      (p.read ((q.takeRows 1).of q).keepRepeats Rows.first).andThen f :=
    fun f => .read (α := Value) _ Rows.first_within f
  have two : ∀ f, ReadsOnce 2 fun p : Producer β σ =>
      (p.read ((q.takeRows 2).of q) Rows.only).andThen f :=
    fun f => .read (α := Value) _ Rows.only_within f
  cases a with
  | first | firstOrDefault | any | notAny =>
    obtain rfl : 1 = n := Option.some.inj ha
    exact one _
  | single | singleOrDefault =>
    obtain rfl : 2 = n := Option.some.inj ha
    exact two _
  | minimum | maximum => exact .answer _
  | count | sum | average => cases ha

/-- The shortcut for no rows and the detour through a sorted query keep to one iteration. -/
theorem answerBy {first direct : Producer β σ → Query β σ → Run β σ Value}
    (hfirst : ∀ q, ReadsOnce n (first · q)) (hdirect : ∀ q, ReadsOnce n (direct · q)) :
    ReadsOnce n fun p => Producer.answerBy (first p) (direct p) q a := by
  unfold Producer.answerBy
  split
  · exact .answer _
  · split
    · exact .answer _
    · exact hfirst _
    · exact hdirect _

theorem aggregate (ha : a.reach = some n) :
    ReadsOnce n fun p : Producer β σ => p.toBackend.aggregate q a := by
  have hreach : 1 ≤ n := by
    cases a <;> simp [Aggregate.reach] at ha <;> omega
  have hfirst : ∀ q, ReadsOnce n fun p : Producer β σ => p.readAggregate q .first :=
    fun q => (readAggregate rfl).mono hreach
  exact answerBy (fun q => answerBy hfirst hfirst) fun q => readAggregate ha

theorem execute (ht : t.reach = some n) :
    ReadsOnce n fun p : Producer β σ => q.execute p.toBackend t := by
  unfold Query.execute
  split
  · exact .answer _
  · exact .answer _
  · next request hresolve =>
    have ha : request.aggregate.reach = some n := by
      rw [Query.aggregate_of_ask hresolve, t.reach_aggregate, ht]
    exact (aggregate ha).andThen _

end ReadsOnce

namespace Query

/-- A terminal that reaches `n` items iterates one query at most, takes at most `n` items from
it, and is answered alike over all producers whose iterations of that query begin with the
same `n` items: the items after them are never observed. -/
theorem execute_reads_within {t : Terminal} (ht : t.reach = some n) (q : Query β σ)
    (p : Producer β σ) :
    let run := q.execute p.toBackend t
    run.scans.length ≤ 1 ∧ (∀ scan ∈ run.scans, scan.taken ≤ n) ∧
      ∀ p' : Producer β σ, (∀ scan ∈ run.scans,
        AgreeWithin n (p.iterate scan.query) (p'.iterate scan.query)) →
          q.execute p'.toBackend t = run := by
  intro run
  have honce : ReadsOnce n fun p : Producer β σ => q.execute p.toBackend t := .execute ht
  obtain ⟨hlength, htaken⟩ := honce.scans_le p
  exact ⟨hlength, htaken, fun p' hagree => honce.eq_of_agree hagree⟩

/-- The least of some rows is the first one of the query that is sorted by them; the error
that one producer has in place of a second row is not observed. -/
theorem execute_reads_within_min :
    let p (rest : List Item) : Producer Unit Unit :=
      ⟨fun _ => "rows", fun _ => false, fun _ => .ok (.ok (.int32 3) :: rest), fun _ _ => none⟩
    let q : Query Unit Unit := .ofBackend () .int32
    (Terminal.min none).reach = some 1 ∧
      ((q.execute (p []).toBackend (.min none)).scans.map (·.taken)) = [1] ∧
      (q.execute (p []).toBackend (.min none)).outcome = .ok (.int32 3) ∧
      q.execute (p [.error (.backend "lost")]).toBackend (.min none) =
        q.execute (p []).toBackend (.min none) := by
  intro p q
  have hreach : (Terminal.min none).reach = some 1 := rfl
  obtain ⟨-, -, hsame⟩ := execute_reads_within hreach q (p [])
  refine ⟨hreach, rfl, rfl, hsame (p [.error (.backend "lost")]) ?_⟩
  intro scan _
  rfl

end Query
end SeqQuery
