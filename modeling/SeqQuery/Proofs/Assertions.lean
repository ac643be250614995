/-
# What a passed assertion establishes

An assertion that expects no error passes for an outcome exactly when all that is looked
at holds of it. On rows everything is looked at: a value that is expected makes it fail,
and the expectations for rows have to hold. On one value the length of the rows, the list
of them and whether there are any make it fail, but the rows that have to be among them,
the first row and the last row are not looked at (`Assertion.seenOn`). So an assertion
that says something of single rows only passes for any value
(`Assertion.verify_single_row_of_value`).

Key definitions: `Assertion.Holds`, `Assertion.seenOn`.
Key theorems: `Assertion.verifyRows_eq_ok`, `Assertion.verifyScalar_eq_ok`,
`Assertion.verifyError_eq_ok`, `Assertion.verify_eq_ok`, `Assertion.verify_establishes`,
`Assertion.verify_single_row_of_value`.
-/
import SeqQuery.Proofs.Outcome
import SeqQuery.Scenario.Assertion

namespace SeqQuery

/-- The outcome is rows, and the rows are of a kind. -/
def Outcome.HasRows (P : List Value → Prop) : Outcome → Prop
  | .rows values => P values
  | .scalar _ => False

namespace Assertion

/-- All that is expected of a successful outcome holds of it. What is expected of a value
is expected of one value, and what is expected of rows is expected of rows. -/
structure Holds (a : Assertion) (o : Outcome) : Prop where
  value : ∀ e ∈ a.value, ∃ v, o = .scalar v ∧ v.near e
  rows : ∀ n ∈ a.rows, o.HasRows (·.length = n)
  empty : ∀ b ∈ a.empty, o.HasRows (·.isEmpty = b)
  returns : ∀ es ∈ a.returns, o.HasRows (List.Forall₂ (fun v e => v.near e) · es)
  contains : ∀ e ∈ a.contains, o.HasRows fun rows => ∃ v ∈ rows, v.near e
  first : ∀ e ∈ a.first, o.HasRows fun rows => ∃ v ∈ rows.head?, v.near e
  last : ∀ e ∈ a.last, o.HasRows fun rows => ∃ v ∈ rows.getLast?, v.near e
  custom : ∀ check ∈ a.custom, check o

/-- The part of an assertion that is looked at on an outcome: on one value nothing that
is said of single rows. -/
def seenOn (a : Assertion) : Outcome → Assertion
  | .rows _ => a
  | .scalar _ => { a with contains := [], first := .none, last := .none }

variable {a : Assertion} {v : Value} {rows : List Value} {o : Outcome}

/-! ### Single expectations -/

theorem expect_eq_ok {α : Type} {expected : Option α} {holds : α → Bool} {failure : α → Failure} :
    expect expected holds failure = .ok () ↔ ∀ e ∈ expected, holds e := by
  cases expected with
  | none => simp [expect]
  | some e => simp [expect]

theorem nearAll_eq_true {expected : List Value} :
    nearAll expected rows = true ↔ List.Forall₂ (fun v e => v.near e) rows expected := by
  simp only [nearAll, Bool.and_eq_true, beq_iff_eq, List.all_eq_true, List.forall₂_iff_zip,
    Prod.forall, eq_comm (a := expected.length)]

theorem verifyContains_eq_ok {expected : List Value} :
    verifyContains rows expected = .ok () ↔ ∀ e ∈ expected, ∃ v ∈ rows, v.near e := by
  induction expected with
  | nil => simp [verifyContains]
  | cons e rest ih =>
    by_cases he : rows.any (·.near e)
    · rw [verifyContains, if_pos he, ih, List.forall_mem_cons]
      exact (and_iff_right (List.any_eq_true.mp he)).symm
    · rw [verifyContains, if_neg he, List.forall_mem_cons]
      exact ⟨nofun, fun h => absurd (List.any_eq_true.mpr h.1) he⟩

/-! ### One value, rows, and errors -/

theorem verifyScalar_eq_ok :
    a.verifyScalar v = .ok () ↔
      (∀ e ∈ a.value, v.near e) ∧ a.rows = .none ∧ a.returns = .none ∧ a.empty = .none := by
  rw [verifyScalar, Outcome.check_bind_eq_ok, expect_eq_ok]
  refine and_congr_right fun _ => ?_
  cases a.rows <;> cases a.returns <;> cases a.empty <;> simp

theorem verifyRows_eq_ok :
    a.verifyRows rows = .ok () ↔
      a.value = .none ∧ (∀ b ∈ a.empty, rows.isEmpty = b) ∧ (∀ n ∈ a.rows, rows.length = n) ∧
        (∀ es ∈ a.returns, List.Forall₂ (fun v e => v.near e) rows es) ∧
        (∀ e ∈ a.contains, ∃ v ∈ rows, v.near e) ∧ (∀ e ∈ a.first, ∃ v ∈ rows.head?, v.near e) ∧
        ∀ e ∈ a.last, ∃ v ∈ rows.getLast?, v.near e := by
  simp only [verifyRows, Outcome.check_bind_eq_ok, expect_eq_ok, verifyContains_eq_ok,
    nearAll_eq_true, beq_iff_eq, Option.any_eq_true, Bool.false_eq_true,
    Option.eq_none_iff_forall_not_mem, Option.mem_def]

/-- An assertion that expects an error passes for an error that is of the expected kind
and says the expected words. -/
theorem verifyError_eq_ok {result : Except QueryError Outcome} :
    a.verifyError result = .ok () ↔
      ∃ e, result = .error e ∧ (∀ kind ∈ a.errorKind, e.kind = kind) ∧
        ∀ part ∈ a.error, occursIn part.toList e.message.toList := by
  cases result with
  | ok o => simp [verifyError]
  | error e => simp [verifyError, Outcome.check_bind_eq_ok, expect_eq_ok]

/-! ### Successful outcomes -/

theorem holds_scalar :
    a.Holds (.scalar v) ↔
      (∀ check ∈ a.custom, check (.scalar v)) ∧ a.verifyScalar v = .ok () ∧
        a.contains = [] ∧ a.first = .none ∧ a.last = .none := by
  rw [verifyScalar_eq_ok]
  constructor
  · intro h
    have hvalue : ∀ e ∈ a.value, v.near e := by
      intro e he
      obtain ⟨w, ⟨⟩, hw⟩ := h.value e he
      exact hw
    exact ⟨h.custom, ⟨hvalue, Option.eq_none_iff_forall_not_mem.mpr h.rows,
      Option.eq_none_iff_forall_not_mem.mpr h.returns,
      Option.eq_none_iff_forall_not_mem.mpr h.empty⟩,
      List.eq_nil_iff_forall_not_mem.mpr h.contains,
      Option.eq_none_iff_forall_not_mem.mpr h.first, Option.eq_none_iff_forall_not_mem.mpr h.last⟩
  · rintro ⟨hcustom, ⟨hvalue, hrows, hreturns, hempty⟩, hcontains, hfirst, hlast⟩
    refine ⟨fun e he => ⟨v, rfl, hvalue e he⟩, ?_, ?_, ?_, ?_, ?_, ?_, hcustom⟩
    · simp [hrows]
    · simp [hempty]
    · simp [hreturns]
    · simp [hcontains]
    · simp [hfirst]
    · simp [hlast]

theorem holds_rows :
    a.Holds (.rows rows) ↔
      (∀ check ∈ a.custom, check (.rows rows)) ∧ a.verifyRows rows = .ok () := by
  rw [verifyRows_eq_ok]
  constructor
  · intro h
    have hvalue : a.value = .none := by
      refine Option.eq_none_iff_forall_not_mem.mpr fun e he => ?_
      obtain ⟨w, hw, -⟩ := h.value e he
      cases hw
    exact ⟨h.custom, hvalue, h.empty, h.rows, h.returns, h.contains, h.first, h.last⟩
  · rintro ⟨hcustom, hvalue, hempty, hrows, hreturns, hcontains, hfirst, hlast⟩
    exact ⟨by simp [hvalue], hrows, hempty, hreturns, hcontains, hfirst, hlast, hcustom⟩

/-- An assertion that expects no error passes for a successful outcome exactly when the
part of it that is looked at holds. -/
theorem verify_eq_ok (herror : a.error = .none) (hkind : a.errorKind = .none) :
    a.verify (.ok o) = .ok () ↔ (a.seenOn o).Holds o := by
  simp only [verify, herror, hkind, Option.isSome_none, Bool.or_self, Bool.false_eq_true,
    ↓reduceIte, Outcome.check_bind_eq_ok, expect_eq_ok]
  cases o with
  | scalar v =>
    rw [holds_scalar]
    exact and_congr_right fun _ => (and_iff_left ⟨rfl, rfl, rfl⟩).symm
  | rows values => exact holds_rows.symm

theorem seenOn_eq_self
    (hsingle : ∀ v, o = .scalar v → a.contains = [] ∧ a.first = .none ∧ a.last = .none) :
    a.seenOn o = a := by
  cases o with
  | rows values => rfl
  | scalar v =>
    obtain ⟨_, _, _, _, contains, first, last, _, _, _⟩ := a
    obtain ⟨rfl, rfl, rfl⟩ : contains = [] ∧ first = .none ∧ last = .none := hsingle v rfl
    rfl

/-- What a passed assertion establishes. An assertion that expects no error passes for a
successful outcome exactly when all it says holds of the outcome, but for what it says of
single rows when the outcome is one value. -/
theorem verify_establishes (a : Assertion) (o : Outcome) (herror : a.error = .none)
    (hkind : a.errorKind = .none) :
    (a.verify (.ok o) = .ok () ↔ (a.seenOn o).Holds o) ∧
      ((∀ v, o = .scalar v → a.contains = [] ∧ a.first = .none ∧ a.last = .none) →
        (a.verify (.ok o) = .ok () ↔ a.Holds o)) := by
  refine ⟨verify_eq_ok herror hkind, fun hsingle => ?_⟩
  rw [verify_eq_ok herror hkind, seenOn_eq_self hsingle]

/-- On two rows, each thing that can be said of them. -/
theorem verify_establishes_two_rows :
    let a : Assertion :=
      { Assertion.none with
        rows := .some 2, empty := .some false, returns := .some [.int32 1, .int32 2],
        contains := [.int32 2], first := .some (.int32 1), last := .some (.int32 2),
        custom := .some fun o => o.text == "2 rows" }
    let o : Outcome := .rows [.int32 1, .int32 2]
    a.verify (.ok o) = .ok () ∧ a.Holds o := by
  intro a o
  have hrows : ∀ v, o = .scalar v → a.contains = [] ∧ a.first = .none ∧ a.last = .none :=
    fun _ h => absurd h (by simp [o])
  have hpasses : a.verify (.ok o) = .ok () := rfl
  exact ⟨hpasses, ((verify_establishes a o rfl rfl).2 hrows).mp hpasses⟩

/-- An assertion on single rows passes for one value, of which nothing that it says holds. -/
theorem verify_single_row_of_value :
    let one : Value := .int32 1
    let a : Assertion :=
      { Assertion.none with contains := [one], first := .some one, last := .some one }
    let o : Outcome := .scalar (.int32 5)
    a.error = .none ∧ a.errorKind = .none ∧ a.verify (.ok o) = .ok () ∧ ¬ a.Holds o := by
  intro one a o
  refine ⟨rfl, rfl, rfl, fun h => ?_⟩
  exact h.first one rfl

end Assertion
end SeqQuery
