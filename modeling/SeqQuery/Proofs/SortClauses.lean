/-
# What an order sorts by

An order is started with one key; further calls add a key or turn the order over. Every key
that was asked for gives one clause. The keys of a group come in the order in which they
were asked for and the newest group comes first. A clause has the direction that was asked
for, turned around if the order has been turned over an odd number of times since then.

The clauses are a newest group and the rest (`Sorting.Splits`), and every call changes one of
the two in an obvious way: a key that starts a group comes before both, one that continues
the group comes between them, and turning the order over turns both over.

Key definitions: `SortClause.opposite`, `Sorting.Splits`, `Sorting.Call`, `Sorting.calls`,
`AskedKey`, `AskedKey.IsGroup`, `Sorting.SortsBy`.
Key theorems: `Sorting.clauses_reverse`, `Sorting.Splits.push`, `Sorting.Splits.reverse`,
`Sorting.SortsBy.calls`.
-/
import SeqQuery.Query.Sorting

namespace SeqQuery

/-! ### Opposite clauses -/

/-- The clause that sorts by the same key the other way round. -/
def SortClause.opposite (c : SortClause) : SortClause :=
  ⟨c.key, !c.ascending⟩

@[simp] theorem SortClause.opposite_opposite (c : SortClause) : c.opposite.opposite = c := by
  simp [opposite]

namespace Sorting

theorem grouped_not (reversed : Bool) : ∀ (group : List SortClause) (ks : List SortKey),
    grouped (!reversed) (group.map SortClause.opposite) ks =
      (grouped reversed group ks).map SortClause.opposite
  | group, [] => rfl
  | group, k :: older => by
    have hclause : clause (!reversed) k = (clause reversed k).opposite := by
      simp [clause, SortClause.opposite]
    rw [grouped, grouped, hclause]
    split
    · have ih := grouped_not reversed [] older
      rw [List.map_nil] at ih
      rw [ih, List.map_append, List.map_cons]
    · rw [← List.map_cons, grouped_not reversed _ older]

/-- Turning an order over turns over every clause. -/
theorem clauses_reverse (s : Sorting) : s.reverse.clauses = s.clauses.map SortClause.opposite :=
  grouped_not s.reversed [] s.keys

/-! ### The newest group and the rest -/

/-- The clauses of an order are a newest group and the rest; a key that continues the
group comes between them. -/
def Splits (s : Sorting) (group rest : List SortClause) : Prop :=
  ∀ newer, grouped s.reversed newer s.keys = group ++ newer ++ rest

variable {s : Sorting} {group rest : List SortClause}

theorem Splits.clauses_eq (h : s.Splits group rest) : s.clauses = group ++ rest := by
  have hgroup := h []
  rw [List.append_nil] at hgroup
  exact hgroup

theorem splits_start (c : SortClause) : (start c.key c.ascending).Splits [c] [] := by
  intro newer
  simp [start, keys, grouped, clause]

/-- A key is kept so that it comes out in the direction that was asked for. -/
theorem clause_pushed (reversed newGroup : Bool) (c : SortClause) :
    clause reversed ⟨c.key, c.ascending != reversed, newGroup⟩ = c := by
  simp [clause]

/-- A key that starts a group sorts before all keys so far, in the direction asked for. -/
theorem splits_push_new (s : Sorting) (c : SortClause) :
    (s.push c.key true c.ascending).Splits [c] s.clauses := by
  intro newer
  simp only [push, keys, clauses, grouped, clause_pushed, if_true, List.singleton_append]

/-- A key that continues a group sorts after the group so far. -/
theorem Splits.push (h : s.Splits group rest) (c : SortClause) :
    (s.push c.key false c.ascending).Splits (group ++ [c]) rest := by
  intro newer
  have hgroup := h (c :: newer)
  simpa [Sorting.push, keys, grouped, clause_pushed] using hgroup

theorem Splits.reverse (h : s.Splits group rest) :
    s.reverse.Splits (group.map SortClause.opposite) (rest.map SortClause.opposite) := by
  intro newer
  have hback : (newer.map SortClause.opposite).map SortClause.opposite = newer := by
    simp [List.map_map, Function.comp_def]
  have hgroup := grouped_not s.reversed (newer.map SortClause.opposite) s.keys
  rw [hback, h, List.map_append, List.map_append, hback] at hgroup
  exact hgroup

/-! ### Calls -/

/-- What can be done to an order. -/
inductive Call where
  | push (key : Lambda) (newGroup ascending : Bool)
  | reverse

/-- What a call makes of an order. -/
def call (s : Sorting) : Call → Sorting
  | .push key newGroup ascending => s.push key newGroup ascending
  | .reverse => s.reverse

/-- What calls make of an order, one after the other. -/
def calls (s : Sorting) (cs : List Call) : Sorting :=
  cs.foldl call s

end Sorting

/-- A key as it was asked for, and how often the order has been turned over since. -/
structure AskedKey where
  key : Lambda
  ascending : Bool
  startsGroup : Bool
  turns : Nat

namespace AskedKey

/-- The clause that a key should give. -/
def clause (a : AskedKey) : SortClause :=
  ⟨a.key, if a.turns % 2 = 1 then !a.ascending else a.ascending⟩

/-- The key after the order has been turned over some more times. -/
def after (turns : Nat) (a : AskedKey) : AskedKey :=
  { a with turns := a.turns + turns }

/-- Whether keys are a group: the first one starts it and all others continue it. -/
def IsGroup (group : List AskedKey) : Prop :=
  ∃ first others, group = first :: others ∧ first.startsGroup = true ∧
    ∀ a ∈ others, a.startsGroup = false

theorem clause_after_one (a : AskedKey) : (a.after 1).clause = a.clause.opposite := by
  simp only [clause, after, SortClause.opposite]
  rcases Nat.mod_two_eq_zero_or_one a.turns with h | h <;> simp [h, Nat.add_mod]

end AskedKey

namespace Sorting

/-- How often calls turn an order over. -/
def Call.turns : List Call → Nat
  | [] => 0
  | .push .. :: rest => turns rest
  | .reverse :: rest => turns rest + 1

/-- The keys that calls ask for, in the order of the calls. -/
def Call.asked : List Call → List AskedKey
  | [] => []
  | .push key newGroup ascending :: rest =>
    ⟨key, ascending, newGroup, turns rest⟩ :: asked rest
  | .reverse :: rest => asked rest

/-- Whether the clauses of an order are those of the keys that were asked for. The keys are
groups in the order in which they were asked for, the last of which is the newest. -/
def SortsBy (s : Sorting) (asked : List AskedKey) : Prop :=
  ∃ older newest, (older ++ [newest]).flatten = asked ∧
    (∀ group ∈ older ++ [newest], AskedKey.IsGroup group) ∧
    s.Splits (newest.map AskedKey.clause) (older.reverse.flatten.map AskedKey.clause)

end Sorting

namespace AskedKey

theorem IsGroup.singleton {a : AskedKey} (h : a.startsGroup = true) : IsGroup [a] :=
  ⟨a, [], rfl, h, List.forall_mem_nil _⟩

/-- A key that continues a group goes to its end. -/
theorem IsGroup.append {group : List AskedKey} (h : IsGroup group) {a : AskedKey}
    (ha : a.startsGroup = false) : IsGroup (group ++ [a]) := by
  obtain ⟨first, others, rfl, hfirst, hothers⟩ := h
  refine ⟨first, others ++ [a], rfl, hfirst, ?_⟩
  rw [List.forall_mem_append]
  exact ⟨hothers, by simpa using ha⟩

theorem IsGroup.map_after {group : List AskedKey} (h : IsGroup group) (turns : Nat) :
    IsGroup (group.map (after turns)) := by
  obtain ⟨first, others, rfl, hfirst, hothers⟩ := h
  exact ⟨first.after turns, others.map (after turns), rfl, hfirst,
    List.forall_mem_map.mpr hothers⟩

theorem map_after_zero (asked : List AskedKey) : asked.map (after 0) = asked :=
  List.map_id _

theorem map_after_after (m n : Nat) (asked : List AskedKey) :
    (asked.map (after m)).map (after n) = asked.map (after (m + n)) := by
  rw [List.map_map]
  exact List.map_congr_left fun a _ => by simp [after, Nat.add_assoc]

/-- Turning an order over once more turns the clauses over. -/
theorem map_clause_after_one (asked : List AskedKey) :
    (asked.map (after 1)).map clause = (asked.map clause).map SortClause.opposite := by
  simp only [List.map_map, Function.comp_def, clause_after_one]

end AskedKey

namespace Sorting

variable {s : Sorting} {asked : List AskedKey}

/-! ### What each call does -/

theorem sortsBy_start (key : Lambda) (ascending : Bool) :
    (start key ascending).SortsBy [⟨key, ascending, true, 0⟩] := by
  refine ⟨[], [⟨key, ascending, true, 0⟩], rfl, ?_, splits_start ⟨key, ascending⟩⟩
  simpa using AskedKey.IsGroup.singleton rfl

theorem SortsBy.clauses_eq (h : s.SortsBy asked) : ∃ groups : List (List AskedKey),
    groups.flatten = asked ∧ (∀ group ∈ groups, AskedKey.IsGroup group) ∧
    s.clauses = groups.reverse.flatten.map AskedKey.clause := by
  obtain ⟨older, newest, hasked, hgroups, hsplits⟩ := h
  refine ⟨older ++ [newest], hasked, hgroups, ?_⟩
  rw [hsplits.clauses_eq, List.reverse_concat, List.flatten_cons, List.map_append]

/-- A key that starts a group is the newest group. -/
theorem SortsBy.push_new (h : s.SortsBy asked) (key : Lambda) (ascending : Bool) :
    (s.push key true ascending).SortsBy (asked ++ [⟨key, ascending, true, 0⟩]) := by
  obtain ⟨older, newest, rfl, hgroups, hsplits⟩ := h
  refine ⟨older ++ [newest], [⟨key, ascending, true, 0⟩], by simp, ?_, ?_⟩
  · rw [List.forall_mem_append]
    exact ⟨hgroups, by simpa using AskedKey.IsGroup.singleton rfl⟩
  · have hnew := s.splits_push_new ⟨key, ascending⟩
    rw [hsplits.clauses_eq] at hnew
    rw [List.reverse_concat, List.flatten_cons, List.map_append]
    exact hnew

/-- A key that continues a group goes to the end of the newest group. -/
theorem SortsBy.push_continue (h : s.SortsBy asked) (key : Lambda) (ascending : Bool) :
    (s.push key false ascending).SortsBy (asked ++ [⟨key, ascending, false, 0⟩]) := by
  obtain ⟨older, newest, rfl, hgroups, hsplits⟩ := h
  rw [List.forall_mem_append, List.forall_mem_singleton] at hgroups
  refine ⟨older, newest ++ [⟨key, ascending, false, 0⟩], by simp, ?_, ?_⟩
  · rw [List.forall_mem_append, List.forall_mem_singleton]
    exact ⟨hgroups.1, hgroups.2.append rfl⟩
  · rw [List.map_append]
    exact hsplits.push ⟨key, ascending⟩

/-- Turning an order over counts for every key that was asked for so far. -/
theorem SortsBy.reverse (h : s.SortsBy asked) :
    s.reverse.SortsBy (asked.map (AskedKey.after 1)) := by
  obtain ⟨older, newest, rfl, hgroups, hsplits⟩ := h
  refine ⟨older.map (List.map (AskedKey.after 1)), newest.map (AskedKey.after 1), ?_, ?_, ?_⟩
  · simp [List.map_flatten]
  · have hmapped : ∀ group ∈ (older ++ [newest]).map (List.map (AskedKey.after 1)),
        AskedKey.IsGroup group :=
      List.forall_mem_map.mpr fun group hgroup => (hgroups group hgroup).map_after 1
    rw [List.map_append] at hmapped
    exact hmapped
  · have hturned := hsplits.reverse
    rw [← AskedKey.map_clause_after_one, ← AskedKey.map_clause_after_one, List.map_flatten,
      List.map_reverse] at hturned
    exact hturned

/-! ### What calls do -/

/-- Calls keep that the clauses of an order are those of the keys that were asked for. -/
theorem SortsBy.calls : ∀ (cs : List Call) {s : Sorting} {asked : List AskedKey},
    s.SortsBy asked → (s.calls cs).SortsBy
      (asked.map (AskedKey.after (Call.turns cs)) ++ Call.asked cs)
  | [], s, asked, h => by
    rw [Call.turns, Call.asked, AskedKey.map_after_zero, List.append_nil]
    exact h
  | .push key newGroup ascending :: cs, s, asked, h => by
    have hpush : (s.push key newGroup ascending).SortsBy
        (asked ++ [⟨key, ascending, newGroup, 0⟩]) := by
      cases newGroup with
      | true => exact h.push_new key ascending
      | false => exact h.push_continue key ascending
    have ih := SortsBy.calls cs hpush
    rw [List.map_append, List.append_assoc, List.map_singleton, List.singleton_append,
      AskedKey.after, Nat.zero_add] at ih
    exact ih
  | .reverse :: cs, s, asked, h => by
    have ih := SortsBy.calls cs h.reverse
    rw [AskedKey.map_after_after, Nat.add_comm] at ih
    exact ih

theorem length_clauses (s : Sorting) : s.clauses.length = s.length := by
  rw [clauses, length_grouped, List.length_nil, Nat.zero_add]
  rfl

end Sorting
end SeqQuery
