/-
# Row limits

Row limits act last, so a query that runs also runs with any other limits, and gives
another part of the same rows (`Memory.run_withRange`). Skipping and limiting the rows of a
query drops and takes from the list that it gives, because they cut the part of a list that
is within its limits (`Query.window`) in that way. Skipping stops at `maxRows`, which no
list in memory is longer than.

A query that is read for one row need not drop repeats: of equal rows the first is kept, so
the first row is the same.

Key definition: `Query.window`.
Key theorems: `Query.window_takeRows`, `Query.window_skipRows`, `Memory.run_withRange`,
`Memory.run_takeRows`, `Memory.run_skipRows`, `Memory.run_keepRepeats`,
`Memory.toValues_takeRows`, `Memory.toValues_skipRows`.
-/
import SeqQuery.Proofs.Listing

namespace SeqQuery

variable {σ : Type} {q : Query Memory σ} {rows : List Value}

/-! ### Dropping repeats -/

theorem foldl_keep_prefix : ∀ (rows kept : List Value), ∃ rest, rest.length ≤ rows.length ∧
    rows.foldl (fun kept v => if kept.any (· == v) then kept else kept ++ [v]) kept = kept ++ rest
  | [], kept => ⟨[], Nat.le_refl _, (List.append_nil kept).symm⟩
  | v :: rows, kept => by
    rw [List.foldl_cons]
    split
    · obtain ⟨rest, hlen, hrest⟩ := foldl_keep_prefix rows kept
      exact ⟨rest, Nat.le_succ_of_le hlen, hrest⟩
    · obtain ⟨rest, hlen, hrest⟩ := foldl_keep_prefix rows (kept ++ [v])
      refine ⟨v :: rest, Nat.succ_le_succ hlen, ?_⟩
      rw [hrest, List.append_assoc, List.singleton_append]

theorem dropRepeats_length_le (rows : List Value) : (dropRepeats rows).length ≤ rows.length := by
  obtain ⟨rest, hlen, hrest⟩ := foldl_keep_prefix rows []
  rw [dropRepeats, hrest, List.nil_append]
  exact hlen

/-- The first row is kept, whatever is equal to it. -/
theorem dropRepeats_take {n : Nat} (hn : n ≤ 1) : ∀ rows : List Value,
    (dropRepeats rows).take n = rows.take n
  | [] => rfl
  | v :: rows => by
    obtain ⟨rest, -, hrest⟩ := foldl_keep_prefix rows [v]
    have hcons : dropRepeats (v :: rows) = v :: rest := hrest
    rw [hcons]
    rcases Nat.le_one_iff_eq_zero_or_eq_one.mp hn with rfl | rfl <;> rfl

/-! ### Windows -/

namespace Memory

variable {α : Type} {skip n : Nat} {take : Option Nat} {rows : List α}

theorem window_take (rows : List α) :
    (window skip take rows).take n = window skip (some (min n (take.getD n))) rows := by
  cases take with
  | none => simp [window]
  | some k => simp [window, List.take_take]

theorem window_drop (rows : List α) :
    (window skip take rows).drop n = window (skip + n) (take.map (· - n)) rows := by
  cases take with
  | none => simp [window, List.drop_drop]
  | some k => simp [window, List.drop_drop, List.drop_take]

/-- Rows are skipped up to a number that no list reaches. -/
theorem window_min {bound : Nat} (h : rows.length ≤ bound) :
    window (min skip bound) take rows = window skip take rows := by
  have hdrop : rows.drop (min skip bound) = rows.drop skip := by
    rcases Nat.le_total skip bound with hle | hle
    · rw [Nat.min_eq_left hle]
    · rw [Nat.min_eq_right hle, List.drop_eq_nil_of_le h,
        List.drop_eq_nil_of_le (Nat.le_trans h hle)]
  simp only [window, hdrop]

theorem mem_of_mem_window {v : α} (h : v ∈ window skip take rows) : v ∈ rows := by
  cases take with
  | none => exact List.mem_of_mem_drop h
  | some k => exact List.mem_of_mem_drop (List.mem_of_mem_take h)

end Memory

namespace Query

variable {α β : Type}

/-- The part of a list that is within the row limits of a query. -/
def window (q : Query β σ) (rows : List α) : List α :=
  Memory.window q.source.skip q.source.take rows

theorem window_of_isEmpty {q : Query β σ} (h : q.isEmpty) (rows : List α) :
    q.window rows = [] := by
  rw [window, Source.isEmpty_iff.mp h, Memory.window, List.take_zero]

theorem window_skipRows (q : Query β σ) (n : Nat) {rows : List α}
    (hsize : rows.length ≤ maxRows) :
    ((q.skipRows n).of q).window rows = (q.window rows).drop n := by
  rcases q.skipRows_cases n with ⟨hr, rfl | hempty⟩ | hr <;> rw [hr]
  · rfl
  · rw [Revision.of_unchanged, window_of_isEmpty hempty, List.drop_nil]
  · -- what is skipped beyond `maxRows` is behind the end of the list
    calc Memory.window (min (q.source.skip + n) maxRows) (q.source.take.map (· - n)) rows
        = Memory.window (q.source.skip + n) (q.source.take.map (· - n)) rows :=
          Memory.window_min hsize
      _ = (q.window rows).drop n := (Memory.window_drop rows).symm

theorem window_takeRows (q : Query β σ) (n : Nat) (rows : List α) :
    ((q.takeRows n).of q).window rows = (q.window rows).take n := by
  have htake : (q.window rows).take n =
      Memory.window q.source.skip (some (min n (q.source.take.getD n))) rows :=
    Memory.window_take rows
  rw [htake]
  rcases q.takeRows_cases n with ⟨hr, k, hk, hlimit⟩ | ⟨hmore, hr⟩ <;> rw [hr]
  · -- the limit so far is at least as narrow
    have hmin : min n (q.source.take.getD n) = k := by
      rw [hlimit]
      exact Nat.min_eq_right hk
    rw [hmin, ← hlimit]
    rfl
  · have hmin : min n (q.source.take.getD n) = n := by
      cases hlimit : q.source.take with
      | none => exact Nat.min_self n
      | some k => exact Nat.min_eq_left (Nat.le_of_lt (hmore k hlimit))
    rw [hmin]
    rfl

/-- Skipping and limiting change the row limits alone. -/
theorem skipRows_limits (q : Query β σ) (n : Nat) : ∃ skip take,
    (q.skipRows n).of q = q.withSource { q.source with skip, take } := by
  rcases q.skipRows_cases n with ⟨hr, -⟩ | hr <;> rw [hr]
  · exact ⟨q.source.skip, q.source.take, rfl⟩
  · exact ⟨_, _, rfl⟩

theorem takeRows_limits (q : Query β σ) (n : Nat) : ∃ take,
    (q.takeRows n).of q = q.withSource { q.source with skip := q.source.skip, take } := by
  rcases q.takeRows_cases n with ⟨hr, -⟩ | ⟨-, hr⟩ <;> rw [hr]
  · exact ⟨q.source.take, rfl⟩
  · exact ⟨_, rfl⟩

end Query

/-! ### Runs with other limits -/

namespace Memory

theorem filterRows_length_le {now : Int64} {p : Option Lambda} {kept : List Value}
    (h : filterRows now p rows = .ok kept) : kept.length ≤ rows.length := by
  cases p with
  | none =>
    obtain rfl := Except.ok.inj h
    exact Nat.le_refl _
  | some p =>
    obtain ⟨-, rfl⟩ := filterRows_eq_ok.mp h
    exact List.length_filter_le ..

theorem listed_length_le (now : Int64) (q : Query Memory σ) (sorted : List Value) :
    (q.listed now sorted).length ≤ sorted.length := by
  unfold Query.listed
  cases q.isDistinct with
  | false => simp
  | true => exact Nat.le_trans (dropRepeats_length_le _) (Nat.le_of_eq (List.length_map _))

/-- A query that runs has rows, at most as many as its backend, of which it gives the part
within its row limits, whatever these are. -/
theorem run_withRange (h : q.backend.run q = .ok rows) : ∃ all : List Value,
    all.length ≤ q.backend.rows.length ∧ q.window all = rows ∧
      ∀ skip take, q.backend.run (q.withSource { q.source with skip, take }) =
        .ok (window skip take all) := by
  obtain ⟨kept, hfilters, hvalues, hrows⟩ := run_eq_ok.mp h
  refine ⟨_, ?_, hrows, fun skip take => run_eq_ok.mpr ⟨kept, hfilters, hvalues, rfl⟩⟩
  refine Nat.le_trans (listed_length_le _ q _) ?_
  rw [List.length_mergeSort]
  exact filterRows_length_le hfilters

/-- Limiting the rows of a query takes from the list that it gives. -/
theorem run_takeRows (h : q.backend.run q = .ok rows) (n : Nat) :
    ((q.takeRows n).of q).backend.run ((q.takeRows n).of q) = .ok (rows.take n) := by
  obtain ⟨all, -, hwindow, hall⟩ := run_withRange h
  rw [← hwindow, ← q.window_takeRows n all]
  obtain ⟨take, hq⟩ := q.takeRows_limits n
  rw [hq]
  exact hall q.source.skip take

/-- A query that is known to have no rows gives none. -/
theorem eq_nil_of_isEmpty (hempty : q.isEmpty) (h : q.backend.run q = .ok rows) : rows = [] := by
  obtain ⟨all, -, hwindow, -⟩ := run_withRange h
  rw [← hwindow, Query.window_of_isEmpty hempty]

/-- Skipping rows of a query drops them from the list that it gives. -/
theorem run_skipRows (hsize : q.backend.rows.length ≤ maxRows)
    (h : q.backend.run q = .ok rows) (n : Nat) :
    ((q.skipRows n).of q).backend.run ((q.skipRows n).of q) = .ok (rows.drop n) := by
  obtain ⟨all, hlen, hwindow, hall⟩ := run_withRange h
  rw [← hwindow, ← q.window_skipRows n (Nat.le_trans hlen hsize)]
  obtain ⟨skip, take, hq⟩ := q.skipRows_limits n
  rw [hq]
  exact hall skip take

/-- A query for at most one row gives the same list whether or not it drops repeats. -/
theorem run_keepRepeats {n : Nat} (hn : n ≤ 1) (htake : q.source.take = some n)
    (h : q.backend.run q = .ok rows) : q.keepRepeats.backend.run q.keepRepeats = .ok rows := by
  obtain ⟨source, projection⟩ := q
  unfold Query.keepRepeats
  split
  · next f hp =>
    obtain rfl : projection = some ⟨f, true⟩ := hp
    split
    · next hskip =>
      replace hskip : source.skip = 0 := hskip
      replace htake : source.take = some n := htake
      obtain ⟨kept, hfilters, hvalues, hrows⟩ := run_eq_ok.mp h
      refine run_eq_ok.mpr ⟨kept, hfilters, hvalues, Eq.trans ?_ hrows⟩
      show window source.skip source.take _ = window source.skip source.take (dropRepeats _)
      rw [hskip, htake]
      exact (dropRepeats_take hn _).symm
    · exact h
  · exact h

/-- What a run gives, the query gives as a list. -/
theorem toValues_of_run (h : q.backend.run q = .ok rows) :
    (q.toValues Memory.backend).outcome = .ok rows := by
  rw [toValues_eq_ok]
  split
  · next hempty => exact eq_nil_of_isEmpty hempty h
  · exact h

theorem toValues_takeRows (h : (q.toValues Memory.backend).outcome = .ok rows) (n : Nat) :
    (((q.takeRows n).of q).toValues Memory.backend).outcome = .ok (rows.take n) := by
  have hrows := h
  rw [toValues_eq_ok] at h
  split at h
  · next hempty =>
    subst h
    rcases q.takeRows_cases n with ⟨hr, -⟩ | ⟨hmore, hr⟩
    · rw [hr, List.take_nil]
      exact hrows
    · -- nothing is less than the limit of a query without rows
      exact absurd (hmore 0 (Source.isEmpty_iff.mp hempty)) (Nat.not_lt_zero n)
  · exact toValues_of_run (run_takeRows h n)

theorem toValues_skipRows (hsize : q.backend.rows.length ≤ maxRows)
    (h : (q.toValues Memory.backend).outcome = .ok rows) (n : Nat) :
    (((q.skipRows n).of q).toValues Memory.backend).outcome = .ok (rows.drop n) := by
  have hrows := h
  rw [toValues_eq_ok] at h
  split at h
  · next hempty =>
    subst h
    have hr : q.skipRows n = .unchanged := by
      rw [Query.skipRows, Source.skipRows, if_pos (.inr hempty)]
      rfl
    rw [hr, List.drop_nil]
    exact hrows
  · exact toValues_of_run (run_skipRows hsize h n)

end Memory
end SeqQuery
