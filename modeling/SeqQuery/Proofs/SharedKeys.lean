/-
# Orders that share their keys

An order that is made from another one adds at most one key to it, so the two can share all
others: keys are entries of one store, an entry says where the one before it is, and an order
is the number of its newest entry. Entries are never changed, so an order stays what it is
whatever is made from it later (`Shelf.Reads.add`).

The clauses of such an order are written out in one pass from the newest key to the oldest.
What has been written of a group is turned around in place when its first key has been
reached, because the keys of a group are met from the last one to the first.

Key definitions: `KeyEntry`, `Shelf`, `Shelf.keysFrom`, `Sorting.writeOut`, `Sorting.Making`,
`Shelf.make`, `Sorting.History`, `Shelf.Reads`.
Key theorems: `Sorting.writeOut_eq_clauses`, `Shelf.Reads.add`, `Shelf.Holds.make`,
`Shelf.holds_ofMakings`, `Sorting.clauses_of_history`.
-/
import SeqQuery.Proofs.Records
import SeqQuery.Proofs.SortClauses

namespace SeqQuery

theorem getElem?_append_of_eq_some {α : Type} {as bs : List α} {n : Nat} {a : α}
    (h : as[n]? = some a) : (as ++ bs)[n]? = some a := by
  rw [List.getElem?_append_left (List.getElem?_eq_some_iff.mp h).1, h]

namespace Sorting

/-! ### Writing clauses out -/

/-- A list with all that is behind a position turned around. -/
def turnFrom (n : Nat) (out : List SortClause) : List SortClause :=
  out.take n ++ (out.drop n).reverse

/-- Writes out the clauses of keys, newest first, behind those that have been written. The
group that is being written began at `groupStart`. -/
def writeOut (reversed : Bool) (out : List SortClause) (groupStart : Nat) :
    List SortKey → List SortClause
  | [] => turnFrom groupStart out
  | k :: older =>
    let out := out ++ [clause reversed k]
    if k.newGroup then writeOut reversed (turnFrom groupStart out) out.length older
    else writeOut reversed out groupStart older

theorem length_turnFrom (n : Nat) (out : List SortClause) :
    (turnFrom n out).length = out.length := by
  rw [turnFrom, List.length_append, List.length_reverse, ← List.length_append,
    List.take_append_drop]

/-- The finished groups stay, and what has been written of the group at hand is read
backwards. -/
theorem writeOut_eq_grouped (reversed : Bool) : ∀ (ks : List SortKey) (out : List SortClause)
    (groupStart : Nat), groupStart ≤ out.length → writeOut reversed out groupStart ks =
      out.take groupStart ++ grouped reversed (out.drop groupStart).reverse ks
  | [], out, groupStart, _ => rfl
  | k :: older, out, groupStart, h => by
    have htake : (out ++ [clause reversed k]).take groupStart = out.take groupStart :=
      List.take_append_of_le_length h
    have hdrop : ((out ++ [clause reversed k]).drop groupStart).reverse =
        clause reversed k :: (out.drop groupStart).reverse := by
      rw [List.drop_append_of_le_length h, List.reverse_concat]
    rw [writeOut, grouped]
    by_cases hnew : k.newGroup
    · -- the group is finished, and nothing has been written of the next one
      have hlen : (out ++ [clause reversed k]).length =
          (turnFrom groupStart (out ++ [clause reversed k])).length := (length_turnFrom _ _).symm
      rw [if_pos hnew, if_pos hnew, writeOut_eq_grouped reversed older _ _ (Nat.le_of_eq hlen),
        hlen, List.take_length, List.drop_length, turnFrom, htake, hdrop, List.reverse_nil,
        List.append_assoc]
    · have hle : groupStart ≤ (out ++ [clause reversed k]).length := by
        rw [List.length_append]
        omega
      rw [if_neg hnew, if_neg hnew, writeOut_eq_grouped reversed older _ _ hle, htake, hdrop]

/-- Writing out gives the clauses. -/
theorem writeOut_eq_clauses (s : Sorting) : writeOut s.reversed [] 0 s.keys = s.clauses :=
  writeOut_eq_grouped s.reversed s.keys [] 0 (Nat.zero_le _)

/-! ### Calls that make orders -/

/-- A call that makes an order, a new one or one from an order that was made before. -/
inductive Making where
  | start (key : Lambda) (ascending : Bool)
  | derive (source : Nat) (call : Call)

/-- How an order was made: the key that it was started with and the calls since then. -/
structure History where
  key : Lambda
  ascending : Bool
  calls : List Call

namespace History

/-- The order that was made. -/
def sorting (h : History) : Sorting :=
  (start h.key h.ascending).calls h.calls

/-- The keys that were asked for, in the order of the calls. -/
def asked (h : History) : List AskedKey :=
  ⟨h.key, h.ascending, true, Call.turns h.calls⟩ :: Call.asked h.calls

/-- The history with one more call. -/
def andThen (h : History) (call : Call) : History :=
  { h with calls := h.calls ++ [call] }

theorem sorting_andThen (h : History) (call : Call) :
    (h.andThen call).sorting = h.sorting.call call := by
  simp [sorting, andThen, Sorting.calls]

/-- An order has the clauses of the keys that were asked for. -/
theorem sortsBy (h : History) : h.sorting.SortsBy h.asked := by
  have hcalls := SortsBy.calls h.calls (sortsBy_start h.key h.ascending)
  rw [List.map_singleton, AskedKey.after, Nat.zero_add] at hcalls
  exact hcalls

/-- How the orders were made that there are after one more was made. A call on an order that
there is not makes none. -/
def make (made : List History) : Making → List History
  | .start key ascending => made ++ [⟨key, ascending, []⟩]
  | .derive source call =>
    match made[source]? with
    | none => made
    | some h => made ++ [h.andThen call]

/-- How the orders were made that calls make. -/
def ofMakings (ms : List Making) : List History :=
  ms.foldl make []

end History
end Sorting

/-! ### A store of keys -/

/-- A key in a store: where the entry of the key before it is, and the number of keys that
there are from here on. -/
structure KeyEntry where
  key : SortKey
  next : Option Nat
  count : Nat

/-- An order whose newest key is an entry of a store. -/
structure SharedOrder where
  head : Nat
  reversed : Bool

/-- Orders and the entries that they share, newest first. The number of an entry is that of
the entries before it. -/
structure Shelf where
  entries : List KeyEntry
  orders : List SharedOrder

namespace Shelf

/-- The entry with a number. -/
def entryAt? : List KeyEntry → Nat → Option KeyEntry
  | [], _ => none
  | e :: older, n => if n = older.length then some e else entryAt? older n

/-- The keys from the entry with a number on. -/
def keysFrom : List KeyEntry → Nat → List SortKey
  | [], _ => []
  | e :: older, n =>
    if n = older.length then e.key :: e.next.elim [] (keysFrom older) else keysFrom older n

/-- The number of keys that the entry with a number states. -/
def countAt (entries : List KeyEntry) (n : Nat) : Nat :=
  (entryAt? entries n).elim 0 KeyEntry.count

/-- The number of clauses of an order. -/
def length (s : Shelf) (o : SharedOrder) : Nat :=
  countAt s.entries o.head

/-- The clauses of an order, written out in one pass. -/
def clauses (s : Shelf) (o : SharedOrder) : List SortClause :=
  Sorting.writeOut o.reversed [] 0 (keysFrom s.entries o.head)

/-- Puts a key in front of those from an entry on. -/
def add (s : Shelf) (key : SortKey) (next : Option Nat) (reversed : Bool) : Shelf :=
  ⟨⟨key, next, next.elim 0 (countAt s.entries) + 1⟩ :: s.entries,
    s.orders ++ [⟨s.entries.length, reversed⟩]⟩

/-- Makes an order from another one. -/
def derive (s : Shelf) (o : SharedOrder) : Sorting.Call → Shelf
  | .push key newGroup ascending =>
    s.add ⟨key, if o.reversed then !ascending else ascending, newGroup⟩ (some o.head) o.reversed
  | .reverse => { s with orders := s.orders ++ [⟨o.head, !o.reversed⟩] }

/-- Makes an order. -/
def make (s : Shelf) : Sorting.Making → Shelf
  | .start key ascending => s.add ⟨key, ascending, true⟩ none false
  | .derive source call =>
    match s.orders[source]? with
    | none => s
    | some o => s.derive o call

/-- Makes orders one after the other. -/
def ofMakings (ms : List Sorting.Making) : Shelf :=
  ms.foldl make ⟨[], []⟩

/-! ### What is in a store -/

theorem entryAt?_cons_lt {entries : List KeyEntry} (e : KeyEntry) {n : Nat}
    (h : n < entries.length) : entryAt? (e :: entries) n = entryAt? entries n :=
  if_neg (Nat.ne_of_lt h)

theorem keysFrom_cons_lt {entries : List KeyEntry} (e : KeyEntry) {n : Nat}
    (h : n < entries.length) : keysFrom (e :: entries) n = keysFrom entries n :=
  if_neg (Nat.ne_of_lt h)

theorem keysFrom_cons_self (entries : List KeyEntry) (e : KeyEntry) :
    keysFrom (e :: entries) entries.length = e.key :: e.next.elim [] (keysFrom entries) :=
  if_pos rfl

theorem countAt_cons_self (entries : List KeyEntry) (e : KeyEntry) :
    countAt (e :: entries) entries.length = e.count := by
  rw [countAt, entryAt?, if_pos rfl, Option.elim_some]

/-- Whether the entries from that of an order on are the keys of a sorting. -/
structure Reads (entries : List KeyEntry) (o : SharedOrder) (s : Sorting) : Prop where
  made : o.head < entries.length
  keys : keysFrom entries o.head = s.keys
  count : countAt entries o.head = s.length
  reversed : o.reversed = s.reversed

/-- A new entry changes no order. -/
theorem Reads.add {entries : List KeyEntry} {o : SharedOrder} {s : Sorting}
    (h : Reads entries o s) (e : KeyEntry) : Reads (e :: entries) o s where
  made := Nat.lt_succ_of_lt h.made
  keys := (keysFrom_cons_lt e h.made).trans h.keys
  count := by
    rw [countAt, entryAt?_cons_lt e h.made]
    exact h.count
  reversed := h.reversed

theorem Reads.clauses_eq {shelf : Shelf} {o : SharedOrder} {s : Sorting}
    (h : Reads shelf.entries o s) : shelf.clauses o = s.clauses := by
  rw [clauses, h.keys, h.reversed, Sorting.writeOut_eq_clauses]

/-! ### Making orders -/

/-- Whether the orders of a shelf are those of histories. -/
def Holds (s : Shelf) (made : List Sorting.History) : Prop :=
  List.Forall₂ (fun o h => Reads s.entries o h.sorting) s.orders made

variable {s : Shelf} {made : List Sorting.History}

/-- A shelf holds one more order when a key has been put in front of those of an order, or of
none. -/
theorem Holds.add (h : s.Holds made) {key : SortKey} (next : Option Nat) {reversed : Bool}
    {history : Sorting.History} (hkey : history.sorting.newest = key)
    (holder : next.elim [] (keysFrom s.entries) = history.sorting.older)
    (hcount : next.elim 0 (countAt s.entries) = history.sorting.older.length)
    (hreversed : reversed = history.sorting.reversed) :
    (s.add key next reversed).Holds (made ++ [history]) := by
  refine List.rel_append (h.imp fun o _ hreads => hreads.add _) (.cons ?_ .nil)
  refine ⟨Nat.lt_succ_self _, ?_, ?_, hreversed⟩
  · rw [Shelf.add, keysFrom_cons_self, holder, ← hkey]
    rfl
  · rw [Shelf.add, countAt_cons_self, hcount]
    rfl

/-- A call on an order makes the order that the call makes of its sorting. -/
theorem Holds.derive (h : s.Holds made) {o : SharedOrder} {history : Sorting.History}
    (ho : Reads s.entries o history.sorting) (call : Sorting.Call) :
    (s.derive o call).Holds (made ++ [history.andThen call]) := by
  cases call with
  | push key newGroup ascending =>
    refine h.add (some o.head) ?_ ?_ ?_ ?_
    · rw [Sorting.History.sorting_andThen, ho.reversed]
      cases hr : history.sorting.reversed <;> simp [Sorting.call, Sorting.push, hr]
    · rw [Sorting.History.sorting_andThen]
      exact ho.keys
    · rw [Sorting.History.sorting_andThen]
      exact ho.count
    · rw [Sorting.History.sorting_andThen]
      exact ho.reversed
  | reverse =>
    refine List.rel_append h (.cons ?_ .nil)
    rw [Sorting.History.sorting_andThen]
    exact ⟨ho.made, ho.keys, ho.count, congrArg (!·) ho.reversed⟩

/-- Making an order makes it with its history, and keeps all orders so far. -/
theorem Holds.make (h : s.Holds made) (m : Sorting.Making) :
    (s.make m).Holds (Sorting.History.make made m) := by
  cases m with
  | start key ascending => exact h.add none rfl rfl rfl rfl
  | derive source call =>
    have hsource := forall₂_iff_getElem?.mp h source
    rw [Shelf.make, Sorting.History.make]
    generalize s.orders[source]? = o, made[source]? = history at hsource
    cases hsource with
    | none => exact h
    | some hreads => exact h.derive hreads call

theorem Holds.makeAll : ∀ (ms : List Sorting.Making) {s : Shelf} {made : List Sorting.History},
    s.Holds made → (ms.foldl Shelf.make s).Holds (ms.foldl Sorting.History.make made)
  | [], _, _, h => h
  | m :: ms, _, _, h => makeAll ms (h.make m)

/-- A shelf holds the orders that were made in it. -/
theorem holds_ofMakings (ms : List Sorting.Making) :
    (ofMakings ms).Holds (Sorting.History.ofMakings ms) :=
  Holds.makeAll ms .nil

/-! ### Orders stay -/

theorem orders_make {n : Nat} {o : SharedOrder} (h : s.orders[n]? = some o) (m : Sorting.Making) :
    (s.make m).orders[n]? = some o := by
  cases m with
  | start key ascending => exact getElem?_append_of_eq_some h
  | derive source call =>
    rw [make]
    cases s.orders[source]? with
    | none => exact h
    | some o => cases call <;> exact getElem?_append_of_eq_some h

theorem orders_ofMakings {ms : List Sorting.Making} {n : Nat} {o : SharedOrder}
    (h : (ofMakings ms).orders[n]? = some o) (later : List Sorting.Making) :
    (ofMakings (ms ++ later)).orders[n]? = some o := by
  rw [ofMakings, List.foldl_append]
  exact List.foldlRecOn (motive := fun s => s.orders[n]? = some o) later make h
    fun _ hs m _ => orders_make hs m

end Shelf

namespace Sorting

theorem History.getElem?_make {made : List History} {n : Nat} {h : History}
    (hmade : made[n]? = some h) (m : Making) : (make made m)[n]? = some h := by
  cases m with
  | start key ascending => exact getElem?_append_of_eq_some hmade
  | derive source call =>
    rw [make]
    cases made[source]? with
    | none => exact hmade
    | some h => exact getElem?_append_of_eq_some hmade

theorem History.getElem?_ofMakings {ms : List Making} {n : Nat} {h : History}
    (hmade : (ofMakings ms)[n]? = some h) (later : List Making) :
    (ofMakings (ms ++ later))[n]? = some h := by
  rw [ofMakings, List.foldl_append]
  exact List.foldlRecOn (motive := fun made => made[n]? = some h) later make hmade
    fun _ hs m _ => getElem?_make hs m

/-- An order lists every key that was asked for once: the newest group first, the keys of a
group in the order in which they were asked for, each in the direction that was asked for
unless the order was turned over an odd number of times since. Orders that are made from it
later, and share its keys, leave it as it is. -/
theorem clauses_of_history (h : History) :
    (∃ groups : List (List AskedKey), groups.flatten = h.asked ∧
      (∀ group ∈ groups, AskedKey.IsGroup group) ∧
      h.sorting.clauses = groups.reverse.flatten.map AskedKey.clause) ∧
    h.sorting.length = h.sorting.clauses.length ∧
    ∀ (ms : List Making) (n : Nat), (History.ofMakings ms)[n]? = some h →
      ∃ o, ∀ later, (Shelf.ofMakings (ms ++ later)).orders[n]? = some o ∧
        (Shelf.ofMakings (ms ++ later)).clauses o = h.sorting.clauses ∧
        (Shelf.ofMakings (ms ++ later)).length o = h.sorting.length := by
  refine ⟨h.sortsBy.clauses_eq, h.sorting.length_clauses.symm, fun ms n hmade => ?_⟩
  have hreads : ∀ later, Option.Rel
      (fun o h => Shelf.Reads (Shelf.ofMakings (ms ++ later)).entries o h.sorting)
      (Shelf.ofMakings (ms ++ later)).orders[n]? (some h) := by
    intro later
    rw [← History.getElem?_ofMakings hmade later]
    exact forall₂_iff_getElem?.mp (Shelf.holds_ofMakings (ms ++ later)) n
  obtain ⟨o, ho, -⟩ := exists_of_rel_some (hreads [])
  rw [List.append_nil] at ho
  refine ⟨o, fun later => ?_⟩
  have hsame := Shelf.orders_ofMakings ho later
  have hlater := hreads later
  rw [hsame, Option.rel_some_some] at hlater
  exact ⟨hsame, hlater.clauses_eq, hlater.count⟩

/-- An order by two keys that is turned over and then sorted by two more keys: the first of
the orders before it stays what it is. -/
theorem clauses_of_history_turned :
    let x : Param := ⟨0, "x", .int32⟩
    let key (n : Int32) : Lambda := ⟨x, .const (.int32 n) .int32⟩
    let ms : List Making := [.start (key 1) true, .derive 0 (.push (key 2) false false)]
    let later : List Making := [.derive 1 .reverse, .derive 2 (.push (key 3) true true),
      .derive 3 (.push (key 4) false false), .derive 1 (.push (key 5) true true)]
    let shelf := Shelf.ofMakings (ms ++ later)
    ∃ early late, shelf.orders[1]? = some early ∧ shelf.orders[4]? = some late ∧
      shelf.clauses early = [⟨key 1, true⟩, ⟨key 2, false⟩] ∧
      shelf.clauses late = [⟨key 3, true⟩, ⟨key 4, false⟩, ⟨key 1, false⟩, ⟨key 2, true⟩] ∧
      shelf.length late = 4 := by
  intro x key ms later shelf
  let early : History := ⟨key 1, true, [.push (key 2) false false]⟩
  let late : History := ⟨key 1, true, [.push (key 2) false false, .reverse,
    .push (key 3) true true, .push (key 4) false false]⟩
  obtain ⟨-, -, hearly⟩ := clauses_of_history early
  obtain ⟨-, -, hlate⟩ := clauses_of_history late
  obtain ⟨o, ho⟩ := hearly ms 1 rfl
  obtain ⟨p, hp⟩ := hlate (ms ++ later) 4 rfl
  obtain ⟨horders, hclauses, -⟩ := ho later
  obtain ⟨porders, pclauses, plength⟩ := hp []
  exact ⟨o, p, horders, porders, hclauses, pclauses, plength⟩

end Sorting
end SeqQuery
