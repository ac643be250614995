/-
# Copying arrays in place

A reader copies the items of an array to a buffer of its caller, one after the other, and reads
an item before it puts it there. Reading a list or a record opens a buffer of its own for the
parts, and these are read in the same way at any depth. Nothing is taken back after a failure:
the buffer keeps what was put into it before, and half-filled inner buffers are left behind.

Here all buffers are cells of one store, so that whatever is read could reach each of them. A
step is described on any buffers around the one it fills, which stay as they are
(`Filling.Fills`). Reading then gives what `Reply.readAs` gives, and opens buffers but fills none
that was there (`Reply.readBuffered_gives`); copying fills the buffer of the caller alone, as
`Reply.copyArray` says (`Reply.copyTo_fills`).

Key definitions: `Buffers`, `Filling`, `Filling.Gives`, `Filling.Fills`, `Filling.collect`,
`Reply.copyTo`, `Reply.readBuffered`.
Key theorems: `Filling.Fills.bind`, `Filling.collect_gives`, `Reply.copyArray_eq_ok`,
`Reply.copyArray_eq_error`, `Reply.copyTo_fills`, `Reply.readBuffered_gives`,
`Reply.copyArray_exact`.
-/
import SeqQuery.Proofs.Decoding

namespace SeqQuery

variable {α β : Type}

/-! ### Buffers -/

/-- Lists that grow at their end. A buffer is known by the number of those that were opened
before it. -/
abbrev Buffers : Type := List (List Value)

/-- Steps that fill buffers and may fail. What was filled before a failure stays filled. -/
abbrev Filling (α : Type) : Type := ExceptT QueryError (StateM Buffers) α

namespace Filling

/-- A step that leaves all buffers as they are. -/
def ofOutcome (outcome : Except QueryError α) : Filling α :=
  fun buffers => (outcome, buffers)

/-- Opens an empty buffer and gives its number. -/
def openBuffer : Filling Nat :=
  fun buffers => (.ok buffers.length, buffers ++ [[]])

/-- Puts a value at the end of a buffer. -/
def push (n : Nat) (v : Value) : Filling Unit :=
  fun buffers => (.ok (), buffers.modify n (· ++ [v]))

/-- What is in a buffer. -/
def contents (n : Nat) : Filling (List Value) :=
  fun buffers => (.ok (buffers[n]?.getD []), buffers)

/-- Fills a new buffer and gives what is in it then. -/
def collect (fill : Nat → Filling Unit) : Filling (List Value) := do
  let n ← openBuffer
  fill n
  contents n

theorem bind_of_ok {x : Filling α} {buffers after : Buffers} {a : α}
    (h : x buffers = (.ok a, after)) (f : α → Filling β) : (x >>= f) buffers = f a after := by
  change ExceptT.bindCont f (x buffers).1 (x buffers).2 = _
  rw [h]
  rfl

theorem bind_of_error {x : Filling α} {buffers after : Buffers} {e : QueryError}
    (h : x buffers = (.error e, after)) (f : α → Filling β) :
    (x >>= f) buffers = (.error e, after) := by
  change ExceptT.bindCont f (x buffers).1 (x buffers).2 = _
  rw [h]
  rfl

/-! ### What steps do to buffers -/

/-- Whether a step has an outcome and leaves all buffers as they are, but for those that it
opens. -/
def Gives (x : Filling α) (outcome : Except QueryError α) : Prop :=
  ∀ buffers, ∃ opened, x buffers = (outcome, buffers ++ opened)

/-- Whether a step has an outcome and puts values into the buffer with a number, and leaves all
others as they are, but for those that it opens. The others are named, so that a step has the
same description whatever there is around the buffer that it fills. -/
def Fills (x : Filling α) (n : Nat) (values : List Value) (outcome : Except QueryError α) : Prop :=
  ∀ (before after : Buffers) (buffer : List Value), before.length = n →
    ∃ opened, x (before ++ buffer :: after) =
      (outcome, before ++ (buffer ++ values) :: (after ++ opened))

variable {x : Filling α} {f : α → Filling β} {n : Nat} {values more : List Value}

theorem gives_ofOutcome (outcome : Except QueryError α) : Gives (ofOutcome outcome) outcome :=
  fun buffers => ⟨[], by rw [ofOutcome, List.append_nil]⟩

theorem gives_pure (a : α) : Gives (pure a) (.ok a) :=
  gives_ofOutcome (.ok a)

theorem Gives.bind {outcome : Except QueryError α} {g : α → Except QueryError β}
    (hx : Gives x outcome) (hf : ∀ a, Gives (f a) (g a)) : Gives (x >>= f) (outcome >>= g) := by
  intro buffers
  obtain ⟨opened, h⟩ := hx buffers
  cases outcome with
  | error e => exact ⟨opened, bind_of_error h f⟩
  | ok a =>
    obtain ⟨later, hlater⟩ := hf a (buffers ++ opened)
    rw [List.append_assoc] at hlater
    exact ⟨opened ++ later, (bind_of_ok h f).trans hlater⟩

theorem Gives.map {outcome : Except QueryError α} (hx : Gives x outcome) (g : α → β) :
    Gives (x >>= fun a => pure (g a)) (outcome.map g) :=
  hx.bind fun a => gives_pure (g a)

/-- A step that only opens buffers puts nothing into any other. -/
theorem Gives.fills {outcome : Except QueryError α} (h : Gives x outcome) :
    Fills x n [] outcome := by
  intro before after buffer _
  obtain ⟨opened, h⟩ := h (before ++ buffer :: after)
  rw [List.append_assoc, List.cons_append] at h
  exact ⟨opened, by rw [List.append_nil, h]⟩

/-- Steps one after the other put their values into a buffer one after the other. -/
theorem Fills.bind {a : α} {outcome : Except QueryError β} (hx : Fills x n values (.ok a))
    (hf : Fills (f a) n more outcome) : Fills (x >>= f) n (values ++ more) outcome := by
  intro before after buffer hn
  obtain ⟨opened, h⟩ := hx before after buffer hn
  obtain ⟨later, hlater⟩ := hf before (after ++ opened) (buffer ++ values) hn
  rw [List.append_assoc, List.append_assoc] at hlater
  exact ⟨opened ++ later, (bind_of_ok h f).trans hlater⟩

/-- After a failure nothing more is put into a buffer. -/
theorem Fills.bind_error {e : QueryError} (hx : Fills x n values (.error e)) :
    Fills (x >>= f) n values (.error e) := by
  intro before after buffer hn
  obtain ⟨opened, h⟩ := hx before after buffer hn
  exact ⟨opened, bind_of_error h f⟩

/-- A step after which nothing is put into a buffer can change the value of the outcome. -/
theorem Fills.map {outcome : Except QueryError α} (hx : Fills x n values outcome) (g : α → β) :
    Fills (x >>= fun a => pure (g a)) n values (outcome.map g) := by
  cases outcome with
  | error e => exact hx.bind_error
  | ok a =>
    have hpure := hx.bind (f := fun a => pure (g a)) (gives_pure (g a)).fills
    rw [List.append_nil] at hpure
    exact hpure

theorem push_fills (n : Nat) (v : Value) : Fills (push n v) n [v] (.ok ()) := by
  rintro before after buffer rfl
  have hmodify : (before ++ buffer :: after).modify before.length (· ++ [v]) =
      before ++ (buffer ++ [v]) :: after :=
    List.modifyTailIdx_add (List.modifyHead (· ++ [v])) 0 before (buffer :: after)
  exact ⟨[], by rw [push, hmodify, List.append_nil]⟩

/-- Filling a new buffer gives what was put into it, and fills none of those that were there. -/
theorem collect_gives {fill : Nat → Filling Unit} {outcome : Except QueryError Unit}
    (h : ∀ n, Fills (fill n) n values outcome) :
    Gives (collect fill) (outcome.map fun _ => values) := by
  intro buffers
  obtain ⟨opened, hfill⟩ := h buffers.length buffers [] [] rfl
  have hopen : openBuffer buffers = (.ok buffers.length, buffers ++ [[]]) := rfl
  rw [List.nil_append, List.nil_append] at hfill
  refine ⟨values :: opened, ?_⟩
  rw [collect, bind_of_ok hopen]
  cases outcome with
  | error e => exact bind_of_error hfill _
  | ok _ =>
    rw [bind_of_ok hfill, contents, List.getElem?_append_right (Nat.le_refl _), Nat.sub_self]
    rfl

end Filling

namespace Reply

/-! ### Readers that fill buffers -/

/-- Copies the items from an index on, each as soon as it has been read. -/
def copyItems (read : Reply → Filling Value) (r : Reply) (n : Nat) : Nat → Nat → Filling Unit
  | _, 0 => return ()
  | index, left + 1 =>
    match r.items[index]? with
    | none => .ofOutcome (.error (.backend ("array item " ++ toString index ++ " missing")))
    | some item => do
      let v ← read item
      Filling.push n v
      copyItems read r n (index + 1) left

/-- Copies the items of an array to a buffer and gives their number. -/
def copyTo (read : Reply → Filling Value) (r : Reply) (n : Nat) : Filling Nat :=
  if r.isArray then do
    copyItems read r n 0 r.items.length
    return r.items.length
  else .ofOutcome (.error (.coercionFailure "scalar" "array"))

/-- Reads the item at an index, in whose place there may be a value. -/
def itemOr (read : Reply → Filling Value) (missing : Value) (r : Reply) (index : Nat) :
    Filling Value :=
  match r.items[index]? with
  | none => return missing
  | some item => read item

mutual

/-- Reads a value of a type. Its parts are collected in buffers. -/
def readBuffered : Ty → Reply → Filling Value
  | ty, .nil => .ofOutcome (readAs ty .nil)
  | .list item, r => do
    -- the buffer is open before it is known that there is no array
    let values ← Filling.collect fun n => do
      let _ ← copyTo (readBuffered item) r n
      return ()
    return .list values
  | .record name fields, .array items => do
    let values ← Filling.collect (pushFields fields (.array items) 0)
    .ofOutcome ((Value.ofRecord? ⟨name, fields⟩ values).mapError .ofValue)
  | ty, r => .ofOutcome (readAs ty r)

/-- Puts the values of fields into a buffer, from the item at an index on. -/
def pushFields : Fields → Reply → Nat → Nat → Filling Unit
  | .nil, _, _, _ => return ()
  | .cons _ ty rest, r, index, n => do
    let v ← itemOr (readBuffered ty) ty.zero r index
    Filling.push n v
    pushFields rest r (index + 1) n

end

/-! ### What is copied -/

section Copying

variable {read : Reply → Except QueryError Value} {readInPlace : Reply → Filling Value}

/-- Items that can be read are read before those behind them. -/
theorem readItems_append {before : List Reply} {values : List Value}
    (h : List.Forall₂ (fun item v => read item = .ok v) before values) (rest : List Reply) :
    readItems read (before ++ rest) =
      (values ++ (readItems read rest).1, (readItems read rest).2) := by
  induction h with
  | nil => rfl
  | cons hv _ ih =>
    rw [List.cons_append, readItems, hv, ih]
    rfl

theorem ReadsUpTo.eq {items : List Reply} {values : List Value} {outcome : Except QueryError Unit}
    (h : ReadsUpTo read items values outcome) : readItems read items = (values, outcome) := by
  cases h with
  | all h =>
    have happend := readItems_append h []
    rw [List.append_nil] at happend
    rw [happend, readItems, List.append_nil]
  | failing h hitem => rw [readItems_append h, readItems, hitem, List.append_nil]

/-- Copying appends to a list what it gives for an empty one. -/
theorem copyArray_append (r : Reply) (out : List Value) :
    copyArray read r out = (out ++ (copyArray read r []).1, (copyArray read r []).2) := by
  cases r with
  | array items => rfl
  | _ => rw [copyArray, copyArray, List.append_nil] <;> nofun

/-- Copying ends in a number exactly when there is an array and each of its items can be read. -/
theorem copyArray_eq_ok {r : Reply} {values : List Value} {n : Nat} :
    copyArray read r [] = (values, .ok n) ↔ ∃ items, r = .array items ∧ n = items.length ∧
      List.Forall₂ (fun item v => read item = .ok v) items values := by
  constructor
  · intro h
    cases r with
    | array items =>
      obtain ⟨rfl, hcount⟩ := Prod.mk.inj h
      obtain ⟨_, houtcome, rfl⟩ := Outcome.map_eq_ok.mp hcount
      have hreads := readItems_reads read items
      rw [houtcome] at hreads
      cases hreads with
      | all h => exact ⟨items, rfl, rfl, h⟩
    | _ => cases (Prod.mk.inj h).2
  · rintro ⟨items, rfl, rfl, h⟩
    rw [copyArray, (ReadsUpTo.all h).eq]
    rfl

/-- Copying fails exactly when an item of an array cannot be read, or there is no array. -/
theorem copyArray_eq_error {r : Reply} {values : List Value} {e : QueryError} :
    copyArray read r [] = (values, .error e) ↔
      (∃ before item rest, r = .array (before ++ item :: rest) ∧
        List.Forall₂ (fun item v => read item = .ok v) before values ∧ read item = .error e) ∨
      r.isArray = false ∧ values = [] ∧ e = .coercionFailure "scalar" "array" := by
  constructor
  · intro h
    cases r with
    | array items =>
      obtain ⟨rfl, herror⟩ := Prod.mk.inj h
      have hreads := readItems_reads read items
      generalize (readItems read items).2 = outcome at herror hreads
      cases hreads with
      | all _ => cases herror
      | failing h hitem =>
        cases herror
        exact .inl ⟨_, _, _, rfl, h, hitem⟩
    | _ =>
      cases h
      exact .inr ⟨rfl, rfl, rfl⟩
  · rintro (⟨before, item, rest, rfl, h, hitem⟩ | ⟨hr, rfl, rfl⟩)
    · rw [copyArray, (ReadsUpTo.failing h hitem).eq]
      rfl
    · cases r with
      | array items => cases hr
      | _ => rfl

/-- Copying from an index on fills a buffer with what is read from the items there, up to the
first that cannot be read. -/
theorem copyItems_fills (h : ∀ r, (readInPlace r).Gives (read r)) (r : Reply) (n : Nat) :
    ∀ left index, index + left = r.items.length →
      (copyItems readInPlace r n index left).Fills n (readItems read (r.items.drop index)).1
        (readItems read (r.items.drop index)).2
  | 0, index, hend => by
    rw [List.drop_of_length_le (by omega)]
    exact (Filling.gives_pure ()).fills
  | left + 1, index, hend => by
    have hindex : index < r.items.length := by omega
    have hrest := copyItems_fills h r n left (index + 1) (by omega)
    -- reading the item fills no buffer that is there, so only its value comes before the rest
    have hitem := (h r.items[index]).fills (n := n)
    rw [copyItems, List.getElem?_eq_getElem hindex, List.drop_eq_getElem_cons hindex, readItems]
    cases hread : read r.items[index] with
    | error e =>
      rw [hread] at hitem
      exact hitem.bind_error
    | ok v =>
      rw [hread] at hitem
      exact hitem.bind ((Filling.push_fills n v).bind hrest)

/-- Copying to a buffer puts into it what copying to a list appends. -/
theorem copyTo_fills (h : ∀ r, (readInPlace r).Gives (read r)) (r : Reply) (n : Nat) :
    (copyTo readInPlace r n).Fills n (copyArray read r []).1 (copyArray read r []).2 := by
  cases r with
  | array items =>
    have hitems := copyItems_fills h (.array items) n items.length 0 (Nat.zero_add _)
    exact hitems.map fun _ => items.length
  | _ => exact (Filling.gives_ofOutcome _).fills

end Copying

/-! ### Readers in place -/

/-- An item is read in place as it is read, also where it is missing. -/
theorem itemOr_gives {ty : Ty} (h : ∀ r, (readBuffered ty r).Gives (readAs ty r)) (r : Reply)
    (index : Nat) : (itemOr (readBuffered ty) ty.zero r index).Gives
      (r.items[index]?.elim (.ok ty.zero) (readAs ty)) := by
  rw [itemOr]
  cases r.items[index]? with
  | none => exact Filling.gives_pure _
  | some item => exact h item

/-- The first of the fields takes the item at an index. -/
theorem readFields_drop (name : String) (ty : Ty) (rest : Fields) (items : List Reply)
    (index : Nat) :
    readFields (.cons name ty rest) (items.drop index) =
      items[index]?.elim (.ok ty.zero) (readAs ty) >>= fun v =>
        readFields rest (items.drop (index + 1)) >>= fun values => .ok (v :: values) := by
  by_cases hindex : index < items.length
  · rw [List.drop_eq_getElem_cons hindex, List.getElem?_eq_getElem hindex]
    rfl
  · have hle : items.length ≤ index := Nat.le_of_not_lt hindex
    rw [List.drop_of_length_le hle, List.drop_of_length_le (Nat.le_succ_of_le hle),
      List.getElem?_eq_none hle]
    rfl

/-- A list is collected from the items of an array in place. -/
theorem collect_copyTo_gives {item : Ty} (h : ∀ r, (readBuffered item r).Gives (readAs item r))
    (r : Reply) :
    (Filling.collect (fun n => copyTo (readBuffered item) r n >>= fun _ => pure ()) >>=
      fun values => pure (Value.list values)).Gives
      ((copyArray (readAs item) r []).2.map fun _ => .list (copyArray (readAs item) r []).1) := by
  have hcopy := fun n => (copyTo_fills h r n).map fun _ => ()
  have hlist := (Filling.collect_gives hcopy).map Value.list
  cases houtcome : (copyArray (readAs item) r []).2 with
  | error e =>
    rw [houtcome] at hlist
    exact hlist
  | ok _ =>
    rw [houtcome] at hlist
    exact hlist

mutual

/-- Reading in place gives what is read, and fills no buffer that was there before. -/
theorem readBuffered_gives : ∀ (ty : Ty) (r : Reply), (readBuffered ty r).Gives (readAs ty r)
  | ty, .nil => by
    rw [readBuffered]
    exact Filling.gives_ofOutcome _
  | .list item, .integer n => collect_copyTo_gives (readBuffered_gives item) (.integer n)
  | .list item, .bulk text => collect_copyTo_gives (readBuffered_gives item) (.bulk text)
  | .list item, .array items => collect_copyTo_gives (readBuffered_gives item) (.array items)
  | .record name fields, .array items => by
    obtain ⟨values, outcome, hfill, hfields⟩ := pushFields_fills fields (.array items) 0
    have hvalues := Filling.collect_gives hfill
    rw [hfields] at hvalues
    exact hvalues.bind fun _ => Filling.gives_ofOutcome _
  | .record _ _, .integer _ | .record _ _, .bulk _
  | .null, .integer _ | .null, .bulk _ | .null, .array _
  | .bool, .integer _ | .bool, .bulk _ | .bool, .array _
  | .int32, .integer _ | .int32, .bulk _ | .int32, .array _
  | .int64, .integer _ | .int64, .bulk _ | .int64, .array _
  | .float32, .integer _ | .float32, .bulk _ | .float32, .array _
  | .float64, .integer _ | .float64, .bulk _ | .float64, .array _
  | .string, .integer _ | .string, .bulk _ | .string, .array _
  | .timestamp, .integer _ | .timestamp, .bulk _ | .timestamp, .array _ =>
    Filling.gives_ofOutcome _

/-- The values of fields that are put into a buffer are those that are read, and if reading
fails, those before the failure. -/
theorem pushFields_fills : ∀ (fields : Fields) (r : Reply) (index : Nat),
    ∃ values outcome, (∀ n, (pushFields fields r index n).Fills n values outcome) ∧
      (outcome.map fun _ => values) = readFields fields (r.items.drop index)
  | .nil, r, index => ⟨[], .ok (), fun _ => (Filling.gives_pure ()).fills, by rw [readFields]; rfl⟩
  | .cons name ty rest, r, index => by
    obtain ⟨values, outcome, hfill, hfields⟩ := pushFields_fills rest r (index + 1)
    have hitem := itemOr_gives (readBuffered_gives ty) r index
    rw [readFields_drop]
    cases hread : r.items[index]?.elim (.ok ty.zero) (readAs ty) with
    | error e =>
      rw [hread] at hitem
      exact ⟨[], .error e, fun _ => hitem.fills.bind_error, rfl⟩
    | ok v =>
      rw [hread] at hitem
      refine ⟨v :: values, outcome,
        fun n => hitem.fills.bind ((Filling.push_fills n v).bind (hfill n)), ?_⟩
      rw [← hfields]
      cases outcome <;> rfl

end

/-! ### Copying to a list -/

/-- Copying to a list keeps what was in it in front and appends values. It ends in a number
exactly when every item of an array can be read: the number is that of the items, and the values
are what is read from them. It fails exactly when an item cannot be read, with the error of the
first such item and the values of those before it, or when there is no array, and then nothing is
appended. With all lists in one store, the copy is the same, and every other list stays as it
is. -/
theorem copyArray_exact (ty : Ty) (r : Reply) (out : List Value) :
    ∃ appended outcome, copyArray (readAs ty) r out = (out ++ appended, outcome) ∧
      (∀ n, outcome = .ok n ↔ ∃ items, r = .array items ∧ n = items.length ∧
        List.Forall₂ (fun item v => readAs ty item = .ok v) items appended) ∧
      (∀ e, outcome = .error e ↔
        (∃ before item rest, r = .array (before ++ item :: rest) ∧
          List.Forall₂ (fun item v => readAs ty item = .ok v) before appended ∧
          readAs ty item = .error e) ∨
        r.isArray = false ∧ appended = [] ∧ e = .coercionFailure "scalar" "array") ∧
      ∀ before after : Buffers, ∃ opened,
        copyTo (readBuffered ty) r before.length (before ++ out :: after) =
          (outcome, before ++ (out ++ appended) :: (after ++ opened)) := by
  obtain ⟨⟨appended, outcome⟩, hcopy⟩ : ∃ copy, copyArray (readAs ty) r [] = copy := ⟨_, rfl⟩
  refine ⟨appended, outcome, ?_, fun n => ?_, fun e => ?_, fun before after => ?_⟩
  · rw [copyArray_append, hcopy]
  · simp only [← copyArray_eq_ok, hcopy, Prod.mk.injEq, true_and]
  · simp only [← copyArray_eq_error, hcopy, Prod.mk.injEq, true_and]
  · have hfills := copyTo_fills (readBuffered_gives ty) r before.length
    rw [hcopy] at hfills
    exact hfills before after out rfl

/-- Nothing is no integer, so the second list cannot be read. The first one is appended, and what
was read of the second is left behind in a buffer of its own. -/
example :
    copyTo (readBuffered (.list .int32)) (.array [.array [.integer 1, .integer 2],
        .array [.integer 3, .nil], .array [.integer 4]]) 0 [[.null]] =
      (.error (.coercionFailure "Null" "Int32"),
        [[.null, .list [.int32 1, .int32 2]], [.int32 1, .int32 2], [.int32 3]]) :=
  rfl

end Reply
end SeqQuery
