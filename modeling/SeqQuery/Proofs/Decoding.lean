/-
# What is read from replies

A reply is read as a value by its type, and the type is all that decides what the value may
be: whatever a reply looks like, what is read from it as a value of a type is a deep instance
of that type, fields that an array is too short for included. Reading fails only because
something cannot be converted, and a record always gets one value for each of its fields.

Reading goes down a type and its fields, so both are proved together along the recursion of
`Reply.readAs` and `Reply.readFields`, as one statement about outcomes (`Reply.Decodes`).

Key definitions: `QueryError.IsConversion`, `Reply.ReadsUpTo`, `Reply.Decodes`.
Key theorems: `Reply.readItems_reads`, `Reply.readItems_ends`, `Reply.readAs_decodes`,
`Memory.ofReplies_deep`.
-/
import SeqQuery.Backend.Reply
import SeqQuery.Proofs.Deep
import SeqQuery.Proofs.Outcome

namespace SeqQuery

/-- The errors of something that cannot be converted. -/
def QueryError.IsConversion (e : QueryError) : Prop :=
  ∃ source target, e = .coercionFailure source target

/-- A record with too few or too many values is no failed conversion. -/
theorem QueryError.not_isConversion_recordArity (record : String) (expected actual : Nat) :
    ¬ (QueryError.ofValue (.recordArity record expected actual)).IsConversion := by
  rintro ⟨source, target, ⟨⟩⟩

namespace Reply

/-! ### Scalars -/

theorem unreadable_isConversion (r : Reply) (target : String) :
    (r.unreadable target).IsConversion :=
  ⟨r.kind, target, rfl⟩

theorem readInt_ends (r : Reply) : Ends (fun _ => True) QueryError.IsConversion r.readInt := by
  cases r with
  | integer n => exact .ok trivial
  | bulk text =>
    rw [readInt]
    split
    · split
      · exact .ok trivial
      · exact .error (unreadable_isConversion _ _)
    · exact .error (unreadable_isConversion _ _)
  | _ => exact .error (unreadable_isConversion _ _)

theorem readFloat_ends (r : Reply) : Ends (fun _ => True) QueryError.IsConversion r.readFloat := by
  cases r with
  | integer n => exact .ok trivial
  | bulk text =>
    rw [readFloat]
    split
    · exact .ok trivial
    · exact .error (unreadable_isConversion _ _)
  | _ => exact .error (unreadable_isConversion _ _)

theorem readString_ends (r : Reply) :
    Ends (fun _ => True) QueryError.IsConversion r.readString := by
  cases r with
  | bulk text => exact .ok trivial
  | integer n => exact .ok trivial
  | _ => exact .error (unreadable_isConversion _ _)

theorem readInt32_ends (r : Reply) :
    Ends (fun _ => True) QueryError.IsConversion r.readInt32 := by
  refine r.readInt_ends.bind fun n _ => ?_
  split
  · exact .ok trivial
  · exact .error ⟨_, _, rfl⟩

/-! ### Arrays -/

/-- What reading items one after the other ends in: all are read, or those before the first that
cannot be read. -/
inductive ReadsUpTo (read : Reply → Except QueryError Value) :
    List Reply → List Value → Except QueryError Unit → Prop
  | all {items : List Reply} {values : List Value}
      (h : List.Forall₂ (fun item v => read item = .ok v) items values) :
      ReadsUpTo read items values (.ok ())
  | failing {before rest : List Reply} {item : Reply} {values : List Value} {e : QueryError}
      (h : List.Forall₂ (fun item v => read item = .ok v) before values)
      (hitem : read item = .error e) :
      ReadsUpTo read (before ++ item :: rest) values (.error e)

theorem ReadsUpTo.cons {read : Reply → Except QueryError Value} {item : Reply} {v : Value}
    {items : List Reply} {values : List Value} {outcome : Except QueryError Unit}
    (hv : read item = .ok v) (h : ReadsUpTo read items values outcome) :
    ReadsUpTo read (item :: items) (v :: values) outcome := by
  cases h with
  | all h => exact .all (.cons hv h)
  | failing h hitem => exact .failing (.cons hv h) hitem

theorem readItems_reads (read : Reply → Except QueryError Value) : ∀ items : List Reply,
    ReadsUpTo read items (readItems read items).1 (readItems read items).2
  | [] => .all .nil
  | item :: rest => by
    rw [readItems]
    cases hread : read item with
    | error e => exact .failing .nil hread
    | ok v => exact (readItems_reads read rest).cons hread

/-- When every item is read well, so are all items up to the first that cannot be read. -/
theorem readItems_ends {read : Reply → Except QueryError Value} {P : Value → Prop}
    {E : QueryError → Prop} (h : ∀ r, Ends P E (read r)) (rs : List Reply) :
    (∀ v ∈ (readItems read rs).1, P v) ∧ Ends (fun _ => True) E (readItems read rs).2 := by
  have hvalues : ∀ {items values}, List.Forall₂ (fun item v => read item = .ok v) items values →
      ∀ v ∈ values, P v :=
    fun hread => Outcome.forall_mem_of_forall₂ (hread.imp fun r v hv => (h r).of_ok hv)
  have hreads := readItems_reads read rs
  generalize readItems read rs = result at hreads ⊢
  obtain ⟨values, outcome⟩ := result
  cases hreads with
  | all hread => exact ⟨hvalues hread, .ok trivial⟩
  | failing hread hitem => exact ⟨hvalues hread, .error ((h _).of_error hitem)⟩

/-! ### Values of a type -/

/-- What reading a value of a type may end in: a deep instance of the type, or a failed
conversion. -/
def Decodes (ty : Ty) (outcome : Except QueryError Value) : Prop :=
  Ends (fun v => ty.admitsDeep v = true) QueryError.IsConversion outcome

/-- Nothing is read as null, if the type has it. -/
theorem readAs_nil_decodes (ty : Ty) : Decodes ty (readAs ty .nil) := by
  rw [readAs]
  split
  · next hnull => exact .ok (Ty.admitsDeep_null.trans hnull)
  · exact .error ⟨_, _, rfl⟩

/-- An array is read as a list of what is read from its items. -/
theorem copyArray_decodes {item : Ty} (h : ∀ r, Decodes item (readAs item r)) (r : Reply) :
    Decodes (.list item)
      ((copyArray (readAs item) r []).2.map fun _ => .list (copyArray (readAs item) r []).1) := by
  cases r with
  | array items =>
    obtain ⟨hvalues, houtcome⟩ := readItems_ends h items
    have hcount : Ends (fun _ => True) QueryError.IsConversion
        ((readItems (readAs item) items).2.map fun _ => items.length) :=
      houtcome.map fun _ _ => trivial
    exact hcount.map fun _ _ => Ty.admitsDeep_list.mpr (.inr ⟨_, rfl, hvalues⟩)
  | _ => exact .error ⟨_, _, rfl⟩

mutual

/-- What is read as a value of a type is a deep instance of it. -/
theorem readAs_decodes : ∀ (ty : Ty) (r : Reply), Decodes ty (readAs ty r)
  | ty, .nil => readAs_nil_decodes ty
  | .null, .integer _ | .null, .bulk _ | .null, .array _ => .ok rfl
  | .bool, .integer _ | .bool, .bulk _ | .bool, .array _ => (readInt_ends _).map fun _ _ => rfl
  | .int32, .integer _ | .int32, .bulk _ | .int32, .array _ =>
    (readInt32_ends _).map fun _ _ => rfl
  | .int64, .integer _ | .int64, .bulk _ | .int64, .array _ => (readInt_ends _).map fun _ _ => rfl
  | .float32, .integer _ | .float32, .bulk _ | .float32, .array _ =>
    (readFloat_ends _).map fun _ _ => rfl
  | .float64, .integer _ | .float64, .bulk _ | .float64, .array _ =>
    (readFloat_ends _).map fun _ _ => rfl
  | .string, .integer _ | .string, .bulk _ | .string, .array _ =>
    (readString_ends _).map fun _ _ => rfl
  | .timestamp, .integer _ | .timestamp, .bulk _ | .timestamp, .array _ =>
    (readInt_ends _).map fun _ _ => rfl
  | .list item, .integer n => copyArray_decodes (readAs_decodes item) (.integer n)
  | .list item, .bulk text => copyArray_decodes (readAs_decodes item) (.bulk text)
  | .list item, .array items => copyArray_decodes (readAs_decodes item) (.array items)
  | .record name _, .integer _ | .record name _, .bulk _ => .error ⟨"scalar", name, rfl⟩
  | .record name fields, .array items => by
    refine (readFields_decodes fields items).bind fun values hvalues => ?_
    have hlength : values.length = fields.length := by
      rw [← Fields.length_types, hvalues.length_eq]
    rw [Value.ofRecord?, if_pos hlength]
    exact .ok (Ty.admitsDeep_record.mpr (.inr ⟨values, rfl, hvalues⟩))

/-- The values of fields are read one for each field, as deep instances of its type. -/
theorem readFields_decodes : ∀ (fields : Fields) (rs : List Reply),
    Ends (fun vs => List.Forall₂ (fun ty v => ty.admitsDeep v = true) fields.types vs)
      QueryError.IsConversion (readFields fields rs)
  | .nil, _ => .ok .nil
  | .cons _ ty rest, [] =>
    (readFields_decodes rest []).bind fun _ hvalues => .ok (.cons ty.admitsDeep_zero hvalues)
  | .cons _ ty rest, r :: rs =>
    (readAs_decodes ty r).bind fun _ hv =>
      (readFields_decodes rest rs).bind fun _ hvalues => .ok (.cons hv hvalues)

end

end Reply

/-! ### Rows -/

/-- Whatever a reply looks like, what is read from it as a value of a type is a deep instance
of the type. Reading fails by a conversion, never by the number of values of a record. So
the rows that are read from replies are deep instances of the type of the origin. -/
theorem Memory.ofReplies_deep :
    (∀ (ty : Ty) (r : Reply) (v : Value), Reply.readAs ty r = .ok v → ty.admitsDeep v) ∧
    (∀ (ty : Ty) (r : Reply) (e : QueryError), Reply.readAs ty r = .error e →
      e.IsConversion ∧ ∀ record expected actual,
        e ≠ .ofValue (.recordArity record expected actual)) ∧
    ∀ (origin : Ty) (replies : List Reply) (m : Memory), Memory.ofReplies origin replies = .ok m →
      m.origin = origin ∧ ∀ row ∈ m.rows, origin.admitsDeep row := by
  have hdeep : ∀ (ty : Ty) (r : Reply) (v : Value), Reply.readAs ty r = .ok v →
      ty.admitsDeep v := fun ty r _ hv => (Reply.readAs_decodes ty r).of_ok hv
  refine ⟨hdeep, fun ty r e he => ?_, fun origin replies m hm => ?_⟩
  · have hconversion : e.IsConversion := (Reply.readAs_decodes ty r).of_error he
    refine ⟨hconversion, fun record expected actual => ?_⟩
    rintro rfl
    exact QueryError.not_isConversion_recordArity record expected actual hconversion
  · obtain ⟨rows, hrows, rfl⟩ := Outcome.map_eq_ok.mp hm
    have hread : List.Forall₂ (fun _ row => origin.admitsDeep row = true) replies rows :=
      (Outcome.mapM_eq_ok.mp hrows).imp fun r row hrow => hdeep origin r row hrow
    exact ⟨rfl, Outcome.forall_mem_of_forall₂ hread⟩

/-- An array that is too short for the place it is read as, in a row with a list that has
nothing in it for an item, and a row that is nothing. Nothing is no integer. -/
theorem Memory.ofReplies_deep_short :
    let place : RecordTy := ⟨"Place", .cons "city" .string (.cons "zip" .int64 .nil)⟩
    let row : RecordTy :=
      ⟨"Row", .cons "id" .int32 (.cons "tags" (.list .string) (.cons "home" place.ty .nil))⟩
    let reply : Reply := .array [.integer 7, .array [.bulk "a", .nil], .array [.bulk "b"]]
    let read : Value := .record row [.int32 7, .list [.string "a", .null],
      .record place [.string "b", .int64 0]]
    (reply.readAs row.ty = .ok read ∧ row.ty.admitsDeep read) ∧
    (Reply.nil.readAs .int32 = .error (.coercionFailure "Null" "Int32") ∧
      (QueryError.coercionFailure "Null" "Int32").IsConversion) ∧
    ∃ m, Memory.ofReplies row.ty [reply, .nil] = .ok m ∧ m.rows = [read, .null] ∧
      ∀ value ∈ m.rows, row.ty.admitsDeep value := by
  intro place row reply read
  obtain ⟨hdeep, hfails, hrows⟩ := Memory.ofReplies_deep
  have hread : reply.readAs row.ty = .ok read := rfl
  have hnothing : Reply.nil.readAs .int32 = .error (.coercionFailure "Null" "Int32") := rfl
  refine ⟨⟨hread, hdeep row.ty reply read hread⟩,
    ⟨hnothing, (hfails .int32 .nil _ hnothing).1⟩, _, rfl, rfl, ?_⟩
  exact (hrows row.ty [reply, .nil] _ rfl).2

end SeqQuery
