/-
# Nodes that folding keeps

Marks tell which nodes of a folded expression are nodes of the expression that was folded.
Where every node has a mark and none is among those below it, folding gives back the very
node it was given exactly when it has nothing to do: what it gives otherwise is a new node, or
a node from below.

So folding twice gives the very node that folding once gives, unless checked sums or products
occur, and a node that is not given back has always become another expression.

Key definitions: `Marks.Has`, `Marks.Fits`.
Key theorems: `Expr.foldMarks_eq`, `Expr.finishMarks_mark`, `Expr.foldMarks_isNode`,
`Expr.fold_keeps_node`.
-/
import SeqQuery.Expr.Marks
import SeqQuery.Proofs.Settled

namespace SeqQuery
namespace Marks

/-- Whether a node has a mark or a node below it does. -/
inductive Has (mark : Nat) : Marks → Prop
  | self (parts : List Marks) : Has mark (.node (some mark) parts)
  | part {own : Option Nat} {parts : List Marks} {m : Marks} (hm : m ∈ parts) (h : Has mark m) :
    Has mark (.node own parts)

/-- Marks of the shape of an expression: every node has one, and none of those below it has
the same. -/
inductive Fits : Expr → Marks → Prop
  | node {e : Expr} {mark : Nat} {parts : List Marks}
      (hlength : e.children.length = parts.length)
      (hparts : ∀ p ∈ e.children.zip parts, Fits p.1 p.2) (hbelow : ∀ m ∈ parts, ¬ m.Has mark) :
    Fits e (.node (some mark) parts)

variable {m n : Marks} {k : Nat}

theorem has_of_mark (h : k ∈ m.mark) : m.Has k := by
  obtain ⟨mark, parts⟩ := m
  obtain rfl : mark = some k := h
  exact .self parts

theorem has_of_part {p : Marks} (hp : p ∈ m.parts) (h : p.Has k) : m.Has k := by
  obtain ⟨mark, parts⟩ := m
  exact .part hp h

theorem mark_of_part {i : Nat} (h : k ∈ (m.part i).mark) : ∃ p ∈ m.parts, k ∈ p.mark := by
  unfold part at h
  cases hp : m.parts[i]? with
  | none =>
    rw [hp] at h
    cases h
  | some p =>
    rw [hp] at h
    exact ⟨p, List.mem_of_getElem? hp, h⟩

theorem Fits.isNode_self {e : Expr} (h : Fits e m) : m.isNode m := by
  obtain ⟨-, -, -⟩ := h
  simp [isNode, mark]

/-- A node whose mark is from below another is not that node. -/
theorem Fits.not_isNode {e : Expr} (h : Fits e m)
    (hn : ∀ k ∈ n.mark, ∃ p ∈ m.parts, p.Has k) : n.isNode m = false := by
  obtain @⟨e, mark, parts, -, -, hbelow⟩ := h
  rw [Bool.eq_false_iff]
  intro hnode
  obtain ⟨-, hmark⟩ := (Bool.and_eq_true _ _).mp hnode
  obtain ⟨p, hp, hhas⟩ := hn mark (eq_of_beq hmark)
  exact hbelow p hp hhas

theorem exists_bound : ∀ {ms : List Marks}, (∀ m ∈ ms, ∃ bound, ∀ k, m.Has k → k < bound) →
    ∃ bound, ∀ m ∈ ms, ∀ k, m.Has k → k < bound
  | [], _ => ⟨0, List.forall_mem_nil _⟩
  | m :: ms, h => by
    rw [List.forall_mem_cons] at h
    obtain ⟨⟨first, hfirst⟩, hrest⟩ := h
    obtain ⟨rest, hrest⟩ := exists_bound hrest
    refine ⟨max first rest, List.forall_mem_cons.mpr ⟨fun k hk => ?_, fun n hn k hk => ?_⟩⟩
    · exact (hfirst k hk).trans_le (le_max_left _ _)
    · exact (hrest n hn k hk).trans_le (le_max_right _ _)

/-- Every expression can be marked: a node gets a mark that is beyond all those below it. -/
theorem exists_fits (e : Expr) : ∃ m : Marks, m.Fits e ∧ ∃ bound, ∀ k, m.Has k → k < bound := by
  induction e using Expr.children_induction with
  | h e ih =>
    obtain ⟨parts, hparts⟩ := Outcome.exists_forall₂ ih
    obtain ⟨hlength, hzip⟩ := List.forall₂_iff_zip.mp hparts
    have hbounds : ∀ m ∈ parts, ∃ bound, ∀ k, m.Has k → k < bound :=
      Outcome.forall_mem_of_forall₂ (hparts.imp fun _ _ h => h.2)
    obtain ⟨bound, hbound⟩ := exists_bound hbounds
    refine ⟨.node (some bound) parts, ?_, bound + 1, fun k hk => ?_⟩
    · exact .node hlength (fun p hp => (hzip hp).1) fun m hm hhas =>
        lt_irrefl bound (hbound m hm bound hhas)
    · cases hk with
      | self => exact bound.lt_succ_self
      | part hm h => exact (hbound _ hm k h).trans bound.lt_succ_self

/-- A node is kept over parts that were made from its own when each of them is. -/
theorem keep_map {mark : Option Nat} {parts : List Marks} (z : List (Expr × Marks))
    (hz : z.map Prod.snd = parts) (g : Expr × Marks → Marks) :
    (node mark parts).keep (z.map g) =
      if ∀ p ∈ z, (g p).isNode p.2 then node mark parts else node none (z.map g) := by
  have hall : (List.zipWith isNode (z.map g) parts).all id ↔ ∀ p ∈ z, (g p).isNode p.2 := by
    rw [← hz, List.zipWith_map, List.zipWith_self, List.all_map, List.all_eq_true]
    rfl
  simp only [keep, Marks.parts, hall]

end Marks

namespace Expr

variable {e : Expr} {m : Marks} {k : Nat}

/-! ### One node -/

theorem regroupMarks_mark (inner : Expr) (m : Marks) : (regroupMarks inner m).mark = none := by
  cases inner <;> rfl

theorem simplifyMarks_of_none (h : e.simplify? = none) (m : Marks) : simplifyMarks e m = m := by
  cases e with
  | binary op l r ty =>
    cases op with
    | connective op =>
      have hkept : keptSide? op l r = none := Option.map_eq_none_iff.mp h
      simp [simplifyMarks, hkept]
    | _ => simp [simplifyMarks, h]
  | _ => rfl

/-- What a node is simplified to is new or a part of it. -/
theorem simplifyMarks_mark {e' : Expr} (h : e.simplify? = some e')
    (hk : k ∈ (simplifyMarks e m).mark) : ∃ p ∈ m.parts, k ∈ p.mark := by
  cases e with
  | binary op l r ty =>
    have hregroup : op.isAssociative → ∃ inner n, simplifyMarks (.binary op l r ty) m =
        regroupMarks inner n := by
      intro hop
      cases op with
      | arith op =>
        rw [simplifyMarks, if_neg (by simp [h])]
        · split
          · exact ⟨r, m.part 1, rfl⟩
          · exact ⟨l, m.part 0, rfl⟩
        · nofun
      | _ => cases hop
    rcases simplify?_eq_some h with
      ⟨op, l, r, ty, side, ⟨⟩, hside, -⟩ | ⟨op, l, r, ty, ⟨⟩, hop, -⟩
    · cases side <;> rw [simplifyMarks, hside] at hk <;> exact Marks.mark_of_part hk
    · obtain ⟨inner, n, hmarks⟩ := hregroup hop
      rw [hmarks, regroupMarks_mark] at hk
      cases hk
  | _ => cases h

/-- A finished node is kept. -/
theorem finishMarks_of_isFinished (h : e.isFinished) (m : Marks) : finishMarks e m = m := by
  obtain ⟨hsimplify, hevaluate⟩ := isFinished_iff.mp h
  simp [finishMarks, hsimplify, hevaluate, simplifyMarks_of_none]

/-- What a node that is not finished becomes is new or a part of it. -/
theorem finishMarks_mark (h : ¬ e.isFinished) (hk : k ∈ (finishMarks e m).mark) :
    ∃ p ∈ m.parts, k ∈ p.mark := by
  rw [finishMarks] at hk
  split at hk
  · cases hk
  · next hevaluate =>
    cases hsimplify : e.simplify? with
    | none =>
      rw [hsimplify, Option.getD_none, Option.not_isSome_iff_eq_none] at hevaluate
      exact absurd (isFinished_iff.mpr ⟨hsimplify, hevaluate⟩) h
    | some e' => exact simplifyMarks_mark hsimplify hk

/-! ### A whole expression -/

theorem foldAllMarks_eq : ∀ {es : List Expr} {ms : List Marks}, es.length = ms.length →
    foldAllMarks es ms = (es.zip ms).map fun p => p.1.foldMarks p.2
  | [], [], _ => rfl
  | e :: es, m :: ms, h => by
    have hlength : es.length = ms.length := Nat.succ.inj h
    rw [foldAllMarks, List.headD_cons, List.tail_cons, foldAllMarks_eq hlength, List.zip_cons_cons,
      List.map_cons]

theorem foldBindingsMarks_eq : ∀ {bs : List (String × Expr)} {ms : List Marks},
    bs.length = ms.length →
      foldBindingsMarks bs ms = ((bs.map (·.2)).zip ms).map fun p => p.1.foldMarks p.2
  | [], [], _ => rfl
  | (name, e) :: bs, m :: ms, h => by
    have hlength : bs.length = ms.length := Nat.succ.inj h
    rw [foldBindingsMarks, List.headD_cons, List.tail_cons, foldBindingsMarks_eq hlength,
      List.map_cons, List.zip_cons_cons, List.map_cons]

theorem foldPartsMarks_eq {bs : List (String × Expr)} : ∀ {es : List Expr} {ms : List Marks},
    es.length + bs.length = ms.length →
      foldAllMarks es ms ++ foldBindingsMarks bs (ms.drop es.length) =
        ((es ++ bs.map (·.2)).zip ms).map fun p => p.1.foldMarks p.2
  | [], ms, h => foldBindingsMarks_eq (by simpa using h)
  | e :: es, [], h => by simp at h
  | e :: es, m :: ms, h => by
    have hlength : es.length + bs.length = ms.length := by
      simp only [List.length_cons] at h
      omega
    rw [foldAllMarks, List.headD_cons, List.tail_cons, List.length_cons, List.drop_succ_cons,
      List.cons_append, foldPartsMarks_eq hlength, List.cons_append, List.zip_cons_cons,
      List.map_cons]

/-- The marks of a folded expression are those of the finished node over the marks of the
folded expressions below. -/
theorem foldMarks_eq (h : e.children.length = m.parts.length) :
    e.foldMarks m = finishMarks (e.mapChildren fold)
      (m.keep ((e.children.zip m.parts).map fun p => p.1.foldMarks p.2)) := by
  obtain ⟨mark, parts⟩ := m
  replace h : e.children.length = parts.length := h
  cases e with
  | const v ty =>
    obtain rfl : parts = [] := List.eq_nil_of_length_eq_zero h.symm
    rfl
  | param p =>
    obtain rfl : parts = [] := List.eq_nil_of_length_eq_zero h.symm
    rfl
  | member e name ty =>
    obtain ⟨a, rfl⟩ := List.length_eq_one_iff.mp h.symm
    rfl
  | unary op e ty =>
    obtain ⟨a, rfl⟩ := List.length_eq_one_iff.mp h.symm
    rfl
  | binary op l r ty =>
    obtain ⟨a, b, rfl⟩ := List.length_eq_two.mp h.symm
    rfl
  | cond t a b ty =>
    obtain ⟨m₁, m₂, m₃, rfl⟩ := List.length_eq_three.mp h.symm
    rfl
  | call method es ty =>
    have hes : es.length = parts.length := h
    rw [foldMarks, foldAll_eq_map, mapChildren, Marks.parts, foldAllMarks_eq hes]
    rfl
  | construct record es bs =>
    have hparts : es.length + bs.length = parts.length := by
      simpa [children] using h
    have hfinished : (Expr.construct record (es.map fold)
        (bs.map fun b => (b.1, b.2.fold))).isFinished := rfl
    rw [foldMarks, Marks.parts, foldPartsMarks_eq hparts, mapChildren,
      finishMarks_of_isFinished hfinished]
    rfl

/-- Folding keeps a node that is settled, and else makes one new or takes one from below. -/
theorem foldMarks_cases (e : Expr) : ∀ {m : Marks}, m.Fits e →
    (e.isSettled ∧ e.foldMarks m = m) ∨
      (¬ e.isSettled ∧ ∀ k ∈ (e.foldMarks m).mark, ∃ p ∈ m.parts, p.Has k) := by
  induction e using children_induction with
  | h e ih =>
    intro m hfits
    obtain @⟨_, mark, parts, hlength, hparts, -⟩ := hfits
    have hfst : (e.children.zip parts).map Prod.fst = e.children := List.map_fst_zip hlength.le
    have hsnd : (e.children.zip parts).map Prod.snd = parts := List.map_snd_zip hlength.ge
    have hcases : ∀ p ∈ e.children.zip parts, (p.1.isSettled ∧ p.1.foldMarks p.2 = p.2) ∨
        (¬ p.1.isSettled ∧ ∀ k ∈ (p.1.foldMarks p.2).mark, ∃ q ∈ p.2.parts, q.Has k) :=
      fun p hp => ih p.1 (List.of_mem_zip hp).1 (hparts p hp)
    rw [foldMarks_eq hlength, Marks.parts, Marks.keep_map (e.children.zip parts) hsnd]
    by_cases hbelow : ∀ c ∈ e.children, c.isSettled
    · have hkept : ∀ p ∈ e.children.zip parts, (p.1.foldMarks p.2).isNode p.2 := by
        intro p hp
        rcases hcases p hp with ⟨-, hsame⟩ | ⟨hself, -⟩
        · rw [hsame]
          exact (hparts p hp).isNode_self
        · exact absurd (hbelow p.1 (List.of_mem_zip hp).1) hself
      rw [if_pos hkept, mapChildren_eq_self fun c hc => fold_eq_of_isSettled (hbelow c hc)]
      by_cases hself : e.isFinished
      · exact .inl ⟨isSettled_iff.mpr ⟨hbelow, hself⟩, finishMarks_of_isFinished hself _⟩
      · refine .inr ⟨fun h => hself (isSettled_iff.mp h).2, fun k hk => ?_⟩
        obtain ⟨p, hp, hmark⟩ := finishMarks_mark hself hk
        exact ⟨p, hp, Marks.has_of_mark hmark⟩
    · -- a part is not kept, so the node is made anew before it is finished
      have hkept : ¬ ∀ p ∈ e.children.zip parts, (p.1.foldMarks p.2).isNode p.2 := by
        intro hkept
        refine hbelow fun c hc => ?_
        obtain ⟨p, hp, rfl⟩ := List.mem_map.mp (hfst.symm ▸ hc)
        rcases hcases p hp with ⟨hself, -⟩ | ⟨-, hmarks⟩
        · exact hself
        · have hnode := hkept p hp
          rw [(hparts p hp).not_isNode hmarks] at hnode
          cases hnode
      rw [if_neg hkept]
      refine .inr ⟨fun h => hbelow (isSettled_iff.mp h).1, fun k hk => ?_⟩
      by_cases hself : (e.mapChildren fold).isFinished
      · rw [finishMarks_of_isFinished hself] at hk
        cases hk
      · obtain ⟨n, hn, hmark⟩ := finishMarks_mark hself hk
        obtain ⟨p, hp, rfl⟩ := List.mem_map.mp hn
        refine ⟨p.2, (List.of_mem_zip hp).2, ?_⟩
        rcases hcases p hp with ⟨-, hsame⟩ | ⟨-, hmarks⟩
        · rw [hsame] at hmark
          exact Marks.has_of_mark hmark
        · obtain ⟨q, hq, hhas⟩ := hmarks k hmark
          exact Marks.has_of_part hq hhas

/-- Folding gives back the very node that it was given exactly when that is settled. -/
theorem foldMarks_isNode (h : m.Fits e) : (e.foldMarks m).isNode m ↔ e.isSettled := by
  rcases foldMarks_cases e h with ⟨hself, hsame⟩ | ⟨hself, hmarks⟩
  · rw [hsame]
    exact iff_of_true h.isNode_self hself
  · rw [h.not_isNode hmarks]
    exact iff_of_false Bool.false_ne_true hself

/-- Where nothing is added or multiplied with a check, folding leaves nothing to fold, so that
folding once more gives the very node. Any expression at all is given back as the very node it
was exactly when the result is the same expression. -/
theorem fold_keeps_node :
    (∀ e : Expr, e.Built → (∀ v ty, .const v ty ∈ e.nodes → ty.admitsDeep v) →
      (∀ op l r ty, .binary op l r ty ∈ e.nodes → op.isCheckedSum = false) →
        e.fold.isSettled ∧ e.fold.fold = e.fold ∧
          ∀ m : Marks, m.Fits e.fold → (e.fold.foldMarks m).isNode m) ∧
      ∀ e : Expr, (e.isSettled ↔ e.fold = e) ∧ ((e.fold == e) → e.isSettled) ∧
        (∃ m : Marks, m.Fits e) ∧
          ∀ m : Marks, m.Fits e → ((e.foldMarks m).isNode m ↔ e.fold = e) := by
  constructor
  · intro e he hconst hop
    have hsettled : e.fold.isSettled := (he.over_deepConstants hconst hop).fold_isSettled
    exact ⟨hsettled, fold_eq_of_isSettled hsettled, fun m hm => (foldMarks_isNode hm).mpr hsettled⟩
  · intro e
    obtain ⟨m, hm, -⟩ := Marks.exists_fits e
    refine ⟨isSettled_iff_fold_eq, isSettled_of_fold_beq, ⟨m, hm⟩, fun m hm => ?_⟩
    rw [foldMarks_isNode hm, isSettled_iff_fold_eq]

/-- The chain `1 + (x + 2)` becomes `x + 3`, which folding keeps. -/
theorem fold_keeps_node_chain :
    let x : Param := ⟨0, "x", .int32⟩
    let sum : Expr := .binary (.arith .add) (.param x) (ofValue (.int32 2)) .int32
    let e : Expr := .binary (.arith .add) (ofValue (.int32 1)) sum .int32
    let m : Marks := .node (some 0) [.node (some 1) [], .node (some 2) []]
    e.fold = .binary (.arith .add) (.param x) (ofValue (.int32 3)) .int32 ∧
      e.fold.fold = e.fold ∧ (e.fold.foldMarks m).isNode m ∧
        ((e.fold.foldMarks m).isNode m ↔ e.fold.fold = e.fold) := by
  intro x sum e m
  have hsum : mkBinary (.arith .add) (.param x) (ofValue (.int32 2)) = .ok sum := rfl
  have he : mkBinary (.arith .add) (ofValue (.int32 1)) sum = .ok e := rfl
  have hbuilt : e.Built := .binary (.value _) (.binary (.param x) (.value _) hsum) he
  have hleaf : ∀ p ∈ [((.param x : Expr), Marks.node (some 1) []),
      (ofValue (.int32 3), Marks.node (some 2) [])], p.2.Fits p.1 := by
    intro p hp
    rcases List.mem_pair.mp hp with rfl | rfl <;>
      exact .node rfl (List.forall_mem_nil _) (List.forall_mem_nil _)
  have hfits : m.Fits e.fold := by
    refine .node rfl hleaf fun n hn hhas => ?_
    rcases List.mem_pair.mp hn with rfl | rfl <;> rcases hhas with _ | ⟨⟨⟩, -⟩
  have hconst : ∀ v ty, .const v ty ∈ e.nodes → ty.admitsDeep v := by
    intro v ty h
    simp only [e, sum, nodes, ofValue, List.cons_append, List.nil_append, List.mem_cons,
      reduceCtorEq, const.injEq, List.not_mem_nil, or_false, false_or] at h
    rcases h with ⟨rfl, rfl⟩ | ⟨rfl, rfl⟩ <;> rfl
  have hop : ∀ op l r ty, .binary op l r ty ∈ e.nodes → op.isCheckedSum = false := by
    intro op l r ty h
    simp only [e, sum, nodes, ofValue, List.cons_append, List.nil_append, List.mem_cons,
      reduceCtorEq, binary.injEq, List.not_mem_nil, or_false, false_or] at h
    rcases h with ⟨rfl, -⟩ | ⟨rfl, -⟩ <;> rfl
  obtain ⟨-, hsame, hkept⟩ := fold_keeps_node.1 e hbuilt hconst hop
  exact ⟨rfl, hsame, hkept m hfits, (fold_keeps_node.2 e.fold).2.2.2 m hfits⟩

end Expr
end SeqQuery
