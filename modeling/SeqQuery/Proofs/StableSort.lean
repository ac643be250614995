/-
# Stable sorting

What stable sorting gives is said without an algorithm: the items of a list in an order
that the comparison allows, with tied items in the order in which they were. There is at
most one such list (`Sorts.unique`), so two ways to sort agree as soon as both are stable
sorts of one list. Filtering, mapping, dropping repeats and sorting once more each give a
stable sort again. Sorting the other way round turns a list around, but for items that tie,
which keep their places.

A comparison need not order all values, only those that are sorted (`OrdersOn`).

Key definitions: `OrdersOn`, `Sorts`.
Key theorems: `OrdersOn.andThen`, `Sorts.mergeSort`, `Sorts.unique`, `Sorts.filter`,
`Sorts.map`, `Sorts.andThen`, `Sorts.eraseDups`, `eraseDups_filter`, `Sorts.map_opposite`,
`Sorts.eraseDups_map_opposite`.
-/
import Mathlib.Data.List.Perm.Basic

namespace SeqQuery

variable {α β : Type}

/-! ### Comparisons that order some values -/

/-- A comparison orders the values with a property: exchanging two turns it around, and it
is transitive. -/
structure OrdersOn (P : α → Prop) (cmp : α → α → Ordering) : Prop where
  swap : ∀ {a b}, P a → P b → cmp b a = (cmp a b).swap
  trans : ∀ {a b c}, P a → P b → P c → cmp a b ≠ .gt → cmp b c ≠ .gt → cmp a c ≠ .gt

namespace OrdersOn

variable {P : α → Prop} {cmp cmp' : α → α → Ordering} {a b c : α}

theorem refl (h : OrdersOn P cmp) (ha : P a) : cmp a a = .eq := by
  have hswap := h.swap ha ha
  cases hcmp : cmp a a with
  | eq => rfl
  | _ => simp [hcmp] at hswap

theorem eq_symm (h : OrdersOn P cmp) (ha : P a) (hb : P b) (hab : cmp a b = .eq) :
    cmp b a = .eq := by
  rw [h.swap ha hb, hab]
  rfl

theorem eq_trans (h : OrdersOn P cmp) (ha : P a) (hb : P b) (hc : P c) (hab : cmp a b = .eq)
    (hbc : cmp b c = .eq) : cmp a c = .eq := by
  have hac : cmp a c ≠ .gt := h.trans ha hb hc (by simp [hab]) (by simp [hbc])
  have hca : cmp c a ≠ .gt := h.trans hc hb ha (by simp [h.eq_symm hb hc hbc])
    (by simp [h.eq_symm ha hb hab])
  rw [h.swap ha hc] at hca
  cases hcmp : cmp a c <;> simp [hcmp] at hac hca ⊢

theorem total (h : OrdersOn P cmp) (ha : P a) (hb : P b) : cmp a b ≠ .gt ∨ cmp b a ≠ .gt := by
  rw [h.swap ha hb]
  cases cmp a b <;> simp

theorem lt_of_lt_of_le (h : OrdersOn P cmp) (ha : P a) (hb : P b) (hc : P c)
    (hab : cmp a b = .lt) (hbc : cmp b c ≠ .gt) : cmp a c = .lt := by
  have hac : cmp a c ≠ .gt := h.trans ha hb hc (by simp [hab]) hbc
  cases hcmp : cmp a c with
  | lt => rfl
  | gt => exact absurd hcmp hac
  | eq =>
    have hca : cmp c a ≠ .gt := by simp [h.swap ha hc, hcmp]
    have hba := h.trans hb hc ha hbc hca
    simp [h.swap ha hb, hab] at hba

theorem lt_of_le_of_lt (h : OrdersOn P cmp) (ha : P a) (hb : P b) (hc : P c)
    (hab : cmp a b ≠ .gt) (hbc : cmp b c = .lt) : cmp a c = .lt := by
  have hac : cmp a c ≠ .gt := h.trans ha hb hc hab (by simp [hbc])
  cases hcmp : cmp a c with
  | lt => rfl
  | gt => exact absurd hcmp hac
  | eq =>
    have hca : cmp c a ≠ .gt := by simp [h.swap ha hc, hcmp]
    have hcb := h.trans hc ha hb hca hab
    simp [h.swap hb hc, hbc] at hcb

theorem imp {Q : α → Prop} (h : OrdersOn P cmp) (hQ : ∀ a, Q a → P a) : OrdersOn Q cmp where
  swap ha hb := h.swap (hQ _ ha) (hQ _ hb)
  trans ha hb hc := h.trans (hQ _ ha) (hQ _ hb) (hQ _ hc)

/-- Values are ordered by what a function gives for them. -/
theorem comap {Q : β → Prop} (h : OrdersOn P cmp) (f : β → α) (hf : ∀ b, Q b → P (f b)) :
    OrdersOn Q fun a b => cmp (f a) (f b) where
  swap ha hb := h.swap (hf _ ha) (hf _ hb)
  trans ha hb hc := h.trans (hf _ ha) (hf _ hb) (hf _ hc)

theorem congr (h : OrdersOn P cmp) (heq : ∀ a b, P a → P b → cmp' a b = cmp a b) :
    OrdersOn P cmp' where
  swap ha hb := by
    rw [heq _ _ ha hb, heq _ _ hb ha]
    exact h.swap ha hb
  trans ha hb hc := by
    rw [heq _ _ ha hb, heq _ _ hb hc, heq _ _ ha hc]
    exact h.trans ha hb hc

/-- A value before all that are ordered. -/
theorem orLeast (h : OrdersOn P cmp) (least : α) (hself : cmp least least = .eq)
    (hleft : ∀ a, P a → cmp least a = .lt) (hright : ∀ a, P a → cmp a least = .gt) :
    OrdersOn (fun a => a = least ∨ P a) cmp := by
  constructor
  · rintro a b (rfl | ha) (rfl | hb)
    · rw [hself]
      rfl
    · rw [hleft b hb, hright b hb]
      rfl
    · rw [hleft a ha, hright a ha]
      rfl
    · exact h.swap ha hb
  · rintro a b c (rfl | ha) (rfl | hb) (rfl | hc) hab hbc
    · exact hab
    · exact hbc
    · simp [hself]
    · simp [hleft c hc]
    · exact hab
    · exact absurd (hright a ha) hab
    · exact absurd (hright b hb) hbc
    · exact h.trans ha hb hc hab hbc

/-- The opposite order. -/
theorem opposite (h : OrdersOn P cmp) : OrdersOn P fun a b => (cmp a b).swap where
  swap ha hb := by rw [h.swap ha hb]
  trans ha hb hc hab hbc := by
    rw [← h.swap ha hb] at hab
    rw [← h.swap hb hc] at hbc
    rw [← h.swap ha hc]
    exact h.trans hc hb ha hbc hab

/-- One comparison, and where it ties another. -/
theorem andThen (h : OrdersOn P cmp) (h' : OrdersOn P cmp') :
    OrdersOn P fun a b => (cmp a b).then (cmp' a b) where
  swap ha hb := by rw [h.swap ha hb, h'.swap ha hb, Ordering.swap_then]
  trans := by
    intro a b c ha hb hc hab hbc
    cases h1 : cmp a b with
    | gt => simp [h1] at hab
    | lt =>
      cases h2 : cmp b c with
      | gt => simp [h2] at hbc
      | _ => simp [h.lt_of_lt_of_le ha hb hc h1 (by simp [h2])]
    | eq =>
      cases h2 : cmp b c with
      | gt => simp [h2] at hbc
      | lt => simp [h.lt_of_le_of_lt ha hb hc (by simp [h1]) h2]
      | eq =>
        have hac : cmp a c ≠ .gt := h.trans ha hb hc (by simp [h1]) (by simp [h2])
        simp only [h1, Ordering.eq_then] at hab
        simp only [h2, Ordering.eq_then] at hbc
        cases h3 : cmp a c with
        | gt => exact absurd h3 hac
        | lt => simp
        | eq =>
          rw [Ordering.eq_then]
          exact h'.trans ha hb hc hab hbc

/-- Two lists in order are merged to a list in order, whatever decides between ties. -/
theorem pairwise_merge (h : OrdersOn P cmp) {le : α → α → Bool}
    (hle : ∀ a b, P a → P b → cmp a b ≠ (if le a b then .gt else .lt)) : ∀ {l₁ l₂ : List α},
    (∀ a ∈ l₁, P a) → (∀ a ∈ l₂, P a) → l₁.Pairwise (fun a b => cmp a b ≠ .gt) →
    l₂.Pairwise (fun a b => cmp a b ≠ .gt) → (l₁.merge l₂ le).Pairwise fun a b => cmp a b ≠ .gt
  | [], l₂, _, _, _, h₂ => by rwa [List.nil_merge]
  | a :: l₁, [], _, _, h₁, _ => by rwa [List.merge_right]
  | a :: l₁, b :: l₂, hP₁, hP₂, h₁, h₂ => by
    have ha := hP₁ a List.mem_cons_self
    have hb := hP₂ b List.mem_cons_self
    have hab := hle a b ha hb
    obtain ⟨hfirst₁, hrest₁⟩ := List.pairwise_cons.mp h₁
    obtain ⟨hfirst₂, hrest₂⟩ := List.pairwise_cons.mp h₂
    rw [List.forall_mem_cons] at hP₁ hP₂
    rw [List.cons_merge_cons]
    split
    · next hlt =>
      rw [if_pos hlt] at hab
      refine List.pairwise_cons.mpr ⟨fun c hc => ?_,
        pairwise_merge h hle hP₁.2 (List.forall_mem_cons.mpr hP₂) hrest₁ h₂⟩
      rcases List.mem_merge.mp hc with hc | hc
      · exact hfirst₁ c hc
      · rcases List.mem_cons.mp hc with rfl | hc
        · exact hab
        · exact h.trans ha hb (hP₂.2 c hc) hab (hfirst₂ c hc)
    · next hlt =>
      have hba : cmp b a ≠ .gt := by
        rw [if_neg hlt] at hab
        rw [h.swap ha hb]
        cases hcmp : cmp a b <;> simp [hcmp] at hab ⊢
      refine List.pairwise_cons.mpr ⟨fun c hc => ?_,
        pairwise_merge h hle (List.forall_mem_cons.mpr hP₁) hP₂.2 h₁ hrest₂⟩
      rcases List.mem_merge.mp hc with hc | hc
      · rcases List.mem_cons.mp hc with rfl | hc
        · exact hba
        · exact h.trans hb ha (hP₁.2 c hc) hba (hfirst₁ c hc)
      · exact hfirst₂ c hc

/-- Merge sort puts a list in order, whatever decides between ties. -/
theorem pairwise_mergeSort (h : OrdersOn P cmp) {le : α → α → Bool}
    (hle : ∀ a b, P a → P b → cmp a b ≠ (if le a b then .gt else .lt)) : ∀ {l : List α},
    (∀ a ∈ l, P a) → (l.mergeSort le).Pairwise fun a b => cmp a b ≠ .gt
  | [], _ => by simp
  | [a], _ => by simp
  | a :: b :: l, hP => by
    rw [List.mergeSort]
    have happend : _ = a :: b :: l :=
      List.MergeSort.Internal.splitInTwo_fst_append_splitInTwo_snd ⟨a :: b :: l, rfl⟩
    rw [← happend, List.forall_mem_append] at hP
    refine h.pairwise_merge hle ?_ ?_ (pairwise_mergeSort h hle hP.1)
      (pairwise_mergeSort h hle hP.2)
    · exact fun c hc => hP.1 c (List.mem_mergeSort.mp hc)
    · exact fun c hc => hP.2 c (List.mem_mergeSort.mp hc)
termination_by l => l.length

end OrdersOn

/-! ### Stable sorts -/

/-- A list is a stable sort of another: the same items, in order, and the items that tie
with one another as they were. -/
structure Sorts (cmp : α → α → Ordering) (l s : List α) : Prop where
  perm : s.Perm l
  sorted : s.Pairwise fun a b => cmp a b ≠ .gt
  stable : ∀ a ∈ l, s.filter (cmp a · == .eq) = l.filter (cmp a · == .eq)

namespace Sorts

variable {cmp cmp' : α → α → Ordering} {l s t : List α}

theorem mem_iff (h : Sorts cmp l s) {a : α} : a ∈ s ↔ a ∈ l :=
  h.perm.mem_iff

/-- Two lists of the same items, both in order and with the same ties, are the same. -/
theorem eq_of_ties {P : α → Prop} (h : OrdersOn P cmp) : ∀ {s t : List α},
    (∀ a ∈ s, P a) → s.Perm t → s.Pairwise (fun a b => cmp a b ≠ .gt) →
    t.Pairwise (fun a b => cmp a b ≠ .gt) →
    (∀ a ∈ s, s.filter (cmp a · == .eq) = t.filter (cmp a · == .eq)) → s = t
  | [], t, _, hperm, _, _, _ => hperm.nil_eq
  | x :: s, [], _, hperm, _, _, _ => absurd hperm.length_eq (by simp)
  | x :: s, y :: t, hP, hperm, hs, ht, hties => by
    have hPx := hP x List.mem_cons_self
    have hymem : y ∈ x :: s := hperm.mem_iff.mpr List.mem_cons_self
    have hxmem : x ∈ y :: t := hperm.mem_iff.mp List.mem_cons_self
    rw [List.pairwise_cons] at hs ht
    have hxy : x = y := by
      by_contra hne
      have hys : y ∈ s := (List.mem_cons.mp hymem).resolve_left (Ne.symm hne)
      have hxt : x ∈ t := (List.mem_cons.mp hxmem).resolve_left hne
      have hle := hs.1 y hys
      have hge := ht.1 x hxt
      rw [h.swap hPx (hP y hymem)] at hge
      -- both come first, so they tie and head the same list of ties
      have htie : cmp x y = .eq := by
        cases hcmp : cmp x y <;> simp [hcmp] at hle hge ⊢
      have hheads := hties x List.mem_cons_self
      simp only [List.filter_cons, h.refl hPx, htie] at hheads
      exact hne (List.cons.inj hheads).1
    subst hxy
    have hrest : s = t := by
      refine eq_of_ties h (fun a ha => hP a (List.mem_cons_of_mem _ ha)) hperm.cons_inv hs.2 ht.2 ?_
      intro a ha
      have htie := hties a (List.mem_cons_of_mem _ ha)
      rw [List.filter_cons, List.filter_cons] at htie
      split at htie
      · exact (List.cons.inj htie).2
      · exact htie
    rw [hrest]

/-- At most one list is a stable sort. -/
theorem unique (h : OrdersOn (· ∈ l) cmp) (hs : Sorts cmp l s) (ht : Sorts cmp l t) : s = t := by
  refine eq_of_ties h (fun a ha => hs.mem_iff.mp ha) (hs.perm.trans ht.perm.symm) hs.sorted
    ht.sorted fun a ha => ?_
  rw [hs.stable a (hs.mem_iff.mp ha), ht.stable a (hs.mem_iff.mp ha)]

theorem congr (h : Sorts cmp l s) (hcmp : ∀ a ∈ l, ∀ b ∈ l, cmp a b = cmp' a b) :
    Sorts cmp' l s where
  perm := h.perm
  sorted := by
    refine h.sorted.imp_of_mem fun ha hb hab => ?_
    rw [← hcmp _ (h.mem_iff.mp ha) _ (h.mem_iff.mp hb)]
    exact hab
  stable := by
    intro a ha
    have hs : s.filter (cmp' a · == .eq) = s.filter (cmp a · == .eq) :=
      List.filter_congr fun b hb => by rw [hcmp a ha b (h.mem_iff.mp hb)]
    have hl : l.filter (cmp' a · == .eq) = l.filter (cmp a · == .eq) :=
      List.filter_congr fun b hb => by rw [hcmp a ha b hb]
    rw [hs, hl]
    exact h.stable a ha

/-- What a test keeps of a stable sort is a stable sort of what it keeps. -/
theorem filter (h : Sorts cmp l s) (p : α → Bool) : Sorts cmp (l.filter p) (s.filter p) where
  perm := h.perm.filter p
  sorted := h.sorted.filter p
  stable := by
    intro a ha
    rw [List.filter_comm, h.stable a (List.mem_filter.mp ha).1, List.filter_comm]

/-- Mapping a list that is sorted by what it is mapped to gives a stable sort. -/
theorem map {f : β → α} {l s : List β} (h : Sorts (fun a b => cmp (f a) (f b)) l s) :
    Sorts cmp (l.map f) (s.map f) where
  perm := h.perm.map f
  sorted := List.pairwise_map.mpr h.sorted
  stable := by
    intro c hc
    obtain ⟨a, ha, rfl⟩ := List.mem_map.mp hc
    rw [List.filter_map, List.filter_map]
    exact congrArg (List.map f) (h.stable a ha)

/-- Sorting a sorted list once more sorts by the later comparison, and where that ties by
the earlier one. -/
theorem andThen (hs : Sorts cmp' l s) (ht : Sorts cmp s t) (hrefl : ∀ a ∈ l, cmp a a = .eq) :
    Sorts (fun a b => (cmp a b).then (cmp' a b)) l t where
  perm := ht.perm.trans hs.perm
  sorted := by
    rw [List.pairwise_iff_forall_sublist]
    intro a b hab
    have ha : a ∈ t := hab.subset List.mem_cons_self
    have hle := List.pairwise_iff_forall_sublist.mp ht.sorted hab
    cases hcmp : cmp a b with
    | gt => exact absurd hcmp hle
    | lt => simp
    | eq =>
      -- tied items stand as in the list before
      have has : a ∈ s := ht.mem_iff.mp ha
      have hsub : [a, b].Sublist (t.filter (cmp a · == .eq)) := by
        have h := hab.filter (cmp a · == .eq)
        simpa [hcmp, hrefl a (hs.mem_iff.mp has)] using h
      rw [ht.stable a has] at hsub
      have hle' := List.pairwise_iff_forall_sublist.mp hs.sorted (hsub.trans List.filter_sublist)
      simpa using hle'
  stable := by
    intro a ha
    have htie : ∀ r : List α, r.filter (fun b => (cmp a b).then (cmp' a b) == .eq) =
        (r.filter (cmp a · == .eq)).filter (cmp' a · == .eq) := by
      intro r
      rw [List.filter_filter]
      refine List.filter_congr fun b _ => ?_
      cases cmp a b <;> cases cmp' a b <;> rfl
    rw [htie, htie, ht.stable a (hs.mem_iff.mpr ha), List.filter_comm, hs.stable a ha,
      List.filter_comm]

/-- Merge sort is stable. -/
theorem mergeSort (h : OrdersOn (· ∈ l) cmp) :
    Sorts cmp l (l.mergeSort fun a b => cmp a b != .gt) := by
  -- the comparison orders all items of the list, which is all that can be sorted
  let le (a b : { a // a ∈ l }) : Bool := cmp a.1 b.1 != .gt
  have htrans : ∀ a b c, le a b → le b c → le a c := by
    intro a b c hab hbc
    simp only [le, bne_iff_ne] at hab hbc ⊢
    exact h.trans a.2 b.2 c.2 hab hbc
  have htotal : ∀ a b, le a b || le b a := by
    intro a b
    simp only [le, Bool.or_eq_true, bne_iff_ne]
    exact h.total a.2 b.2
  have hsort : (l.mergeSort fun a b => cmp a b != .gt) = (l.attach.mergeSort le).map (·.1) := by
    have hmap := List.map_mergeSort (r := le) (s := fun a b => cmp a b != .gt) (f := (·.1))
      (l := l.attach) fun _ _ _ _ => rfl
    rw [hmap, List.attach_map_subtype_val]
  have hperm : (l.mergeSort fun a b => cmp a b != .gt).Perm l := List.mergeSort_perm _ _
  refine ⟨hperm, ?_, fun a ha => ?_⟩
  · rw [hsort, List.pairwise_map]
    refine (List.pairwise_mergeSort htrans htotal l.attach).imp fun hab => ?_
    exact bne_iff_ne.mp hab
  · -- the items tied with `a` are in order as they are, so sorting leaves them so
    have hties : (l.attach.filter fun b => cmp a b.1 == .eq).Pairwise (le · ·) := by
      refine List.pairwise_of_forall_mem_list fun b hb c hc => ?_
      have hab : cmp a b.1 = .eq := by simpa using (List.mem_filter.mp hb).2
      have hac : cmp a c.1 = .eq := by simpa using (List.mem_filter.mp hc).2
      refine bne_iff_ne.mpr (h.trans b.2 ha c.2 ?_ (by simp [hac]))
      simp [h.swap ha b.2, hab]
    have hsub := (List.sublist_mergeSort htrans htotal hties List.filter_sublist).map (·.1)
    rw [← hsort, show (fun b : { a // a ∈ l } => cmp a b.1 == .eq) =
      (fun b => cmp a b == .eq) ∘ (·.1) from rfl, ← List.filter_map, List.attach_map_subtype_val] at hsub
    have hsub' := hsub.filter (cmp a · == .eq)
    rw [List.filter_filter] at hsub'
    simp only [Bool.and_self] at hsub'
    exact (hsub'.eq_of_length (hperm.filter _).length_eq.symm).symm

end Sorts

/-! ### Dropping repeats -/

theorem length_filter_lt_cons (p : α → Bool) (a : α) (l : List α) :
    (l.filter p).length < (a :: l).length :=
  Nat.lt_succ_of_le (List.length_filter_le p l)

section EraseDups

variable [BEq α] {P : α → Prop}

/-- Among the values with a property, a comparison finds equal what is the same. -/
def EqualOn (P : α → Prop) : Prop :=
  ∀ a b, P a → P b → ((a == b) = true ↔ a = b)

theorem eraseDups_sublist : ∀ l : List α, l.eraseDups.Sublist l
  | [] => .slnil
  | a :: l => by
    rw [List.eraseDups_cons]
    exact ((eraseDups_sublist _).trans List.filter_sublist).cons_cons a
termination_by l => l.length
decreasing_by exact length_filter_lt_cons ..

theorem mem_eraseDups (h : EqualOn P) : ∀ {l : List α}, (∀ a ∈ l, P a) → ∀ {a : α},
    a ∈ l.eraseDups ↔ a ∈ l
  | [], _, a => by simp
  | b :: l, hl, a => by
    rw [List.eraseDups_cons, List.mem_cons, List.mem_cons,
      mem_eraseDups h fun c hc => hl c (List.mem_cons_of_mem _ (List.mem_filter.mp hc).1),
      List.mem_filter]
    by_cases hab : a = b
    · simp [hab]
    · have hne : ∀ ha : a ∈ l, (a == b) = false := fun ha => by
        rw [Bool.eq_false_iff]
        exact fun heq => hab ((h a b (hl a (List.mem_cons_of_mem _ ha))
          (hl b List.mem_cons_self)).mp heq)
      simp only [hab, false_or]
      exact ⟨fun ha => ha.1, fun ha => ⟨ha, by rw [hne ha]; rfl⟩⟩
termination_by l => l.length
decreasing_by exact length_filter_lt_cons ..

theorem nodup_eraseDups (h : EqualOn P) : ∀ {l : List α}, (∀ a ∈ l, P a) → l.eraseDups.Nodup
  | [], _ => List.nodup_nil
  | b :: l, hl => by
    have hrest : ∀ c ∈ l.filter (fun c => !c == b), P c := fun c hc =>
      hl c (List.mem_cons_of_mem _ (List.mem_filter.mp hc).1)
    rw [List.eraseDups_cons, List.nodup_cons, mem_eraseDups h hrest]
    refine ⟨fun hb => ?_, nodup_eraseDups h hrest⟩
    have hPb := hl b List.mem_cons_self
    simp [(h b b hPb hPb).mpr rfl] at hb
termination_by l => l.length
decreasing_by exact length_filter_lt_cons ..

/-- Repeats can be dropped before or after a test. -/
theorem eraseDups_filter (h : EqualOn P) (p : α → Bool) : ∀ {l : List α}, (∀ a ∈ l, P a) →
    (l.filter p).eraseDups = l.eraseDups.filter p
  | [], _ => rfl
  | b :: l, hl => by
    have hrest : ∀ c ∈ l.filter (fun c => !c == b), P c := fun c hc =>
      hl c (List.mem_cons_of_mem _ (List.mem_filter.mp hc).1)
    have ih := eraseDups_filter h p hrest
    rw [List.filter_comm] at ih
    rw [List.eraseDups_cons]
    by_cases hb : p b
    · rw [List.filter_cons_of_pos hb, List.filter_cons_of_pos hb, List.eraseDups_cons, ih]
    · rw [List.filter_cons_of_neg hb, List.filter_cons_of_neg hb, ← ih]
      -- what the test keeps is not the item that it drops
      refine congrArg List.eraseDups (List.filter_eq_self.mpr fun c hc => ?_).symm
      obtain ⟨hcl, hpc⟩ := List.mem_filter.mp hc
      rw [Bool.not_eq_true', Bool.eq_false_iff]
      intro heq
      have hcb := (h c b (hl c (List.mem_cons_of_mem _ hcl)) (hl b List.mem_cons_self)).mp heq
      rw [hcb] at hpc
      exact hb hpc
termination_by l => l.length
decreasing_by exact length_filter_lt_cons ..

/-- There is nothing to drop among different items. -/
theorem eraseDups_of_nodup (h : EqualOn P) : ∀ {l : List α}, (∀ a ∈ l, P a) → l.Nodup →
    l.eraseDups = l
  | [], _, _ => rfl
  | b :: l, hl, hnodup => by
    obtain ⟨hb, hnodup⟩ := List.nodup_cons.mp hnodup
    have hself : l.filter (fun c => !c == b) = l := by
      refine List.filter_eq_self.mpr fun c hc => ?_
      rw [Bool.not_eq_true', Bool.eq_false_iff]
      intro heq
      have hcb := (h c b (hl c (List.mem_cons_of_mem _ hc)) (hl b List.mem_cons_self)).mp heq
      exact hb (hcb ▸ hc)
    rw [List.eraseDups_cons, hself,
      eraseDups_of_nodup h (fun c hc => hl c (List.mem_cons_of_mem _ hc)) hnodup]

/-- A stable sort without repeats is a stable sort of the list without repeats. -/
theorem Sorts.eraseDups {cmp : α → α → Ordering} {l s : List α} (h : EqualOn P)
    (hl : ∀ a ∈ l, P a) (hs : Sorts cmp l s) : Sorts cmp l.eraseDups s.eraseDups := by
  have hs' : ∀ a ∈ s, P a := fun a ha => hl a (hs.mem_iff.mp ha)
  refine ⟨?_, hs.sorted.sublist (eraseDups_sublist s), fun a ha => ?_⟩
  · rw [List.perm_ext_iff_of_nodup (nodup_eraseDups h hs') (nodup_eraseDups h hl)]
    intro a
    rw [mem_eraseDups h hs', mem_eraseDups h hl, hs.mem_iff]
  · rw [← eraseDups_filter h _ hs', ← eraseDups_filter h _ hl,
      hs.stable a ((mem_eraseDups h hl).mp ha)]

end EraseDups

/-! ### Opposite orders -/

section Opposite

variable {cmp : α → α → Ordering} {l s t : List α} {f : α → β}

namespace Sorts

/-- The first item of a sorted list is not after what an item of the list ties with. -/
theorem head_le_of_tie {P : α → Prop} (h : OrdersOn P cmp) {a b : α} (ha : P a)
    (hs : ∀ c ∈ b :: s, P c) (hsorted : (b :: s).Pairwise fun a b => cmp a b ≠ .gt)
    (htie : (b :: s).countP (cmp a · == .eq) ≠ 0) : cmp b a ≠ .gt := by
  obtain ⟨c, hc, hac⟩ := List.countP_pos_iff.mp (Nat.pos_of_ne_zero htie)
  have hb := hs b List.mem_cons_self
  have hbc : cmp b c ≠ .gt := by
    rcases List.mem_cons.mp hc with rfl | hc
    · simp [h.refl hb]
    · exact (List.pairwise_cons.mp hsorted).1 c hc
  refine h.trans hb (hs c hc) ha hbc ?_
  simp [h.eq_symm ha (hs c hc) (beq_iff_eq.mp hac)]

/-- Two sorted lists, with as many ties of every item, show the same if tied items show the
same. -/
theorem map_eq_of_ties {P : α → Prop} (h : OrdersOn P cmp)
    (hf : ∀ a b, P a → P b → cmp a b = .eq → f a = f b) : ∀ {s t : List α},
    (∀ a ∈ s, P a) → (∀ a ∈ t, P a) → s.Pairwise (fun a b => cmp a b ≠ .gt) →
    t.Pairwise (fun a b => cmp a b ≠ .gt) →
    (∀ a, P a → s.countP (cmp a · == .eq) = t.countP (cmp a · == .eq)) → s.map f = t.map f
  | [], [], _, _, _, _, _ => rfl
  | [], y :: t, _, ht, _, _, hties => by
    have hcount := hties y (ht y List.mem_cons_self)
    simp [h.refl (ht y List.mem_cons_self)] at hcount
  | x :: s, [], hs, _, _, _, hties => by
    have hcount := hties x (hs x List.mem_cons_self)
    simp [h.refl (hs x List.mem_cons_self)] at hcount
  | x :: s, y :: t, hs, ht, hsorted, hsorted', hties => by
    have hx := hs x List.mem_cons_self
    have hy := ht y List.mem_cons_self
    have hself : ∀ {a : α} {r : List α}, P a → (a :: r).countP (cmp a · == .eq) ≠ 0 := by
      intro a r ha
      simp [h.refl ha]
    -- each head ties with an item of the other list, which its head is not after
    have hyx : cmp y x ≠ .gt := head_le_of_tie h hx ht hsorted' (hties x hx ▸ hself hx)
    have hxy : cmp x y ≠ .gt := head_le_of_tie h hy hs hsorted (hties y hy ▸ hself hy)
    rw [h.swap hx hy] at hyx
    have htie : cmp x y = .eq := by
      cases hcmp : cmp x y <;> simp [hcmp] at hxy hyx ⊢
    have hrest : s.map f = t.map f := by
      refine map_eq_of_ties h hf (fun a ha => hs a (List.mem_cons_of_mem _ ha))
        (fun a ha => ht a (List.mem_cons_of_mem _ ha)) (List.pairwise_cons.mp hsorted).2
        (List.pairwise_cons.mp hsorted').2 fun a ha => ?_
      have hsame : (cmp a x == .eq) = (cmp a y == .eq) := by
        rw [Bool.eq_iff_iff, beq_iff_eq, beq_iff_eq]
        exact ⟨fun hax => h.eq_trans ha hx hy hax htie,
          fun hay => h.eq_trans ha hy hx hay (h.eq_symm hx hy htie)⟩
      have hcount := hties a ha
      rw [List.countP_cons, List.countP_cons, hsame] at hcount
      exact Nat.add_right_cancel hcount
    rw [List.map_cons, List.map_cons, hf x y hx hy htie, hrest]

/-- A list sorted the other way round shows the same from its end, if what ties shows the
same. -/
theorem map_opposite (h : OrdersOn (· ∈ l) cmp) (hs : Sorts cmp l s)
    (ht : Sorts (fun a b => (cmp a b).swap) l t)
    (hf : ∀ a ∈ l, ∀ b ∈ l, cmp a b = .eq → f a = f b) : t.map f = (s.map f).reverse := by
  have hsorted : s.reverse.Pairwise fun a b => (cmp a b).swap ≠ .gt := by
    rw [List.pairwise_reverse]
    refine hs.sorted.imp_of_mem fun ha hb hab => ?_
    rw [← h.swap (hs.mem_iff.mp hb) (hs.mem_iff.mp ha)]
    exact hab
  rw [← List.map_reverse]
  refine map_eq_of_ties h.opposite (fun a b ha hb htie => hf a ha b hb ?_)
    (fun a ha => ht.mem_iff.mp ha) (fun a ha => hs.mem_iff.mp (List.mem_reverse.mp ha)) ht.sorted
    hsorted fun a _ => (ht.perm.trans (hs.perm.symm.trans s.reverse_perm.symm)).countP_eq _
  exact Ordering.swap_eq_eq.mp htie

variable [BEq β] {Q : β → Prop}

/-- A list sorted the other way round has the same items without repeats from its end, if
what stands between equal items is equal to them. -/
theorem eraseDups_map_opposite (h : OrdersOn (· ∈ l) cmp) (hs : Sorts cmp l s)
    (ht : Sorts (fun a b => (cmp a b).swap) l t) (heq : EqualOn Q) (hQ : ∀ a ∈ l, Q (f a))
    (hruns : ∀ a ∈ l, ∀ b ∈ l, ∀ c ∈ l, f a = f c → cmp a b ≠ .gt → cmp b c ≠ .gt → f b = f a) :
    (t.map f).eraseDups = (s.map f).eraseDups.reverse := by
  have hmem : ∀ {r : List α}, r.Perm l → ∀ b ∈ r.map f, Q b := by
    intro r hr
    exact List.forall_mem_map.mpr fun a ha => hQ a (hr.mem_iff.mp ha)
  let Before (b c : β) : Prop := ∃ u ∈ l, ∃ v ∈ l, f u = b ∧ f v = c ∧ cmp u v ≠ .gt
  have hbefore : (s.map f).eraseDups.Pairwise Before := by
    refine List.Pairwise.sublist (eraseDups_sublist _) (List.pairwise_map.mpr ?_)
    exact hs.sorted.imp_of_mem fun ha hb hab =>
      ⟨_, hs.mem_iff.mp ha, _, hs.mem_iff.mp hb, rfl, rfl, hab⟩
  have hafter : (t.map f).eraseDups.Pairwise fun b c => Before c b := by
    refine List.Pairwise.sublist (eraseDups_sublist _) (List.pairwise_map.mpr ?_)
    refine ht.sorted.imp_of_mem fun ha hb hab => ?_
    rw [← h.swap (ht.mem_iff.mp ha) (ht.mem_iff.mp hb)] at hab
    exact ⟨_, ht.mem_iff.mp hb, _, ht.mem_iff.mp ha, rfl, rfl, hab⟩
  refine List.Perm.eq_of_pairwise ?_ hafter (List.pairwise_reverse.mpr hbefore) ?_
  · rintro _ _ - - ⟨u, hu, v, hv, rfl, rfl, huv⟩ ⟨u', hu', v', hv', hfu, hfv, huv'⟩
    -- either item stands between two that show the other
    rcases h.total hv hv' with hle | hle
    · exact hruns u hu v hv v' hv' hfv.symm huv hle
    · rw [← hfu, ← hfv]
      exact (hruns u' hu' v' hv' v hv hfu huv' hle).symm
  · rw [List.perm_ext_iff_of_nodup (nodup_eraseDups heq (hmem ht.perm))
      (List.pairwise_reverse.mpr ((nodup_eraseDups heq (hmem hs.perm)).imp Ne.symm))]
    intro b
    rw [List.mem_reverse, mem_eraseDups heq (hmem ht.perm), mem_eraseDups heq (hmem hs.perm),
      List.mem_map, List.mem_map]
    simp only [hs.mem_iff, ht.mem_iff]

end Sorts

end Opposite

end SeqQuery
