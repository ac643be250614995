/-
# Outcomes of steps that may fail

A step gives a value or an error, and so does a chain of steps. `Ends P E` says of an
outcome that its value satisfies `P` and its error satisfies `E`; it is carried along a
chain by `Ends.bind`. Mapping a step over a list succeeds exactly when every step does
(`Outcome.mapM_eq_ok`), and filtering by a test keeps what passes it
(`Outcome.filterM_eq_ok`).

Key definitions: `Ends`, `Outcome.passes`.
Key theorems: `Outcome.bind_eq_ok`, `Ends.bind`, `Outcome.mapM_eq_ok`,
`Outcome.filterM_eq_ok`.
-/
import Mathlib.Data.List.Forall2

namespace SeqQuery

variable {ε ε' α β γ : Type}

namespace Outcome

theorem bind_eq_ok {x : Except ε α} {f : α → Except ε β} {b : β} :
    (x >>= f) = .ok b ↔ ∃ a, x = .ok a ∧ f a = .ok b := by
  cases x <;> simp [bind, Except.bind]

/-- A check in front of a step has to succeed. -/
theorem check_bind_eq_ok {check : Except ε Unit} {x : Except ε β} {b : β} :
    (check >>= fun _ => x) = .ok b ↔ check = .ok () ∧ x = .ok b := by
  rw [bind_eq_ok]
  exact ⟨fun ⟨_, hc, hx⟩ => ⟨hc, hx⟩, fun ⟨hc, hx⟩ => ⟨(), hc, hx⟩⟩

theorem map_eq_ok {x : Except ε α} {f : α → β} {b : β} :
    x.map f = .ok b ↔ ∃ a, x = .ok a ∧ f a = b := by
  cases x <;> simp [Except.map]

theorem mapError_eq_ok {x : Except ε α} {f : ε → ε'} {a : α} :
    x.mapError f = .ok a ↔ x = .ok a := by
  cases x <;> simp [Except.mapError]

/-- A guarded value is given exactly when the guard holds. -/
theorem guard_eq_ok {c : Prop} [Decidable c] {a b : α} {e : ε} :
    (if c then .ok a else .error e : Except ε α) = .ok b ↔ c ∧ a = b := by
  by_cases h : c <;> simp [h]

theorem ok_bind (a : α) (f : α → Except ε β) : (Except.ok a >>= f) = f a := rfl

theorem error_bind (e : ε) (f : α → Except ε β) : (Except.error e >>= f) = .error e := rfl

/-! ### Steps over a list -/

/-- Mapping a step over a list gives a list exactly when every step gives its item. -/
theorem mapM_eq_ok {f : α → Except ε β} : ∀ {as : List α} {bs : List β},
    as.mapM f = .ok bs ↔ List.Forall₂ (fun a b => f a = .ok b) as bs
  | [], bs => by
    simp [pure, Except.pure, eq_comm]
  | a :: as, bs => by
    rw [List.mapM_cons, bind_eq_ok]
    simp only [bind_eq_ok, mapM_eq_ok, pure, Except.pure, Except.ok.injEq]
    constructor
    · rintro ⟨b, hb, rest, hrest, rfl⟩
      exact .cons hb hrest
    · rintro (_ | ⟨hb, hrest⟩)
      exact ⟨_, hb, _, hrest, rfl⟩

/-- Mapping a step that gives what a function says maps that function. -/
theorem mapM_eq_ok_map {f : α → Except ε β} {g : α → β} (hg : ∀ a b, f a = .ok b → g a = b)
    {as : List α} {bs : List β} :
    as.mapM f = .ok bs ↔ (∀ a ∈ as, f a = .ok (g a)) ∧ as.map g = bs := by
  rw [mapM_eq_ok]
  constructor
  · intro h
    induction h with
    | nil => simp
    | @cons a b as bs hab _ ih =>
      have hga : g a = b := hg a b hab
      rw [List.forall_mem_cons, List.map_cons, hga, ih.2]
      exact ⟨⟨hab, ih.1⟩, rfl⟩
  · rintro ⟨h, rfl⟩
    rw [List.forall₂_map_right_iff, List.forall₂_same]
    exact h

/-- Mapping a step over what names stand for keeps the names. -/
theorem mapM_named_eq_ok {f : α → Except ε β} {as : List (String × α)} {bs : List (String × β)} :
    as.mapM (fun a => (f a.2).map (a.1, ·)) = .ok bs ↔
      List.Forall₂ (fun a b => a.1 = b.1 ∧ f a.2 = .ok b.2) as bs := by
  have hstep : ∀ (a : String × α) (b : String × β),
      (f a.2).map (a.1, ·) = .ok b ↔ a.1 = b.1 ∧ f a.2 = .ok b.2 := by
    intro a b
    rw [map_eq_ok]
    constructor
    · rintro ⟨v, hv, rfl⟩
      exact ⟨rfl, hv⟩
    · rintro ⟨hname, hv⟩
      exact ⟨b.2, hv, Prod.ext hname rfl⟩
  rw [mapM_eq_ok]
  simp only [hstep]

/-- What is related to the items of a list can be put in their place. -/
theorem forall₂_transfer {R : α → β → Prop} {S : α → γ → Prop} {T : β → γ → Prop}
    (h : ∀ a b c, R a b → S a c → T b c) : ∀ {as : List α} {bs : List β} {cs : List γ},
    List.Forall₂ R as bs → List.Forall₂ S as cs → List.Forall₂ T bs cs
  | [], [], [], .nil, .nil => .nil
  | a :: _, b :: _, c :: _, .cons hab hR, .cons hac hS =>
    .cons (h a b c hab hac) (forall₂_transfer h hR hS)

theorem forall₂_imp_mem {R S : α → β → Prop} : ∀ {as : List α} {bs : List β},
    List.Forall₂ R as bs → (∀ a ∈ as, ∀ b, R a b → S a b) → List.Forall₂ S as bs
  | [], [], .nil, _ => .nil
  | a :: _, b :: _, .cons hab hrest, h =>
    .cons (h a List.mem_cons_self b hab)
      (forall₂_imp_mem hrest fun a' hmem => h a' (List.mem_cons_of_mem _ hmem))

/-- When something goes with every item of a list, a list goes with the list. -/
theorem exists_forall₂ {R : α → β → Prop} : ∀ {as : List α},
    (∀ a ∈ as, ∃ b, R a b) → ∃ bs, List.Forall₂ R as bs
  | [], _ => ⟨[], .nil⟩
  | a :: as, h => by
    rw [List.forall_mem_cons] at h
    obtain ⟨b, hb⟩ := h.1
    obtain ⟨bs, hbs⟩ := exists_forall₂ h.2
    exact ⟨b :: bs, .cons hb hbs⟩

theorem forall_mem_of_forall₂ {P : β → Prop} : ∀ {as : List α} {bs : List β},
    List.Forall₂ (fun _ b => P b) as bs → ∀ b ∈ bs, P b
  | [], [], .nil, _, hmem => by cases hmem
  | _ :: _, _ :: _, .cons hb hrest, b, hmem => by
    rcases List.mem_cons.mp hmem with rfl | hmem
    · exact hb
    · exact forall_mem_of_forall₂ hrest b hmem

/-- A test that succeeds with `true`. -/
def passes (test : α → Except ε Bool) (a : α) : Bool :=
  match test a with
  | .ok b => b
  | .error _ => false

theorem passes_of_ok {test : α → Except ε Bool} {a : α} {b : Bool} (h : test a = .ok b) :
    passes test a = b := by
  simp [passes, h]

theorem filterAuxM_eq_ok {test : α → Except ε Bool} : ∀ {as acc bs : List α},
    as.filterAuxM test acc = .ok bs ↔
      (∀ a ∈ as, ∃ b, test a = .ok b) ∧ (as.filter (passes test)).reverse ++ acc = bs
  | [], acc, bs => by simp [List.filterAuxM, pure, Except.pure]
  | a :: as, acc, bs => by
    rw [List.filterAuxM, bind_eq_ok]
    simp only [filterAuxM_eq_ok, List.forall_mem_cons]
    constructor
    · rintro ⟨b, hb, hall, rfl⟩
      refine ⟨⟨⟨b, hb⟩, hall⟩, ?_⟩
      cases b <;> simp [passes_of_ok hb]
    · rintro ⟨⟨⟨b, hb⟩, hall⟩, rfl⟩
      refine ⟨b, hb, hall, ?_⟩
      cases b <;> simp [passes_of_ok hb]

/-- Filtering by a test gives a list exactly when every test succeeds, and then keeps
what passes. -/
theorem filterM_eq_ok {test : α → Except ε Bool} {as bs : List α} :
    as.filterM test = .ok bs ↔
      (∀ a ∈ as, ∃ b, test a = .ok b) ∧ as.filter (passes test) = bs := by
  rw [List.filterM, bind_eq_ok]
  simp only [filterAuxM_eq_ok, pure, Except.pure, Except.ok.injEq, List.append_nil]
  constructor
  · rintro ⟨_, ⟨hall, rfl⟩, rfl⟩
    exact ⟨hall, (List.reverse_reverse _).symm⟩
  · rintro ⟨hall, rfl⟩
    exact ⟨_, ⟨hall, rfl⟩, List.reverse_reverse _⟩

end Outcome

/-! ### What a chain of steps ends in -/

/-- An outcome is a value that satisfies the one or an error that satisfies the other. -/
inductive Ends (P : α → Prop) (E : ε → Prop) : Except ε α → Prop
  | ok {a : α} (h : P a) : Ends P E (.ok a)
  | error {e : ε} (h : E e) : Ends P E (.error e)

namespace Ends

variable {P : α → Prop} {Q : β → Prop} {E : ε → Prop}

theorem of_ok {x : Except ε α} {a : α} (h : Ends P E x) (hx : x = .ok a) : P a := by
  subst hx
  cases h with
  | ok h => exact h

theorem of_error {x : Except ε α} {e : ε} (h : Ends P E x) (hx : x = .error e) : E e := by
  subst hx
  cases h with
  | error h => exact h

theorem imp {P' : α → Prop} {x : Except ε α} (h : Ends P E x) (hP : ∀ a, P a → P' a) :
    Ends P' E x := by
  cases h with
  | ok h => exact .ok (hP _ h)
  | error h => exact .error h

theorem mono {E' : ε → Prop} {x : Except ε α} (h : Ends P E x) (hE : ∀ e, E e → E' e) :
    Ends P E' x := by
  cases h with
  | ok h => exact .ok h
  | error h => exact .error (hE _ h)

/-- A chain ends well when its first step does and the rest does from there. -/
theorem bind {x : Except ε α} {f : α → Except ε β} (hx : Ends P E x)
    (hf : ∀ a, P a → Ends Q E (f a)) : Ends Q E (x >>= f) := by
  cases hx with
  | ok h => exact hf _ h
  | error h => exact .error h

/-- Steps that agree where a first step leads can be put in each other's place. -/
theorem bind_congr {x : Except ε α} {f g : α → Except ε β} (hx : Ends P E x)
    (hfg : ∀ a, P a → f a = g a) : x >>= f = x >>= g := by
  cases hx with
  | ok h => exact hfg _ h
  | error h => rfl

theorem map {x : Except ε α} {f : α → β} (hx : Ends P E x) (hf : ∀ a, P a → Q (f a)) :
    Ends Q E (x.map f) := by
  cases hx with
  | ok h => exact .ok (hf _ h)
  | error h => exact .error h

/-- Mapping a step over a list ends well when every step does. -/
theorem mapM {R : α → β → Prop} {f : α → Except ε β} : ∀ {as : List α},
    (∀ a ∈ as, Ends (R a) E (f a)) → Ends (fun bs => List.Forall₂ R as bs) E (as.mapM f)
  | [], _ => .ok .nil
  | a :: as, h => by
    rw [List.mapM_cons]
    refine (h a List.mem_cons_self).bind fun b hb => ?_
    refine (mapM fun a' ha' => h a' (List.mem_cons_of_mem _ ha')).bind fun bs hbs => ?_
    exact .ok (.cons hb hbs)

end Ends
end SeqQuery
