import Mathlib.Data.List.Forall2
import ThresholdBls.Error

/-!
# Successful computations

A sequence of checks succeeds when every check does.
-/

namespace ThresholdBls

variable {α β ε ε' : Type}

theorem bind_eq_ok_iff {x : Except ε α} {f : α → Except ε β} {b : β} :
    (x >>= f) = .ok b ↔ ∃ a, x = .ok a ∧ f a = .ok b := by
  cases x with
  | error e => simp [Bind.bind, Except.bind]
  | ok a => simp [Bind.bind, Except.bind]

theorem bind_eq_error_iff {x : Except ε α} {f : α → Except ε β} {e : ε} :
    (x >>= f) = .error e ↔ x = .error e ∨ ∃ a, x = .ok a ∧ f a = .error e := by
  cases x with
  | error e' => simp [Bind.bind, Except.bind]
  | ok a => simp [Bind.bind, Except.bind]

theorem pure_eq_ok_iff {a b : α} : (pure a : Except ε α) = .ok b ↔ a = b :=
  Except.ok.injEq a b ▸ Iff.rfl

theorem guard_eq_ok_iff {p : Prop} [Decidable p] {e : ε} {f : PUnit → Except ε α}
    {x : Except ε α} {a : α} :
    (if p then throw e >>= f else x) = .ok a ↔ ¬ p ∧ x = .ok a := by
  by_cases h : p
  · simp [h, throw, throwThe, MonadExceptOf.throw, Bind.bind, Except.bind]
  · simp [h]

theorem guard_eq_error_iff {p : Prop} [Decidable p] {e e' : ε} {f : PUnit → Except ε α}
    {x : Except ε α} :
    (if p then throw e' >>= f else x) = .error e ↔ (p ∧ e' = e) ∨ (¬ p ∧ x = .error e) := by
  by_cases h : p
  · simp [h, throw, throwThe, MonadExceptOf.throw, Bind.bind, Except.bind]
  · simp [h]

theorem mapError_eq_ok_iff {x : Except ε α} {f : ε → ε'} {a : α} :
    x.mapError f = .ok a ↔ x = .ok a := by
  cases x with
  | error e => simp [Except.mapError]
  | ok b => simp [Except.mapError]

theorem mapError_eq_error_iff {x : Except ε α} {f : ε → ε'} {e' : ε'} :
    x.mapError f = .error e' ↔ ∃ e, x = .error e ∧ f e = e' := by
  cases x with
  | error e => simp [Except.mapError]
  | ok b => simp [Except.mapError]

theorem map_decide_eq_ok_iff [DecidableEq α] {x : Except Error α} {a : α} :
    (x.map fun b => decide (b = a)) = .ok true ↔ x = .ok a := by
  cases x with
  | error e => simp [Except.map]
  | ok b => simp [Except.map]

theorem mapM_eq_ok_iff {f : α → Except ε β} {l : List α} {bs : List β} :
    l.mapM f = .ok bs ↔ List.Forall₂ (fun a b => f a = .ok b) l bs := by
  induction l generalizing bs with
  | nil => rw [List.mapM_nil, pure_eq_ok_iff, List.forall₂_nil_left_iff, eq_comm]
  | cons a rest ih =>
      rw [List.mapM_cons, bind_eq_ok_iff, List.forall₂_cons_left_iff]
      refine exists_congr fun b => ?_
      rw [bind_eq_ok_iff]
      constructor
      · rintro ⟨ha, bs', hrest, hbs⟩
        exact ⟨bs', ha, ih.mp hrest, (pure_eq_ok_iff.mp hbs).symm⟩
      · rintro ⟨bs', ha, hrest, rfl⟩
        exact ⟨ha, bs', ih.mpr hrest, rfl⟩

theorem exists_of_mapM_eq_ok {f : α → Except ε β} {l : List α} {bs : List β} {b : β}
    (h : l.mapM f = .ok bs) (hb : b ∈ bs) : ∃ a ∈ l, f a = .ok b := by
  have hforall := mapM_eq_ok_iff.mp h
  clear h
  induction hforall with
  | nil => simp at hb
  | cons ha _ ih =>
      cases hb with
      | head => exact ⟨_, List.mem_cons_self, ha⟩
      | tail _ hb =>
          obtain ⟨c, hc, hcb⟩ := ih hb
          exact ⟨c, List.mem_cons_of_mem _ hc, hcb⟩

theorem foldlM_invariant {P : β → Prop} {f : β → α → Except ε β} {l : List α} {start final : β}
    (hstart : P start) (hstep : ∀ a ∈ l, ∀ b b', P b → f b a = .ok b' → P b')
    (h : l.foldlM f start = .ok final) : P final := by
  induction l generalizing start with
  | nil =>
      cases h
      exact hstart
  | cons a rest ih =>
      rw [List.foldlM_cons] at h
      obtain ⟨next, hnext, h⟩ := bind_eq_ok_iff.mp h
      exact ih (hstep a List.mem_cons_self start next hstart hnext)
        (fun c hc => hstep c (List.mem_cons_of_mem _ hc)) h

theorem mapM_eq_ok {f : α → Except ε β} {g : α → β} {l : List α}
    (h : ∀ a ∈ l, f a = .ok (g a)) : l.mapM f = .ok (l.map g) := by
  induction l with
  | nil => rfl
  | cons a rest ih =>
      rw [List.mapM_cons, h a List.mem_cons_self, ih fun b hb => h b (List.mem_cons_of_mem _ hb)]
      rfl

/-- Where all failures are the same, one of them is the failure of the whole. -/
theorem mapM_eq_error {f : α → Except Error β} {e : Error} {l : List α}
    (hall : ∀ a ∈ l, (∃ b, f a = .ok b) ∨ f a = .error e) (hsome : ∃ a ∈ l, f a = .error e) :
    l.mapM f = .error e := by
  induction l with
  | nil => simp at hsome
  | cons a rest ih =>
      rw [List.mapM_cons]
      rcases hall a List.mem_cons_self with ⟨b, hb⟩ | he
      · have hrest : ∃ c ∈ rest, f c = .error e := by
          obtain ⟨c, hc, he⟩ := hsome
          rcases List.mem_cons.mp hc with rfl | hc
          · rw [hb] at he
            cases he
          · exact ⟨c, hc, he⟩
        rw [hb, ih (fun c hc => hall c (List.mem_cons_of_mem _ hc)) hrest]
        rfl
      · rw [he]
        rfl

theorem forM_eq_ok {f : α → Except Error PUnit} {l : List α} (h : ∀ a ∈ l, f a = .ok ⟨⟩) :
    l.forM f = .ok ⟨⟩ := by
  induction l with
  | nil => rfl
  | cons a rest ih =>
      rw [List.forM, h a List.mem_cons_self]
      exact ih fun b hb => h b (List.mem_cons_of_mem _ hb)

end ThresholdBls
