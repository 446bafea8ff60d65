/-!
# Programs

How a program runs when it is made of others. One that may fail succeeds when all its steps do (`ok_of_bind`), and
when its steps are checks it fails with the first complaint that applies (`Checks.bind`). One over a state runs step
by step (`bind_eq`), and what all its steps do to the state, it does (`Along.bind`).
-/

namespace Fulfilment

namespace Program

variable {ε σ α β : Type} {R : σ → σ → Prop}

theorem ok_of_bind {x : Except ε α} {f : α → Except ε β} {b : β} (h : (x >>= f) = .ok b) :
    ∃ a, x = .ok a ∧ f a = .ok b := by
  cases x with
  | error e => cases h
  | ok a => exact ⟨a, rfl, h⟩

theorem ok_of_map {x : Except ε α} {f : α → β} {b : β} (h : x.map f = .ok b) : ∃ a, x = .ok a ∧ f a = b := by
  cases x with
  | error e => cases h
  | ok a =>
    cases h
    exact ⟨a, rfl, rfl⟩

theorem eq_ok_of_toOption {x : Except ε α} {a : α} (h : x.toOption = some a) : x = .ok a := by
  cases x with
  | error e => cases h
  | ok b =>
    cases h
    rfl

/-! ### Checks -/

/-- The error of the first complaint that applies. -/
inductive First : List (ε → Prop) → ε → Prop
  | here {p : ε → Prop} {ps : List (ε → Prop)} {e : ε} (applies : p e) : First (p :: ps) e
  | later {p : ε → Prop} {ps : List (ε → Prop)} {e : ε} (silent : ∀ e, ¬ p e) (first : First ps e) : First (p :: ps) e

namespace First

variable {ps ps' : List (ε → Prop)} {e e' : ε}

theorem exists_mem (h : First ps e) : ∃ p ∈ ps, p e := by
  induction h with
  | here applies => exact ⟨_, List.mem_cons_self, applies⟩
  | later _ _ ih =>
    obtain ⟨p, hp, applies⟩ := ih
    exact ⟨p, List.mem_cons_of_mem _ hp, applies⟩

/-- If each complaint makes one error only, so do they all together. -/
theorem unique (hps : ∀ p ∈ ps, ∀ e e', p e → p e' → e = e') (h : First ps e) (h' : First ps e') : e = e' := by
  induction h with
  | here applies =>
    cases h' with
    | here applies' => exact hps _ List.mem_cons_self _ _ applies applies'
    | later silent => exact absurd applies (silent _)
  | later silent _ ih =>
    cases h' with
    | here applies' => exact absurd applies' (silent _)
    | later _ first' => exact ih (fun p hp => hps p (List.mem_cons_of_mem _ hp)) first'

theorem append_left (h : First ps e) : First (ps ++ ps') e := by
  induction h with
  | here applies => exact .here applies
  | later silent _ ih => exact .later silent ih

theorem append_right (silent : ∀ p ∈ ps, ∀ e, ¬ p e) (h : First ps' e) : First (ps ++ ps') e := by
  induction ps with
  | nil => exact h
  | cons p ps ih =>
    rw [List.forall_mem_cons] at silent
    exact .later silent.1 (ih silent.2)

end First

/-- The program succeeds, with a result of some kind, if none of the complaints applies, and it fails with the first
of them that does. -/
def Checks (ps : List (ε → Prop)) (good : α → Prop) (x : Except ε α) : Prop :=
  (∃ a, x = .ok a ∧ good a ∧ ∀ p ∈ ps, ∀ e, ¬ p e) ∨ ∃ e, x = .error e ∧ First ps e

theorem Checks.pure {good : α → Prop} {a : α} (h : good a) : Checks [] good (pure a : Except ε α) :=
  .inl ⟨a, rfl, h, fun _ hp => by cases hp⟩

theorem Checks.of_ok {ps : List (ε → Prop)} {good good' : α → Prop} {x : Except ε α} (h : Checks ps good x)
    (h' : ∀ a, x = .ok a → good' a) : Checks ps good' x := by
  rcases h with ⟨a, ha, -, silent⟩ | refused
  · exact .inl ⟨a, ha, h' a ha, silent⟩
  · exact .inr refused

/-- A program of two steps makes the checks of the first and then those of the second. -/
theorem Checks.bind {ps ps' : List (ε → Prop)} {good : α → Prop} {good' : β → Prop} {x : Except ε α}
    {f : α → Except ε β} (hx : Checks ps good x) (hf : ∀ a, good a → Checks ps' good' (f a)) :
    Checks (ps ++ ps') good' (x >>= f) := by
  rcases hx with ⟨a, rfl, ha, silent⟩ | ⟨e, rfl, first⟩
  · rcases hf a ha with ⟨b, hb, hgood, silent'⟩ | ⟨e, he, first⟩
    · exact .inl ⟨b, hb, hgood, fun p hp => (List.mem_append.1 hp).elim (silent p) (silent' p)⟩
    · exact .inr ⟨e, he, first.append_right silent⟩
  · exact .inr ⟨e, rfl, first.append_left⟩

/-! ### States -/

theorem bind_eq {p : StateM σ α} {f : α → StateM σ β} {s s' : σ} {a : α} (h : p s = (a, s')) :
    (p >>= f) s = f a s' := by
  show (match p s with | (a, s') => f a s') = f a s'
  rw [h]

/-- The state that the program leaves behind stands in relation to the one it found. -/
def Along (R : σ → σ → Prop) (p : StateM σ α) : Prop := ∀ s, R s (p s).2

theorem Along.pure (refl : ∀ s, R s s) (a : α) : Along R (pure a : StateM σ α) := fun s => refl s

theorem Along.bind (trans : ∀ {s₁ s₂ s₃}, R s₁ s₂ → R s₂ s₃ → R s₁ s₃) {p : StateM σ α} {f : α → StateM σ β}
    (hp : Along R p) (hf : ∀ a, Along R (f a)) : Along R (p >>= f) := by
  intro s
  rw [bind_eq (show p s = ((p s).1, (p s).2) from rfl)]
  exact trans (hp s) (hf _ _)

end Program

end Fulfilment
