import Fulfilment.Bus.Message
import Fulfilment.Proofs.Program

/-!
# Attempts

A retried handler that works on a state goes through a number of attempts that fail, each from the state that the one
before it left behind, and then makes its last attempt. The key facts are `retried_cases`: how many attempts fail, and
what the last one says, and `retried_attempted`: the attempts that were made, one after the other.
-/

namespace Fulfilment

namespace Handler

open Program (bind_eq)

variable {σ : Type}

/-- Attempts in a row that fail, each from the state that the one before it left behind. -/
inductive Failed (h : Handler (StateM σ)) (m : Message) : Nat → σ → σ → Prop
  | none (s : σ) : Failed h m 0 s s
  | more {n : Nat} {s s₁ s₂ : σ} {f : Failure} (first : h m s = (.error f, s₁)) (rest : Failed h m n s₁ s₂) :
    Failed h m (n + 1) s s₂

/-- How attempts end: the last of them succeeds, or it was the last that could be made. -/
inductive Ended (h : Handler (StateM σ)) (m : Message) (gaveUp : String) (n left : Nat) (s : σ) :
    Except Failure Unit × σ → Prop
  | succeeded {s' : σ} (last : h m s = (.ok (), s')) : Ended h m gaveUp n left s (.ok (), s')
  | exhausted {s' : σ} {f : Failure} (last : h m s = (.error f, s')) (all : n = left) :
    Ended h m gaveUp n left s (.error (f.context gaveUp), s')

theorem attempts_cases (h : Handler (StateM σ)) (m : Message) (gaveUp : String) (left : Nat) (s : σ) :
    ∃ n s₁, n ≤ left ∧ Failed h m n s s₁ ∧ Ended h m gaveUp n left s₁ (attempts h m gaveUp left s) := by
  induction left generalizing s with
  | zero =>
    refine ⟨0, s, Nat.le_refl 0, .none s, ?_⟩
    unfold attempts
    rcases hs : h m s with ⟨f | _, s'⟩
    · rw [bind_eq hs]
      exact .exhausted hs rfl
    · rw [bind_eq hs]
      exact .succeeded hs
  | succ left ih =>
    unfold attempts
    rcases hs : h m s with ⟨f | _, s'⟩
    · obtain ⟨n, s₁, hn, hf, he⟩ := ih s'
      refine ⟨n + 1, s₁, Nat.succ_le_succ hn, .more hs hf, ?_⟩
      rw [bind_eq hs]
      dsimp only
      generalize attempts h m gaveUp left s' = r at he
      cases he with
      | succeeded last => exact .succeeded last
      | exhausted last all => exact .exhausted last (by rw [all])
    · refine ⟨0, s, Nat.zero_le _, .none s, ?_⟩
      rw [bind_eq hs]
      exact .succeeded hs

/-- Fewer than `max 1 n` attempts fail before the last one. -/
theorem retried_cases (n : Nat) (h : Handler (StateM σ)) (m : Message) (s : σ) :
    ∃ k s₁, k < max 1 n ∧ Failed h m k s s₁ ∧
      Ended h m s!"giving up on {m.topic} message after {max 1 n} attempts" k (n - 1) s₁ (retried n h m s) := by
  obtain ⟨k, s₁, hk, hf, he⟩ :=
    attempts_cases h m s!"giving up on {m.topic} message after {max 1 n} attempts" (n - 1) s
  exact ⟨k, s₁, by omega, hf, he⟩

/-- One attempt: the state that it found, what it told, and the state that it left behind. -/
structure Attempt (σ : Type) where
  before : σ
  result : Except Failure Unit
  after : σ

/-- Attempts in a row, each from the state that the one before it left behind, of which all but the last have
failed. -/
inductive Attempted (h : Handler (StateM σ)) (m : Message) : σ → List (Attempt σ) → σ → Prop
  | last {s s' : σ} {r : Except Failure Unit} (run : h m s = (r, s')) : Attempted h m s [⟨s, r, s'⟩] s'
  | again {s s₁ s' : σ} {f : Failure} {as : List (Attempt σ)} (failed : h m s = (.error f, s₁))
      (later : Attempted h m s₁ as s') : Attempted h m s (⟨s, .error f, s₁⟩ :: as) s'

theorem Attempted.run {h : Handler (StateM σ)} {m : Message} {s s' : σ} {as : List (Attempt σ)}
    (hs : Attempted h m s as s') : ∀ a ∈ as, h m a.before = (a.result, a.after) := by
  induction hs with
  | last run =>
    intro a ha
    rw [List.mem_singleton.1 ha]
    exact run
  | again failed _ ih =>
    rw [List.forall_mem_cons]
    exact ⟨failed, ih⟩

theorem Failed.attempted {h : Handler (StateM σ)} {m : Message} {k : Nat} {s s₁ s' : σ} {r : Except Failure Unit}
    (hf : Failed h m k s s₁) (last : h m s₁ = (r, s')) : ∃ as, Attempted h m s as s' ∧ as.length = k + 1 := by
  induction hf with
  | none => exact ⟨_, .last last, rfl⟩
  | more first _ ih =>
    obtain ⟨as, has, hlength⟩ := ih last
    exact ⟨_, .again first has, by rw [List.length_cons, hlength]⟩

/-- At most `max 1 n` attempts are made. -/
theorem retried_attempted (n : Nat) (h : Handler (StateM σ)) (m : Message) (s : σ) :
    ∃ as, Attempted h m s as (retried n h m s).2 ∧ as.length ≤ max 1 n := by
  obtain ⟨k, s₁, hk, hf, he⟩ := retried_cases n h m s
  generalize retried n h m s = r at he ⊢
  cases he with
  | succeeded last =>
    obtain ⟨as, has, hlength⟩ := hf.attempted last
    exact ⟨as, has, by omega⟩
  | exhausted last =>
    obtain ⟨as, has, hlength⟩ := hf.attempted last
    exact ⟨as, has, by omega⟩

end Handler

end Fulfilment
