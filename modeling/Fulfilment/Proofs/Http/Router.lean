import Fulfilment.Http.Router
import Fulfilment.Proofs.Program

/-!
# What routes do

A request is answered by a handler of one of the routes, or without any. So what every handler does to the state, the
answer does (`Router.along_respond`). The handler of a route for the method of the request is the one that answers it
(`Router.respond_eq`).
-/

namespace Fulfilment

namespace Http

namespace Router

open Program (Along)

variable {σ : Type} {R : σ → σ → Prop} {routes : List (Route (StateM σ))} {route : Route (StateM σ)} {r : Request}

/-- An answer of a route does what one of its handlers does, if anything. -/
theorem answer_state (route : Route (StateM σ)) (r : Request) (d : σ) :
    (answer route r d).2 = d ∨ ∃ h ∈ route.handlers, (answer route r d).2 = (h.2 r d).2 := by
  have found {name handler} (h : route.handlers.lookup name = some handler) : (name, handler) ∈ route.handlers := by
    obtain ⟨before, after, hsplit, -⟩ := List.lookup_eq_some_iff.1 h
    rw [hsplit]
    simp
  unfold answer
  cases hown : route.handlers.lookup r.method with
  | some handler => exact .inr ⟨_, found hown, rfl⟩
  | none =>
    -- a request for the head runs the handler that gets, and drops the body
    dsimp only
    by_cases hhead : r.method = "HEAD"
    · rw [if_pos hhead]
      cases hget : route.handlers.lookup "GET" with
      | some handler => exact .inr ⟨_, found hget, rfl⟩
      | none => exact .inl rfl
    · rw [if_neg hhead]
      exact .inl rfl

theorem respond_state (routes : List (Route (StateM σ))) (r : Request) (d : σ) :
    (respond routes r d).2 = d ∨
      ∃ route ∈ routes, ∃ h ∈ route.handlers, (respond routes r d).2 = (h.2 r d).2 := by
  unfold respond
  by_cases hoptions : r.method = "OPTIONS"
  · rw [if_pos hoptions]
    exact .inl rfl
  · rw [if_neg hoptions]
    cases hroute : route? routes r with
    | none => exact .inl rfl
    | some route =>
      rcases answer_state route r d with h | ⟨handler, hh, h⟩
      · exact .inl h
      · exact .inr ⟨route, List.mem_of_find?_eq_some hroute, handler, hh, h⟩

theorem along_respond (refl : ∀ d, R d d) (h : ∀ route ∈ routes, ∀ handler ∈ route.handlers, Along R (handler.2 r)) :
    Along R (respond routes r) := by
  intro d
  rcases respond_state routes r d with hd | ⟨route, hroute, handler, hhandler, hd⟩
  · rw [hd]
    exact refl d
  · rw [hd]
    exact h route hroute handler hhandler d

/-- The answer that the handler for the method of the request gives may be read by scripts of any origin. -/
theorem respond_eq {method : String} {handler : Request → StateM σ Response} {d d' : σ} {response : Response}
    (asked : r.method = method) (notOptions : method ≠ "OPTIONS") (routed : route? routes r = some route)
    (handles : route.handlers.lookup method = some handler) (run : handler r d = (response, d')) :
    respond routes r d = (openToAll response, d') := by
  have answers : answer route r = handler r := by
    unfold answer
    rw [asked, handles]
  unfold respond
  rw [if_neg (asked ▸ notOptions), routed]
  dsimp only
  rw [answers]
  exact Program.bind_eq run

end Router

end Http

end Fulfilment
