import Fulfilment.Depot.Basic

/-!
# Files

A file is fetched just when there is one of that name that is not too long (`fetch_eq_ok_iff`), and a file that was
stored is the one of its name (`blob?_of_putBlob`).
-/

namespace Fulfilment

namespace Depot

variable {d : Depot} {bucket key : String} {limit : Nat} {body : Bytes}

theorem fetch_eq_ok_iff :
    d.fetch bucket key limit = .ok body ↔ d.blob? bucket key = some body ∧ body.length ≤ limit := by
  unfold fetch
  cases hb : d.blob? bucket key with
  | none => simp
  | some body' =>
    dsimp only
    by_cases hl : limit < body'.length
    · rw [if_pos hl]
      constructor
      · intro h
        cases h
      · rintro ⟨h, hle⟩
        cases h
        omega
    · rw [if_neg hl]
      constructor
      · intro h
        cases h
        exact ⟨rfl, by omega⟩
      · rintro ⟨h, -⟩
        cases h
        rfl

/-- No file is fetched just when there is none of that name, or the one there is is too long. -/
theorem fetch_error_iff :
    (∃ f, d.fetch bucket key limit = .error f) ↔
      d.blob? bucket key = none ∨ ∃ body, d.blob? bucket key = some body ∧ limit < body.length := by
  unfold fetch
  cases hb : d.blob? bucket key with
  | none => simp
  | some body =>
    dsimp only
    by_cases hl : limit < body.length
    · simp [hl]
    · simp [hl]

theorem find?_putBlob (b : Blob) (blobs : List Blob) :
    (putBlob b blobs).find? (fun b' => b'.bucket == b.bucket && b'.key == b.key) = some b := by
  induction blobs with
  | nil => simp [putBlob]
  | cons b' rest ih =>
    unfold putBlob
    by_cases hb : b'.bucket = b.bucket ∧ b'.key = b.key
    · simp [hb]
    · have hne : (b'.bucket == b.bucket && b'.key == b.key) = false := by simpa using hb
      rw [if_neg hb, List.find?_cons, hne]
      exact ih

/-- A file is there once it was stored. -/
theorem blob?_of_putBlob {b : Blob} {blobs : List Blob} (h : d.blobs = putBlob b blobs) :
    d.blob? b.bucket b.key = some b.body := by
  unfold blob?
  rw [h, find?_putBlob]
  rfl

end Depot

end Fulfilment
