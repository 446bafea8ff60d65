import Fulfilment.Http.Router
import Fulfilment.Proofs.Json.RecordValue

/-!
# Records in bodies

A body is read as a record where the request calls it a document, it is not too large, and the document is one of the
record (`readBody_eq_ok_iff`). So a record that is sent as its own document under `documentHeader` is received as it
was sent (`readBody_encode`).
-/

namespace Fulfilment

namespace Http

open Json

variable {α : Type} [Record α] {r : Request} {a : α}

theorem readBody_eq_ok_iff :
    readBody α r = .ok a ↔
      r.mediaType?.any MediaType.isJson = true ∧ r.body.length ≤ maxDocumentBytes ∧ Record.parse r.body = .ok a := by
  unfold readBody
  split
  · rename_i other
    rw [Bool.not_eq_true'] at other
    simp [other]
  · rename_i json
    rw [Bool.not_eq_true', Bool.not_eq_false] at json
    split
    · rename_i long
      simp [Nat.not_le.2 long]
    · rename_i short
      rw [and_iff_right json, and_iff_right (Nat.not_lt.1 short)]
      cases (Record.parse r.body : Except _ α) with
      | error fault => exact ⟨nofun, nofun⟩
      | ok b =>
        constructor
        · intro h
          cases h
          rfl
        · intro h
          cases h
          rfl

/-- The header that calls a body a document. -/
def documentHeader : String × Bytes := ("content-type", Utf8.ofString "application/json")

theorem isJson_documentHeader :
    (MediaType.parse? (documentHeader.2.map fun b => Char.ofNat b.toNat)).any MediaType.isJson = true := by
  decide +kernel

theorem mediaType?_of_documentHeader {headers : List (String × Bytes)}
    (h : r.headers = documentHeader :: headers) : r.mediaType?.any MediaType.isJson = true := by
  have value : r.header? "content-type" = some documentHeader.2 := by
    rw [Request.header?, h]
    rfl
  have plain : (documentHeader.2.all fun b => (0x20 ≤ b && b ≤ 0x7E) || b == 9) = true := by decide
  rw [Request.mediaType?, Request.headerText?, value]
  dsimp only
  rw [if_pos plain]
  exact isJson_documentHeader

theorem readBody_encode {method : String} {target : Target} {headers : List (String × Bytes)}
    (lawful : Record.Lawful a) (short : (Record.encode a).length ≤ maxDocumentBytes) :
    readBody α ⟨method, target, documentHeader :: headers, Record.encode a⟩ = .ok a :=
  readBody_eq_ok_iff.2 ⟨mediaType?_of_documentHeader rfl, short, lawful.parse_encode⟩

end Http

end Fulfilment
