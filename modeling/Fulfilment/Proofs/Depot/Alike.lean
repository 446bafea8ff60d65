import Fulfilment.Depot.Basic
import Fulfilment.Proofs.Program

/-!
# Depots alike but for files

Depots may differ in their files and in the calls that had to do with files, and otherwise be the same
(`Depot.Alike`). Two programs run *abreast* when from such depots they come to results that belong together, and to
such depots again (`Abreast`); so do programs made of such (`Abreast.bind`). Every operation that has nothing to do
with files runs abreast of itself.
-/

namespace Fulfilment

open Program (bind_eq)

/-- Whether a call has to do with files. -/
def Call.onFiles : Call → Bool
  | .blobGet .. | .blobPut .. | .blobExists .. => true
  | .lookup .. | .setOnHand .. | .insert .. | .markNewOrder .. | .publish .. => false

namespace Depot

/-- The depots differ at most in their files and in the calls that had to do with files. -/
inductive Alike (d : Depot) : Depot → Prop
  | but (blobs : List Blob) (calls : List Call) (same : calls.filter (!·.onFiles) = d.calls.filter (!·.onFiles)) :
    Alike d { d with blobs, calls }

namespace Alike

variable {d d' : Depot}

theorem refl (d : Depot) : d.Alike d := .but d.blobs d.calls rfl

theorem orders (h : d.Alike d') : d'.orders = d.orders := by
  cases h
  rfl

theorem bus (h : d.Alike d') : d'.bus = d.bus := by
  cases h
  rfl

theorem rejections (h : d.Alike d') : d'.rejections = d.rejections := by
  cases h
  rfl

theorem supply (h : d.Alike d') : d'.supply = d.supply := by
  cases h
  rfl

/-- The same call is made on both. -/
theorem logged (h : d.Alike d') (c : Call) : (d.logged c).Alike (d'.logged c) := by
  cases h with
  | but blobs calls same =>
    refine .but blobs (calls ++ [c]) ?_
    rw [List.filter_append, same, ← List.filter_append]
    rfl

/-- Calls that have to do with files need not be the same. -/
theorem logged_files (h : d.Alike d') {c c' : Call} (hc : c.onFiles) (hc' : c'.onFiles) :
    (d.logged c).Alike (d'.logged c') := by
  cases h with
  | but blobs calls same =>
    refine .but blobs (calls ++ [c']) ?_
    show (calls ++ [c']).filter (!·.onFiles) = (d.calls ++ [c]).filter (!·.onFiles)
    rw [List.filter_append, List.filter_append, same]
    simp [hc, hc']

end Alike

end Depot

open Depot (Alike)

/-- From depots that are alike the programs come to depots that are alike, and to results that belong together. -/
def Abreast {α β : Type} (R : α → β → Prop) (p : Work α) (p' : Work β) : Prop :=
  ∀ d d', d.Alike d' → R (p d).1 (p' d').1 ∧ (p d).2.Alike (p' d').2

namespace Abreast

variable {α α' β β' : Type} {R : α → α' → Prop} {S : β → β' → Prop}

theorem pure {a : α} {a' : α'} (h : R a a') : Abreast R (pure a) (pure a') := fun _ _ alike => ⟨h, alike⟩

theorem bind {p : Work α} {p' : Work α'} {f : α → Work β} {f' : α' → Work β'} (hp : Abreast R p p')
    (hf : ∀ a a', R a a' → Abreast S (f a) (f' a')) : Abreast S (p >>= f) (p' >>= f') := by
  intro d d' alike
  obtain ⟨together, alike'⟩ := hp d d' alike
  rw [bind_eq (show p d = ((p d).1, (p d).2) from rfl), bind_eq (show p' d' = ((p' d').1, (p' d').2) from rfl)]
  exact hf _ _ together _ _ alike'

theorem get : Abreast Depot.Alike (get : Work Depot) get := fun _ _ alike => ⟨alike, alike⟩

/-! ### The operations -/

theorem lookup (hubId skuId : String) : Abreast Eq (Depot.lookup hubId skuId) (Depot.lookup hubId skuId) := by
  intro d _ alike
  cases alike with
  | but blobs calls same =>
    have worn : Alike { d with lookups := d.lookups.worn } { d with lookups := d.lookups.worn, blobs, calls } :=
      .but blobs calls same
    unfold Depot.lookup
    cases d.lookups.strikes <;> exact ⟨rfl, worn.logged _⟩

theorem insert (draft : Draft) : Abreast Eq (Depot.insert draft) (Depot.insert draft) := by
  intro d _ alike
  cases alike with
  | but blobs calls same =>
    have worn (orders : List Order) (inserted : Nat) :
        Alike { d with inserts := d.inserts.worn, orders, inserted }
          { d with inserts := d.inserts.worn, orders, inserted, blobs, calls } := .but blobs calls same
    unfold Depot.insert
    cases d.inserts.strikes with
    | true => exact ⟨rfl, (worn d.orders d.inserted).logged _⟩
    | false => exact ⟨rfl, (worn _ (d.inserted + 1)).logged _⟩

theorem publish (topic key : String) (payload : Bytes) :
    Abreast Eq (Depot.publish topic key payload) (Depot.publish topic key payload) := by
  intro d _ alike
  cases alike with
  | but blobs calls same =>
    have told (bus : Bus) : Alike { d with bus } { d with bus, blobs, calls } := .but blobs calls same
    exact ⟨rfl, (told _).logged _⟩

theorem reject (row : Nat) (reason : String) : Abreast Eq (Depot.reject row reason) (Depot.reject row reason) := by
  intro d _ alike
  cases alike with
  | but blobs calls same => exact ⟨rfl, .but blobs calls same⟩

/-- Whether a file can be stored does not rest on what file it is. -/
theorem storeBlob (b b' : Blob) :
    Abreast (fun r r' => r'.isOk = r.isOk) (Depot.storeBlob b) (Depot.storeBlob b') := by
  intro d _ alike
  cases alike with
  | but blobs calls same =>
    have worn (before after : List Blob) :
        Alike { d with puts := d.puts.worn, blobs := before } { d with puts := d.puts.worn, blobs := after, calls } :=
      .but after calls same
    unfold Depot.storeBlob
    cases d.puts.strikes with
    | true => exact ⟨rfl, (worn d.blobs blobs).logged_files rfl rfl⟩
    | false => exact ⟨rfl, (worn _ _).logged_files rfl rfl⟩

end Abreast

end Fulfilment
