import Fulfilment.Order.Pipeline
import Fulfilment.Proofs.Depot.Ledger
import Fulfilment.Proofs.Program

/-!
# Work aside

Looking up stock, keeping files, queueing jobs and listing orders change neither stock nor orders. A program works
*aside* when all the calls it makes are of this kind, and so do programs made of such (`Aside.bind`).
-/

namespace Fulfilment

open Depot (Booked)
open Program (Along)

/-- Whether a call is neither to change stock or orders nor to publish anything but jobs. -/
def Call.isAside (jobTopic : String) : Call → Bool
  | .lookup .. | .blobGet .. | .blobPut .. | .blobExists .. => true
  | .publish topic .. => topic == jobTopic
  | .setOnHand .. | .insert .. | .markNewOrder .. => false

/-- All calls that a program makes are aside. -/
def Aside {α : Type} (jobTopic : String) (p : Work α) : Prop :=
  Along (fun d d' => ∃ cs, Booked d cs d' ∧ ∀ c ∈ cs, c.isAside jobTopic) p

namespace Aside

variable {α β : Type} {jobTopic : String}

theorem pure (a : α) : Aside jobTopic (pure a : Work α) :=
  Along.pure (fun d => ⟨[], .refl d, fun _ h => by cases h⟩) a

theorem bind {p : Work α} {f : α → Work β} (hp : Aside jobTopic p) (hf : ∀ a, Aside jobTopic (f a)) :
    Aside jobTopic (p >>= f) := by
  refine Along.bind ?_ hp hf
  rintro d₁ d₂ d₃ ⟨cs, hb, hc⟩ ⟨cs', hb', hc'⟩
  refine ⟨cs ++ cs', hb.trans hb', ?_⟩
  intro c h
  rcases List.mem_append.1 h with h | h
  · exact hc c h
  · exact hc' c h

/-- A program that makes no call and leaves the supply and the ledger alone. -/
theorem of_silent {p : Work α} (h : ∀ d, Booked d [] (p d).2) : Aside jobTopic p :=
  fun d => ⟨[], h d, fun _ h => by cases h⟩

/-- A program that makes one call. -/
theorem of_call {p : Work α} (h : ∀ d, ∃ c, Booked d [c] (p d).2 ∧ c.isAside jobTopic) : Aside jobTopic p := by
  intro d
  obtain ⟨c, hb, hc⟩ := h d
  refine ⟨[c], hb, ?_⟩
  intro c' h'
  rw [List.mem_singleton.1 h']
  exact hc

theorem get : Aside jobTopic (get : Work Depot) := of_silent Booked.refl

/-! ### The operations -/

theorem lookup (hubId skuId : String) : Aside jobTopic (Depot.lookup hubId skuId) := by
  refine of_call fun d => ?_
  rcases Depot.lookup_spec hubId skuId d with ⟨-, d', hl, hb⟩ | ⟨-, d', hl, hb⟩
  · rw [hl]
    exact ⟨_, hb, rfl⟩
  · rw [hl]
    exact ⟨_, hb, rfl⟩

theorem getBlob (bucket key : String) (limit : Nat) : Aside jobTopic (Depot.getBlob bucket key limit) :=
  of_call fun _ => ⟨_, ⟨rfl, rfl, rfl⟩, rfl⟩

theorem storeBlob (b : Blob) : Aside jobTopic (Depot.storeBlob b) := by
  refine of_call fun d => ?_
  rcases Depot.storeBlob_spec b d with ⟨f, d', hs, hb, -⟩ | ⟨d', hs, hb, -⟩
  · rw [hs]
    exact ⟨_, hb, rfl⟩
  · rw [hs]
    exact ⟨_, hb, rfl⟩

theorem blobExists (bucket key : String) : Aside jobTopic (Depot.blobExists bucket key) := by
  refine of_call fun d => ?_
  unfold Depot.blobExists
  cases d.checks.strikes with
  | true => exact ⟨_, ⟨rfl, rfl, rfl⟩, rfl⟩
  | false => exact ⟨_, ⟨rfl, rfl, rfl⟩, rfl⟩

theorem nextUpload : Aside jobTopic Depot.nextUpload :=
  of_silent fun d => ⟨(List.append_nil d.calls).symm, rfl, rfl⟩

theorem takePublished : Aside jobTopic Depot.takePublished :=
  of_silent fun d => ⟨(List.append_nil d.calls).symm, rfl, rfl⟩

theorem reject (row : Nat) (reason : String) : Aside jobTopic (Depot.reject row reason) :=
  of_silent fun d => ⟨(List.append_nil d.calls).symm, rfl, rfl⟩

theorem listOrders (f : OrderFilter) : Aside jobTopic (Depot.listOrders f) := by
  refine of_silent fun d => ?_
  unfold Depot.listOrders
  cases d.listing.strikes with
  | true => exact .refl d
  | false => exact .refl d

theorem publishRecord {γ : Type} [Json.Record γ] (key : String) (a : γ) :
    Aside jobTopic (Depot.publishRecord jobTopic key a) := by
  refine of_call fun d => ?_
  unfold Depot.publishRecord
  rcases Depot.publish_spec jobTopic key (Json.Record.encode a) d with ⟨f, d', hp, hb⟩ | ⟨d', hp, hb⟩
  · rw [hp]
    exact ⟨_, hb, beq_self_eq_true jobTopic⟩
  · rw [hp]
    exact ⟨_, hb, beq_self_eq_true jobTopic⟩

private theorem booked_apply (switches : List Switch) (d : Depot) : Booked d [] (switches.foldl Switch.apply d) := by
  induction switches generalizing d with
  | nil => exact .refl d
  | cons w rest ih =>
    have hw : Booked d [] (w.apply d) := by cases w <;> exact ⟨(List.append_nil d.calls).symm, rfl, rfl⟩
    exact hw.trans (ih (w.apply d))

theorem set (switches : List Switch) : Aside jobTopic (modify (fun d => switches.foldl Switch.apply d) : Work Unit) :=
  of_silent fun d => booked_apply switches d

end Aside

end Fulfilment
