import Fulfilment.Proofs.Depot.Ledger
import Fulfilment.Proofs.Program

/-!
# Calls replayed

How a call ends is settled by the depot on which it is made (`Depot.Answers`), and what becomes of the depot by the
call and its end (`Depot.afterCall`). So the state that a program leaves behind is told in full by the calls it has
made, if it works on the depot by calls alone (`Replays`): not only stock and orders, but the bus, the files and what
is left of every outage. What a program does not call it leaves alone.
-/

namespace Fulfilment

/-- Whether a call has succeeded. A lookup has if it was answered, however many records it found. -/
def Call.succeeded : Call → Bool
  | .lookup _ _ found => found.isSome
  | .setOnHand _ succeeded => succeeded
  | .insert _ id => id.isSome
  | .markNewOrder _ moved => moved.isSome
  | .publish _ _ _ succeeded => succeeded
  | .blobGet _ _ _ succeeded => succeeded
  | .blobPut _ _ _ succeeded => succeeded
  | .blobExists _ _ found => found.isSome

namespace Depot

/-- The call, when it is made now, ends as it says. -/
def Answers (d : Depot) : Call → Prop
  | .lookup hubId skuId found => found = if d.lookups.strikes then none else some (d.records hubId skuId).length
  | .setOnHand _ succeeded => succeeded = !d.updates.strikes
  | .insert draft id => id = if d.inserts.strikes then none else some (d.nextOrder draft).id
  | .markNewOrder id moved => moved = if d.marks.strikes then none else some (d.holds id)
  | .publish topic _ _ succeeded => succeeded = !d.bus.refuses topic
  | .blobGet bucket key limit succeeded => succeeded = (d.fetch bucket key limit).isOk
  | .blobPut _ _ _ succeeded => succeeded = !d.puts.strikes
  | .blobExists bucket key found => found = if d.checks.strikes then none else some (d.blob? bucket key).isSome

/-- Whether a call that is made now fails. -/
def refuses (d : Depot) : Call → Bool
  | .lookup .. => d.lookups.strikes
  | .setOnHand .. => d.updates.strikes
  | .insert .. => d.inserts.strikes
  | .markNewOrder .. => d.marks.strikes
  | .publish topic .. => d.bus.refuses topic
  | .blobGet bucket key limit _ => !(d.fetch bucket key limit).isOk
  | .blobPut .. => d.puts.strikes
  | .blobExists .. => d.checks.strikes

/-- The depot when a call has ended as it says. -/
def afterCall (d : Depot) (c : Call) : Depot :=
  (match c with
    | .lookup .. => { d with lookups := d.lookups.worn }
    | .setOnHand u succeeded =>
      { d with
        updates := d.updates.worn
        stock := if succeeded then putOnHand u.hubId u.skuId u.quantity d.stock else d.stock }
    | .insert _ none => { d with inserts := d.inserts.worn }
    | .insert draft (some _) =>
      { d with
        inserts := d.inserts.worn
        orders := d.orders ++ [d.nextOrder draft]
        inserted := d.inserted + 1 }
    | .markNewOrder id moved =>
      { d with
        marks := d.marks.worn
        orders := if moved = some true then (moveOrder id d.supply.now d.orders).getD d.orders else d.orders }
    | .publish topic key payload _ => { d with bus := (d.bus.publish ⟨topic, some key, payload⟩).2 }
    | .blobPut bucket key body succeeded =>
      { d with
        puts := d.puts.worn
        blobs := if succeeded then putBlob ⟨bucket, key, body⟩ d.blobs else d.blobs }
    | .blobGet .. | .blobExists .. => d).logged c

/-- The calls end one after the other as they say, and lead from one state of the depot to the other. -/
def Replayed : Depot → List Call → Depot → Prop
  | d, [], d' => d' = d
  | d, c :: cs, d' => d.Answers c ∧ Replayed (d.afterCall c) cs d'

variable {d d₁ d₂ : Depot} {c : Call} {cs cs' : List Call}

theorem Answers.refuses_eq (h : d.Answers c) : d.refuses c = !c.succeeded := by
  have option {α : Type} {found : Option α} {strikes : Bool} {a : α} (h : found = if strikes then none else some a) :
      strikes = !found.isSome := by
    rw [h]
    cases strikes <;> rfl
  have flag {succeeded strikes : Bool} (h : succeeded = !strikes) : strikes = !succeeded := by
    rw [h, Bool.not_not]
  cases c with
  | lookup => exact option h
  | setOnHand => exact flag h
  | insert => exact option h
  | markNewOrder => exact option h
  | publish => exact flag h
  | blobGet => exact congrArg (!·) (Eq.symm h)
  | blobPut => exact flag h
  | blobExists => exact option h

theorem Replayed.single (h : d.Answers c) : Replayed d [c] (d.afterCall c) := ⟨h, rfl⟩

theorem Replayed.trans (h : Replayed d cs d₁) (h' : Replayed d₁ cs' d₂) : Replayed d (cs ++ cs') d₂ := by
  induction cs generalizing d with
  | nil =>
    cases h
    exact h'
  | cons c cs ih => exact ⟨h.1, ih h.2⟩

theorem calls_afterCall : (d.afterCall c).calls = d.calls ++ [c] := by
  unfold afterCall logged
  split <;> rfl

theorem Replayed.calls (h : Replayed d cs d₁) : d₁.calls = d.calls ++ cs := by
  induction cs generalizing d with
  | nil =>
    cases h
    exact (List.append_nil _).symm
  | cons c cs ih => rw [ih h.2, calls_afterCall, List.append_assoc, List.singleton_append]

theorem Replayed.eq (h : Replayed d cs d₁) : d₁ = { cs.foldl afterCall d with calls := d.calls ++ cs } := by
  have hfold : d₁ = cs.foldl afterCall d := by
    induction cs generalizing d with
    | nil => exact h
    | cons c cs ih => exact ih h.2
  rw [← h.calls, ← hfold]

end Depot

open Depot (Booked Replayed)
open Program (Along)

/-- Whatever the program does to the depot, its calls tell. -/
def Replays {α : Type} (p : Work α) : Prop := Along (fun d d' => ∃ cs, Replayed d cs d') p

namespace Replays

variable {α β : Type} {d d' : Depot} {cs : List Call}

theorem pure (a : α) : Replays (pure a : Work α) := Along.pure (fun _ => ⟨[], rfl⟩) a

theorem bind {p : Work α} {f : α → Work β} (hp : Replays p) (hf : ∀ a, Replays (f a)) : Replays (p >>= f) := by
  refine Along.bind ?_ hp hf
  rintro d₁ d₂ d₃ ⟨cs, h⟩ ⟨cs', h'⟩
  exact ⟨cs ++ cs', h.trans h'⟩

theorem of_call {p : Work α} (h : ∀ d, ∃ c, d.Answers c ∧ (p d).2 = d.afterCall c) : Replays p := by
  intro d
  obtain ⟨c, hc, hd⟩ := h d
  rw [hd]
  exact ⟨[c], .single hc⟩

/-- The calls that a program is known to have made replay what it did. -/
theorem of_booked {p : Work α} (h : Replays p) {a : α} (run : p d = (a, d')) (booked : Booked d cs d') :
    Replayed d cs d' := by
  obtain ⟨cs', h'⟩ := h d
  rw [run] at h'
  have hcs : cs = cs' := List.append_cancel_left (booked.calls.symm.trans h'.calls)
  rwa [hcs]

/-! ### The operations -/

theorem get : Replays (get : Work Depot) := fun _ => ⟨[], rfl⟩

theorem lookup (hubId skuId : String) : Replays (Depot.lookup hubId skuId) := by
  refine of_call fun d => ?_
  unfold Depot.lookup
  cases hs : d.lookups.strikes with
  | true => exact ⟨.lookup hubId skuId none, by simp [Depot.Answers, hs], rfl⟩
  | false => exact ⟨.lookup hubId skuId (some (d.records hubId skuId).length), by simp [Depot.Answers, hs], rfl⟩

theorem setOnHand (u : StockUpdate) : Replays (Depot.setOnHand u) := by
  refine of_call fun d => ?_
  unfold Depot.setOnHand
  cases hs : d.updates.strikes with
  | true => exact ⟨.setOnHand u false, by simp [Depot.Answers, hs], rfl⟩
  | false => exact ⟨.setOnHand u true, by simp [Depot.Answers, hs], rfl⟩

theorem insert (draft : Draft) : Replays (Depot.insert draft) := by
  refine of_call fun d => ?_
  unfold Depot.insert
  cases hs : d.inserts.strikes with
  | true => exact ⟨.insert draft none, by simp [Depot.Answers, hs], rfl⟩
  | false => exact ⟨.insert draft (some (d.nextOrder draft).id), by simp [Depot.Answers, hs], rfl⟩

theorem markNewOrder (id : Uuid) : Replays (Depot.markNewOrder id) := by
  refine of_call fun d => ?_
  refine ⟨.markNewOrder id (if d.marks.strikes then none else some (d.holds id)), rfl, ?_⟩
  unfold Depot.markNewOrder Depot.holds
  cases hs : d.marks.strikes with
  | true => rfl
  | false =>
    cases hm : Depot.moveOrder id d.supply.now d.orders with
    | none => rfl
    | some orders =>
      simp only [Depot.afterCall, Bool.false_eq_true, if_false, Option.isSome_some, if_true, hm, Option.getD_some]

theorem publishRecord {γ : Type} [Json.Record γ] (topic key : String) (a : γ) :
    Replays (Depot.publishRecord topic key a) := by
  refine of_call fun d => ⟨.publish topic key (Json.Record.encode a) (!d.bus.refuses topic), rfl, ?_⟩
  have hok : ∀ m, (d.bus.publish m).1.isOk = !d.bus.refuses m.topic := by
    intro m
    unfold Bus.publish
    cases d.bus.refuses m.topic <;> rfl
  unfold Depot.publishRecord Depot.publish
  dsimp only
  rw [hok]
  rfl

/-! ### Reservations -/

theorem reserve (tenantId hubId skuId : String) (quantity : Int64) (rule : AvailabilityRule) :
    Replays (Depot.inventory.reserve tenantId hubId skuId quantity rule) := by
  have snapshot : Replays (Depot.inventory.snapshot hubId skuId) := by
    refine (lookup hubId skuId).bind fun found => ?_
    cases found <;> exact pure _
  refine snapshot.bind fun found => ?_
  cases found with
  | error e => exact pure _
  | ok s =>
    dsimp only
    cases s.after? rule quantity with
    | none => exact pure _
    | some left =>
      refine (setOnHand _).bind fun put => ?_
      cases put <;> exact pure _

end Replays

end Fulfilment
