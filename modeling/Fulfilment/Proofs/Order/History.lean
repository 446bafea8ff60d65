import Fulfilment.Proofs.Bulk.Rows
import Fulfilment.Proofs.Depot.Aside
import Fulfilment.Proofs.Order.Finalization

/-!
# Histories

Whatever the services do is made of few deeds: an order is taken in, an attempt is made to finalize one, the order of
a row is stored, or something else is done that is none of these and changes neither stock nor orders. A history is
what was done between two states of the depot, deed after deed. Programs that are made of programs with histories have
histories (`Recorded.bind`), and so has every run (`Depot.run_history` in the module on the pipeline).
-/

namespace Fulfilment

open Depot (Booked)
open Program (Along)

inductive Deed
  | create (request : OrderRequest)
  | finalize (event : OrderCreated)
  /-- The order of a row is stored and announced. -/
  | row (request : OrderRequest)
  /-- The order store is told to move an order, by no one who has set stock aside for it. -/
  | mark (id : Uuid)
  | other

/-- What was done once: the deed leads from one state of the depot to another and makes these calls. -/
inductive Deed.Did (s : OrderSettings) (d : Depot) : Deed → List Call → Depot → Prop
  | create {request : OrderRequest} {r : Except IntakeError Uuid} {cs : List Call} {d' : Depot}
      (run : createOrder s.createdTopic request d = (r, d')) (fared : Creating s.createdTopic request d r cs)
      (booked : Booked d cs d') : Did s d (.create request) cs d'
  | finalize {event : OrderCreated} {r : Except Failure Finalization} {cs : List Call} {d' : Depot}
      (run : Fulfilment.finalize s.updatedTopic event d = (r, d')) (fared : Finalizing s.updatedTopic event d r cs)
      (booked : Booked d cs d') : Did s d (.finalize event) cs d'
  | row {c : Columns} {fields : Row} {request : OrderRequest} {r : Except RowError Unit} {cs : List Call} {d' : Depot}
      (parsed : c.parse fields = .ok request) (run : storeRow s.bulk request d = (r, d'))
      (fared : StoringRow s.createdTopic request d r cs) (booked : Booked d cs d') : Did s d (.row request) cs d'
  | mark {id : Uuid} {moved : Option Bool} {d' : Depot} (run : d' = (Depot.markNewOrder id d).2)
      (booked : Booked d [.markNewOrder id moved] d') : Did s d (.mark id) [.markNewOrder id moved] d'
  | other {cs : List Call} {d' : Depot} (booked : Booked d cs d') (aside : ∀ c ∈ cs, c.isAside s.bulkTopic) :
    Did s d .other cs d'

theorem Deed.Did.booked {s : OrderSettings} {d d' : Depot} {deed : Deed} {cs : List Call} (h : deed.Did s d cs d') :
    Booked d cs d' := by
  cases h <;> assumption

/-- A deed, the calls it made, and the depot before and after it. -/
structure Entry where
  before : Depot
  deed : Deed
  calls : List Call
  after : Depot

/-- What was done between two states of the depot. -/
inductive History (s : OrderSettings) : Depot → List Entry → Depot → Prop
  | none (d : Depot) : History s d [] d
  | more {d d₁ d₂ : Depot} {deed : Deed} {cs : List Call} {es : List Entry} (did : deed.Did s d cs d₁)
      (later : History s d₁ es d₂) : History s d (⟨d, deed, cs, d₁⟩ :: es) d₂

namespace History

variable {s : OrderSettings} {d d₁ d₂ : Depot} {es es' : List Entry}

theorem trans (h : History s d es d₁) (h' : History s d₁ es' d₂) : History s d (es ++ es') d₂ := by
  induction h with
  | none => exact h'
  | more did _ ih => exact .more did (ih h')

/-- The calls of a history are all the calls that were made. -/
theorem booked (h : History s d es d₁) : Booked d (es.flatMap (·.calls)) d₁ := by
  induction h with
  | none d => exact .refl d
  | more did _ ih => exact did.booked.trans ih

/-- A history up to some entry, that entry, and the history from there on. -/
theorem split {x : Entry} (h : History s d (es ++ x :: es') d₂) :
    History s d es x.before ∧ x.deed.Did s x.before x.calls x.after ∧ History s x.after es' d₂ := by
  induction es generalizing d with
  | nil =>
    cases h with
    | more did later => exact ⟨.none _, did, later⟩
  | cons y es ih =>
    cases h with
    | more did later =>
      obtain ⟨h₁, h₂, h₃⟩ := ih later
      exact ⟨.more did h₁, h₂, h₃⟩

end History

/-- Whatever the program does is a history of deeds of some kind. -/
def Recorded {α : Type} (s : OrderSettings) (kind : Deed → Prop) (p : Work α) : Prop :=
  Along (fun d d' => ∃ es, History s d es d' ∧ ∀ x ∈ es, kind x.deed) p

namespace Recorded

variable {α β : Type} {s : OrderSettings} {kind kind' : Deed → Prop}

theorem pure (a : α) : Recorded s kind (pure a : Work α) :=
  Along.pure (fun d => ⟨[], .none d, fun _ h => by cases h⟩) a

theorem bind {p : Work α} {f : α → Work β} (hp : Recorded s kind p) (hf : ∀ a, Recorded s kind (f a)) :
    Recorded s kind (p >>= f) := by
  refine Along.bind ?_ hp hf
  rintro d₁ d₂ d₃ ⟨es, h, hk⟩ ⟨es', h', hk'⟩
  refine ⟨es ++ es', h.trans h', ?_⟩
  intro x hx
  rcases List.mem_append.1 hx with hx | hx
  · exact hk x hx
  · exact hk' x hx

theorem mono {p : Work α} (h : Recorded s kind p) (hk : ∀ deed, kind deed → kind' deed) : Recorded s kind' p := by
  intro d
  obtain ⟨es, hes, hx⟩ := h d
  exact ⟨es, hes, fun x hm => hk _ (hx x hm)⟩

/-- A program that does a single deed. -/
theorem of_did {p : Work α} {deed : Deed} (hk : kind deed) (h : ∀ d, ∃ cs, deed.Did s d cs (p d).2) :
    Recorded s kind p := by
  intro d
  obtain ⟨cs, hd⟩ := h d
  refine ⟨[⟨d, deed, cs, (p d).2⟩], .more hd (.none _), ?_⟩
  intro x hx
  rw [List.mem_singleton.1 hx]
  exact hk

end Recorded

theorem Aside.recorded {α : Type} {s : OrderSettings} {kind : Deed → Prop} {p : Work α} (h : Aside s.bulkTopic p)
    (hk : kind .other) : Recorded s kind p := by
  refine .of_did hk fun d => ?_
  obtain ⟨cs, hb, hc⟩ := h d
  exact ⟨cs, .other hb hc⟩

section

variable {s : OrderSettings} {kind : Deed → Prop}

theorem createOrder_recorded {request : OrderRequest} (hk : kind (.create request)) :
    Recorded s kind (createOrder s.createdTopic request) := by
  refine .of_did hk fun d => ?_
  obtain ⟨r, d', cs, hr, hc, hb⟩ := createOrder_spec s.createdTopic request d
  rw [hr]
  exact ⟨cs, .create hr hc hb⟩

theorem finalize_recorded {event : OrderCreated} (hk : kind (.finalize event)) :
    Recorded s kind (finalize s.updatedTopic event) := by
  refine .of_did hk fun d => ?_
  obtain ⟨r, d', cs, hr, hc, hb⟩ := finalize_spec s.updatedTopic event d
  rw [hr]
  exact ⟨cs, .finalize hr hc hb⟩

theorem storeRow_recorded {c : Columns} {fields : Row} {request : OrderRequest} (hp : c.parse fields = .ok request)
    (hk : kind (.row request)) : Recorded s kind (storeRow s.bulk request) := by
  refine .of_did hk fun d => ?_
  obtain ⟨r, d', cs, hr, hc, hb⟩ := storeRow_spec s.bulk request d
  rw [hr]
  exact ⟨cs, .row hp hr hc hb⟩

theorem markNewOrder_recorded {id : Uuid} (hk : kind (.mark id)) : Recorded s kind (Depot.markNewOrder id) := by
  refine .of_did hk fun d => ?_
  rcases Depot.markNewOrder_spec id d with ⟨d', hm, hb⟩ | ⟨d', hm, hb⟩
  · rw [hm]
    exact ⟨_, .mark (by rw [hm]) hb⟩
  · rw [hm]
    exact ⟨_, .mark (by rw [hm]) hb⟩

end

end Fulfilment
