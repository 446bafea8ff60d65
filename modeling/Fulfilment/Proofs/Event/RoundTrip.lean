import Fulfilment.Event.Lifecycle
import Fulfilment.Proofs.Json.RecordValue

/-!
# Events written and read back

The events of an order and the jobs of the bulk worker hold plain fields only (`OrderCreated.lawful`,
`OrderUpdated.lawful`, `BulkJob.lawful`), so they are read back as they were told, and the events also when they are
decoded by the names of their topics (`LifecycleEvent.decode_created`, `LifecycleEvent.decode_updated`). A dead letter
is read back where what it carries is not nested too deep, and refused where it is (`DeadLetter.answered`).
-/

namespace Fulfilment

open Json

/-! ### Events and jobs of plain fields -/

theorem OrderStatus.codec_lawful (s : OrderStatus) : OrderStatus.codec.Lawful s where
  restores depth := by
    have htext : Utf8.encode (printText s.name) = 34 :: closedText s.name := encode_printText _
    have hconverted : (Codec.converted "variant identifier" ofName name).Restores depth s :=
      Codec.converted_restores (by cases s <;> rfl)
    refine ⟨hconverted.opens, fun rest p hrest => Eq.trans ?_ (hconverted.reads rest p hrest)⟩
    -- a quote comes first, so the state is read as a text
    change read (depth != 0) ⟨Utf8.encode (printText s.name) ++ rest, p⟩ =
      readConverted "variant identifier" ofName ⟨Utf8.encode (printText s.name) ++ rest, p⟩
    rw [htext]
    rfl
  plain := .text _
  printed := by rw [codec, Value.print]
  restored := by cases s <;> rfl

theorem OrderCreated.lawful (e : OrderCreated) : Record.Lawful e where
  names := by decide
  each := by
    refine List.forall_mem_cons.2 ⟨Codec.uuid_lawful _, ?_⟩
    refine List.forall_mem_cons.2 ⟨Codec.text_lawful _, ?_⟩
    refine List.forall_mem_cons.2 ⟨Codec.text_lawful _, ?_⟩
    refine List.forall_mem_cons.2 ⟨Codec.text_lawful _, ?_⟩
    refine List.forall_mem_cons.2 ⟨Codec.text_lawful _, ?_⟩
    refine List.forall_mem_cons.2 ⟨Codec.int32_lawful _, ?_⟩
    exact List.forall_mem_singleton.2 (Codec.instant_lawful _)

theorem OrderUpdated.lawful (e : OrderUpdated) : Record.Lawful e where
  names := by decide
  each := by
    refine List.forall_mem_cons.2 ⟨Codec.uuid_lawful _, ?_⟩
    refine List.forall_mem_cons.2 ⟨Codec.text_lawful _, ?_⟩
    refine List.forall_mem_cons.2 ⟨Codec.text_lawful _, ?_⟩
    refine List.forall_mem_cons.2 ⟨Codec.text_lawful _, ?_⟩
    refine List.forall_mem_cons.2 ⟨Codec.text_lawful _, ?_⟩
    refine List.forall_mem_cons.2 ⟨Codec.int32_lawful _, ?_⟩
    refine List.forall_mem_cons.2 ⟨e.status.codec_lawful, ?_⟩
    refine List.forall_mem_cons.2 ⟨Codec.instant_lawful _, ?_⟩
    exact List.forall_mem_singleton.2 (Codec.instant_lawful _)

theorem BulkJob.lawful (job : BulkJob) : Record.Lawful job where
  names := by decide
  each := by
    refine List.forall_mem_cons.2 ⟨Codec.text_lawful _, ?_⟩
    exact List.forall_mem_singleton.2 (Codec.text_lawful _)

theorem OrderCreated.parse_encode (e : OrderCreated) : Record.parse (Record.encode e) = .ok e :=
  e.lawful.parse_encode

/-! ### Dead letters -/

namespace DeadLetter

variable {d : DeadLetter}

/-- Whether a dead letter is read back depends on the depth of its payload alone. -/
theorem answered (kept : d.payload.Kept) :
    (d.payload.depth ≤ Record.fieldDepth → Record.parse (Record.encode d) = .ok d) ∧
    (Record.fieldDepth < d.payload.depth →
      ∃ e, (Record.parse (Record.encode d) : Except Fault DeadLetter) = .error e ∧ e.isDeep) := by
  have hnames : ((Record.fields DeadLetter).map (·.name)).Nodup := by decide
  obtain ⟨hreads, hrefuses⟩ := Codec.free_answered kept Record.fieldDepth
  have others {P : FieldEntry → Prop} (htexts : ∀ x : FieldEntry, x.Reads Record.fieldDepth → P x)
      (hpayload : P ⟨.required "payload" .free, d.payload⟩) : ∀ x ∈ Record.entries d, P x := by
    refine List.forall_mem_cons.2 ⟨htexts _ ((Codec.uuid_lawful _).restores _), ?_⟩
    refine List.forall_mem_cons.2 ⟨htexts _ ((Codec.text_lawful _).restores _), ?_⟩
    refine List.forall_mem_cons.2 ⟨htexts _ ((Codec.text_lawful _).restores _), ?_⟩
    refine List.forall_mem_cons.2 ⟨htexts _ ((Codec.text_lawful _).restores _), ?_⟩
    exact List.forall_mem_singleton.2 hpayload
  constructor
  · intro shallow
    exact Record.parse_encode hnames (others (fun _ h => h) (hreads shallow))
  · intro deep
    refine Record.parse_refused hnames (others (fun _ h => .inl h) (.inr (hrefuses deep)))
      ⟨⟨.required "payload" .free, d.payload⟩, ?_, hrefuses deep⟩
    exact .tail _ (.tail _ (.tail _ (.tail _ (.head _))))

end DeadLetter

/-! ### Events by the names of their topics -/

namespace LifecycleEvent

variable {name : String} {payload : Bytes} {e : LifecycleEvent}

/-- The text of a record is decoded by way of its value. -/
theorem decode_encode {α : Type} [Record α] {a : α} (h : Record.Lawful a) (name : String) :
    decode name (Record.encode a) = ofValue name (Record.toValue a) := by
  rw [decode, h.parse_value]

theorem tenantOf?_toValue {α : Type} [Record α] {a : α} (h : Record.Lawful a) {tenantId : String}
    (hmem : ⟨.required "tenant_id" .text, tenantId⟩ ∈ Record.entries a) :
    tenantOf? (Record.toValue a) = some tenantId :=
  congrArg (·.bind Value.text?) (h.get?_toValue hmem)

theorem decode_created (event : OrderCreated) :
    decode Topic.orderCreated (Record.encode event) = .ok (.created event) := by
  have htenant : tenantOf? (Record.toValue event) = some event.tenantId :=
    tenantOf?_toValue event.lawful (.tail _ (.head _))
  rw [decode_encode event.lawful, ofValue, htenant, event.lawful.ofValue_toValue]
  rfl

theorem decode_updated (event : OrderUpdated) :
    decode Topic.orderUpdated (Record.encode event) = .ok (.updated event) := by
  have htenant : tenantOf? (Record.toValue event) = some event.tenantId :=
    tenantOf?_toValue event.lawful (.tail _ (.head _))
  rw [decode_encode event.lawful, ofValue, htenant, event.lawful.ofValue_toValue]
  rfl

/-- The event that a value is under a name. -/
inductive Taken (v : Value) : String → LifecycleEvent → Prop
  | created {event : OrderCreated} (record : Record.ofValue v = .ok event) :
    Taken v Topic.orderCreated (.created event)
  | updated {event : OrderUpdated} (record : Record.ofValue v = .ok event) :
    Taken v Topic.orderUpdated (.updated event)
  | other {name : String} (hcreated : name ≠ Topic.orderCreated) (hupdated : name ≠ Topic.orderUpdated) :
    Taken v name (.other name v)

theorem Taken.name_eq {v : Value} (h : Taken v name e) : e.name = name := by
  cases h <;> rfl

/-- All that can come of a value: its tenant is looked for first. -/
inductive Answer (name : String) (v : Value) : Except DecodeError LifecycleEvent → Prop
  | missingTenant (unnamed : tenantOf? v = none) : Answer name v (.error .missingTenant)
  | schema {tenantId : String} {mismatch : Mismatch} (named : tenantOf? v = some tenantId)
    (known : name = Topic.orderCreated ∨ name = Topic.orderUpdated) : Answer name v (.error (.schema name mismatch))
  | ok {tenantId : String} {e : LifecycleEvent} (named : tenantOf? v = some tenantId) (taken : Taken v name e) :
    Answer name v (.ok e)

theorem answer_ofValue (name : String) (v : Value) : Answer name v (ofValue name v) := by
  unfold ofValue
  cases htenant : tenantOf? v with
  | none => exact .missingTenant htenant
  | some tenantId =>
    rw [if_neg (nofun)]
    split
    · rename_i hname
      subst hname
      cases hrecord : (Record.ofValue v : Except Mismatch OrderCreated) with
      | error mismatch => exact .schema htenant (.inl rfl)
      | ok event => exact .ok htenant (.created hrecord)
    · rename_i hcreated
      split
      · rename_i hname
        subst hname
        cases hrecord : (Record.ofValue v : Except Mismatch OrderUpdated) with
        | error mismatch => exact .schema htenant (.inr rfl)
        | ok event => exact .ok htenant (.updated hrecord)
      · rename_i hupdated
        exact .ok htenant (.other hcreated hupdated)

/-- A payload that is decoded holds a value that names a tenant, and of which the event is taken. -/
theorem of_decode (h : decode name payload = .ok e) :
    ∃ v, Value.parse payload = .ok v ∧ e.name = name ∧ (∃ tenantId, tenantOf? v = some tenantId) ∧
      Taken v name e := by
  unfold decode at h
  split at h
  · cases h
  · rename_i v hv
    cases h ▸ answer_ofValue name v with
    | ok named taken => exact ⟨v, hv, taken.name_eq, ⟨_, named⟩, taken⟩

/-- What subscribers see of a decoded event is kept, if all its numbers are integers. -/
theorem kept_data (h : decode name payload = .ok e) (whole : e.data.floatless = true) : e.data.Kept := by
  obtain ⟨v, hv, -, -, taken⟩ := of_decode h
  cases taken with
  | created => exact (OrderCreated.lawful _).kept_toValue.1
  | updated => exact (OrderUpdated.lawful _).kept_toValue.1
  | other => exact Value.kept_of_parse hv whole

/-- Events of known names are one level deep. -/
theorem depth_data_le (h : decode name payload = .ok e)
    (known : name = Topic.orderCreated ∨ name = Topic.orderUpdated) :
    e.data.depth ≤ 1 := by
  obtain ⟨v, -, -, -, taken⟩ := of_decode h
  cases taken with
  | created => exact (OrderCreated.lawful _).kept_toValue.2
  | updated => exact (OrderUpdated.lawful _).kept_toValue.2
  | other hcreated hupdated => exact absurd known (not_or.2 ⟨hcreated, hupdated⟩)

end LifecycleEvent

end Fulfilment
