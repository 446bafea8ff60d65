import Fulfilment.Proofs.Json.Codec
import Fulfilment.Proofs.Json.Record

/-!
# Records as free-form values

A record of texts and integers is read from its text as the free-form value that it is (`Record.Lawful.parse_value`),
though the members of a value stand in the order of their names and not in that of the fields, and it is taken from
this value as it was (`Record.Lawful.ofValue_toValue`).
-/

namespace Fulfilment

namespace Json

namespace FieldEntry

/-- The entry as a member of an object. -/
def shown (x : FieldEntry) : String × Value := (x.1.name, x.1.codec.toValue x.2)

/-- The codec of the field is lawful at what the entry holds. -/
def Lawful (x : FieldEntry) : Prop := x.1.codec.Lawful x.2

theorem Lawful.writtenMember {x : FieldEntry} (h : x.Lawful) : writtenMember x.shown = x.text := by
  rw [Json.writtenMember, shown, Value.written, ← h.printed]
  rfl

end FieldEntry

/-! ### The members of a row -/

section

variable {fs : List Field} {row : Row fs}

theorem ascending_membersOfRow (fs : List Field) (row : Row fs) : Value.Ascending (membersOfRow fs row) := by
  induction fs with
  | nil => exact .nil
  | cons f fs ih =>
    obtain ⟨a, row⟩ := row
    exact (ih row).insert

/-- The members are those of the entries, in some order. -/
theorem perm_membersOfRow (hnames : (fs.map (·.name)).Nodup) (row : Row fs) :
    (membersOfRow fs row).Perm ((Row.entries fs row).map FieldEntry.shown) := by
  induction fs with
  | nil => exact .refl _
  | cons f fs ih =>
    obtain ⟨a, row⟩ := row
    obtain ⟨hfresh, hnames⟩ := List.nodup_cons.1 hnames
    have hrest := ih hnames row
    have hnew : ∀ m ∈ membersOfRow fs row, m.1 ≠ f.name := by
      intro m hm he
      obtain ⟨x, hx, rfl⟩ := List.mem_map.1 (hrest.mem_iff.1 hm)
      exact hfresh (List.mem_map.2 ⟨x.1, Row.mem_of_mem_entries hx, he⟩)
    exact (Value.perm_insert hnew).trans (hrest.cons _)

theorem lookup_membersOfRow (hnames : (fs.map (·.name)).Nodup) {x : FieldEntry} (hx : x ∈ Row.entries fs row) :
    Value.lookup x.1.name (membersOfRow fs row) = some (x.1.codec.toValue x.2) := by
  induction fs with
  | nil => exact absurd hx List.not_mem_nil
  | cons f fs ih =>
    obtain ⟨a, row⟩ := row
    obtain ⟨hfresh, hnames⟩ := List.nodup_cons.1 hnames
    rcases List.mem_cons.1 hx with rfl | hx
    · exact Value.lookup_insert_self _ _ _
    · have hne : x.1.name ≠ f.name := fun he => hfresh (List.mem_map.2 ⟨x.1, Row.mem_of_mem_entries hx, he⟩)
      exact (Value.lookup_insert_ne hne _ _).trans (ih hnames hx)

/-- Members of entries fill the slots of their fields, in whatever order they come. -/
theorem slotsOfMembers_known {keys : List String} {ms : List (String × Value)} (hnames : (fs.map (·.name)).Nodup)
    (hkeys : (keys ++ ms.map (·.1)).Nodup) (h : ∀ m ∈ ms, ∃ x ∈ Row.entries fs row, x.shown = m ∧ x.Lawful) :
    slotsOfMembers fs (.known keys fs row) ms = .ok (.known (keys ++ ms.map (·.1)) fs row) := by
  induction ms generalizing keys with
  | nil => rw [List.map_nil, List.append_nil, slotsOfMembers]
  | cons m ms ih =>
    obtain ⟨⟨x, hx, rfl, hlawful⟩, hms⟩ := List.forall_mem_cons.1 h
    obtain ⟨hnew, hkeys⟩ := Slots.fresh_of_nodup hkeys
    have hfill := (Slots.fill_known hnames hx hnew (Mismatch.duplicate x.1.name)
      fun f => (f.codec.ofValue (x.1.codec.toValue x.2)).map (·, ())).1 () (by rw [hlawful.restored]; rfl)
    rw [FieldEntry.shown, slotsOfMembers, hfill]
    refine (ih hkeys hms).trans ?_
    simp [FieldEntry.shown]

end

/-! ### Records -/

namespace Record

variable {α : Type} [Record α] {a : α}

/-- The text of a record is that of the object of its entries, if each value is written as the value it is. -/
theorem encode_eq_written_of (h : ∀ x ∈ entries a, writtenMember x.shown = x.text) :
    encode a = (Value.object ((entries a).map FieldEntry.shown)).written := by
  have htexts : (entries a).map FieldEntry.text = ((entries a).map FieldEntry.shown).map writtenMember := by
    rw [List.map_map]
    exact List.map_congr_left fun x hx => (h x hx).symm
  rw [encode_eq, written_object, htexts]

/-- No two fields have one name, and the codec of each field is lawful at what it holds. -/
structure Lawful (a : α) : Prop where
  names : ((fields α).map (·.name)).Nodup
  each : ∀ x ∈ entries a, x.Lawful

namespace Lawful

theorem parse_encode (h : Lawful a) : parse (encode a) = .ok a :=
  Record.parse_encode h.names fun x hx => (h.each x hx).restores fieldDepth

theorem perm_members (h : Lawful a) :
    (membersOfRow (fields α) (toRow a)).Perm ((entries a).map FieldEntry.shown) :=
  perm_membersOfRow h.names (toRow a)

theorem perm_names (h : Lawful a) :
    ((membersOfRow (fields α) (toRow a)).map (·.1)).Perm ((fields α).map (·.name)) := by
  have hperm := h.perm_members.map (·.1)
  rw [List.map_map] at hperm
  exact names_entries a ▸ hperm

/-- Every member of the value is that of an entry. -/
theorem exists_entry (h : Lawful a) {m : String × Value} (hm : m ∈ membersOfRow (fields α) (toRow a)) :
    ∃ x ∈ entries a, x.shown = m ∧ x.Lawful := by
  obtain ⟨x, hx, hm⟩ := List.mem_map.1 (h.perm_members.mem_iff.1 hm)
  exact ⟨x, hx, hm, h.each x hx⟩

/-- The value of the record is kept, and is one level deep. -/
theorem kept_toValue (h : Lawful a) : (toValue a).Kept ∧ (toValue a).depth ≤ 1 := by
  have hplain : ∀ m ∈ membersOfRow (fields α) (toRow a), m.2.Plain := by
    intro m hm
    obtain ⟨x, -, rfl, hx⟩ := h.exists_entry hm
    exact hx.plain
  exact ⟨.object (fun m hm => (hplain m hm).kept) (ascending_membersOfRow _ _),
    Value.depth_object_le.2 fun m hm => Nat.le_of_eq (hplain m hm).depth⟩

/-- The text of the record is that of the object of its entries. -/
theorem encode_eq_written (h : Lawful a) :
    encode a = (Value.object ((entries a).map FieldEntry.shown)).written :=
  encode_eq_written_of fun x hx => (h.each x hx).writtenMember

/-- The object of the entries, as it is read, is the value of the record. -/
theorem insertAll_shown (h : Lawful a) :
    Value.insertAll [] ((entries a).map FieldEntry.shown) = membersOfRow (fields α) (toRow a) := by
  have hkeys : (((entries a).map FieldEntry.shown).map (·.1)).Nodup := by
    rw [List.map_map]
    exact names_entries a ▸ h.names
  refine Value.Ascending.eq_of_perm (Value.Ascending.insertAll .nil) (ascending_membersOfRow _ _) ?_
  exact (Value.perm_insertAll (by rwa [List.nil_append])).trans h.perm_members.symm

/-- The text of the record holds its value. -/
theorem parse_value (h : Lawful a) : Value.parse (encode a) = .ok (toValue a) := by
  have heach : ∀ m ∈ (entries a).map FieldEntry.shown, (Value.reader fieldDepth).Reads m.2.written m.2 := by
    intro m hm
    obtain ⟨x, hx, rfl⟩ := List.mem_map.1 hm
    have hplain := (h.each x hx).plain
    exact (hplain.kept.answered fieldDepth).1 (hplain.depth ▸ Nat.zero_le _)
  have hread := Value.reads_object heach
  rw [← h.encode_eq_written, h.insertAll_shown] at hread
  exact hread.readAll

/-- The record is taken from its value as it was. -/
theorem ofValue_toValue (h : Lawful a) : ofValue (toValue a) = .ok a := by
  have hslots : slotsOfMembers (fields α) (.known [] (fields α) (toRow a)) (membersOfRow (fields α) (toRow a)) = _ :=
    slotsOfMembers_known h.names (h.perm_names.nodup_iff.2 h.names) fun m => h.exists_entry
  have hrow : Slots.toRow (fields α) (.known ((membersOfRow (fields α) (toRow a)).map (·.1)) (fields α) (toRow a)) =
      .ok (toRow a) :=
    Slots.toRow_known (fun f hf => h.perm_names.mem_iff.2 (List.mem_map_of_mem hf)) _
  rw [Slots.known_nil, List.nil_append] at hslots
  rw [ofValue, toValue, rowOfValue, hslots]
  change (Slots.toRow _ _).map ofRow = _
  rw [hrow]
  exact congrArg Except.ok (ofRow_toRow a)

/-- The member that an entry is. -/
theorem get?_toValue (h : Lawful a) {x : FieldEntry} (hx : x ∈ entries a) :
    (toValue a).get? x.1.name = some (x.1.codec.toValue x.2) :=
  lookup_membersOfRow h.names hx

end Lawful

end Record

end Json

end Fulfilment
