import Fulfilment.Proofs.Json.Record
import Fulfilment.Proofs.Json.Skip

/-!
# Records read and taken from values

A record can be read from a text straight away, or the text can be read as a free-form value first from which the
record is then taken. The two ways differ in what they refuse, since of members of one name a value keeps the last and
a record none. But where both come to a record they come to the same one (`Record.Agrees.eq_of_parse`), if its fields
are such that the codecs agree with themselves (`Codec.Agrees`).
-/

namespace Fulfilment

namespace Json

/-- What the codec reads at a place is what it takes from the value that is read there, and both end at one place. -/
def Codec.Agrees {α : Type} (k : Codec α) : Prop :=
  ∀ ⦃depth depth' : Nat⦄ ⦃c d d' : Cursor⦄ ⦃a : α⦄ ⦃v : Value⦄, (k.reader depth).read c = .ok (a, d) →
    (Value.reader depth').read c = .ok (v, d') → d = d' ∧ k.ofValue v = .ok a

namespace Codec

theorem converted_agrees {α : Type} (expected : String) (convert : String → Except Mismatch α) (write : α → String) :
    (converted expected convert write).Agrees := by
  intro depth depth' c d d' a v h h'
  have h : readConverted expected convert c = .ok (a, d) := h
  rw [Value.reader_read] at h'
  unfold readConverted at h
  unfold readValue at h'
  rcases hc : c.skipBlanks with ⟨_ | ⟨b, r⟩, p⟩
  · rw [hc] at h
    cases h
  · rw [hc] at h h'
    dsimp only at h h'
    split at h
    · rename_i hb
      subst hb
      rw [show Lead.ofByte 34 = .quote from rfl] at h'
      dsimp only at h'
      split at h
      · cases h
      · rename_i s d₁ ht
        rw [ht] at h'
        cases h'
        split at h
        · cases h
        · rename_i hconvert
          cases h
          exact ⟨rfl, hconvert⟩
    · cases h

theorem integer_agrees {α : Type} (lo hi : Int) (expected : String) (ofInt : Int → α) (toInt : α → Int) :
    (integer lo hi expected ofInt toInt).Agrees := by
  intro depth depth' c d d' a v h h'
  have h : readInteger lo hi expected ofInt c = .ok (a, d) := h
  rw [Value.reader_read] at h'
  unfold readInteger at h
  dsimp only at h
  split at h
  · cases h
  · split at h
    · cases h
    · cases h
    · rename_i n d₁ hn
      cases (readValue_of_numberAt hn).symm.trans h'
      split at h
      · cases h
      · rename_i hinteger
        cases h
        refine ⟨rfl, ?_⟩
        cases n with
        | int n => exact hinteger
        | float => cases hinteger

end Codec

/-! ### Slots -/

namespace Slots

/-- The slots hold what the codecs of their fields take from the members `ms`, and those whose names are missing are
empty. -/
def Hold : (fs : List Field) → Slots fs → List (String × Value) → Prop
  | [], _, _ => True
  | f :: fs, (slot, rest), ms => (Value.lookup f.name ms).map f.codec.ofValue = slot.map .ok ∧ Hold fs rest ms

variable {fs : List Field} {slots slots' : Slots fs} {ms : List (String × Value)} {key : String} {v : Value}

theorem hold_empty (fs : List Field) : Hold fs (empty fs) [] := by
  induction fs with
  | nil => trivial
  | cons f fs ih => exact ⟨rfl, ih⟩

theorem Hold.unique (h : Hold fs slots ms) (h' : Hold fs slots' ms) : slots = slots' := by
  induction fs with
  | nil => rfl
  | cons f fs ih =>
    obtain ⟨slot, rest⟩ := slots
    obtain ⟨slot', rest'⟩ := slots'
    have hslot : slot = slot' := by
      have heq := h.1.symm.trans h'.1
      cases slot <;> cases slot' <;> simp_all
    rw [hslot, ih h.2 h'.2]

/-- A member that is no field does not matter. -/
theorem Hold.insert_other (h : Hold fs slots ms) (other : ∀ f ∈ fs, f.name ≠ key) (v : Value) :
    Hold fs slots (Value.insert key v ms) := by
  induction fs with
  | nil => trivial
  | cons f fs ih =>
    obtain ⟨slot, rest⟩ := slots
    obtain ⟨hne, hothers⟩ := List.forall_mem_cons.1 other
    refine ⟨?_, ih h.2 hothers⟩
    rw [Value.lookup_insert_ne hne]
    exact h.1

section

variable {ε σ : Type} {taken : ε} {get : (f : Field) → Except ε (f.Carrier × σ)} {s : σ}

theorem fill_eq_none (h : fill key taken get fs slots = none) : ∀ f ∈ fs, f.name ≠ key := by
  induction fs with
  | nil => nofun
  | cons f fs ih =>
    obtain ⟨slot, rest⟩ := slots
    simp only [fill] at h
    split at h
    · split at h
      · cases h
      · split at h <;> cases h
    · rename_i hne
      split at h
      · rename_i hrest
        exact List.forall_mem_cons.2 ⟨Ne.symm hne, ih hrest⟩
      · cases h
      · cases h

/-- A slot that is filled holds what `get` had for its field. -/
theorem mem_of_fill (h : fill key taken get fs slots = some (.ok (slots', s))) :
    ∃ f ∈ fs, ∃ a, get f = .ok (a, s) := by
  induction fs with
  | nil => cases h
  | cons f fs ih =>
    obtain ⟨slot, rest⟩ := slots
    simp only [fill] at h
    split at h
    · split at h
      · cases h
      · split at h
        · cases h
        · rename_i a s' hget
          cases h
          exact ⟨f, List.mem_cons_self, a, hget⟩
    · split at h
      · cases h
      · cases h
      · rename_i hrest
        cases h
        obtain ⟨f', hf', a, hget⟩ := ih hrest
        exact ⟨f', List.mem_cons_of_mem _ hf', a, hget⟩

theorem Hold.insert (h : Hold fs slots ms) (names : (fs.map (·.name)).Nodup)
    (taking : ∀ f ∈ fs, ∀ a s, get f = .ok (a, s) → f.codec.ofValue v = .ok a)
    (hfill : fill key taken get fs slots = some (.ok (slots', s))) : Hold fs slots' (Value.insert key v ms) := by
  induction fs with
  | nil => cases hfill
  | cons f fs ih =>
    obtain ⟨slot, rest⟩ := slots
    obtain ⟨hfresh, hnames⟩ := List.nodup_cons.1 names
    obtain ⟨htaking, hrest⟩ := List.forall_mem_cons.1 taking
    simp only [fill] at hfill
    split at hfill
    · rename_i hkey
      subst hkey
      have hothers : ∀ f' ∈ fs, f'.name ≠ f.name := fun f' hf' he => hfresh (List.mem_map.2 ⟨f', hf', he⟩)
      split at hfill
      · cases hfill
      · split at hfill
        · cases hfill
        · rename_i a s' hget
          cases hfill
          refine ⟨?_, h.2.insert_other hothers v⟩
          rw [Value.lookup_insert_self]
          exact congrArg some (htaking a s hget)
    · rename_i hkey
      split at hfill
      · cases hfill
      · cases hfill
      · rename_i hfilled
        cases hfill
        refine ⟨?_, ih h.2 hnames hrest hfilled⟩
        rw [Value.lookup_insert_ne (Ne.symm hkey)]
        exact h.1

end

/-- A row of slots that is complete has in it what they hold, and all that must be there is held. -/
theorem of_toRow {f : Field} {slot : Option f.Carrier} {rest : Slots fs} {row : Row (f :: fs)}
    (h : toRow (f :: fs) (slot, rest) = .ok row) :
    toRow fs rest = .ok row.2 ∧ (slot = some row.1 ∨ f.absent ≠ .refused) := by
  simp only [toRow] at h
  split at h
  · obtain ⟨row, hrow, rfl⟩ := Program.ok_of_map h
    exact ⟨hrow, .inl rfl⟩
  · cases h
  · rename_i habsent
    obtain ⟨row, hrow, rfl⟩ := Program.ok_of_map h
    exact ⟨hrow, .inr fun he => by cases habsent.symm.trans he⟩
  · rename_i habsent
    obtain ⟨row, hrow, rfl⟩ := Program.ok_of_map h
    exact ⟨hrow, .inr fun he => by cases habsent.symm.trans he⟩

/-- A field that must be there is taken from the member of its name. -/
theorem Hold.taken {row : Row fs} (h : Hold fs slots ms) (hrow : toRow fs slots = .ok row) {x : FieldEntry}
    (hx : x ∈ Row.entries fs row) (required : x.1.absent = .refused) :
    (Value.lookup x.1.name ms).map x.1.codec.ofValue = some (.ok x.2) := by
  induction fs with
  | nil => exact absurd hx List.not_mem_nil
  | cons f fs ih =>
    obtain ⟨slot, rest⟩ := slots
    obtain ⟨hrest, hslot⟩ := of_toRow hrow
    rcases List.mem_cons.1 hx with rfl | hx
    · rw [h.1, hslot.resolve_right fun hne => hne required]
      rfl
    · exact ih h.2 hrest hx

end Slots

/-! ### Members -/

section

variable {fs : List Field} {slots slots' : Slots fs} {ms ms' : List (String × Value)}
  {depth depth' : Nat} {first : Bool}
  {c d d' : Cursor}

theorem exists_colon {α : Type} {key : String} {r : Reader α} {a : α} (h : readMember key r c = .ok (a, d)) :
    ∃ d₁, c.colon = .ok d₁ := by
  unfold readMember at h
  split at h
  · cases h
  · exact ⟨_, by assumption⟩

theorem read_of_readMember {α : Type} {key : String} {r : Reader α} {a : α} {d₁ : Cursor} (hc : c.colon = .ok d₁)
    (h : readMember key r c = .ok (a, d)) : r.read d₁ = .ok (a, d) := by
  unfold readMember at h
  rw [hc] at h
  dsimp only at h
  split at h
  · cases h
  · rename_i hread
    cases h
    exact hread

/-- Members that fill slots while they are read are those that are read as values. -/
theorem hold_of_slotsFrom (names : (fs.map (·.name)).Nodup) (agree : ∀ f ∈ fs, f.codec.Agrees)
    (holds : slots.Hold fs ms) (h : slotsFrom depth fs slots first c = .ok (slots', d))
    (h' : membersFrom (Value.reader depth') ms first c = .ok (ms', d')) : d = d' ∧ slots'.Hold fs ms' := by
  -- the induction is on the members that are still to be read; the slots hold those before
  fun_induction slotsFrom depth fs slots first c generalizing ms with
  | case1 => cases h
  | case2 slots first c d₀ hk =>
    cases h
    rw [membersFrom_done hk] at h'
    cases h'
    exact ⟨rfl, holds⟩
  | case3 => cases h
  | case4 => cases h
  | case5 slots first c d₀ hk key d₁ ht slots₁ d₂ hf ih =>
    obtain ⟨f, hmem, a, hget⟩ := Slots.mem_of_fill hf
    obtain ⟨d₃, hc⟩ := exists_colon hget
    rw [membersFrom_more hk ht hc] at h'
    split at h'
    · cases h'
    · rename_i v d₄ hread
      have hagree : ∀ f ∈ fs, ∀ a s, readMember key (f.codec.reader depth) d₁ = .ok (a, s) →
          s = d₄ ∧ f.codec.ofValue v = .ok a := fun f hf a s hmember =>
        agree f hf (read_of_readMember hc hmember) hread
      obtain ⟨rfl, -⟩ := hagree f hmem a d₂ hget
      exact ih (holds.insert names (fun f hf a s hmember => (hagree f hf a s hmember).2) hf) h h'
  | case6 => cases h
  | case7 slots first c d₀ hk key d₁ ht hf d₂ hs ih =>
    unfold skipMember at hs
    split at hs
    · cases hs
    · rename_i d₃ hc
      split at hs
      · cases hs
      · rename_i hskip
        cases hs
        rw [membersFrom_more hk ht hc] at h'
        split at h'
        · cases h'
        · rename_i v d₄ hread
          cases hskip.symm.trans (skipValue_of_read hread)
          exact ih (holds.insert_other (Slots.fill_eq_none hf) v) h h'

theorem hold_of_slotsOfMembers (names : (fs.map (·.name)).Nodup) (holds : slots.Hold fs ms)
    (h : slotsOfMembers fs slots ms' = .ok slots') : slots'.Hold fs (Value.insertAll ms ms') := by
  induction ms' generalizing slots ms with
  | nil =>
    cases h
    exact holds
  | cons m rest ih =>
    obtain ⟨key, v⟩ := m
    unfold slotsOfMembers at h
    split at h
    · cases h
    · rename_i hfill
      refine ih (holds.insert names (fun f _ a s hget => ?_) hfill) h
      cases hvalue : f.codec.ofValue v with
      | error e =>
        rw [hvalue] at hget
        cases hget
      | ok b =>
        rw [hvalue] at hget
        cases hget
        rfl
    · rename_i hfill
      exact ih (holds.insert_other (Slots.fill_eq_none hfill) v) h

end

/-! ### Records -/

namespace Record

variable {α : Type} [Record α] {a b : α}

/-- No two fields have one name, and the codecs of the fields agree with themselves. -/
structure Agrees (α : Type) [Record α] : Prop where
  names : ((fields α).map (·.name)).Nodup
  each : ∀ f ∈ fields α, f.codec.Agrees

theorem of_codec_read {depth : Nat} {c d : Cursor} (h : ((codec α).reader (depth + 1)).read c = .ok (a, d)) :
    ∃ row, readRow (title α) (fields α) (some depth) c = .ok (row, d) ∧ ofRow row = a := by
  rw [codec_read] at h
  split at h
  · cases h
  · rename_i hrow
    cases h
    exact ⟨_, hrow, rfl⟩

/-- A record is taken from slots that hold the members of the object. -/
theorem exists_hold_of_ofValue (names : ((fields α).map (·.name)).Nodup) {members : List (String × Value)}
    (ascending : Value.Ascending members) (h : ofValue (.object members) = .ok b) :
    ∃ slots row, Slots.Hold (fields α) slots members ∧ slots.toRow (fields α) = .ok row ∧ ofRow row = b := by
  obtain ⟨row, hrow, hb⟩ := Program.ok_of_map h
  obtain ⟨slots, hslots, htoRow⟩ := Program.ok_of_bind hrow
  have hholds := hold_of_slotsOfMembers names (Slots.hold_empty _) hslots
  rw [Value.insertAll_of_ascending (show Value.Ascending ([] ++ members) from ascending)] at hholds
  exact ⟨slots, row, hholds, htoRow, hb⟩

/-- What is read from the text of an object is what is taken from the object. -/
theorem Agrees.eq_of_parse (h : Agrees α) {text : Bytes} {members : List (String × Value)} (ha : parse text = .ok a)
    (hv : Value.parse text = .ok (.object members)) (hb : ofValue (.object members) = .ok b) : a = b := by
  obtain ⟨d, hread, -⟩ := readAll_eq_ok_iff.1 ha
  obtain ⟨d', hread', -⟩ := readAll_eq_ok_iff.1 hv
  obtain ⟨row, hrow, rfl⟩ := of_codec_read hread
  rw [Value.reader_read] at hread'
  have hfronts := readValue_eq_ok_iff.1 hread'
  unfold readRow at hrow
  generalize hc : (Cursor.start text).skipBlanks = c at hfronts
  cases hfronts with
  | @object r p _ _ _ within hmembers =>
    cases within
    rw [hc] at hrow
    dsimp only at hrow
    rw [if_neg (by decide), if_pos rfl] at hrow
    split at hrow
    · cases hrow
    · rename_i slots d₁ hslots
      split at hrow <;> cases hrow
      rename_i htoRow
      -- both ways fill the same slots, since both hold the members that are read
      have hholds := (hold_of_slotsFrom h.names h.each (Slots.hold_empty _) hslots hmembers).2
      have hascending := (forall_of_membersFrom (P := fun _ => True) (fun _ _ _ _ => trivial)
        ⟨fun _ _ => trivial, .nil⟩ hmembers).2
      obtain ⟨slots', row', hholds', htoRow', rfl⟩ := exists_hold_of_ofValue h.names hascending hb
      cases hholds.unique hholds'
      cases htoRow.symm.trans htoRow'
      rfl

end Record

end Json

end Fulfilment
