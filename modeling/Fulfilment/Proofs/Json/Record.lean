import Fulfilment.Json.Record
import Fulfilment.Proofs.Json.Value

/-!
# Records written and read back

A record is written as an object with its fields in order. Its slots are filled by its entries in any order
(`slotsFrom_joined`), so it is read back if what every field holds is (`Record.parse_encode`), and refused if what one
of them holds is nested too deep (`Record.parse_refused`).
-/

namespace Fulfilment

namespace Json

/-! ### Fields with their values -/

/-- A field with the value it has. -/
abbrev FieldEntry := (f : Field) × f.Carrier

namespace FieldEntry

/-- The value of the entry as it is written. -/
def written (x : FieldEntry) : Bytes := Utf8.encode (x.1.codec.print x.2)

/-- The entry as a member. -/
def text (x : FieldEntry) : Bytes := member x.1.name x.written

/-- What the entry holds is read back under `depth` levels. -/
def Reads (depth : Nat) (x : FieldEntry) : Prop := (x.1.codec.reader depth).Reads x.written x.2

/-- What the entry holds is refused under `depth` levels. -/
def Refuses (depth : Nat) (x : FieldEntry) : Prop := (x.1.codec.reader depth).Refuses x.written

end FieldEntry

namespace Row

/-- The entries of a row. -/
def entries : (fs : List Field) → Row fs → List FieldEntry
  | [], _ => []
  | f :: fs, (a, row) => ⟨f, a⟩ :: entries fs row

theorem map_name_entries (fs : List Field) (row : Row fs) : (entries fs row).map (·.1) = fs := by
  induction fs with
  | nil => rfl
  | cons f fs ih =>
    obtain ⟨a, row⟩ := row
    rw [entries, List.map_cons, ih]

theorem mem_of_mem_entries {fs : List Field} {row : Row fs} {x : FieldEntry} (hx : x ∈ entries fs row) :
    x.1 ∈ fs := by
  rw [← map_name_entries fs row]
  exact List.mem_map_of_mem hx

theorem printRow_eq (fs : List Field) (row : Row fs) :
    printRow fs row = (entries fs row).map fun x => (x.1.name, x.1.codec.print x.2) := by
  induction fs with
  | nil => rfl
  | cons f fs ih =>
    obtain ⟨a, row⟩ := row
    rw [printRow, entries, List.map_cons, ih]

end Row

/-! ### Slots filled one after another -/

namespace Slots

/-- The slot of the field `f`, filled if its name is among `keys`. -/
def slot (keys : List String) (f : Field) (a : f.Carrier) : Option f.Carrier := if f.name ∈ keys then some a else none

/-- Slots of which those are filled whose names are among `keys`. -/
def known (keys : List String) : (fs : List Field) → Row fs → Slots fs
  | [], _ => ()
  | f :: fs, (a, row) => (slot keys f a, known keys fs row)

section

variable {keys : List String} {key : String} {f : Field} {fs : List Field} {a : f.Carrier}

theorem slot_of_mem (h : f.name ∈ keys) : slot keys f a = some a := if_pos h

theorem slot_of_not_mem (h : f.name ∉ keys) : slot keys f a = none := if_neg h

theorem slot_concat (h : f.name ≠ key) : slot (keys ++ [key]) f a = slot keys f a := by
  simp [slot, h]

theorem known_nil (fs : List Field) (row : Row fs) : known [] fs row = empty fs := by
  induction fs with
  | nil => rfl
  | cons f fs ih =>
    obtain ⟨a, row⟩ := row
    rw [known, empty, slot_of_not_mem List.not_mem_nil, ih]

theorem known_concat (h : ∀ f ∈ fs, f.name ≠ key) (row : Row fs) :
    known (keys ++ [key]) fs row = known keys fs row := by
  induction fs with
  | nil => rfl
  | cons f fs ih =>
    obtain ⟨a, row⟩ := row
    obtain ⟨hf, hfs⟩ := List.forall_mem_cons.1 h
    rw [known, known, slot_concat hf, ih hfs]

theorem toRow_known (h : ∀ f ∈ fs, f.name ∈ keys) (row : Row fs) : toRow fs (known keys fs row) = .ok row := by
  induction fs with
  | nil => rfl
  | cons f fs ih =>
    obtain ⟨a, row⟩ := row
    obtain ⟨hf, hfs⟩ := List.forall_mem_cons.1 h
    rw [known, slot_of_mem hf, toRow, ih hfs]
    rfl

end

/-- Of keys that are all different, the next is none of those before. -/
theorem fresh_of_nodup {key : String} {keys rest : List String} (h : (keys ++ key :: rest).Nodup) :
    key ∉ keys ∧ ((keys ++ [key]) ++ rest).Nodup := by
  refine ⟨fun hmem => ?_, by rwa [List.append_assoc]⟩
  exact (List.nodup_append.1 h).2.2 key hmem key List.mem_cons_self rfl

variable {ε σ : Type} {fs : List Field} {row : Row fs} {keys : List String} {x : FieldEntry}

/-- A slot that is not filled yet takes what is there for its field. -/
theorem fill_known (hnames : (fs.map (·.name)).Nodup) (hx : x ∈ Row.entries fs row) (hnew : x.1.name ∉ keys)
    (taken : ε) (get : (f : Field) → Except ε (f.Carrier × σ)) :
    (∀ s, get x.1 = .ok (x.2, s) →
      fill x.1.name taken get fs (known keys fs row) = some (.ok (known (keys ++ [x.1.name]) fs row, s))) ∧
    (∀ e, get x.1 = .error e → fill x.1.name taken get fs (known keys fs row) = some (.error e)) := by
  induction fs with
  | nil => exact absurd hx List.not_mem_nil
  | cons f fs ih =>
    obtain ⟨a, row⟩ := row
    obtain ⟨hfresh, hnames⟩ := List.nodup_cons.1 hnames
    rcases List.mem_cons.1 hx with rfl | hx
    · have hothers : ∀ f' ∈ fs, f'.name ≠ f.name := fun f' hf' he => hfresh (List.mem_map.2 ⟨f', hf', he⟩)
      have hlast : f.name ∈ keys ++ [f.name] := List.mem_append_right _ List.mem_cons_self
      simp only [known, slot_of_not_mem hnew, fill, if_true]
      constructor
      · intro s hs
        rw [hs, slot_of_mem hlast, known_concat hothers]
      · intro e he
        rw [he]
    · -- the first slot is passed over: no two fields have one name
      have hne : f.name ≠ x.1.name := fun h => hfresh (List.mem_map.2 ⟨x.1, Row.mem_of_mem_entries hx, h.symm⟩)
      obtain ⟨hok, herror⟩ := ih hnames hx
      simp only [known, fill, if_neg hne.symm, slot_concat hne]
      constructor
      · intro s hs
        rw [hok s hs]
      · intro e he
        rw [herror e he]

end Slots

/-! ### Members read into slots -/

section

variable {fs : List Field} {row : Row fs} {slots : Slots fs} {depth : Nat} {first : Bool} {c d d₁ : Cursor}
  {key : String}

theorem slotsFrom_done (hk : c.nextKey first = .ok (.done d)) :
    slotsFrom depth fs slots first c = .ok (slots, d) := by
  rw [slotsFrom]
  split
  · rename_i he
    cases hk.symm.trans he
  · rename_i he
    cases hk.symm.trans he
    rfl
  · rename_i he
    cases hk.symm.trans he

theorem slotsFrom_more (hk : c.nextKey first = .ok (.more d)) (ht : readText d = .ok (key, d₁))
    {result : Except Fault (Slots fs × Cursor)}
    (hf : slots.fill key (mismatched (.duplicate key) d₁.behindObject)
      (fun f => readMember key (f.codec.reader depth) d₁) fs = some result) :
    slotsFrom depth fs slots first c = match result with
      | .error e => .error e
      | .ok (slots', d₂) => slotsFrom depth fs slots' false d₂ := by
  rw [slotsFrom]
  split
  · rename_i he
    cases hk.symm.trans he
  · rename_i he
    cases hk.symm.trans he
  · rename_i he
    cases hk.symm.trans he
    split
    · rename_i he
      cases ht.symm.trans he
    · rename_i he
      cases ht.symm.trans he
      split
      · rename_i he
        cases hf.symm.trans he
        rfl
      · rename_i he
        cases hf.symm.trans he
        rfl
      · rename_i he
        cases hf.symm.trans he

/-- The next member is read into its slot, or is refused. -/
theorem slotsFrom_entry {x : FieldEntry} {keys : List String} (first : Bool) (rest : Bytes) (p : Position)
    (hnames : (fs.map (·.name)).Nodup) (hx : x ∈ Row.entries fs row) (hnew : x.1.name ∉ keys) (hrest : Closes rest) :
    (x.Reads depth → slotsFrom depth fs (.known keys fs row) first ⟨lead first ++ x.text ++ rest, p⟩ =
      slotsFrom depth fs (.known (keys ++ [x.1.name]) fs row) false ⟨rest, p.past (lead first ++ x.text)⟩) ∧
    (x.Refuses depth → ∃ e,
      slotsFrom depth fs (.known keys fs row) first ⟨lead first ++ x.text ++ rest, p⟩ = .error e ∧
      e.isDeep) := by
  have htext : lead first ++ x.text ++ rest =
      lead first ++ 34 :: (closedText x.1.name ++ (58 :: x.written ++ rest)) := by
    simp [FieldEntry.text, member]
  have hkey := readText_closedText x.1.name (58 :: x.written ++ rest) (p.past (lead first ++ [34]))
  obtain ⟨hok, herror⟩ := Slots.fill_known hnames hx hnew
    (mismatched (.duplicate x.1.name)
      (Cursor.behindObject ⟨58 :: x.written ++ rest, (p.past (lead first ++ [34])).past (closedText x.1.name)⟩))
    (fun f => readMember x.1.name (f.codec.reader depth)
      ⟨58 :: x.written ++ rest, (p.past (lead first ++ [34])).past (closedText x.1.name)⟩)
  rw [htext]
  constructor
  · intro h
    have hread := h.reads rest (((p.past (lead first ++ [34])).past (closedText x.1.name)).after 58) hrest
    have hmember := hok _ (by
      unfold readMember
      rw [List.cons_append, Cursor.colon_colon]
      dsimp only
      rw [hread])
    rw [slotsFrom_more Cursor.nextKey_lead hkey hmember]
    simp [FieldEntry.text, member]
  · intro h
    obtain ⟨e, hread, he⟩ :=
      h.refuses rest (((p.past (lead first ++ [34])).past (closedText x.1.name)).after 58) hrest
    have hmember := herror (e.within (.member x.1.name)) (by
      unfold readMember
      rw [List.cons_append, Cursor.colon_colon]
      dsimp only
      rw [hread])
    rw [slotsFrom_more Cursor.nextKey_lead hkey hmember]
    exact ⟨_, rfl, he⟩

theorem slotsFrom_joined {xs : List FieldEntry} {keys : List String} (first : Bool) (rest : Bytes) (p : Position)
    (hnames : (fs.map (·.name)).Nodup) (hkeys : (keys ++ xs.map (·.1.name)).Nodup)
    (h : ∀ x ∈ xs, x ∈ Row.entries fs row ∧ x.Reads depth) :
    slotsFrom depth fs (.known keys fs row) first ⟨joined first (xs.map FieldEntry.text) ++ 125 :: rest, p⟩ =
      .ok (.known (keys ++ xs.map (·.1.name)) fs row,
        ⟨rest, p.past (joined first (xs.map FieldEntry.text) ++ [125])⟩) := by
  -- each member finds its slot empty, for its name is none of those before
  induction xs generalizing keys first p with
  | nil =>
    rw [List.map_nil, List.map_nil, List.append_nil]
    exact slotsFrom_done Cursor.nextKey_brace
  | cons x xs ih =>
    obtain ⟨⟨hx, hread⟩, hxs⟩ := List.forall_mem_cons.1 h
    obtain ⟨hnew, hkeys⟩ := Slots.fresh_of_nodup hkeys
    have hstep := (slotsFrom_entry first (joined false (xs.map FieldEntry.text) ++ 125 :: rest) p hnames hx hnew
      (closes_joined .brace)).1 hread
    rw [List.map_cons, joined, List.append_assoc _ _ (125 :: rest), hstep, ih false _ hkeys hxs]
    simp

/-- One entry that is refused is enough for all to be. -/
theorem slotsFrom_refused {xs : List FieldEntry} {keys : List String} (first : Bool) (rest : Bytes) (p : Position)
    (hnames : (fs.map (·.name)).Nodup) (hkeys : (keys ++ xs.map (·.1.name)).Nodup)
    (h : ∀ x ∈ xs, x ∈ Row.entries fs row ∧ (x.Reads depth ∨ x.Refuses depth)) (hdeep : ∃ x ∈ xs, x.Refuses depth) :
    ∃ e, slotsFrom depth fs (.known keys fs row) first ⟨joined first (xs.map FieldEntry.text) ++ 125 :: rest, p⟩ =
      .error e ∧ e.isDeep := by
  induction xs generalizing keys first p with
  | nil =>
    obtain ⟨x, hx, -⟩ := hdeep
    exact absurd hx List.not_mem_nil
  | cons x xs ih =>
    obtain ⟨⟨hx, hread⟩, hxs⟩ := List.forall_mem_cons.1 h
    obtain ⟨hnew, hkeys⟩ := Slots.fresh_of_nodup hkeys
    obtain ⟨hok, herror⟩ :=
      slotsFrom_entry first (joined false (xs.map FieldEntry.text) ++ 125 :: rest) p hnames hx hnew
      (closes_joined .brace)
    rw [List.map_cons, joined, List.append_assoc _ _ (125 :: rest)]
    rcases hread with hreads | hrefuses
    · obtain ⟨y, hy, hdeep⟩ := hdeep
      rcases List.mem_cons.1 hy with rfl | hy
      · exact (hreads.not_refuses hdeep).elim
      · rw [hok hreads]
        exact ih false _ hkeys hxs ⟨y, hy, hdeep⟩
    · exact herror hrefuses

end

/-! ### Records -/

namespace Record

variable {α : Type} [Record α]

/-- The entries of a record. -/
def entries (a : α) : List FieldEntry := Row.entries (fields α) (toRow a)

theorem encode_eq (a : α) : encode a = 123 :: (joined true ((entries a).map FieldEntry.text) ++ [125]) := by
  rw [encode, print, encode_printMembers, Row.printRow_eq, List.map_map]
  rfl

theorem opens_encode (a : α) : Opens (encode a) := by
  rw [encode_eq]
  exact ⟨rfl, by decide⟩

theorem readRow_encode (title : String) (depth : Nat) (a : α) (rest : Bytes) (p : Position) :
    readRow title (fields α) (some depth) ⟨encode a ++ rest, p⟩ =
      match slotsFrom depth (fields α) (Slots.empty (fields α)) true
        ⟨joined true ((entries a).map FieldEntry.text) ++ 125 :: rest, p.after 123⟩ with
      | .error e => .error e
      | .ok (slots, d) =>
        match slots.toRow (fields α) with
        | .error m => .error (mismatched m d.position)
        | .ok row => .ok (row, d) := by
  have hblanks : ∀ t : Bytes, Cursor.skipBlanks ⟨123 :: t, p⟩ = ⟨123 :: t, p⟩ := fun _ => rfl
  rw [encode_eq, List.cons_append, List.append_assoc, List.singleton_append]
  unfold readRow
  rw [hblanks]
  simp only [show (123 : UInt8) ≠ 91 by decide, if_false, if_true]
  generalize slotsFrom depth (fields α) (Slots.empty (fields α)) true _ = result
  rcases result with e | ⟨slots, d⟩
  · rfl
  · dsimp only
    cases Slots.toRow (fields α) slots <;> rfl

variable {depth : Nat} {a : α}

theorem codec_read (c : Cursor) : ((codec α).reader (depth + 1)).read c =
    match readRow (title α) (fields α) (some depth) c with
    | .error e => .error e
    | .ok (row, d) => .ok (ofRow row, d) := rfl

theorem names_entries (a : α) : (entries a).map (·.1.name) = (fields α).map (·.name) := by
  rw [← Row.map_name_entries (fields α) (toRow a), List.map_map]
  rfl

theorem nodup_entries (hnames : ((fields α).map (·.name)).Nodup) :
    ([] ++ (entries a).map fun x : FieldEntry => x.1.name).Nodup := by
  rwa [List.nil_append, names_entries]

theorem toRow_entries (a : α) :
    Slots.toRow (fields α) (.known ((entries a).map (·.1.name)) (fields α) (toRow a)) = .ok (toRow a) := by
  refine Slots.toRow_known (fun f hf => ?_) _
  rw [names_entries]
  exact List.mem_map_of_mem hf

/-- A record is read back if all it holds is, one level deeper. -/
theorem reads_encode (hnames : ((fields α).map (·.name)).Nodup) (h : ∀ x ∈ entries a, x.Reads depth) :
    ((codec α).reader (depth + 1)).Reads (encode a) a := by
  refine ⟨opens_encode a, fun rest p _ => ?_⟩
  have hslots := slotsFrom_joined true rest (p.after 123) hnames (nodup_entries hnames) fun x hx => ⟨hx, h x hx⟩
  rw [Slots.known_nil, List.nil_append] at hslots
  rw [codec_read, readRow_encode, hslots]
  simp only [toRow_entries, ofRow_toRow, encode_eq]
  rfl

theorem refuses_encode (hnames : ((fields α).map (·.name)).Nodup)
    (h : ∀ x ∈ entries a, x.Reads depth ∨ x.Refuses depth) (hdeep : ∃ x ∈ entries a, x.Refuses depth) :
    ((codec α).reader (depth + 1)).Refuses (encode a) := by
  refine ⟨opens_encode a, fun rest p _ => ?_⟩
  obtain ⟨e, hslots, he⟩ := slotsFrom_refused true rest (p.after 123) hnames (nodup_entries hnames)
    (fun x hx => ⟨hx, h x hx⟩) hdeep
  rw [Slots.known_nil] at hslots
  refine ⟨e, ?_, he⟩
  rw [codec_read, readRow_encode, hslots]

/-- How deep the fields of a record may be nested. -/
def fieldDepth : Nat := 126

theorem parse_encode (hnames : ((fields α).map (·.name)).Nodup) (h : ∀ x ∈ entries a, x.Reads fieldDepth) :
    parse (encode a) = .ok a :=
  (reads_encode hnames h).readAll

theorem parse_refused (hnames : ((fields α).map (·.name)).Nodup)
    (h : ∀ x ∈ entries a, x.Reads fieldDepth ∨ x.Refuses fieldDepth) (hdeep : ∃ x ∈ entries a, x.Refuses fieldDepth) :
    ∃ e, (parse (encode a) : Except Fault α) = .error e ∧ e.isDeep :=
  (refuses_encode hnames h hdeep).readAll

end Record

end Json

end Fulfilment
