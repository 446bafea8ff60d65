import Mathlib.Data.List.Forall2
import Mathlib.Data.List.InsertIdx
import Mathlib.Logic.Relation
import Fulfilment.Proofs.Bulk.Header
import Fulfilment.Proofs.Text.Blank

/-!
# The layout of a table

Tables are laid out in many ways: the columns may stand in any order, among others that are not asked for, and there
may be white space around their names. What counts in a row is which fields stand in the columns of a name
(`fieldsOf`). No change of the layout touches these (`Relays.keeps`), and where each required name is that of one
column they are all that is read (`Kept.parse_eq`). So what the rows of a table make is the same in every layout of it
(`outcome_of_relaid`).
-/

namespace Fulfilment

/-- A header and the rows below it. -/
structure Table where
  header : Row
  rows : List Row
  deriving DecidableEq

namespace Table

open Columns (nameOf required)

/-- The table of a file. -/
def ofFile (body : Bytes) : Table := ⟨(Csv.table body).1, (Csv.table body).2⟩

def names (t : Table) : List String := t.header.map nameOf

/-- Each required name is that of one column, and each row has a field for each column. -/
structure Regular (t : Table) : Prop where
  named : ∀ name ∈ required, t.names.count name = 1
  full : ∀ row ∈ t.rows, row.length = t.header.length

/-- What the rows make, if the header will do. -/
def outcome (t : Table) : Except Failure (List (Except ValidationError OrderRequest)) :=
  (Columns.ofHeader t.header).map fun c => t.rows.map c.parse

/-! ### Changes of the layout -/

/-- The fields at some places, in the order of these. -/
def pick (places : List Nat) (row : Row) : Row := places.map fun i => (row[i]?).getD []

/-- The same name with white space around it. -/
def Padded (name name' : Bytes) : Prop :=
  ∃ before after, (∀ x ∈ before, isBlank x = true) ∧ (∀ x ∈ after, isBlank x = true) ∧
    name' = Utf8.encode before ++ name ++ Utf8.encode after

/-- One table has the layout of the other but for one change: all columns are put into some order, a column is added
that is not asked for, or names are padded. -/
inductive Relays : Table → Table → Prop
  | reordered {t : Table} (places : List Nat) (all : places.Perm (List.range t.header.length)) :
    Relays t ⟨pick places t.header, t.rows.map (pick places)⟩
  | widened {t : Table} {rows : List Row} (place : Nat) (name : Bytes) (within : place ≤ t.header.length)
      (other : nameOf name ∉ required)
      (added : List.Forall₂ (fun row row' => ∃ field, row' = row.insertIdx place field) t.rows rows) :
    Relays t ⟨t.header.insertIdx place name, rows⟩
  | padded {t : Table} {header : Row} (around : List.Forall₂ Padded t.header header) : Relays t ⟨header, t.rows⟩

/-- The layout of one table comes from that of the other by any number of changes. -/
def Relaid : Table → Table → Prop := Relation.ReflTransGen Relays

/-! ### What counts in a row -/

/-- The fields of a row that stand in the columns of a name. -/
def fieldsOf (names : List String) (row : Row) (name : String) : List Bytes :=
  ((names.zip row).filter (·.1 == name)).map (·.2)

variable {t t' : Table} {names : List String} {row : Row} {name : String} {i place : Nat} {places : List Nat}

theorem nameOf_padded {f g : Bytes} (h : Padded f g) : nameOf g = nameOf f := by
  obtain ⟨before, after, hbefore, hafter, rfl⟩ := h
  unfold nameOf
  rw [Utf8.decodeLossy_append_encode, Utf8.decodeLossy_encode_append, Blank.trim_padded hbefore hafter]

theorem map_getElem?_range {α β : Type} (f : α → β) (a : α) (l : List α) :
    (List.range l.length).map (fun i => f ((l[i]?).getD a)) = l.map f := by
  apply List.ext_getElem
  · simp
  · intro i h₁ h₂
    have hi : i < l.length := by simpa using h₁
    simp [hi]

theorem zip_insertIdx {α β : Type} (a : α) (b : β) (place : Nat) (l : List α) (m : List β) (h : l.length = m.length) :
    (l.insertIdx place a).zip (m.insertIdx place b) = (l.zip m).insertIdx place (a, b) := by
  induction place generalizing l m with
  | zero => rfl
  | succ n ih =>
    cases l with
    | nil =>
      cases m with
      | nil => rfl
      | cons y m => cases h
    | cons x l =>
      cases m with
      | nil => cases h
      | cons y m =>
        rw [List.insertIdx_succ_cons, List.insertIdx_succ_cons, List.zip_cons_cons, ih l m (Nat.succ.inj h)]
        rfl

/-- Fields that are moved along with their columns are still in columns of the same names. -/
theorem fieldsOf_pick {header : Row} (all : places.Perm (List.range header.length))
    (full : row.length = header.length) :
    (fieldsOf ((pick places header).map nameOf) (pick places row) name).Perm
      (fieldsOf (header.map nameOf) row name) := by
  have hpicked : ((pick places header).map nameOf).zip (pick places row) =
      places.map fun i => ((nameOf ((header[i]?).getD []), (row[i]?).getD [])) := by
    simp only [pick, List.map_map, Function.comp_def, List.zip_map']
  have hall : ((List.range header.length).map fun i => ((nameOf ((header[i]?).getD []), (row[i]?).getD []))) =
      (header.map nameOf).zip row := by
    have hrow : ((List.range row.length).map fun i => (row[i]?).getD []) = row :=
      (map_getElem?_range id [] row).trans (List.map_id row)
    rw [← List.zip_map', map_getElem?_range, ← full, hrow]
  unfold fieldsOf
  rw [hpicked, ← hall]
  exact ((all.map _).filter _).map _

theorem fieldsOf_insertIdx {field : Bytes} {name' : String} (within : place ≤ names.length)
    (full : row.length = names.length) (other : name' ≠ name) :
    (fieldsOf (names.insertIdx place name') (row.insertIdx place field) name).Perm (fieldsOf names row name) := by
  have within' : place ≤ (names.zip row).length := by
    rw [List.length_zip, full, Nat.min_self]
    exact within
  unfold fieldsOf
  rw [zip_insertIdx _ _ _ _ _ full.symm]
  have hperm := ((List.perm_insertIdx (name', field) (names.zip row) within').filter (·.1 == name)).map (·.2)
  rwa [List.filter_cons_of_neg (by simpa using other)] at hperm

/-! ### Where each required name is that of one column -/

/-- The field in the one column of a name. -/
theorem fieldsOf_eq_singleton (one : names.count name = 1) (full : row.length = names.length)
    (h : names[i]? = some name) : fieldsOf names row name = [(row[i]?).getD []] := by
  obtain ⟨hi, hname⟩ := List.getElem?_eq_some_iff.1 h
  have hi' : i < row.length := by omega
  have hlength : (fieldsOf names row name).length = 1 := by
    unfold fieldsOf
    rw [List.length_map, ← List.countP_eq_length_filter, ← one, List.count]
    conv_rhs => rw [← List.map_fst_zip (Nat.le_of_eq full.symm)]
    rw [List.countP_map]
    rfl
  have hmem : row[i] ∈ fieldsOf names row name := by
    unfold fieldsOf
    refine List.mem_map.2 ⟨(name, row[i]), List.mem_filter.2 ⟨?_, beq_self_eq_true name⟩, rfl⟩
    refine List.mem_of_getElem? (i := i) ?_
    rw [List.getElem?_zip_eq_some]
    exact ⟨h, List.getElem?_eq_getElem hi'⟩
  obtain ⟨f, hf⟩ := List.length_eq_one_iff.1 hlength
  rw [hf, List.mem_singleton] at hmem
  rw [hf, List.getElem?_eq_getElem hi', Option.getD_some, hmem]

/-- The columns of a table whose header will do. -/
theorem Regular.columns (h : t.Regular) : ∃ c, Columns.ofHeader t.header = .ok c := by
  cases hc : Columns.ofHeader t.header with
  | ok c => exact ⟨c, rfl⟩
  | error f =>
    obtain ⟨name, hname, hlack⟩ := Columns.ofHeader_error_iff.1 ⟨f, hc⟩
    have none : t.names.count name = 0 := by
      rw [List.count_eq_zero]
      intro hmem
      obtain ⟨field, hfield, hn⟩ := List.mem_map.1 hmem
      exact hlack field hfield hn
    rw [h.named name hname] at none
    cases none

/-- What a regular table has in the columns of a required name is what is read from there. -/
theorem Regular.fieldsOf_eq (h : t.Regular) (hname : name ∈ required) (hi : Columns.index? t.header name = some i)
    (hrow : row.length = t.header.length) : fieldsOf t.names row name = [(row[i]?).getD []] := by
  refine fieldsOf_eq_singleton (h.named name hname) ?_ (Columns.getElem?_of_index? hi)
  rw [hrow]
  exact (List.length_map nameOf).symm

/-! ### What a change of the layout keeps -/

/-- A row and what it has become in another table: it is as long as the header there, and has the same fields in the
columns that count. -/
structure Kept (t t' : Table) (row row' : Row) : Prop where
  full : row.length = t.header.length
  full' : row'.length = t'.header.length
  same : ∀ name ∈ required, (fieldsOf t'.names row' name).Perm (fieldsOf t.names row name)

/-- Such rows make the same. -/
theorem Kept.parse_eq {c c' : Columns} {row' : Row} (kept : Kept t t' row row') (h : t.Regular) (h' : t'.Regular)
    (hc : Columns.ofHeader t.header = .ok c) (hc' : Columns.ofHeader t'.header = .ok c') :
    c'.parse row' = c.parse row := by
  have field {name : String} {i i' : Nat} (hname : name ∈ required) (hi : Columns.index? t.header name = some i)
      (hi' : Columns.index? t'.header name = some i') : (row'[i']?).getD [] = (row[i]?).getD [] := by
    have hperm := kept.same name hname
    rw [h.fieldsOf_eq hname hi kept.full, h'.fieldsOf_eq hname hi' kept.full', List.singleton_perm_singleton] at hperm
    exact hperm
  obtain ⟨h₁, h₂, h₃, h₄, h₅⟩ := Columns.ofHeader_eq_ok_iff.1 hc
  obtain ⟨h₁', h₂', h₃', h₄', h₅'⟩ := Columns.ofHeader_eq_ok_iff.1 hc'
  unfold Columns.parse Columns.field
  rw [field (by decide) h₁ h₁', field (by decide) h₂ h₂', field (by decide) h₃ h₃', field (by decide) h₄ h₄',
    field (by decide) h₅ h₅']

/-- All rows of a table are kept in another, below as many columns of each required name. -/
structure Keeps (t t' : Table) : Prop where
  count : ∀ name ∈ required, t'.names.count name = t.names.count name
  rows : List.Forall₂ (Kept t t') t.rows t'.rows

theorem keeps_of_reordered (full : ∀ row ∈ t.rows, row.length = t.header.length)
    (all : places.Perm (List.range t.header.length)) : t.Keeps ⟨pick places t.header, t.rows.map (pick places)⟩ where
  count name _ := by
    have hnames : names ⟨pick places t.header, t.rows.map (pick places)⟩ =
        places.map fun i => nameOf ((t.header[i]?).getD []) := List.map_map
    have hperm := all.map fun i => nameOf ((t.header[i]?).getD [])
    rw [map_getElem?_range] at hperm
    rw [hnames]
    exact hperm.count_eq name
  rows := by
    rw [List.forall₂_map_right_iff, List.forall₂_same]
    intro row hrow
    have hlength : (pick places row).length = (pick places t.header).length := by simp [pick]
    exact ⟨full row hrow, hlength, fun name _ => fieldsOf_pick all (full row hrow)⟩

theorem keeps_of_widened {name : Bytes} {rows : List Row} (full : ∀ row ∈ t.rows, row.length = t.header.length)
    (within : place ≤ t.header.length) (other : nameOf name ∉ required)
    (added : List.Forall₂ (fun row row' => ∃ field, row' = row.insertIdx place field) t.rows rows) :
    t.Keeps ⟨t.header.insertIdx place name, rows⟩ := by
  have hnames : names ⟨t.header.insertIdx place name, rows⟩ = t.names.insertIdx place (nameOf name) :=
    List.map_insertIdx nameOf t.header place name
  have within' : place ≤ t.names.length := by
    rw [names, List.length_map]
    exact within
  have differs {name' : String} (hname : name' ∈ required) : nameOf name ≠ name' := by
    rintro rfl
    exact other hname
  constructor
  · intro name' hname
    rw [hnames, (List.perm_insertIdx (nameOf name) t.names within').count_eq, List.count_cons_of_ne (differs hname)]
  · refine ((List.forall₂_and_left _ _).2 ⟨full, added⟩).imp ?_
    rintro row _ ⟨hrow, field, rfl⟩
    have hrow' : row.length = t.names.length := by rw [names, List.length_map, hrow]
    refine ⟨hrow, ?_, fun name' hname => ?_⟩
    · rw [List.length_insertIdx_of_le_length (hrow ▸ within), List.length_insertIdx_of_le_length within, hrow]
    · rw [hnames]
      exact fieldsOf_insertIdx within' hrow' (differs hname)

theorem keeps_of_padded {header : Row} (full : ∀ row ∈ t.rows, row.length = t.header.length)
    (around : List.Forall₂ Padded t.header header) : t.Keeps ⟨header, t.rows⟩ := by
  have hnames : names ⟨header, t.rows⟩ = t.names := by
    have heq : List.Forall₂ (fun f g => nameOf f = nameOf g) t.header header :=
      around.imp fun f g h => (nameOf_padded h).symm
    rw [← List.forall₂_map_right_iff, ← List.forall₂_map_left_iff, List.forall₂_eq_eq_eq] at heq
    exact heq.symm
  constructor
  · intro name _
    rw [hnames]
  · rw [List.forall₂_same]
    intro row hrow
    refine ⟨full row hrow, (full row hrow).trans around.length_eq, fun name _ => ?_⟩
    rw [hnames]

theorem Relays.keeps (h : Relays t t') (full : ∀ row ∈ t.rows, row.length = t.header.length) : t.Keeps t' := by
  cases h with
  | reordered places all => exact keeps_of_reordered full all
  | widened place name within other added => exact keeps_of_widened full within other added
  | padded around => exact keeps_of_padded full around

/-! ### The outcome -/

theorem Keeps.regular (h : t.Keeps t') (regular : t.Regular) : t'.Regular := by
  refine ⟨fun name hname => (h.count name hname).trans (regular.named name hname), ?_⟩
  have flipped : List.Forall₂ (fun row' row => row'.length = t'.header.length ∧ Kept t t' row row') t'.rows t.rows :=
    List.Forall₂.flip (h.rows.imp fun _ _ kept => ⟨kept.full', kept⟩)
  exact ((List.forall₂_and_left _ _).1 flipped).1

theorem Keeps.outcome_eq (h : t.Keeps t') (regular : t.Regular) : t'.outcome = t.outcome := by
  obtain ⟨c, hc⟩ := regular.columns
  obtain ⟨c', hc'⟩ := (h.regular regular).columns
  have parsed : ∀ {rows rows'}, List.Forall₂ (Kept t t') rows rows' → rows'.map c'.parse = rows.map c.parse := by
    intro rows rows' kept
    induction kept with
    | nil => rfl
    | cons kept _ ih => rw [List.map_cons, List.map_cons, ih, kept.parse_eq regular (h.regular regular) hc hc']
  unfold outcome
  rw [hc, hc']
  exact congrArg _ (parsed h.rows)

/-- No number of changes of the layout makes a difference to what the rows make. -/
theorem outcome_of_relaid (h : Relaid t t') (regular : t.Regular) : t'.Regular ∧ t'.outcome = t.outcome := by
  induction h with
  | refl => exact ⟨regular, rfl⟩
  | tail _ change ih =>
    obtain ⟨regular', same⟩ := ih
    have keeps := change.keeps regular'.full
    exact ⟨keeps.regular regular', (keeps.outcome_eq regular').trans same⟩

end Table

end Fulfilment
