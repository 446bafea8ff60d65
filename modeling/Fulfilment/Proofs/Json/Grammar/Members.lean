import Fulfilment.Proofs.Json.Grammar.Value
import Fulfilment.Proofs.Json.Record

/-!
# The members of a document

A document that is an object is read as the members that stand in it, of which the last of a name counts
(`Value.parse_eq_object_iff`, `Value.lookup_insertAll_eq_some_iff`). What is read is no deeper than it may be
(`Value.depth_le_of_parse`).
-/

namespace Fulfilment

namespace Json

variable {depth : Nat} {text : Bytes} {v : Value} {k : String} {ms ms' : List (String × Value)}

/-! ### The last of a name -/

namespace Value

/-- The last member of the name `k` has the value `v`. -/
def IsLast (k : String) (v : Value) (ms : List (String × Value)) : Prop :=
  ∃ earlier later, ms = earlier ++ (k, v) :: later ∧ ∀ m ∈ later, m.1 ≠ k

theorem lookup_insertAll_of_ne (h : ∀ m ∈ ms', m.1 ≠ k) : lookup k (insertAll ms ms') = lookup k ms := by
  induction ms' generalizing ms with
  | nil => rfl
  | cons m rest ih =>
    obtain ⟨hne, hrest⟩ := List.forall_mem_cons.1 h
    exact (ih hrest).trans (lookup_insert_ne (Ne.symm hne) _ _)

theorem isLast_or_of_lookup (h : lookup k (insertAll ms ms') = some v) :
    IsLast k v ms' ∨ lookup k ms = some v ∧ ∀ m ∈ ms', m.1 ≠ k := by
  induction ms' generalizing ms with
  | nil => exact .inr ⟨h, nofun⟩
  | cons m rest ih =>
    obtain ⟨j, w⟩ := m
    rcases ih h with ⟨earlier, later, rfl, hlater⟩ | ⟨hbefore, hrest⟩
    · exact .inl ⟨(j, w) :: earlier, later, rfl, hlater⟩
    · by_cases hj : j = k
      · subst hj
        rw [lookup_insert_self] at hbefore
        cases hbefore
        exact .inl ⟨[], rest, rfl, hrest⟩
      · rw [lookup_insert_ne (Ne.symm hj)] at hbefore
        exact .inr ⟨hbefore, List.forall_mem_cons.2 ⟨hj, hrest⟩⟩

theorem lookup_insertAll_eq_some_iff : lookup k (insertAll [] ms) = some v ↔ IsLast k v ms := by
  constructor
  · intro h
    rcases isLast_or_of_lookup h with hlast | ⟨hnone, -⟩
    · exact hlast
    · cases hnone
  · rintro ⟨earlier, later, rfl, hlater⟩
    have hsplit : insertAll [] (earlier ++ (k, v) :: later) = insertAll (insert k v (insertAll [] earlier)) later :=
      List.foldl_append
    rw [hsplit, lookup_insertAll_of_ne hlater, lookup_insert_self]

theorem mem_insertAll {m : String × Value} (h : m ∈ insertAll ms ms') : m ∈ ms ∨ m ∈ ms' := by
  induction ms' generalizing ms with
  | nil => exact .inl h
  | cons m' rest ih =>
    rcases ih h with hmem | hmem
    · rcases mem_insert hmem with rfl | hmem
      · exact .inr List.mem_cons_self
      · exact .inl hmem
    · exact .inr (List.mem_cons_of_mem _ hmem)

end Value

/-! ### Depth -/

theorem Spells.depth_le (h : Spells depth text v) : v.depth ≤ depth := by
  induction h with
  | @list depth gap items _ _ _ ih =>
    refine Value.depth_list_le.2 fun v hv => ?_
    obtain ⟨x, hx, rfl⟩ := List.mem_map.1 hv
    exact ih x hx
  | @object depth gap members _ _ _ ih =>
    refine Value.depth_object_le.2 fun m hm => ?_
    rcases Value.mem_insertAll hm with hm | hm
    · cases hm
    · obtain ⟨x, hx, rfl⟩ := List.mem_map.1 hm
      exact ih x hx
  | _ => exact Nat.zero_le _

theorem Value.depth_le_of_parse (h : parse text = .ok v) : v.depth ≤ depthLimit := by
  obtain ⟨before, spelled, after, -, -, hspells, -⟩ := parse_eq_ok_iff.1 h
  exact hspells.depth_le

/-! ### Objects -/

/-- The text holds an object and nothing else, in which the members stand in this order. -/
def ObjectDocument (text : Bytes) (members : List (String × Value)) : Prop :=
  ∃ (before gap after : Bytes) (xs : List Member), Blank before ∧ Blank gap ∧ Blank after ∧
    (∀ x ∈ xs, x.Formed ∧ Spells Record.fieldDepth x.item.text x.item.value) ∧
    text = before ++ (objectText gap xs ++ after) ∧ members = xs.map Member.entry

theorem spells_object_iff : Spells (depth + 1) text (.object ms) ↔
    ∃ (gap : Bytes) (xs : List Member), Blank gap ∧ (∀ x ∈ xs, x.Formed ∧ Spells depth x.item.text x.item.value) ∧
      text = objectText gap xs ∧ ms = Value.insertAll [] (xs.map Member.entry) := by
  constructor
  · intro h
    generalize hdepth : depth + 1 = depth' at h
    generalize hv : Value.object ms = v at h
    cases h with
    | object blank formed each =>
      cases hdepth
      cases hv
      exact ⟨_, _, blank, fun x hx => ⟨formed x hx, each x hx⟩, rfl, rfl⟩
    | _ => cases hv
  · rintro ⟨gap, xs, blank, hxs, rfl, rfl⟩
    exact .object blank (fun x hx => (hxs x hx).1) fun x hx => (hxs x hx).2

theorem Value.parse_eq_object_iff :
    parse text = .ok (.object ms) ↔ ∃ members, ObjectDocument text members ∧ ms = insertAll [] members := by
  rw [parse_eq_ok_iff]
  constructor
  · rintro ⟨before, spelled, after, hbefore, hafter, hspells, rfl⟩
    have hspells : Spells (Record.fieldDepth + 1) spelled (.object ms) := hspells
    obtain ⟨gap, xs, hgap, hxs, rfl, rfl⟩ := spells_object_iff.1 hspells
    exact ⟨_, ⟨before, gap, after, xs, hbefore, hgap, hafter, hxs, rfl, rfl⟩, rfl⟩
  · rintro ⟨_, ⟨before, gap, after, xs, hbefore, hgap, hafter, hxs, rfl, rfl⟩, rfl⟩
    exact ⟨before, _, after, hbefore, hafter, spells_object_iff.2 ⟨gap, xs, hgap, hxs, rfl, rfl⟩, rfl⟩

theorem Value.ordered_of_parse (h : parse text = .ok v) : v.Ordered := by
  cases v with
  | object ms =>
    obtain ⟨members, -, rfl⟩ := parse_eq_object_iff.1 h
    exact Ascending.insertAll .nil
  | _ => trivial

end Json

end Fulfilment
