import Fulfilment.Bulk.Columns
import Fulfilment.Proofs.Csv.RoundTrip
import Fulfilment.Proofs.Text.Utf8

/-!
# Headers

A header will do just when every required name is that of some field (`ofHeader_error_iff`). A byte order mark at the
start of a header that will do makes no difference to where its columns are (`ofHeader_unmarked`): with the mark the
first field has none of the required names, and of two columns of one name the last counts.
-/

namespace Fulfilment

namespace Columns

variable {header : Row} {name : String} {start i : Nat} {c : Columns} {f g : Bytes}

/-! ### Required names -/

theorem indexFrom_eq_none_iff : indexFrom name start header = none ↔ ∀ field ∈ header, nameOf field ≠ name := by
  induction header generalizing start with
  | nil => simp [indexFrom]
  | cons f header ih =>
    have hrest : indexFrom name (start + 1) header = none ↔ ∀ field ∈ header, nameOf field ≠ name := ih
    unfold indexFrom
    rw [List.forall_mem_cons, ← hrest]
    cases hi : indexFrom name (start + 1) header with
    | some i => simp
    | none =>
      by_cases hf : nameOf f = name
      · simp [hf]
      · simp [hf]

theorem index?_eq_none_iff :
    index? header name = none ↔ ∀ field ∈ header, nameOf field ≠ name := indexFrom_eq_none_iff

theorem getElem?_of_indexFrom (h : indexFrom name start header = some i) :
    start ≤ i ∧ (header.map nameOf)[i - start]? = some name := by
  induction header generalizing start with
  | nil => cases h
  | cons f header ih =>
    unfold indexFrom at h
    cases hi : indexFrom name (start + 1) header with
    | some j =>
      rw [hi] at h
      cases h
      obtain ⟨hle, hget⟩ := ih hi
      have hsub : i - start = i - (start + 1) + 1 := by omega
      refine ⟨by omega, ?_⟩
      rw [hsub, List.map_cons, List.getElem?_cons_succ]
      exact hget
    | none =>
      rw [hi] at h
      by_cases hf : nameOf f = name
      · rw [if_pos hf] at h
        cases h
        refine ⟨Nat.le_refl i, ?_⟩
        rw [Nat.sub_self, List.map_cons, List.getElem?_cons_zero, hf]
      · rw [if_neg hf] at h
        cases h

/-- The field that is found for a name has it. -/
theorem getElem?_of_index? (h : index? header name = some i) : (header.map nameOf)[i]? = some name :=
  (getElem?_of_indexFrom h).2

theorem ofHeader_eq_ok_iff : ofHeader header = .ok c ↔
    index? header "tenant_id" = some c.tenantId ∧ index? header "seller_id" = some c.sellerId ∧
      index? header "hub_id" = some c.hubId ∧ index? header "sku_id" = some c.skuId ∧
      index? header "quantity" = some c.quantity := by
  unfold ofHeader
  constructor
  · intro h
    split at h
    · rename_i h₁ h₂ h₃ h₄ h₅
      cases h
      exact ⟨h₁, h₂, h₃, h₄, h₅⟩
    · cases h
  · rintro ⟨h₁, h₂, h₃, h₄, h₅⟩
    rw [h₁, h₂, h₃, h₄, h₅]

theorem index?_isSome_of_ofHeader (h : ofHeader header = .ok c) (hn : name ∈ required) :
    ∃ i, index? header name = some i := by
  obtain ⟨h₁, h₂, h₃, h₄, h₅⟩ := ofHeader_eq_ok_iff.1 h
  simp only [required, List.mem_cons, List.not_mem_nil, or_false] at hn
  rcases hn with rfl | rfl | rfl | rfl | rfl
  · exact ⟨_, h₁⟩
  · exact ⟨_, h₂⟩
  · exact ⟨_, h₃⟩
  · exact ⟨_, h₄⟩
  · exact ⟨_, h₅⟩

/-- A header is refused just when no field has some required name. -/
theorem ofHeader_error_iff :
    (∃ failure, ofHeader header = .error failure) ↔ ∃ name ∈ required, ∀ field ∈ header, nameOf field ≠ name := by
  constructor
  · rintro ⟨failure, h⟩
    apply Classical.byContradiction
    intro hn
    have found : ∀ name ∈ required, ∃ i, index? header name = some i := by
      intro name hname
      cases hi : index? header name with
      | some i => exact ⟨i, rfl⟩
      | none => exact absurd ⟨name, hname, index?_eq_none_iff.1 hi⟩ hn
    obtain ⟨i₁, h₁⟩ := found "tenant_id" (by decide)
    obtain ⟨i₂, h₂⟩ := found "seller_id" (by decide)
    obtain ⟨i₃, h₃⟩ := found "hub_id" (by decide)
    obtain ⟨i₄, h₄⟩ := found "sku_id" (by decide)
    obtain ⟨i₅, h₅⟩ := found "quantity" (by decide)
    have hok : ofHeader header = .ok ⟨i₁, i₂, i₃, i₄, i₅⟩ := ofHeader_eq_ok_iff.2 ⟨h₁, h₂, h₃, h₄, h₅⟩
    rw [hok] at h
    cases h
  · rintro ⟨name, hname, hlack⟩
    cases h : ofHeader header with
    | error failure => exact ⟨failure, rfl⟩
    | ok c =>
      obtain ⟨i, hi⟩ := index?_isSome_of_ofHeader h hname
      rw [index?_eq_none_iff.2 hlack] at hi
      cases hi

/-- A header that will do has two fields at least, for a field has one name. -/
theorem two_fields_of_ofHeader (h : ofHeader header = .ok c) : ∃ f g rest, header = f :: g :: rest := by
  obtain ⟨i, htenant⟩ := index?_isSome_of_ofHeader h (show "tenant_id" ∈ required by decide)
  obtain ⟨j, hseller⟩ := index?_isSome_of_ofHeader h (show "seller_id" ∈ required by decide)
  match header with
  | [] => cases htenant
  | f :: g :: rest => exact ⟨f, g, rest, rfl⟩
  | [f] =>
    have hone : ∀ {name i}, index? [f] name = some i → nameOf f = name := by
      intro name i hi
      by_cases hf : nameOf f = name
      · exact hf
      · rw [index?_eq_none_iff.2 (by simpa using hf)] at hi
        cases hi
    have htwo := (hone htenant).symm.trans (hone hseller)
    exact absurd htwo (by decide)

/-! ### The byte order mark -/

/-- A name keeps the mark before it, which is no white space. -/
theorem nameOf_marked (g : Bytes) : ∃ cs, (nameOf (Csv.byteOrderMark ++ g)).toList = Char.ofNat 0xFEFF :: cs := by
  have hdecoded : Utf8.decodeLossy (Csv.byteOrderMark ++ g) = Char.ofNat 0xFEFF :: Utf8.decodeLossy g :=
    Utf8.decodeLossy_encode_append [Char.ofNat 0xFEFF] g
  have hmark : isBlank (Char.ofNat 0xFEFF) = false := by decide
  refine ⟨Blank.trimEnd (Utf8.decodeLossy g), ?_⟩
  unfold nameOf
  rw [hdecoded, Blank.trim, Blank.trimStart_cons hmark, Blank.trimEnd_cons hmark, String.toList_ofList]

theorem nameOf_marked_ne (hn : name ∈ required) : nameOf (Csv.byteOrderMark ++ g) ≠ name := by
  intro h
  obtain ⟨cs, hcs⟩ := nameOf_marked g
  have hhead : ∀ name ∈ required, name.toList.head? ≠ some (Char.ofNat 0xFEFF) := by decide
  apply hhead name hn
  rw [← h, hcs]
  rfl

theorem index?_unmarked (hu : Csv.Unmarked f g) (hn : name ∈ required) (h : index? (f :: header) name = some i) :
    index? (g :: header) name = some i := by
  rcases hu with rfl | rfl
  · exact h
  · unfold index? indexFrom at h ⊢
    cases hi : indexFrom name (0 + 1) header with
    | some j =>
      rw [hi] at h
      exact h
    | none =>
      rw [hi] at h
      dsimp only at h
      rw [if_neg (nameOf_marked_ne hn)] at h
      cases h

/-- A header that will do still has its columns where they were when it has lost a byte order mark. -/
theorem ofHeader_unmarked (hu : Csv.Unmarked f g) (h : ofHeader (f :: header) = .ok c) :
    ofHeader (g :: header) = .ok c := by
  obtain ⟨h₁, h₂, h₃, h₄, h₅⟩ := ofHeader_eq_ok_iff.1 h
  rw [ofHeader_eq_ok_iff]
  refine ⟨index?_unmarked hu ?_ h₁, index?_unmarked hu ?_ h₂, index?_unmarked hu ?_ h₃, index?_unmarked hu ?_ h₄,
    index?_unmarked hu ?_ h₅⟩
  all_goals decide

end Columns

end Fulfilment
