import Fulfilment.Proofs.Order.Acceptance
import Fulfilment.Proofs.Text.Numeral
import Fulfilment.Proofs.Text.Utf8

/-!
# The verdict on a row

Which rows of a file are accepted, and what the others are refused for, said of the bytes of the row:
`Columns.Accepts` and `Columns.complaints`. A row may have several faults, and the one that is told is the first in
the order of the complaints: a field that is no text, the quantity that is no number, an empty identifier, the
quantity that is not positive (`Columns.parse_verdict`).
-/

namespace Fulfilment

open Numeral (Writes)
open Program (Checks First)

/-- What is left of a text without white space at its ends is blank only if nothing is left. -/
theorem blank_trim_iff {cs : List Char} :
    blank (String.ofList (Blank.trim cs)) = true ↔ String.ofList (Blank.trim cs) = "" := by
  constructor
  · intro h
    cases hc : Blank.trim cs with
    | nil => rfl
    | cons c rest =>
      have hhead : isBlank c = false := Blank.isBlank_head_trim cs c (by rw [hc]; rfl)
      rw [blank, String.toList_ofList, hc, List.all_cons, hhead] at h
      cases h
  · intro h
    rw [h]
    rfl

/-- What a valid request is checked for, in this order. -/
def OrderRequest.complaints (r : OrderRequest) : List (ValidationError → Prop) :=
  (r.identifiers.map fun i e => e = .missingField i.1 ∧ blank i.2 = true) ++
    [fun e => e = .nonPositiveQuantity r.quantity ∧ r.quantity.toInt ≤ 0]

theorem OrderRequest.validate_checks (r : OrderRequest) :
    Checks r.complaints (fun _ => (∀ i ∈ r.identifiers, blank i.2 = false) ∧ 0 < r.quantity.toInt) r.validate := by
  suffices checks : Checks r.complaints (fun _ => True) r.validate from checks.of_ok fun _ h => of_validate h
  unfold validate complaints
  generalize r.identifiers = is
  induction is with
  | nil =>
    rw [List.find?_nil]
    dsimp only
    split
    · rename_i hq
      exact .inr ⟨_, rfl, .here ⟨rfl, Int32.le_iff_toInt_le.1 hq⟩⟩
    · rename_i hq
      refine .inl ⟨_, rfl, trivial, ?_⟩
      intro p hp e he
      rw [List.map_nil, List.nil_append, List.mem_singleton] at hp
      rw [hp] at he
      exact hq (Int32.le_iff_toInt_le.2 he.2)
  | cons i is ih =>
    rw [List.map_cons, List.cons_append]
    by_cases hb : blank i.2 = true
    · rw [List.find?_cons_of_pos (p := fun i : String × String => blank i.2) hb]
      exact .inr ⟨_, rfl, .here ⟨rfl, hb⟩⟩
    · have silent : ∀ e : ValidationError, ¬ (e = .missingField i.1 ∧ blank i.2 = true) := fun _ h => hb h.2
      rw [List.find?_cons_of_neg (p := fun i : String × String => blank i.2) hb]
      rcases ih with ⟨u, hu, -, quiet⟩ | ⟨e, he, first⟩
      · exact .inl ⟨u, hu, trivial, List.forall_mem_cons.2 ⟨silent, quiet⟩⟩
      · exact .inr ⟨e, he, .later silent first⟩

namespace Columns

/-- A field is well-formed text, and without white space at its ends it is `s`. One beyond the end of the row is
empty. -/
def Reads (row : Row) (i : Nat) (s : String) : Prop :=
  ∃ cs, (row[i]?).getD [] = Utf8.encode cs ∧ s = String.ofList (Blank.trim cs)

/-- The row reads as the request: the identifiers are not empty, and the quantity is written as a number from one to
the largest of 32 bits. -/
structure Accepts (c : Columns) (row : Row) (r : OrderRequest) : Prop where
  tenantId : Reads row c.tenantId r.tenantId
  sellerId : Reads row c.sellerId r.sellerId
  hubId : Reads row c.hubId r.hubId
  skuId : Reads row c.skuId r.skuId
  nonempty : ∀ i ∈ r.identifiers, i.2 ≠ ""
  quantity : ∃ text n, Reads row c.quantity text ∧ Writes text.toList n ∧ 1 ≤ n ∧ n ≤ max32 ∧ r.quantity.toInt = n

/-- The field is no well-formed text. -/
def Broken (row : Row) (name : String) (i : Nat) (e : ValidationError) : Prop :=
  e = .encoding name ∧ ∀ s, ¬ Reads row i s

/-- The quantity is not written as a number of 32 bits. -/
def Unwritten (row : Row) (i : Nat) (e : ValidationError) : Prop :=
  ∃ text, e = .nonNumericQuantity text ∧ Reads row i text ∧
    ∀ n, Writes text.toList n → ¬ (min32 ≤ n ∧ n ≤ max32)

/-- Nothing is left of the identifier. -/
def Missing (row : Row) (name : String) (i : Nat) (e : ValidationError) : Prop :=
  e = .missingField name ∧ Reads row i ""

/-- The quantity is written as a number of 32 bits, but not as a positive one. -/
def NonPositive (row : Row) (i : Nat) (e : ValidationError) : Prop :=
  ∃ (text : String) (n : Int32), e = .nonPositiveQuantity n ∧ Reads row i text ∧ Writes text.toList n.toInt ∧
    n.toInt ≤ 0

/-- What can be wrong with a row, in the order in which it is told. -/
def complaints (c : Columns) (row : Row) : List (ValidationError → Prop) :=
  [Broken row "quantity" c.quantity, Broken row "tenant_id" c.tenantId, Broken row "seller_id" c.sellerId,
    Broken row "hub_id" c.hubId, Broken row "sku_id" c.skuId, Unwritten row c.quantity,
    Missing row "tenant_id" c.tenantId, Missing row "seller_id" c.sellerId, Missing row "hub_id" c.hubId,
    Missing row "sku_id" c.skuId, NonPositive row c.quantity]

variable {c : Columns} {row : Row} {r r' : OrderRequest} {e e' : ValidationError} {i : Nat} {name s s' : String}

/-! ### Fields -/

theorem Reads.unique (h : Reads row i s) (h' : Reads row i s') : s = s' := by
  obtain ⟨cs, hcs, rfl⟩ := h
  obtain ⟨cs', hcs', rfl⟩ := h'
  rw [Utf8.encode_inj (hcs.symm.trans hcs')]

theorem Reads.blank_iff (h : Reads row i s) : blank s = true ↔ Reads row i "" := by
  constructor
  · intro hb
    obtain ⟨cs, hcs, rfl⟩ := h
    exact ⟨cs, hcs, (blank_trim_iff.1 hb).symm⟩
  · intro h'
    rw [h.unique h']
    rfl

/-- Of a field that reads, to be missing is to be blank. -/
theorem Reads.missing (h : Reads row i s) (name : String) :
    Missing row name i = fun e => e = .missingField name ∧ blank s = true := by
  funext e
  unfold Missing
  rw [h.blank_iff]

/-- Of a quantity that reads as a number, what can still be wrong is its sign. -/
theorem Reads.nonPositive {n : Int32} (h : Reads row i s) (writes : Writes s.toList n.toInt) :
    NonPositive row i = fun e => e = .nonPositiveQuantity n ∧ n.toInt ≤ 0 := by
  funext e
  apply propext
  constructor
  · rintro ⟨text, n', rfl, reads, writes', nonpositive⟩
    rw [reads.unique h] at writes'
    have hn : n' = n := Int32.toInt_inj.1 (writes'.unique writes)
    exact ⟨by rw [hn], hn ▸ nonpositive⟩
  · rintro ⟨rfl, nonpositive⟩
    exact ⟨s, n, rfl, h, writes, nonpositive⟩

theorem field_checks (row : Row) (i : Nat) (name : String) :
    Checks [Broken row name i] (Reads row i) (field row i name) := by
  unfold field
  cases hd : Utf8.decode? ((row[i]?).getD []) with
  | some cs =>
    have reads : Reads row i (String.ofList (Blank.trim cs)) := ⟨cs, Utf8.decode_eq_some_iff.1 hd, rfl⟩
    refine .inl ⟨_, rfl, reads, ?_⟩
    intro p hp e he
    rw [List.mem_singleton.1 hp] at he
    exact he.2 _ reads
  | none =>
    refine .inr ⟨_, rfl, .here ⟨rfl, ?_⟩⟩
    rintro s ⟨cs, hcs, -⟩
    rw [Utf8.decode_eq_some_iff.2 hcs] at hd
    cases hd

theorem quantityOf_checks (h : Reads row i s) :
    Checks [Unwritten row i] (fun n => Writes s.toList n.toInt) (quantityOf s) := by
  have hread : ∀ n, readInt min32 max32 s.toList = .ok n ↔ Writes s.toList n ∧ min32 ≤ n ∧ n ≤ max32 :=
    fun n => readInt_eq_ok_iff (by decide) (by decide)
  unfold quantityOf
  cases hn : readInt min32 max32 s.toList with
  | ok n =>
    obtain ⟨writes, hlo, hhi⟩ := (hread n).1 hn
    have hint : (Int32.ofInt n).toInt = n := by
      unfold min32 at hlo
      unfold max32 at hhi
      exact Int32.toInt_ofInt_of_le (by omega) (by omega)
    refine .inl ⟨Int32.ofInt n, rfl, by rwa [← hint] at writes, ?_⟩
    intro p hp e he
    rw [List.mem_singleton.1 hp] at he
    obtain ⟨text, -, reads, unwritten⟩ := he
    rw [reads.unique h] at unwritten
    exact unwritten n writes ⟨hlo, hhi⟩
  | error fault =>
    refine .inr ⟨_, rfl, .here ⟨s, rfl, h, ?_⟩⟩
    intro n writes bounds
    rw [(hread n).2 ⟨writes, bounds⟩] at hn
    cases hn

/-- A row is checked for one complaint after the other. -/
theorem parse_checks (c : Columns) (row : Row) : Checks (c.complaints row) (c.Accepts row) (c.parse row) := by
  refine (field_checks row c.quantity "quantity").bind fun text hq => ?_
  refine (field_checks row c.tenantId "tenant_id").bind fun tenantId ht => ?_
  refine (field_checks row c.sellerId "seller_id").bind fun sellerId hs => ?_
  refine (field_checks row c.hubId "hub_id").bind fun hubId hh => ?_
  refine (field_checks row c.skuId "sku_id").bind fun skuId hk => ?_
  refine (quantityOf_checks hq).bind fun quantity hn => ?_
  have hcomplaints : OrderRequest.complaints ⟨tenantId, sellerId, hubId, skuId, quantity⟩ =
      [Missing row "tenant_id" c.tenantId, Missing row "seller_id" c.sellerId, Missing row "hub_id" c.hubId,
        Missing row "sku_id" c.skuId, NonPositive row c.quantity] := by
    rw [ht.missing, hs.missing, hh.missing, hk.missing, hq.nonPositive hn]
    rfl
  rw [← List.append_nil [_, _, _, _, _], ← hcomplaints]
  refine (OrderRequest.validate_checks _).bind fun _ ⟨nonblank, positive⟩ => .pure ?_
  refine ⟨ht, hs, hh, hk, ?_, text, quantity.toInt, hq, hn, positive, quantity.toInt_le, rfl⟩
  rintro i hi hempty
  have := nonblank i hi
  rw [hempty] at this
  cases this

/-! ### The verdict -/

/-- A complaint about a row tells one error only. -/
theorem complaints_unique : ∀ p ∈ c.complaints row, ∀ e e', p e → p e' → e = e' := by
  have broken : ∀ {name i e e'}, Broken row name i e → Broken row name i e' → e = e' :=
    fun h h' => h.1.trans h'.1.symm
  have missing : ∀ {name i e e'}, Missing row name i e → Missing row name i e' → e = e' :=
    fun h h' => h.1.trans h'.1.symm
  intro p hp e e' h h'
  simp only [complaints, List.mem_cons, List.not_mem_nil, or_false] at hp
  rcases hp with rfl | rfl | rfl | rfl | rfl | rfl | rfl | rfl | rfl | rfl | rfl
  iterate 5 exact broken h h'
  · obtain ⟨text, rfl, reads, -⟩ := h
    obtain ⟨text', rfl, reads', -⟩ := h'
    rw [reads.unique reads']
  iterate 4 exact missing h h'
  · obtain ⟨text, n, rfl, reads, writes, -⟩ := h
    obtain ⟨text', n', rfl, reads', writes', -⟩ := h'
    rw [reads.unique reads'] at writes
    rw [Int32.toInt_inj.1 (writes.unique writes')]

/-- About an accepted row there is nothing to complain. -/
theorem Accepts.silent (h : c.Accepts row r) : ∀ p ∈ c.complaints row, ∀ e, ¬ p e := by
  have broken : ∀ {name i s e}, Reads row i s → ¬ Broken row name i e := fun reads h => h.2 _ reads
  have missing : ∀ {name i s e}, Reads row i s → s ≠ "" → ¬ Missing row name i e :=
    fun reads hne h => hne (reads.unique h.2)
  obtain ⟨text, n, reads, writes, hpos, hmax, -⟩ := h.quantity
  have hne := h.nonempty
  simp only [OrderRequest.identifiers, List.forall_mem_cons, List.not_mem_nil] at hne
  obtain ⟨hne₁, hne₂, hne₃, hne₄, -⟩ := hne
  intro p hp e he
  simp only [complaints, List.mem_cons, List.not_mem_nil, or_false] at hp
  rcases hp with rfl | rfl | rfl | rfl | rfl | rfl | rfl | rfl | rfl | rfl | rfl
  · exact broken reads he
  · exact broken h.tenantId he
  · exact broken h.sellerId he
  · exact broken h.hubId he
  · exact broken h.skuId he
  · obtain ⟨text', -, reads', unwritten⟩ := he
    rw [reads'.unique reads] at unwritten
    exact unwritten n writes ⟨by unfold min32; omega, hmax⟩
  · exact missing h.tenantId hne₁ he
  · exact missing h.sellerId hne₂ he
  · exact missing h.hubId hne₃ he
  · exact missing h.skuId hne₄ he
  · obtain ⟨text', n', -, reads', writes', nonpositive⟩ := he
    rw [reads'.unique reads] at writes'
    have := writes'.unique writes
    omega

/-- A row reads as one request at most. -/
theorem Accepts.unique (h : c.Accepts row r) (h' : c.Accepts row r') : r = r' := by
  obtain ⟨text, n, reads, writes, -, -, hn⟩ := h.quantity
  obtain ⟨text', n', reads', writes', -, -, hn'⟩ := h'.quantity
  rw [reads.unique reads'] at writes
  have hquantity : r.quantity = r'.quantity := Int32.toInt_inj.1 (by rw [hn, hn', writes.unique writes'])
  cases r
  cases r'
  cases h.tenantId.unique h'.tenantId
  cases h.sellerId.unique h'.sellerId
  cases h.hubId.unique h'.hubId
  cases h.skuId.unique h'.skuId
  cases hquantity
  rfl

/-- A row is parsed to the request that it reads as, if it reads as one that is accepted. Any other row is refused,
with the first complaint about it that applies. -/
theorem parse_verdict (c : Columns) (row : Row) :
    (∀ r, c.parse row = .ok r ↔ c.Accepts row r) ∧ (∀ e, c.parse row = .error e ↔ First (c.complaints row) e) := by
  rcases parse_checks c row with ⟨r, hr, accepts, silent⟩ | ⟨e, he, first⟩
  · refine ⟨fun r' => ?_, fun e => ?_⟩
    · rw [hr, Except.ok.injEq]
      exact ⟨fun h => h ▸ accepts, fun h => accepts.unique h⟩
    · rw [hr]
      refine iff_of_false nofun fun first => ?_
      obtain ⟨p, hp, applies⟩ := first.exists_mem
      exact silent p hp e applies
  · refine ⟨fun r => ?_, fun e' => ?_⟩
    · rw [he]
      refine iff_of_false nofun fun accepts => ?_
      obtain ⟨p, hp, applies⟩ := first.exists_mem
      exact accepts.silent p hp e applies
    · rw [he, Except.error.injEq]
      exact ⟨fun h => h ▸ first, fun h => first.unique complaints_unique h⟩

end Columns

end Fulfilment
