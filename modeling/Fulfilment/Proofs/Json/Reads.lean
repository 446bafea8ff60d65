import Fulfilment.Json.Codec
import Fulfilment.Proofs.Json.Number

/-!
# Values within a document

What a reader makes of a written value, whatever follows it: it reads the value (`Reader.Reads`), or refuses it
because it is nested too deep (`Reader.Refuses`). A list of written items is then read, or refused, as its items are
(`Reader.itemsFrom_joined`, `Reader.itemsFrom_refused`).
-/

namespace Fulfilment

namespace Json

variable {α : Type} {a : α} {r : Reader α} {text rest : Bytes} {p : Position} {first : Bool}

/-- The text starts with what may start a value. -/
def Opens : Bytes → Prop
  | [] => False
  | b :: _ => Cursor.isBlankByte b = false ∧ b ≠ 93

theorem Opens.skipBlanks (h : Opens text) : Cursor.skipBlanks ⟨text ++ rest, p⟩ = ⟨text ++ rest, p⟩ := by
  cases text with
  | nil => exact h.elim
  | cons b text => simp [Cursor.skipBlanks, Cursor.blanks, h.1]

theorem Closes.comma : Closes (44 :: rest) := .inl rfl

theorem Closes.bracket : Closes (93 :: rest) := .inr (.inl rfl)

theorem Closes.brace : Closes (125 :: rest) := .inr (.inr (.inl rfl))

/-- The fault of a document that is nested too deep. -/
def Fault.isDeep (e : Fault) : Prop := e.cause = .malformed .tooDeep

/-- The reader reads `a` where it is written as `text`, up to where what follows it starts. -/
structure Reader.Reads (r : Reader α) (text : Bytes) (a : α) : Prop where
  opens : Opens text
  reads : ∀ rest p, Closes rest → r.read ⟨text ++ rest, p⟩ = .ok (a, ⟨rest, p.past text⟩)

/-- The reader refuses the `text` for its depth. -/
structure Reader.Refuses (r : Reader α) (text : Bytes) : Prop where
  opens : Opens text
  refuses : ∀ rest p, Closes rest → ∃ e, r.read ⟨text ++ rest, p⟩ = .error e ∧ e.isDeep

theorem Reader.Reads.not_refuses (h : r.Reads text a) (h' : r.Refuses text) : False := by
  obtain ⟨e, he, -⟩ := h'.refuses [] .start trivial
  cases (h.reads [] .start trivial).symm.trans he

/-! ### Whole documents -/

theorem Reader.Reads.readAll (h : r.Reads text a) : readAll r text = .ok a := by
  have hread := h.reads [] .start trivial
  rw [List.append_nil] at hread
  unfold Json.readAll Cursor.start
  rw [hread]
  rfl

theorem Reader.Refuses.readAll (h : r.Refuses text) : ∃ e, readAll r text = .error e ∧ e.isDeep := by
  obtain ⟨e, hread, he⟩ := h.refuses [] .start trivial
  rw [List.append_nil] at hread
  refine ⟨e, ?_, he⟩
  unfold Json.readAll Cursor.start
  rw [hread]
  rfl

/-! ### Items -/

/-- What stands before an item, which is a comma unless the item is the first. -/
def lead (first : Bool) : Bytes := if first then [] else [44]

/-- Items with commas between them. -/
def joined (first : Bool) : List Bytes → Bytes
  | [] => []
  | item :: items => lead first ++ item ++ joined false items

theorem encode_intercalate_cons (item : List Char) (items : List (List Char)) :
    Utf8.encode (List.intercalate [','] (item :: items)) =
      Utf8.encode item ++ joined false (items.map Utf8.encode) := by
  induction items generalizing item with
  | nil => simp [List.intercalate, joined]
  | cons next items ih =>
    rw [List.intercalate_cons_cons, Utf8.encode_append, Utf8.encode_append, ih next, List.append_assoc]
    rfl

theorem encode_intercalate (items : List (List Char)) :
    Utf8.encode (List.intercalate [','] items) = joined true (items.map Utf8.encode) := by
  cases items with
  | nil => rfl
  | cons item items => exact encode_intercalate_cons item items

theorem closes_joined {items : List Bytes} (h : Closes rest) : Closes (joined false items ++ rest) := by
  cases items with
  | nil => exact h
  | cons item items => exact .comma

namespace Cursor

theorem nextItem_lead (h : Opens text) :
    nextItem first ⟨lead first ++ text ++ rest, p⟩ = .ok (.more ⟨text ++ rest, p.past (lead first)⟩) := by
  cases text with
  | nil => exact h.elim
  | cons b text =>
    obtain ⟨hblank, hb⟩ := h
    cases first with
    | true =>
      simp [nextItem, lead, skipBlanks, blanks, hblank, hb]
    | false =>
      have hcomma : isBlankByte 44 = false := rfl
      simp [nextItem, lead, skipBlanks, blanks, hblank, hb, hcomma]

theorem nextItem_bracket : nextItem first ⟨93 :: rest, p⟩ = .ok (.done ⟨rest, p.after 93⟩) := rfl

end Cursor

namespace Reader

variable {as : List α} {acc : List α} {write : α → Bytes} {c d : Cursor}

theorem itemsFrom_done (ht : c.nextItem first = .ok (.done d)) : r.itemsFrom acc first c = .ok (acc.reverse, d) := by
  rw [itemsFrom]
  split
  · rename_i he
    cases ht.symm.trans he
  · rename_i he
    cases ht.symm.trans he
    rfl
  · rename_i he
    cases ht.symm.trans he

theorem itemsFrom_more (ht : c.nextItem first = .ok (.more d)) :
    r.itemsFrom acc first c = match r.read d with
      | .error e => .error e
      | .ok (a, d') => r.itemsFrom (a :: acc) false d' := by
  rw [itemsFrom]
  split
  · rename_i he
    cases ht.symm.trans he
  · rename_i he
    cases ht.symm.trans he
  · rename_i he
    cases ht.symm.trans he
    split
    · rename_i he
      rw [he]
    · rename_i he
      rw [he]

theorem itemsFrom_joined (h : ∀ a ∈ as, r.Reads (write a) a) :
    r.itemsFrom acc first ⟨joined first (as.map write) ++ 93 :: rest, p⟩ =
      .ok (acc.reverse ++ as, ⟨rest, p.past (joined first (as.map write) ++ [93])⟩) := by
  induction as generalizing acc first p with
  | nil =>
    rw [List.append_nil]
    exact itemsFrom_done Cursor.nextItem_bracket
  | cons a as ih =>
    obtain ⟨ha, has⟩ := List.forall_mem_cons.1 h
    rw [List.map_cons, joined, List.append_assoc _ _ (93 :: rest),
      itemsFrom_more (Cursor.nextItem_lead ha.opens), ha.reads _ _ (closes_joined .bracket)]
    dsimp only
    rw [ih has]
    simp

/-- One item that is refused is enough for the list to be. -/
theorem itemsFrom_refused (acc : List α) (first : Bool) (rest : Bytes) (p : Position)
    (h : ∀ a ∈ as, r.Reads (write a) a ∨ r.Refuses (write a)) (hdeep : ∃ a ∈ as, r.Refuses (write a)) :
    ∃ e, r.itemsFrom acc first ⟨joined first (as.map write) ++ 93 :: rest, p⟩ = .error e ∧ e.isDeep := by
  induction as generalizing acc first p with
  | nil =>
    obtain ⟨a, ha, -⟩ := hdeep
    exact absurd ha List.not_mem_nil
  | cons a as ih =>
    obtain ⟨ha, has⟩ := List.forall_mem_cons.1 h
    rw [List.map_cons, joined, List.append_assoc _ _ (93 :: rest)]
    rcases ha with hreads | hrefuses
    · rw [itemsFrom_more (Cursor.nextItem_lead hreads.opens), hreads.reads _ _ (closes_joined .bracket)]
      obtain ⟨b, hb, hdeep⟩ := hdeep
      rcases List.mem_cons.1 hb with rfl | hb
      · exact (hreads.not_refuses hdeep).elim
      · -- this item is read, so the one that is refused is among those after it
        exact ih _ _ _ has ⟨b, hb, hdeep⟩
    · obtain ⟨e, he, hcause⟩ := hrefuses.refuses (joined false (as.map write) ++ 93 :: rest) (p.past (lead first))
        (closes_joined .bracket)
      rw [itemsFrom_more (Cursor.nextItem_lead hrefuses.opens), he]
      exact ⟨e, rfl, hcause⟩

end Reader

/-! ### Members -/

/-- A member with the name `key`, of which the value is written as `text`. -/
def member (key : String) (text : Bytes) : Bytes := 34 :: closedText key ++ 58 :: text

theorem encode_member (key : String) (cs : List Char) :
    Utf8.encode (printText key ++ ':' :: cs) = member key (Utf8.encode cs) := by
  rw [Utf8.encode_append, encode_printText]
  rfl

namespace Cursor

theorem nextKey_lead : nextKey first ⟨lead first ++ 34 :: rest, p⟩ =
    .ok (.more ⟨rest, p.past (lead first ++ [34])⟩) := by
  cases first <;> rfl

theorem nextKey_brace : nextKey first ⟨125 :: rest, p⟩ = .ok (.done ⟨rest, p.after 125⟩) := rfl

theorem colon_colon : colon ⟨58 :: rest, p⟩ = .ok ⟨rest, p.after 58⟩ := rfl

end Cursor

end Json

end Fulfilment
