import Fulfilment.Csv.Writer

/-!
# Tables written and read back

What is written is read back row by row and field by field, whatever bytes the fields hold. The key facts:
`rowsFrom_writeField` (a field between quotes is read like one without), `rowsFrom_write` (all rows) and `table_write`
(header and rows). A byte order mark at the very start of a text is not read, so the first field of the header may
lose one; nothing else changes.
-/

namespace Fulfilment

namespace Csv

variable {state : State} {field f g : Bytes} {fields : List Bytes} {b : UInt8} {row : Row} {rows : List Row}
  {rest text : Bytes}

/-! ### Bytes without a meaning of their own -/

theorem outside_of_not_needsQuotes (h : needsQuotes (b :: f) = false) :
    outside b = .put .plain ∧ needsQuotes f = false := by
  simp only [needsQuotes, List.any_cons, Bool.or_eq_false_iff, beq_eq_false_iff_ne] at h
  obtain ⟨⟨⟨hcomma, -⟩, hbreak⟩, hf⟩ := h
  constructor
  · unfold outside
    rw [if_neg hcomma, hbreak]
    rfl
  · exact hf

/-- Outside quotes, bytes that need none are taken as they are. -/
theorem rowsFrom_plain (h : needsQuotes f = false) :
    rowsFrom .plain field fields (f ++ rest) = rowsFrom .plain (f.reverse ++ field) fields rest := by
  induction f generalizing field with
  | nil => rfl
  | cons b f ih =>
    obtain ⟨hb, hf⟩ := outside_of_not_needsQuotes h
    have hact : act .plain b = .put .plain := hb
    rw [List.cons_append, rowsFrom, hact]
    dsimp only
    rw [ih hf, List.reverse_cons, List.append_assoc]
    rfl

/-- Between quotes, bytes are taken as they are once quotes are doubled. -/
theorem rowsFrom_doubled :
    rowsFrom .quoted field fields (doubled f ++ rest) = rowsFrom .quoted (f.reverse ++ field) fields rest := by
  induction f generalizing field with
  | nil => rfl
  | cons b f ih =>
    have hcons : doubled (b :: f) = (if b = quote then [quote, quote] else [b]) ++ doubled f := by
      simp [doubled]
    rw [hcons, List.reverse_cons, List.append_assoc, List.append_assoc]
    by_cases hb : b = quote
    · rw [if_pos hb, hb]
      exact ih
    · have hact : act .quoted b = .put .quoted := if_neg hb
      rw [if_neg hb, List.singleton_append, rowsFrom, hact]
      exact ih

/-! ### One field -/

/-- What may stand before a field. -/
def State.Opens (state : State) : Prop := state = .rowStart ∨ state = .fieldStart

theorem State.Opens.act_quote (h : state.Opens) : act state quote = .mark .quoted := by
  rcases h with rfl | rfl <;> rfl

theorem State.Opens.act_comma (h : state.Opens) : act state comma = .endField := by
  rcases h with rfl | rfl <;> rfl

theorem State.Opens.act_of_not_needsQuotes (h : state.Opens) (hb : needsQuotes (b :: f) = false) :
    act state b = .put .plain := by
  simp only [needsQuotes, List.any_cons, Bool.or_eq_false_iff, beq_eq_false_iff_ne] at hb
  obtain ⟨⟨⟨hcomma, hquote⟩, hbreak⟩, -⟩ := hb
  have hopening : opening b = .put .plain := by
    unfold opening
    rw [if_neg hquote, if_neg hcomma, hbreak]
    rfl
  rcases h with rfl | rfl
  · rw [act, hbreak]
    exact hopening
  · exact hopening

theorem outside_ne_skip : outside b ≠ .skip := by
  unfold outside
  split
  · simp
  · split <;> simp

/-- Behind the closing quote, what is no quote means what it means outside quotes. -/
theorem rowsFrom_quoteSeen (hb : b ≠ quote) :
    rowsFrom .quoteSeen field fields (b :: rest) = rowsFrom .plain field fields (b :: rest) := by
  have hseen : act .quoteSeen b = outside b := if_neg hb
  have hplain : act .plain b = outside b := rfl
  rw [rowsFrom, rowsFrom, hseen, hplain]
  split
  · rename_i hskip
    exact absurd hskip outside_ne_skip
  all_goals rfl

/-- A written field that is not empty is read to its end, with or without quotes. -/
theorem rowsFrom_writeField (hs : state.Opens) (hf : f ≠ []) (hb : b ≠ quote) :
    rowsFrom state [] fields (writeField f ++ b :: rest) = rowsFrom .plain f.reverse fields (b :: rest) := by
  unfold writeField
  by_cases hq : needsQuotes f = true
  · rw [if_pos hq, List.cons_append, List.cons_append, List.append_assoc, rowsFrom, hs.act_quote]
    dsimp only
    have hclose : act .quoted quote = .mark .quoteSeen := rfl
    rw [rowsFrom_doubled, List.append_nil, List.singleton_append, rowsFrom, hclose]
    exact rowsFrom_quoteSeen hb
  · rw [if_neg hq]
    rw [Bool.not_eq_true] at hq
    cases f with
    | nil => exact absurd rfl hf
    | cons a f =>
      rw [List.cons_append, rowsFrom, hs.act_of_not_needsQuotes hq]
      dsimp only
      rw [rowsFrom_plain (outside_of_not_needsQuotes hq).2, List.reverse_cons]

theorem rowsFrom_writeField_comma (hs : state.Opens) :
    rowsFrom state [] fields (writeField f ++ comma :: rest) = rowsFrom .fieldStart [] (f :: fields) rest := by
  by_cases hf : f = []
  · have hempty : writeField f = [] := by rw [hf]; rfl
    rw [hempty, List.nil_append, rowsFrom, hs.act_comma, hf]
    rfl
  · have hact : act .plain comma = .endField := rfl
    rw [rowsFrom_writeField hs hf (by decide), rowsFrom, hact]
    dsimp only
    rw [List.reverse_reverse]

/-- A line break ends the row behind a field, unless there is nothing before it in its line. -/
theorem rowsFrom_writeField_break (hs : state.Opens) (h : state = .fieldStart ∨ f ≠ []) :
    rowsFrom state [] fields (writeField f ++ 10 :: rest) =
      (f :: fields).reverse :: rowsFrom .rowStart [] [] rest := by
  by_cases hf : f = []
  · have hempty : writeField f = [] := by rw [hf]; rfl
    have hstart : state = .fieldStart := h.resolve_right (fun hn => hn hf)
    rw [hempty, List.nil_append, hstart, hf]
    rfl
  · have hact : act .plain 10 = .endRow := rfl
    rw [rowsFrom_writeField hs hf (by decide), rowsFrom, hact]
    dsimp only
    rw [List.reverse_reverse]

/-! ### Rows -/

/-- The fields of a row, written with commas between them. -/
def joined (row : Row) : Bytes := List.intercalate [comma] (row.map writeField)

theorem joined_singleton (f : Bytes) : joined [f] = writeField f := by simp [joined, List.intercalate]

theorem joined_cons_cons (f g : Bytes) (row : Row) :
    joined (f :: g :: row) = writeField f ++ comma :: joined (g :: row) := by
  simp [joined, List.intercalate]

theorem rowsFrom_joined (hs : state.Opens) (h : state = .fieldStart ∨ f ≠ [] ∨ row ≠ []) :
    rowsFrom state [] fields (joined (f :: row) ++ 10 :: rest) =
      (fields.reverse ++ f :: row) :: rowsFrom .rowStart [] [] rest := by
  induction row generalizing f fields state with
  | nil =>
    have hf : state = .fieldStart ∨ f ≠ [] := h.imp_right (fun hn => hn.resolve_right (fun hn => hn rfl))
    rw [joined_singleton, rowsFrom_writeField_break hs hf, List.reverse_cons]
  | cons g row ih =>
    rw [joined_cons_cons, List.append_assoc, List.cons_append, rowsFrom_writeField_comma hs]
    rw [ih (.inr rfl) (.inl rfl), List.reverse_cons, List.append_assoc]
    rfl

/-- A written row is read back, and what follows it is read as if it stood alone. -/
theorem rowsFrom_writeRow (h : row ≠ []) :
    rowsFrom .rowStart [] [] (writeRow row ++ rest) = row :: rowsFrom .rowStart [] [] rest := by
  unfold writeRow
  by_cases hempty : row = [[]] ∨ row = []
  · rw [if_pos hempty, hempty.resolve_right h]
    rfl
  · rw [if_neg hempty, List.append_assoc]
    rw [not_or] at hempty
    obtain ⟨f, row, rfl⟩ := List.exists_cons_of_ne_nil h
    have hsome : f ≠ [] ∨ row ≠ [] := by
      by_cases hf : f = []
      · right
        intro hrow
        exact hempty.1 (by rw [hf, hrow])
      · exact .inl hf
    exact rowsFrom_joined (.inl rfl) (.inr hsome)

theorem rowsFrom_write (h : ∀ row ∈ rows, row ≠ []) : rowsFrom .rowStart [] [] (write rows) = rows := by
  induction rows with
  | nil => rfl
  | cons row rows ih =>
    rw [List.forall_mem_cons] at h
    have hcons : write (row :: rows) = writeRow row ++ write rows := by simp [write]
    rw [hcons, rowsFrom_writeRow h.1, ih h.2]

/-- A row that is read has a field. -/
theorem ne_nil_of_mem_rowsFrom (h : row ∈ rowsFrom state field fields text) : row ≠ [] := by
  induction text generalizing state field fields with
  | nil =>
    unfold rowsFrom at h
    split at h
    · cases h
    · rw [List.mem_singleton.1 h]
      simp
  | cons b text ih =>
    unfold rowsFrom at h
    split at h
    · exact ih h
    · exact ih h
    · exact ih h
    · exact ih h
    · rcases List.mem_cons.1 h with rfl | h
      · simp
      · exact ih h

theorem ne_nil_of_mem_table (h : row ∈ (table text).2) : row ≠ [] := by
  unfold table at h
  split at h
  · cases h
  · rename_i header rows hread
    have hmem : row ∈ read text := by
      rw [hread]
      exact List.mem_cons_of_mem _ h
    exact ne_nil_of_mem_rowsFrom hmem

/-! ### The byte order mark -/

def byteOrderMark : Bytes := [0xEF, 0xBB, 0xBF]

/-- A field as it is read at the start of a text: it may have lost a byte order mark. -/
def Unmarked (f g : Bytes) : Prop := g = f ∨ f = byteOrderMark ++ g

theorem unmarked_of_head_ne (h : b ≠ 0xEF) : unmarked (b :: rest) = b :: rest := by
  unfold unmarked
  split
  · rename_i heq
    exact absurd (List.cons.inj heq).1 h
  · rfl

/-- Of a first field and what follows its comma, at most the mark before the field is dropped. -/
theorem unmarked_writeField (f rest : Bytes) :
    ∃ g, Unmarked f g ∧ unmarked (writeField f ++ comma :: rest) = writeField g ++ comma :: rest := by
  by_cases hq : needsQuotes f = true
  · refine ⟨f, .inl rfl, ?_⟩
    have hquoted : writeField f = quote :: (doubled f ++ [quote]) := if_pos hq
    rw [hquoted]
    exact unmarked_of_head_ne (by decide)
  · have hbare : ∀ {g}, needsQuotes g = false → writeField g = g := by
      intro g hg
      unfold writeField
      rw [hg]
      rfl
    rw [Bool.not_eq_true] at hq
    rw [hbare hq]
    unfold unmarked
    split
    · -- the mark is three bytes of the field, for a comma is none of them
      rename_i tail heq
      match f, heq with
      | [], heq => exact absurd (List.cons.inj heq).1 (by decide)
      | [_], heq => exact absurd (List.cons.inj (List.cons.inj heq).2).1 (by decide)
      | [_, _], heq => exact absurd (List.cons.inj (List.cons.inj (List.cons.inj heq).2).2).1 (by decide)
      | x :: y :: z :: g, heq =>
        simp only [List.cons_append, List.cons.injEq] at heq
        obtain ⟨rfl, rfl, rfl, rfl⟩ := heq
        have hg : needsQuotes g = false := by
          have h₁ := (outside_of_not_needsQuotes hq).2
          have h₂ := (outside_of_not_needsQuotes h₁).2
          exact (outside_of_not_needsQuotes h₂).2
        exact ⟨g, .inr rfl, by rw [hbare hg]⟩
    · exact ⟨f, .inl rfl, by rw [hbare hq]⟩

/-- A table whose header has two fields or more is read back as it was written, but for a byte order mark at the start
of the header. -/
theorem table_write (f g : Bytes) (header : Row) (h : ∀ row ∈ rows, row ≠ []) :
    ∃ f', Unmarked f f' ∧ table (write ((f :: g :: header) :: rows)) = (f' :: g :: header, rows) := by
  have hwrite : ∀ f, write ((f :: g :: header) :: rows) =
      writeField f ++ comma :: (joined (g :: header) ++ 10 :: write rows) := by
    intro f
    have hrow : writeRow (f :: g :: header) = joined (f :: g :: header) ++ [10] := by
      unfold writeRow
      rw [if_neg (by simp)]
      rfl
    have hcons : write ((f :: g :: header) :: rows) = writeRow (f :: g :: header) ++ write rows := by simp [write]
    rw [hcons, hrow, joined_cons_cons]
    simp
  obtain ⟨f', hf', hunmarked⟩ := unmarked_writeField f (joined (g :: header) ++ 10 :: write rows)
  refine ⟨f', hf', ?_⟩
  have hall : ∀ row ∈ (f' :: g :: header) :: rows, row ≠ [] := by
    rw [List.forall_mem_cons]
    exact ⟨by simp, h⟩
  have hread : read (write ((f :: g :: header) :: rows)) = (f' :: g :: header) :: rows := by
    unfold read
    rw [hwrite f, hunmarked, ← hwrite f']
    exact rowsFrom_write hall
  unfold table
  rw [hread]

end Csv

end Fulfilment
