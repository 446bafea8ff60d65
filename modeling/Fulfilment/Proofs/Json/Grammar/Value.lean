import Fulfilment.Proofs.Json.Grammar.Number

/-!
# The grammar of documents

A document is a value between blanks. A list holds its items between brackets and commas, and an object its members,
with blanks around each of them. Of members of one name the last counts. These documents and no others are read, if
lists and objects are not nested too deep (`Value.parse_eq_ok_iff`).
-/

namespace Fulfilment

namespace Json

/-- Blanks only. -/
def Blank (bs : Bytes) : Prop := ∀ b ∈ bs, Cursor.isBlankByte b = true

/-- A value within a list or an object, with the blanks around it. -/
structure Item where
  before : Bytes
  text : Bytes
  after : Bytes
  value : Value

namespace Item

def bytes (x : Item) : Bytes := x.before ++ (x.text ++ x.after)

def Padded (x : Item) : Prop := Blank x.before ∧ Blank x.after

end Item

/-- A member of an object, with the blanks around its name. -/
structure Member where
  before : Bytes
  nameText : Bytes
  name : String
  between : Bytes
  item : Item

namespace Member

def bytes (x : Member) : Bytes := x.before ++ 34 :: (x.nameText ++ 34 :: (x.between ++ 58 :: x.item.bytes))

def entry (x : Member) : String × Value := (x.name, x.item.value)

/-- The name is spelled, and all else around the value is blank. -/
structure Formed (x : Member) : Prop where
  before : Blank x.before
  name : Text.Spells x.nameText x.name
  between : Blank x.between
  item : x.item.Padded

end Member

/-- A list, with blanks behind its opening bracket. -/
def listText (gap : Bytes) (items : List Item) : Bytes := 91 :: (gap ++ (joined true (items.map Item.bytes) ++ [93]))

def objectText (gap : Bytes) (members : List Member) : Bytes :=
  123 :: (gap ++ (joined true (members.map Member.bytes) ++ [125]))

/-- The text spells the value, with lists and objects nested at most `depth` deep in it. -/
inductive Spells : (depth : Nat) → Bytes → Value → Prop
  | null {depth : Nat} : Spells depth (110 :: nullTail) .null
  | trueWord {depth : Nat} : Spells depth (116 :: trueTail) (.bool true)
  | falseWord {depth : Nat} : Spells depth (102 :: falseTail) (.bool false)
  | int {depth : Nat} {text : Bytes} {n : Int} (number : SpellsNumber text (.int n)) : Spells depth text (.int n)
  | float {depth : Nat} {text : Bytes} {x : Float} (number : SpellsNumber text (.float x)) :
    Spells depth text (.float x)
  | text {depth : Nat} {text : Bytes} {s : String} (string : Text.Spells text s) :
    Spells depth (34 :: (text ++ [34])) (.text s)
  | list {depth : Nat} {gap : Bytes} {items : List Item} (blank : Blank gap) (padded : ∀ x ∈ items, x.Padded)
      (each : ∀ x ∈ items, Spells depth x.text x.value) :
    Spells (depth + 1) (listText gap items) (.list (items.map Item.value))
  | object {depth : Nat} {gap : Bytes} {members : List Member} (blank : Blank gap) (formed : ∀ x ∈ members, x.Formed)
      (each : ∀ x ∈ members, Spells depth x.item.text x.item.value) :
    Spells (depth + 1) (objectText gap members) (.object (Value.insertAll [] (members.map Member.entry)))

/-- The text holds the value and nothing else. -/
def Document (text : Bytes) (v : Value) : Prop :=
  ∃ before spelled after, Blank before ∧ Blank after ∧ Spells depthLimit spelled v ∧
    text = before ++ (spelled ++ after)

variable {gap rest : Bytes} {p : Position} {c d : Cursor} {first : Bool} {depth : Nat} {v : Value}

/-! ### Blanks -/

namespace Cursor

theorem skipBlanks_blank (h : Blank gap) : skipBlanks ⟨gap ++ rest, p⟩ = skipBlanks ⟨rest, p.past gap⟩ := by
  induction gap generalizing p with
  | nil => rfl
  | cons b gap ih =>
    obtain ⟨hb, hgap⟩ := List.forall_mem_cons.1 h
    rw [List.cons_append, skipBlanks_of_blank hb, ih hgap]
    rfl

theorem passes_skipBlanks (c : Cursor) : ∃ gap, Blank gap ∧ c.Passes gap c.skipBlanks := by
  obtain ⟨rest, p⟩ := c
  induction rest generalizing p with
  | nil => exact ⟨[], nofun, .refl _⟩
  | cons b rest ih =>
    by_cases hb : isBlankByte b = true
    · obtain ⟨gap, hgap, hpasses⟩ := ih (p.after b)
      rw [skipBlanks_of_blank hb]
      exact ⟨[b] ++ gap, List.forall_mem_cons.2 ⟨hb, hgap⟩, (passes_byte b rest p).trans hpasses⟩
    · rw [skipBlanks_of_not_blank hb]
      exact ⟨[], nofun, .refl _⟩

end Cursor

theorem Blank.append {gap' : Bytes} (h : Blank gap) (h' : Blank gap') : Blank (gap ++ gap') := by
  intro b hb
  rcases List.mem_append.1 hb with hb | hb
  · exact h b hb
  · exact h' b hb

theorem Closes.of_blank (h : Blank gap) (hrest : Closes rest) : Closes (gap ++ rest) := by
  cases gap with
  | nil => exact hrest
  | cons b gap => exact .inr (.inr (.inr (h b List.mem_cons_self)))

/-! ### What is spelled is read -/

theorem Value.read_blank (h : Blank gap) :
    (Value.reader depth).read ⟨gap ++ rest, p⟩ = (Value.reader depth).read ⟨rest, p.past gap⟩ := by
  rw [Value.reader_read]
  unfold readValue
  rw [Cursor.skipBlanks_blank h]

section

variable {text gap' : Bytes} {r : Reader Value}

theorem nextItem_blank (h : Blank gap) :
    Cursor.nextItem first ⟨gap ++ rest, p⟩ = Cursor.nextItem first ⟨rest, p.past gap⟩ := by
  unfold Cursor.nextItem
  rw [Cursor.skipBlanks_blank h]

theorem nextItem_padded (hgap : Blank gap) (hbefore : Blank gap') (h : Opens text) :
    Cursor.nextItem first ⟨gap ++ (lead first ++ (gap' ++ (text ++ rest))), p⟩ =
      .ok (.more ⟨text ++ rest, ((p.past gap).past (lead first)).past gap'⟩) := by
  have hskip (q : Position) : Cursor.skipBlanks ⟨gap' ++ (text ++ rest), q⟩ = ⟨text ++ rest, q.past gap'⟩ := by
    rw [Cursor.skipBlanks_blank hbefore, h.skipBlanks]
  rw [nextItem_blank hgap]
  cases text with
  | nil => exact h.elim
  | cons b text =>
    cases first with
    | true =>
      have hb : b ≠ 93 := h.2
      unfold Cursor.nextItem lead
      simp only [if_true, List.nil_append, hskip]
      simp [hb]
    | false =>
      have hb : b ≠ 93 := h.2
      have hcomma : Cursor.skipBlanks ⟨44 :: (gap' ++ (b :: text ++ rest)), p.past gap⟩ = ⟨_, _⟩ := rfl
      unfold Cursor.nextItem lead
      simp only [Bool.false_eq_true, if_false, List.singleton_append, hcomma, hskip]
      simp [hb]

theorem itemsFrom_spelled {items : List Item} {acc : List Value} (hgap : Blank gap) (padded : ∀ x ∈ items, x.Padded)
    (h : ∀ x ∈ items, r.Reads x.text x.value) :
    r.itemsFrom acc first ⟨gap ++ (joined first (items.map Item.bytes) ++ 93 :: rest), p⟩ =
      .ok (acc.reverse ++ items.map Item.value,
        ⟨rest, p.past (gap ++ (joined first (items.map Item.bytes) ++ [93]))⟩) := by
  induction items generalizing acc first gap p with
  | nil =>
    refine (Reader.itemsFrom_done ((nextItem_blank hgap).trans Cursor.nextItem_bracket)).trans ?_
    simp [joined]
  | cons x items ih =>
    obtain ⟨⟨hbefore, hafter⟩, hpadded⟩ := List.forall_mem_cons.1 padded
    obtain ⟨hx, hitems⟩ := List.forall_mem_cons.1 h
    have hclosed : Closes (x.after ++ (joined false (items.map Item.bytes) ++ 93 :: rest)) :=
      .of_blank hafter (closes_joined .bracket)
    have htext : gap ++ (joined first ((x :: items).map Item.bytes) ++ 93 :: rest) =
        gap ++ (lead first ++ (x.before ++ (x.text ++ (x.after ++
          (joined false (items.map Item.bytes) ++ 93 :: rest))))) := by
      simp [joined, Item.bytes]
    rw [htext, Reader.itemsFrom_more (nextItem_padded hgap hbefore hx.opens), hx.reads _ _ hclosed]
    dsimp only
    rw [ih hafter hpadded hitems]
    simp [joined, Item.bytes]

theorem nextKey_blank (h : Blank gap) :
    Cursor.nextKey first ⟨gap ++ rest, p⟩ = Cursor.nextKey first ⟨rest, p.past gap⟩ := by
  unfold Cursor.nextKey
  rw [Cursor.skipBlanks_blank h]

theorem nextKey_padded (hgap : Blank gap) (hbefore : Blank gap') :
    Cursor.nextKey first ⟨gap ++ (lead first ++ (gap' ++ 34 :: rest)), p⟩ =
      .ok (.more ⟨rest, (((p.past gap).past (lead first)).past gap').after 34⟩) := by
  have hskip (q : Position) : Cursor.skipBlanks ⟨gap' ++ 34 :: rest, q⟩ = ⟨34 :: rest, q.past gap'⟩ := by
    rw [Cursor.skipBlanks_blank hbefore]
    rfl
  rw [nextKey_blank hgap]
  cases first with
  | true =>
    unfold Cursor.nextKey lead
    simp only [if_true, List.nil_append, hskip]
    rfl
  | false =>
    have hcomma : Cursor.skipBlanks ⟨44 :: (gap' ++ 34 :: rest), p.past gap⟩ = ⟨_, _⟩ := rfl
    unfold Cursor.nextKey lead
    simp only [Bool.false_eq_true, if_false, List.singleton_append, hcomma, hskip]
    rfl

theorem colon_blank (h : Blank gap) : Cursor.colon ⟨gap ++ 58 :: rest, p⟩ = .ok ⟨rest, (p.past gap).after 58⟩ := by
  unfold Cursor.colon
  rw [Cursor.skipBlanks_blank h]
  rfl

theorem membersFrom_spelled {members : List Member} {ms : List (String × Value)} (hgap : Blank gap)
    (formed : ∀ x ∈ members, x.Formed) (h : ∀ x ∈ members, (Value.reader depth).Reads x.item.text x.item.value) :
    membersFrom (Value.reader depth) ms first ⟨gap ++ (joined first (members.map Member.bytes) ++ 125 :: rest), p⟩ =
      .ok (Value.insertAll ms (members.map Member.entry),
        ⟨rest, p.past (gap ++ (joined first (members.map Member.bytes) ++ [125]))⟩) := by
  induction members generalizing ms first gap p with
  | nil =>
    refine (membersFrom_done ((nextKey_blank hgap).trans Cursor.nextKey_brace)).trans ?_
    simp [joined, Value.insertAll]
  | cons x members ih =>
    obtain ⟨⟨hbefore, hname, hbetween, hbeforeItem, hafter⟩, hformed⟩ := List.forall_mem_cons.1 formed
    obtain ⟨hx, hmembers⟩ := List.forall_mem_cons.1 h
    have hclosed : Closes (x.item.after ++ (joined false (members.map Member.bytes) ++ 125 :: rest)) :=
      .of_blank hafter (closes_joined .brace)
    have htext : gap ++ (joined first ((x :: members).map Member.bytes) ++ 125 :: rest) =
        gap ++ (lead first ++ (x.before ++ 34 :: (x.nameText ++ 34 :: (x.between ++ 58 :: (x.item.before ++
          (x.item.text ++ (x.item.after ++ (joined false (members.map Member.bytes) ++ 125 :: rest)))))))) := by
      simp [joined, Member.bytes, Item.bytes]
    have hkey (r : Bytes) (q : Position) :
        readText ⟨x.nameText ++ 34 :: r, q⟩ = .ok (x.name, ⟨r, q.past (x.nameText ++ [34])⟩) :=
      readText_eq_ok_iff.2 ⟨x.nameText, hname, r, q, by simp, rfl⟩
    rw [htext, membersFrom_more (nextKey_padded hgap hbefore) (hkey _ _) (colon_blank hbetween),
      Value.read_blank hbeforeItem, hx.reads _ _ hclosed]
    dsimp only
    rw [ih hafter hformed hmembers]
    simp [joined, Member.bytes, Item.bytes, Member.entry, Value.insertAll]

end

theorem reads_of_fronts {text : Bytes} (hopens : Opens text)
    (h : ∀ rest p, Closes rest → Fronts (Value.within depth) ⟨text ++ rest, p⟩ v ⟨rest, p.past text⟩) :
    (Value.reader depth).Reads text v := by
  refine ⟨hopens, fun rest p hrest => ?_⟩
  rw [Value.reader_read]
  refine readValue_eq_ok_iff.2 ?_
  rw [hopens.skipBlanks]
  exact h rest p hrest

/-- What is spelled is read, wherever a value is closed behind it. -/
theorem Spells.reads {text : Bytes} (h : Spells depth text v) : (Value.reader depth).Reads text v := by
  induction h with
  | null => exact reads_of_fronts ⟨rfl, by decide⟩ fun _ _ _ => .null
  | trueWord => exact reads_of_fronts ⟨rfl, by decide⟩ fun _ _ _ => .trueWord
  | falseWord => exact reads_of_fronts ⟨rfl, by decide⟩ fun _ _ _ => .falseWord
  | int number => exact reads_of_fronts number.opens fun _ _ hrest => .int (number.numberAt? hrest)
  | float number => exact reads_of_fronts number.opens fun _ _ hrest => .float (number.numberAt? hrest)
  | @text depth text s string =>
    refine reads_of_fronts ⟨rfl, by decide⟩ fun rest p _ => ?_
    exact .text (readText_eq_ok_iff.2 ⟨text, string, rest, p.after 34, rfl, rfl⟩)
  | @list depth gap items blank padded each ih =>
    refine reads_of_fronts ⟨rfl, by decide⟩ fun rest p _ => ?_
    have hread : (Value.reader depth).itemsFrom [] true
        ⟨gap ++ (joined true (items.map Item.bytes) ++ 93 :: rest), p.after 91⟩ = _ :=
      itemsFrom_spelled blank padded ih
    have htext : listText gap items ++ rest = 91 :: (gap ++ (joined true (items.map Item.bytes) ++ 93 :: rest)) := by
      simp [listText]
    rw [htext]
    exact .list rfl hread
  | @object depth gap members blank formed each ih =>
    refine reads_of_fronts ⟨rfl, by decide⟩ fun rest p _ => ?_
    have hread : membersFrom (Value.reader depth) [] true
        ⟨gap ++ (joined true (members.map Member.bytes) ++ 125 :: rest), p.after 123⟩ = _ :=
      membersFrom_spelled blank formed ih
    have htext : objectText gap members ++ rest =
        123 :: (gap ++ (joined true (members.map Member.bytes) ++ 125 :: rest)) := by
      simp [objectText]
    rw [htext]
    exact .object rfl hread

/-! ### What is read is spelled -/

section

variable {reader : Reader Value}

/-- What the reader reads is spelled behind blanks. -/
def ReadsSpelled (reader : Reader Value) (depth : Nat) : Prop :=
  ∀ ⦃c d : Cursor⦄ ⦃v : Value⦄, reader.read c = .ok (v, d) →
    ∃ gap text, Blank gap ∧ Spells depth text v ∧ c.Passes (gap ++ text) d

theorem items_of_itemsFrom {acc vs : List Value} (hreader : ReadsSpelled reader depth)
    (h : reader.itemsFrom acc first c = .ok (vs, d)) :
    ∃ (gap : Bytes) (items : List Item), Blank gap ∧ (∀ x ∈ items, x.Padded) ∧
      (∀ x ∈ items, Spells depth x.text x.value) ∧
      vs = acc.reverse ++ items.map Item.value ∧
      c.Passes (gap ++ (joined first (items.map Item.bytes) ++ [93])) d := by
  fun_induction Reader.itemsFrom reader acc first c with
  | case1 => cases h
  | case2 acc first c d' ht =>
    cases h
    obtain ⟨gap, hgap, hpasses⟩ := c.passes_skipBlanks
    rcases Cursor.of_nextItem ht with ⟨r, p, hc, he⟩ | ⟨b, r, p, hc, hb, ⟨-, he⟩ | ⟨-, -, b', r', p', -, -, he⟩⟩
    · cases he
      rw [hc] at hpasses
      exact ⟨gap, [], hgap, List.forall_mem_nil _, List.forall_mem_nil _, by simp,
        hpasses.trans (Cursor.passes_byte 93 r p)⟩
    · cases he
    · cases he
  | case3 => cases h
  | case4 acc first c d₀ ht a d₁ hread ih =>
    obtain ⟨gap, hgap, hpasses⟩ := c.passes_skipBlanks
    obtain ⟨before, text, hbefore, hspells, hread⟩ := hreader hread
    obtain ⟨after, items, hafter, hpadded, heach, rfl, hrest⟩ := ih h
    rcases Cursor.of_nextItem ht with ⟨r, p, hc, he⟩ |
      ⟨b, r, p, hc, hb, ⟨rfl, he⟩ | ⟨rfl, rfl, b', r', p', hd, -, he⟩⟩
    · cases he
    · cases he
      rw [hc] at hpasses
      refine ⟨gap, ⟨before, text, after, a⟩ :: items, hgap, List.forall_mem_cons.2 ⟨⟨hbefore, hafter⟩, hpadded⟩,
        List.forall_mem_cons.2 ⟨hspells, heach⟩, by simp, ?_⟩
      have := hpasses.trans (hread.trans hrest)
      simpa [joined, lead, Item.bytes] using this
    · cases he
      obtain ⟨gap', hgap', hpasses'⟩ := Cursor.passes_skipBlanks ⟨r, p.after 44⟩
      rw [hc] at hpasses
      rw [hd] at hpasses'
      refine ⟨gap, ⟨gap' ++ before, text, after, a⟩ :: items, hgap,
        List.forall_mem_cons.2 ⟨⟨hgap'.append hbefore, hafter⟩, hpadded⟩, List.forall_mem_cons.2 ⟨hspells, heach⟩,
        by simp, ?_⟩
      have := hpasses.trans ((Cursor.passes_byte 44 r p).trans (hpasses'.trans (hread.trans hrest)))
      simpa [joined, lead, Item.bytes] using this

theorem exists_name {k : String} {d₁ : Cursor} (hk : c.nextKey first = .ok (.more d))
    (ht : readText d = .ok (k, d₁)) :
    ∃ gap before nameText, Blank gap ∧ Blank before ∧ Text.Spells nameText k ∧
      c.Passes (gap ++ (lead first ++ (before ++ 34 :: (nameText ++ [34])))) d₁ := by
  obtain ⟨gap, hgap, hpasses⟩ := c.passes_skipBlanks
  obtain ⟨nameText, hname, htext⟩ := readText_eq_ok_iff.1 ht
  rcases Cursor.of_nextKey hk with ⟨r, p, -, he⟩ | ⟨r, p, rfl, hc, he⟩ | ⟨r, p, r', p', rfl, hc, hd, he⟩
  · cases he
  · cases he
    rw [hc] at hpasses
    refine ⟨gap, [], nameText, hgap, nofun, hname, ?_⟩
    simpa [lead] using hpasses.trans ((Cursor.passes_byte 34 r p).trans htext)
  · cases he
    obtain ⟨before, hbefore, hpasses'⟩ := Cursor.passes_skipBlanks ⟨r, p.after 44⟩
    rw [hc] at hpasses
    rw [hd] at hpasses'
    refine ⟨gap, before, nameText, hgap, hbefore, hname, ?_⟩
    have hquoted := (Cursor.passes_byte 34 r' p').trans htext
    simpa [lead] using hpasses.trans ((Cursor.passes_byte 44 r p).trans (hpasses'.trans hquoted))

theorem exists_between {d₁ d₂ : Cursor} (h : d₁.colon = .ok d₂) :
    ∃ between, Blank between ∧ d₁.Passes (between ++ [58]) d₂ := by
  obtain ⟨between, hbetween, hpasses⟩ := d₁.passes_skipBlanks
  obtain ⟨r, p, hc, rfl⟩ := Cursor.of_colon h
  rw [hc] at hpasses
  exact ⟨between, hbetween, hpasses.trans (Cursor.passes_byte 58 r p)⟩

theorem members_of_membersFrom {ms ms' : List (String × Value)} (hreader : ReadsSpelled reader depth)
    (h : membersFrom reader ms first c = .ok (ms', d)) :
    ∃ (gap : Bytes) (members : List Member), Blank gap ∧ (∀ x ∈ members, x.Formed) ∧
      (∀ x ∈ members, Spells depth x.item.text x.item.value) ∧
      ms' = Value.insertAll ms (members.map Member.entry) ∧
      c.Passes (gap ++ (joined first (members.map Member.bytes) ++ [125])) d := by
  fun_induction membersFrom reader ms first c with
  | case1 => cases h
  | case2 ms first c d' hk =>
    cases h
    obtain ⟨gap, hgap, hpasses⟩ := c.passes_skipBlanks
    rcases Cursor.of_nextKey hk with ⟨r, p, hc, he⟩ | ⟨r, p, -, -, he⟩ | ⟨r, p, r', p', -, -, -, he⟩
    · cases he
      rw [hc] at hpasses
      exact ⟨gap, [], hgap, List.forall_mem_nil _, List.forall_mem_nil _, rfl,
        hpasses.trans (Cursor.passes_byte 125 r p)⟩
    · cases he
    · cases he
  | case3 => cases h
  | case4 => cases h
  | case5 => cases h
  | case6 ms first c d₀ hk k d₁ ht d₂ hc v d₃ hv ih =>
    obtain ⟨gap, before, nameText, hgap, hbefore, hname, hpasses⟩ := exists_name hk ht
    obtain ⟨between, hbetween, hcolon⟩ := exists_between hc
    obtain ⟨beforeItem, text, hbeforeItem, hspells, hread⟩ := hreader hv
    obtain ⟨after, members, hafter, hformed, heach, rfl, hrest⟩ := ih h
    refine ⟨gap, ⟨before, nameText, k, between, beforeItem, text, after, v⟩ :: members, hgap,
      List.forall_mem_cons.2 ⟨⟨hbefore, hname, hbetween, hbeforeItem, hafter⟩, hformed⟩,
      List.forall_mem_cons.2 ⟨hspells, heach⟩, rfl, ?_⟩
    have := hpasses.trans (hcolon.trans (hread.trans hrest))
    simpa [joined, Member.bytes, Item.bytes] using this

/-- What the first byte says is spelled, if what is nested is. -/
theorem spells_of_fronts {nested : Option (Reader Value)}
    (hnested : ∀ r ∈ nested, ∃ depth', depth = depth' + 1 ∧ ReadsSpelled r depth') (h : Fronts nested c v d) :
    ∃ text, Spells depth text v ∧ c.Passes text d := by
  cases h with
  | @null r p => exact ⟨_, .null, r, p, rfl, rfl⟩
  | @trueWord r p => exact ⟨_, .trueWord, r, p, rfl, rfl⟩
  | @falseWord r p => exact ⟨_, .falseWord, r, p, rfl, rfl⟩
  | int read =>
    obtain ⟨text, hnumber, hpasses⟩ := spelled_of_numberAt? read
    exact ⟨text, .int hnumber, hpasses⟩
  | float read =>
    obtain ⟨text, hnumber, hpasses⟩ := spelled_of_numberAt? read
    exact ⟨text, .float hnumber, hpasses⟩
  | @text r p s d read =>
    obtain ⟨text, hstring, hpasses⟩ := readText_eq_ok_iff.1 read
    exact ⟨_, .text hstring, (Cursor.passes_byte 34 r p).trans hpasses⟩
  | @list r p reader vs d within read =>
    obtain ⟨depth', rfl, hreader⟩ := hnested reader within
    obtain ⟨gap, items, hgap, hpadded, heach, rfl, hpasses⟩ := items_of_itemsFrom hreader read
    exact ⟨_, .list hgap hpadded heach, (Cursor.passes_byte 91 r p).trans hpasses⟩
  | @object r p reader ms d within read =>
    obtain ⟨depth', rfl, hreader⟩ := hnested reader within
    obtain ⟨gap, members, hgap, hformed, heach, rfl, hpasses⟩ := members_of_membersFrom hreader read
    exact ⟨_, .object hgap hformed heach, (Cursor.passes_byte 123 r p).trans hpasses⟩

end

theorem readsSpelled_of_within
    (hnested : ∀ r ∈ Value.within depth, ∃ depth', depth = depth' + 1 ∧ ReadsSpelled r depth') :
    ReadsSpelled (Value.reader depth) depth := by
  intro c d v h
  rw [Value.reader_read] at h
  obtain ⟨gap, hgap, hblanks⟩ := c.passes_skipBlanks
  obtain ⟨text, hspells, hpasses⟩ := spells_of_fronts hnested (readValue_eq_ok_iff.1 h)
  exact ⟨gap, text, hgap, hspells, hblanks.trans hpasses⟩

theorem readsSpelled_reader (depth : Nat) : ReadsSpelled (Value.reader depth) depth := by
  -- lists and objects are read by the reader for one level less
  induction depth with
  | zero =>
    refine readsSpelled_of_within fun r hr => ?_
    cases hr
  | succ depth ih =>
    refine readsSpelled_of_within fun r hr => ?_
    cases hr
    exact ⟨depth, rfl, ih⟩

/-! ### Whole documents -/

/-- What is read as a document is one, and every document is read. -/
theorem Value.parse_eq_ok_iff {text : Bytes} : parse text = .ok v ↔ Document text v := by
  unfold parse
  rw [readAll_eq_ok_iff]
  constructor
  · rintro ⟨d, hread, hend⟩
    obtain ⟨before, spelled, hbefore, hspells, r, p, hstart, rfl⟩ := readsSpelled_reader depthLimit hread
    obtain ⟨after, hafter, r', p', hd, hskip⟩ := Cursor.passes_skipBlanks ⟨r, p.past (before ++ spelled)⟩
    obtain ⟨rfl, rfl⟩ := Cursor.mk.inj hd
    obtain ⟨rfl, rfl⟩ := Cursor.mk.inj hstart
    rw [hskip] at hend
    obtain rfl : r' = [] := hend
    exact ⟨before, spelled, after, hbefore, hafter, hspells, by simp⟩
  · rintro ⟨before, spelled, after, hbefore, hafter, hspells, rfl⟩
    have hread := hspells.reads.reads after (Position.start.past before)
      (List.append_nil after ▸ Closes.of_blank hafter trivial)
    refine ⟨_, (Value.read_blank hbefore).trans hread, ?_⟩
    have hend (q : Position) : Cursor.skipBlanks ⟨after ++ [], q⟩ = ⟨[], q.past after⟩ :=
      Cursor.skipBlanks_blank hafter
    rw [List.append_nil] at hend
    rw [hend]

end Json

end Fulfilment
