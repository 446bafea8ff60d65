import Fulfilment.Proofs.Json.Kept
import Fulfilment.Proofs.Json.Reads

/-!
# Free-form values written and read back

A value that is kept is read back as it is by a reader for its depth, and refused by every other
(`Value.Kept.answered`).
-/

namespace Fulfilment

namespace Json

variable {r : Reader Value} {rest : Bytes} {p : Position} {first : Bool}

/-- The text of a value as bytes. -/
def Value.written (v : Value) : Bytes := Utf8.encode v.print

/-- The text of a member as bytes. -/
def writtenMember (m : String × Value) : Bytes := member m.1 m.2.written

/-! ### Members -/

section

variable {ms ms' : List (String × Value)} {c d d₁ d₂ d₃ : Cursor} {k : String}

theorem membersFrom_done (hk : c.nextKey first = .ok (.done d)) : membersFrom r ms first c = .ok (ms, d) := by
  rw [membersFrom]
  split
  · rename_i he
    cases hk.symm.trans he
  · rename_i he
    cases hk.symm.trans he
    rfl
  · rename_i he
    cases hk.symm.trans he

theorem membersFrom_more (hk : c.nextKey first = .ok (.more d)) (ht : readText d = .ok (k, d₁))
    (hc : d₁.colon = .ok d₂) :
    membersFrom r ms first c = match r.read d₂ with
      | .error e => .error e
      | .ok (v, d₃) => membersFrom r (Value.insert k v ms) false d₃ := by
  rw [membersFrom]
  split
  · rename_i he
    cases hk.symm.trans he
  · rename_i he
    cases hk.symm.trans he
  · rename_i he
    cases hk.symm.trans he
    split
    · rename_i he
      cases ht.symm.trans he
    · rename_i he
      cases ht.symm.trans he
      split
      · rename_i he
        cases hc.symm.trans he
      · rename_i he
        cases hc.symm.trans he
        split
        · rename_i he
          rw [he]
        · rename_i he
          rw [he]

theorem membersFrom_member {text : Bytes} :
    membersFrom r ms first ⟨lead first ++ member k text ++ rest, p⟩ =
      match r.read ⟨text ++ rest, p.past (lead first ++ 34 :: closedText k ++ [58])⟩ with
      | .error e => .error e
      | .ok (v, d) => membersFrom r (Value.insert k v ms) false d := by
  have hkey := readText_closedText k (58 :: text ++ rest) (p.past (lead first ++ [34]))
  have htext : lead first ++ member k text ++ rest = lead first ++ 34 :: (closedText k ++ (58 :: text ++ rest)) := by
    simp [member]
  have hplace : ((p.past (lead first ++ [34])).past (closedText k)).after 58 =
      p.past (lead first ++ 34 :: closedText k ++ [58]) := by
    simp
  rw [htext, membersFrom_more Cursor.nextKey_lead hkey Cursor.colon_colon, hplace]
  rfl

theorem membersFrom_joined (h : ∀ m ∈ ms', r.Reads m.2.written m.2) :
    membersFrom r ms first ⟨joined first (ms'.map writtenMember) ++ 125 :: rest, p⟩ =
      .ok (Value.insertAll ms ms', ⟨rest, p.past (joined first (ms'.map writtenMember) ++ [125])⟩) := by
  induction ms' generalizing ms first p with
  | nil => exact membersFrom_done Cursor.nextKey_brace
  | cons m ms' ih =>
    obtain ⟨k, v⟩ := m
    obtain ⟨hv, hrest⟩ := List.forall_mem_cons.1 h
    rw [List.map_cons, joined, List.append_assoc _ _ (125 :: rest), writtenMember, membersFrom_member,
      hv.reads _ _ (closes_joined .brace)]
    dsimp only
    rw [ih hrest]
    simp [member, Value.insertAll]

/-- One member that is refused is enough for the object to be. -/
theorem membersFrom_refused (ms : List (String × Value)) (first : Bool) (rest : Bytes) (p : Position)
    (h : ∀ m ∈ ms', r.Reads m.2.written m.2 ∨ r.Refuses m.2.written) (hdeep : ∃ m ∈ ms', r.Refuses m.2.written) :
    ∃ e, membersFrom r ms first ⟨joined first (ms'.map writtenMember) ++ 125 :: rest, p⟩ = .error e ∧ e.isDeep := by
  induction ms' generalizing ms first p with
  | nil =>
    obtain ⟨m, hm, -⟩ := hdeep
    exact absurd hm List.not_mem_nil
  | cons m ms' ih =>
    obtain ⟨k, v⟩ := m
    obtain ⟨hv, hrest⟩ := List.forall_mem_cons.1 h
    rw [List.map_cons, joined, List.append_assoc _ _ (125 :: rest), writtenMember, membersFrom_member]
    rcases hv with hreads | hrefuses
    · rw [hreads.reads _ _ (closes_joined .brace)]
      obtain ⟨m, hm, hdeep⟩ := hdeep
      rcases List.mem_cons.1 hm with rfl | hm
      · exact (hreads.not_refuses hdeep).elim
      · exact ih _ _ _ hrest ⟨m, hm, hdeep⟩
    · obtain ⟨e, he, hcause⟩ := hrefuses.refuses (joined false (ms'.map writtenMember) ++ 125 :: rest)
        (p.past (lead first ++ 34 :: closedText k ++ [58])) (closes_joined .brace)
      rw [he]
      exact ⟨e, rfl, hcause⟩

end

/-! ### Values of one kind -/

section

variable {nested : Option (Reader Value)}

theorem readValue_null : readValue nested ⟨Value.null.written ++ rest, p⟩ =
    .ok (.null, ⟨rest, p.past Value.null.written⟩) := rfl

theorem readValue_bool (b : Bool) : readValue nested ⟨(Value.bool b).written ++ rest, p⟩ =
    .ok (.bool b, ⟨rest, p.past (Value.bool b).written⟩) := by
  cases b <;> rfl

theorem written_text (s : String) : (Value.text s).written = 34 :: closedText s := by
  rw [Value.written, Value.print, encode_printText]

theorem readValue_quote : readValue nested ⟨34 :: rest, p⟩ =
    match readText ⟨rest, p.after 34⟩ with
    | .error e => .error e
    | .ok (s, d) => .ok (.text s, d) := rfl

theorem readValue_text (s : String) : readValue nested ⟨(Value.text s).written ++ rest, p⟩ =
    .ok (.text s, ⟨rest, p.past (Value.text s).written⟩) := by
  rw [written_text, List.cons_append, readValue_quote, readText_closedText]
  rfl

/-! Integers start with a digit or a minus sign. -/

theorem lead_of_isDigit (rest : Bytes) {c : Char} (h : c.isDigit = true) :
    Lead.ofByte (Utf8.byte c.toNat) = .digit ∧ Opens (Utf8.byte c.toNat :: rest) := by
  obtain ⟨hlo, hhi⟩ := toNat_of_isDigit h
  have all : ∀ n < 10, Lead.ofByte (Utf8.byte (48 + n)) = .digit ∧
      Cursor.isBlankByte (Utf8.byte (48 + n)) = false ∧ Utf8.byte (48 + n) ≠ 93 := by decide
  have hdigit := all (c.toNat - 48) (by omega)
  rwa [Nat.add_sub_cancel' hlo] at hdigit

theorem digits_cons (n : Nat) : ∃ b text, Utf8.encode (Nat.toDigits 10 n) = b :: text ∧ Lead.ofByte b = .digit ∧
    Opens (b :: text) := by
  obtain ⟨c, cs, hcs⟩ := List.exists_cons_of_ne_nil (Nat.toDigits_ne_nil (n := n) (b := 10))
  have hc := isDigit_toDigits (n := n) c (hcs ▸ List.mem_cons_self)
  obtain ⟨hlead, hopens⟩ := lead_of_isDigit (Utf8.encode cs) hc
  refine ⟨_, _, ?_, hlead, hopens⟩
  rw [hcs, Utf8.encode_cons, (NumberText.digitByte_of_isDigit hc).1]
  rfl

theorem written_natCast (n : Nat) : (Value.int n).written = Utf8.encode (Nat.toDigits 10 n) := by
  rw [Value.written, Value.print, printInt_natCast]

theorem written_neg {n : Nat} (h : 0 < n) : (Value.int (-n)).written = 45 :: Utf8.encode (Nat.toDigits 10 n) := by
  rw [Value.written, Value.print, printInt_neg h]
  rfl

/-- An integer is written in digits, behind a minus sign where it is negative. -/
theorem written_int_cases (n : Int) :
    (∃ m : Nat, 0 < m ∧ n = -m ∧ (Value.int n).written = 45 :: Utf8.encode (Nat.toDigits 10 m)) ∨
    (∃ (m : Nat) (b : UInt8) (text : Bytes), n = m ∧ (Value.int n).written = Utf8.encode (Nat.toDigits 10 m) ∧
      Utf8.encode (Nat.toDigits 10 m) = b :: text ∧ Lead.ofByte b = .digit ∧ Opens (b :: text)) := by
  by_cases hneg : n < 0
  · obtain ⟨m, rfl⟩ : ∃ m : Nat, n = -m := ⟨n.natAbs, by omega⟩
    exact .inl ⟨m, by omega, rfl, written_neg (by omega)⟩
  · obtain ⟨m, rfl⟩ := Int.eq_ofNat_of_zero_le (Int.not_lt.1 hneg)
    obtain ⟨b, text, htext, hlead, hopens⟩ := digits_cons m
    exact .inr ⟨m, b, text, rfl, written_natCast m, htext, hlead, hopens⟩

theorem opens_int (n : Int) : Opens (Value.int n).written := by
  rcases written_int_cases n with ⟨m, -, -, hwritten⟩ | ⟨m, b, text, -, hwritten, htext, -, hopens⟩
  · rw [hwritten]
    exact ⟨rfl, by decide⟩
  · rw [hwritten, htext]
    exact hopens

theorem numberAt_int {n : Int} (low : min64 ≤ n) (high : n ≤ maxWord64) (hrest : Closes rest) :
    numberAt? ⟨(Value.int n).written ++ rest, p⟩ = some (.ok (.int n, ⟨rest, p.past (Value.int n).written⟩)) := by
  rcases written_int_cases n with ⟨m, hpos, rfl, hwritten⟩ | ⟨m, b, text, rfl, hwritten, htext, hlead, -⟩
  · rw [hwritten]
    change some (readNumber true ⟨Utf8.encode (Nat.toDigits 10 m) ++ rest, p.after 45⟩) = _
    rw [readNumber_minus hpos (by omega) hrest]
    rfl
  · have hread := readNumber_digits (p := p) high hrest
    rw [hwritten]
    unfold numberAt?
    rw [htext] at hread ⊢
    simp only [List.cons_append, hlead] at hread ⊢
    rw [hread]

theorem readValue_of_numberAt {c d : Cursor} {n : Number} (h : numberAt? c.skipBlanks = some (.ok (n, d))) :
    readValue nested c = .ok (n.toValue, d) := by
  unfold numberAt? at h
  unfold readValue
  dsimp only
  cases hrest : c.skipBlanks.rest with
  | nil =>
    rw [hrest] at h
    cases h
  | cons b text =>
    rw [hrest] at h
    dsimp only at h ⊢
    cases hlead : Lead.ofByte b with
    | minus =>
      rw [hlead] at h
      dsimp only at h ⊢
      rw [Option.some.inj h]
    | digit =>
      rw [hlead] at h
      dsimp only at h ⊢
      rw [Option.some.inj h]
    | _ =>
      rw [hlead] at h
      cases h

theorem readValue_int {n : Int} (low : min64 ≤ n) (high : n ≤ maxWord64) (hrest : Closes rest) :
    readValue nested ⟨(Value.int n).written ++ rest, p⟩ = .ok (.int n, ⟨rest, p.past (Value.int n).written⟩) := by
  have hnumber := numberAt_int (p := p) low high hrest
  rw [← (opens_int n).skipBlanks] at hnumber
  exact readValue_of_numberAt hnumber

/-! Lists and objects are written with brackets around what they hold. -/

theorem printItems_eq (items : List Value) : Value.printItems items = items.map Value.print := by
  induction items with
  | nil => rfl
  | cons v rest ih => rw [Value.printItems, ih, List.map_cons]

theorem printEach_eq (members : List (String × Value)) :
    Value.printEach members = members.map fun m => (m.1, m.2.print) := by
  induction members with
  | nil => rfl
  | cons m rest ih => rw [Value.printEach, ih, List.map_cons]

theorem written_list (items : List Value) :
    (Value.list items).written = 91 :: (joined true (items.map Value.written) ++ [93]) := by
  rw [Value.written, Value.print, printList, printItems_eq, Utf8.encode_append, Utf8.encode_cons, encode_intercalate,
    List.map_map]
  rfl

theorem encode_printMembers (members : List (String × List Char)) :
    Utf8.encode (printMembers members) =
      123 :: (joined true (members.map fun m => member m.1 (Utf8.encode m.2)) ++ [125]) := by
  rw [printMembers, Utf8.encode_append, Utf8.encode_cons, encode_intercalate, List.map_map]
  simp only [Function.comp_def, encode_member]
  rfl

theorem written_object (members : List (String × Value)) :
    (Value.object members).written = 123 :: (joined true (members.map writtenMember) ++ [125]) := by
  rw [Value.written, Value.print, encode_printMembers, printEach_eq, List.map_map]
  rfl

theorem readValue_bracket : readValue (some r) ⟨91 :: rest, p⟩ =
    match r.itemsFrom [] true ⟨rest, p.after 91⟩ with
    | .error e => .error e
    | .ok (vs, d) => .ok (.list vs, d) := rfl

theorem readValue_brace : readValue (some r) ⟨123 :: rest, p⟩ =
    match membersFrom r [] true ⟨rest, p.after 123⟩ with
    | .error e => .error e
    | .ok (ms, d) => .ok (.object ms, d) := rfl

theorem readValue_list (items : List Value) :
    readValue (some r) ⟨(Value.list items).written ++ rest, p⟩ =
      (r.itemsFrom [] true ⟨joined true (items.map Value.written) ++ 93 :: rest, p.after 91⟩).map
        fun x => (.list x.1, x.2) := by
  rw [written_list, List.cons_append, List.append_assoc, List.singleton_append, readValue_bracket]
  cases r.itemsFrom [] true ⟨joined true (items.map Value.written) ++ 93 :: rest, p.after 91⟩ <;> rfl

theorem readValue_object (members : List (String × Value)) :
    readValue (some r) ⟨(Value.object members).written ++ rest, p⟩ =
      (membersFrom r [] true ⟨joined true (members.map writtenMember) ++ 125 :: rest, p.after 123⟩).map
        fun x => (.object x.1, x.2) := by
  rw [written_object, List.cons_append, List.append_assoc, List.singleton_append, readValue_brace]
  cases membersFrom r [] true ⟨joined true (members.map writtenMember) ++ 125 :: rest, p.after 123⟩ <;> rfl

end

/-! ### Values of every kind -/

namespace Value

variable {v : Value} {d : Nat}

/-- The reader of what stands within a value that is nested at most `d` deep. -/
def within : Nat → Option (Reader Value)
  | 0 => none
  | d + 1 => some (reader d)

theorem reader_read (d : Nat) : (reader d).read = readValue (within d) := by
  cases d <;> rfl

theorem opens_object (members : List (String × Value)) : Opens (object members).written := by
  rw [written_object]
  exact ⟨rfl, by decide⟩

theorem Kept.opens (h : v.Kept) : Opens v.written := by
  cases h with
  | null => exact ⟨rfl, by decide⟩
  | bool b => cases b <;> exact ⟨rfl, by decide⟩
  | int => exact opens_int _
  | text s =>
    rw [written_text]
    exact ⟨rfl, by decide⟩
  | list =>
    rw [written_list]
    exact ⟨rfl, by decide⟩
  | object => exact opens_object _

/-- A reader for the depth of the value reads it as it is written, and every other refuses it. -/
def Answered (v : Value) : Prop :=
  ∀ d, (v.depth ≤ d → (reader d).Reads v.written v) ∧ (d < v.depth → (reader d).Refuses v.written)

theorem answered_flat (hopens : Opens v.written) (hdepth : v.depth = 0)
    (h : ∀ nested rest p, Closes rest →
      readValue nested ⟨v.written ++ rest, p⟩ = .ok (v, ⟨rest, p.past v.written⟩)) : v.Answered := by
  intro d
  rw [hdepth]
  exact ⟨fun _ => ⟨hopens, fun rest p hrest => reader_read d ▸ h _ rest p hrest⟩, nofun⟩

theorem Answered.reads_or_refuses (h : v.Answered) (d : Nat) :
    (reader d).Reads v.written v ∨ (reader d).Refuses v.written :=
  (Nat.lt_or_ge d v.depth).symm.imp (h d).1 (h d).2

theorem answered_list {items : List Value} (hopens : Opens (list items).written) (h : ∀ v ∈ items, v.Answered) :
    (list items).Answered := by
  intro d
  cases d with
  | zero =>
    -- no list is as shallow as that, and its bracket is refused at once
    refine ⟨nofun, fun _ => ⟨hopens, fun rest p _ => ?_⟩⟩
    rw [reader_read, written_list]
    exact ⟨_, rfl, rfl⟩
  | succ d =>
    constructor
    · intro hdepth
      rw [depth_list_le] at hdepth
      refine ⟨hopens, fun rest p _ => ?_⟩
      rw [reader_read, within, readValue_list, Reader.itemsFrom_joined fun v hv => (h v hv d).1 (hdepth v hv),
        written_list]
      rfl
    · intro hdepth
      obtain ⟨v, hv, hdeep⟩ := lt_depth_list.1 hdepth
      refine ⟨hopens, fun rest p _ => ?_⟩
      obtain ⟨e, he, hcause⟩ := Reader.itemsFrom_refused [] true rest (p.after 91)
        (fun v hv => (h v hv).reads_or_refuses d) ⟨v, hv, (h v hv d).2 hdeep⟩
      refine ⟨e, ?_, hcause⟩
      rw [reader_read, within, readValue_list, he]
      rfl

/-- Members are read in any order, and come to stand in increasing order of their names. -/
theorem reads_object {members : List (String × Value)} (h : ∀ m ∈ members, (reader d).Reads m.2.written m.2) :
    (reader (d + 1)).Reads (object members).written (object (insertAll [] members)) := by
  refine ⟨opens_object members, fun rest p _ => ?_⟩
  have hread : membersFrom (reader d) [] true ⟨joined true (members.map writtenMember) ++ 125 :: rest, p.after 123⟩
      = _ := membersFrom_joined h
  rw [reader_read, within, readValue_object, hread, written_object]
  rfl

theorem answered_object {members : List (String × Value)} (hmembers : Ascending members)
    (h : ∀ m ∈ members, m.2.Answered) : (object members).Answered := by
  have hopens := opens_object members
  intro d
  cases d with
  | zero =>
    refine ⟨nofun, fun _ => ⟨hopens, fun rest p _ => ?_⟩⟩
    rw [reader_read, written_object]
    exact ⟨_, rfl, rfl⟩
  | succ d =>
    constructor
    · intro hdepth
      rw [depth_object_le] at hdepth
      have hread := reads_object fun m hm => (h m hm d).1 (hdepth m hm)
      rwa [insertAll_of_ascending (show Ascending ([] ++ members) from hmembers)] at hread
    · intro hdepth
      obtain ⟨m, hm, hdeep⟩ := lt_depth_object.1 hdepth
      refine ⟨hopens, fun rest p _ => ?_⟩
      obtain ⟨e, he, hcause⟩ := membersFrom_refused [] true rest (p.after 123)
        (fun m hm => (h m hm).reads_or_refuses d) ⟨m, hm, (h m hm d).2 hdeep⟩
      refine ⟨e, ?_, hcause⟩
      rw [reader_read, within, readValue_object, he]
      rfl

/-- What is kept is read back wherever its depth allows it. -/
theorem Kept.answered (h : v.Kept) : v.Answered := by
  -- the induction is on what is kept; the reader's depth falls by one with each list and object
  have hopens := h.opens
  induction h with
  | null => exact answered_flat hopens rfl fun _ _ _ _ => readValue_null
  | bool b => exact answered_flat hopens rfl fun _ _ _ _ => readValue_bool b
  | int low high => exact answered_flat hopens rfl fun _ _ _ => readValue_int low high
  | text s => exact answered_flat hopens rfl fun _ _ _ _ => readValue_text s
  | list each ih => exact answered_list hopens fun v hv => ih v hv (each v hv).opens
  | object each ascending ih => exact answered_object ascending fun m hm => ih m hm (each m hm).opens

theorem Kept.parse_written (h : v.Kept) (hdepth : v.depth ≤ depthLimit) : parse v.written = .ok v :=
  ((h.answered depthLimit).1 hdepth).readAll

end Value

end Json

end Fulfilment
