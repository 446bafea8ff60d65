import Fulfilment.Proofs.Json.Value

/-!
# What stood at the front

Where a reader has succeeded, what it has read stood at the front of the text behind some blanks, and this is what can
be said of it: `Cursor.of_nextItem` and `Cursor.of_nextKey` of the way to an item or a key, and `readValue_eq_ok_iff`
of a value, which is of one kind by its first byte.
-/

namespace Fulfilment

namespace Json

variable {c d : Cursor} {first : Bool}

namespace Cursor

variable {t : Turn}

variable {b : UInt8} {rest : Bytes} {p : Position}

theorem skipBlanks_of_blank (h : isBlankByte b = true) :
    skipBlanks ⟨b :: rest, p⟩ = skipBlanks ⟨rest, p.after b⟩ := by
  rw [skipBlanks, blanks, if_pos h, skipBlanks]

theorem skipBlanks_of_not_blank (h : ¬ isBlankByte b = true) : skipBlanks ⟨b :: rest, p⟩ = ⟨b :: rest, p⟩ := by
  rw [skipBlanks, blanks, if_neg h]

theorem skipBlanks_skipBlanks (c : Cursor) : c.skipBlanks.skipBlanks = c.skipBlanks := by
  obtain ⟨rest, p⟩ := c
  induction rest generalizing p with
  | nil => rfl
  | cons b rest ih =>
    by_cases hb : isBlankByte b = true
    · rw [skipBlanks_of_blank hb, ih]
    · rw [skipBlanks_of_not_blank hb, skipBlanks_of_not_blank hb]

/-! ### The way to an item or a key -/

theorem of_nextItem (h : c.nextItem first = .ok t) :
    (∃ r p, c.skipBlanks = ⟨93 :: r, p⟩ ∧ t = .done ⟨r, p.after 93⟩) ∨
    (∃ b r p, c.skipBlanks = ⟨b :: r, p⟩ ∧ b ≠ 93 ∧
      (first = true ∧ t = .more ⟨b :: r, p⟩ ∨
        first = false ∧ b = 44 ∧ ∃ b' r' p', skipBlanks ⟨r, p.after 44⟩ = ⟨b' :: r', p'⟩ ∧ b' ≠ 93 ∧
          t = .more ⟨b' :: r', p'⟩)) := by
  unfold nextItem at h
  rcases hc : c.skipBlanks with ⟨_ | ⟨b, r⟩, p⟩
  · rw [hc] at h
    cases h
  · rw [hc] at h
    dsimp only at h
    split at h
    · rename_i hb
      subst hb
      cases h
      exact .inl ⟨r, p, rfl, rfl⟩
    · rename_i hb
      refine .inr ⟨b, r, p, rfl, hb, ?_⟩
      cases first with
      | true =>
        cases h
        exact .inl ⟨rfl, rfl⟩
      | false =>
        rw [if_neg Bool.false_ne_true] at h
        split at h
        · rename_i hcomma
          subst hcomma
          rcases hd : skipBlanks ⟨r, p.after 44⟩ with ⟨_ | ⟨b', r'⟩, p'⟩
          · rw [hd] at h
            cases h
          · rw [hd] at h
            dsimp only at h
            split at h
            · cases h
            · rename_i hb'
              cases h
              exact .inr ⟨rfl, rfl, b', r', p', rfl, hb', rfl⟩
        · cases h

theorem of_nextKey (h : c.nextKey first = .ok t) :
    (∃ r p, c.skipBlanks = ⟨125 :: r, p⟩ ∧ t = .done ⟨r, p.after 125⟩) ∨
    (∃ r p, first = true ∧ c.skipBlanks = ⟨34 :: r, p⟩ ∧ t = .more ⟨r, p.after 34⟩) ∨
    (∃ r p r' p', first = false ∧ c.skipBlanks = ⟨44 :: r, p⟩ ∧ skipBlanks ⟨r, p.after 44⟩ = ⟨34 :: r', p'⟩ ∧
      t = .more ⟨r', p'.after 34⟩) := by
  unfold nextKey at h
  rcases hc : c.skipBlanks with ⟨_ | ⟨b, r⟩, p⟩
  · rw [hc] at h
    cases h
  · rw [hc] at h
    dsimp only at h
    split at h
    · rename_i hb
      subst hb
      cases h
      exact .inl ⟨r, p, rfl, rfl⟩
    · cases first with
      | true =>
        rw [if_pos rfl] at h
        split at h
        · rename_i hb
          subst hb
          cases h
          exact .inr (.inl ⟨r, p, rfl, rfl, rfl⟩)
        · cases h
      | false =>
        rw [if_neg Bool.false_ne_true] at h
        split at h
        · rename_i hcomma
          subst hcomma
          rcases hd : skipBlanks ⟨r, p.after 44⟩ with ⟨_ | ⟨b', r'⟩, p'⟩
          · rw [hd] at h
            cases h
          · rw [hd] at h
            dsimp only at h
            split at h
            · rename_i hb'
              subst hb'
              cases h
              exact .inr (.inr ⟨r, p, r', p', rfl, rfl, hd, rfl⟩)
            · split at h <;> cases h
        · cases h

theorem of_colon (h : c.colon = .ok d) : ∃ r p, c.skipBlanks = ⟨58 :: r, p⟩ ∧ d = ⟨r, p.after 58⟩ := by
  unfold colon at h
  rcases hc : c.skipBlanks with ⟨_ | ⟨b, r⟩, p⟩
  · rw [hc] at h
    cases h
  · rw [hc] at h
    dsimp only at h
    split at h
    · rename_i hb
      subst hb
      cases h
      exact ⟨r, p, rfl, rfl⟩
    · cases h

theorem word_eq_ok_iff {ws : Bytes} : word ws c = .ok d ↔ ∃ r, c.rest = ws ++ r ∧ d = ⟨r, c.position.past ws⟩ := by
  induction ws generalizing c with
  | nil =>
    constructor
    · intro h
      cases h
      exact ⟨_, rfl, rfl⟩
    · rintro ⟨r, hr, rfl⟩
      rw [List.nil_append] at hr
      rw [← hr]
      rfl
  | cons w ws ih =>
    obtain ⟨rest, p⟩ := c
    unfold word
    constructor
    · intro h
      split at h
      · cases h
      · rename_i b r hr
        obtain rfl : rest = b :: r := hr
        split at h
        · rename_i hb
          subst hb
          obtain ⟨r', hr', hd⟩ := ih.1 h
          exact ⟨r', congrArg (b :: ·) hr', hd⟩
        · cases h
    · rintro ⟨r, hr, rfl⟩
      obtain rfl : rest = w :: (ws ++ r) := hr
      dsimp only
      rw [if_pos rfl]
      exact ih.2 ⟨r, rfl, rfl⟩

theorem word_append (ws r : Bytes) (p : Position) : word ws ⟨ws ++ r, p⟩ = .ok ⟨r, p.past ws⟩ :=
  word_eq_ok_iff.2 ⟨r, rfl, rfl⟩

end Cursor

/-! ### Whole documents -/

theorem readAll_eq_ok_iff {α : Type} {r : Reader α} {text : Bytes} {a : α} :
    readAll r text = .ok a ↔ ∃ d, r.read (.start text) = .ok (a, d) ∧ d.skipBlanks.rest = [] := by
  constructor
  · intro h
    obtain ⟨⟨a', d⟩, hread, hend⟩ := Program.ok_of_bind h
    obtain ⟨⟨⟩, hatEnd, ha⟩ := Program.ok_of_bind hend
    cases ha
    refine ⟨d, hread, ?_⟩
    unfold Cursor.atEnd at hatEnd
    split at hatEnd
    · assumption
    · cases hatEnd
  · rintro ⟨d, hread, hend⟩
    unfold readAll
    rw [hread]
    change (Cursor.atEnd d >>= fun _ => Except.ok a) = _
    unfold Cursor.atEnd
    rw [hend]
    rfl

/-! ### Values -/

/-- What a first byte says of a value, it can be said of no other. -/
def Lead.Of (b : UInt8) : Lead → Prop
  | null => b = 110
  | true => b = 116
  | false => b = 102
  | minus => b = 45
  | digit => 48 ≤ b ∧ b ≤ 57
  | quote => b = 34
  | bracket => b = 91
  | brace => b = 123
  | other => True

theorem Lead.of_ofByte (b : UInt8) : (Lead.ofByte b).Of b := by
  unfold ofByte
  repeat' split
  all_goals first | assumption | trivial

/-- The value `v` stands at the front and `d` is behind it, where `nested` reads what stands within lists and
objects. -/
inductive Fronts (nested : Option (Reader Value)) : Cursor → Value → Cursor → Prop
  | null {r : Bytes} {p : Position} : Fronts nested ⟨110 :: (nullTail ++ r), p⟩ .null ⟨r, (p.after 110).past nullTail⟩
  | trueWord {r : Bytes} {p : Position} :
    Fronts nested ⟨116 :: (trueTail ++ r), p⟩ (.bool true) ⟨r, (p.after 116).past trueTail⟩
  | falseWord {r : Bytes} {p : Position} :
    Fronts nested ⟨102 :: (falseTail ++ r), p⟩ (.bool false) ⟨r, (p.after 102).past falseTail⟩
  | int {c d : Cursor} {n : Int} (read : numberAt? c = some (.ok (.int n, d))) : Fronts nested c (.int n) d
  | float {c d : Cursor} {x : Float} (read : numberAt? c = some (.ok (.float x, d))) : Fronts nested c (.float x) d
  | text {r : Bytes} {p : Position} {s : String} {d : Cursor} (read : readText ⟨r, p.after 34⟩ = .ok (s, d)) :
    Fronts nested ⟨34 :: r, p⟩ (.text s) d
  | list {r : Bytes} {p : Position} {reader : Reader Value} {vs : List Value} {d : Cursor}
      (within : nested = some reader)
      (read : reader.itemsFrom [] true ⟨r, p.after 91⟩ = .ok (vs, d)) :
    Fronts nested ⟨91 :: r, p⟩ (.list vs) d
  | object {r : Bytes} {p : Position} {reader : Reader Value} {ms : List (String × Value)} {d : Cursor}
      (within : nested = some reader) (read : membersFrom reader [] true ⟨r, p.after 123⟩ = .ok (ms, d)) :
    Fronts nested ⟨123 :: r, p⟩ (.object ms) d

theorem of_readWord {a b : Value} {word r : Bytes} {p : Position} (h : readWord a word ⟨r, p⟩ = .ok (b, d)) :
    ∃ r', r = word ++ r' ∧ b = a ∧ d = ⟨r', p.past word⟩ := by
  unfold readWord at h
  split at h
  · cases h
  · rename_i hw
    cases h
    obtain ⟨r', hr', rfl⟩ := Cursor.word_eq_ok_iff.1 hw
    exact ⟨r', hr', rfl, rfl⟩

theorem readWord_append {a : Value} {word r : Bytes} {p : Position} :
    readWord a word ⟨word ++ r, p⟩ = .ok (a, ⟨r, p.past word⟩) := by
  unfold readWord
  rw [Cursor.word_append]

variable {nested : Option (Reader Value)} {v : Value}

theorem fronts_of_readValue (h : readValue nested c = .ok (v, d)) : Fronts nested c.skipBlanks v d := by
  unfold readValue at h
  rcases hc : c.skipBlanks with ⟨_ | ⟨b, r⟩, p⟩
  · rw [hc] at h
    cases h
  · rw [hc] at h
    dsimp only at h
    have hb := Lead.of_ofByte b
    cases hlead : Lead.ofByte b with
    | null | true | false =>
      rw [hlead] at h hb
      obtain rfl : b = _ := hb
      obtain ⟨r', rfl, rfl, rfl⟩ := of_readWord h
      constructor
    | minus | digit =>
      rw [hlead] at h
      dsimp only at h
      split at h <;> cases h
      rename_i n hn
      have hnumber : numberAt? ⟨b :: r, p⟩ = some (.ok (n, d)) := by
        unfold numberAt?
        dsimp only
        rw [hlead]
        exact congrArg some hn
      cases n with
      | int => exact .int hnumber
      | float => exact .float hnumber
    | quote =>
      rw [hlead] at h hb
      obtain rfl : b = 34 := hb
      dsimp only at h
      split at h <;> cases h
      rename_i ht
      exact .text ht
    | bracket =>
      rw [hlead] at h hb
      obtain rfl : b = 91 := hb
      dsimp only at h
      split at h
      · cases h
      · split at h <;> cases h
        rename_i hitems
        exact .list rfl hitems
    | brace =>
      rw [hlead] at h hb
      obtain rfl : b = 123 := hb
      dsimp only at h
      split at h
      · cases h
      · split at h <;> cases h
        rename_i hmembers
        exact .object rfl hmembers
    | other =>
      rw [hlead] at h
      cases h

theorem readValue_of_fronts (h : Fronts nested c.skipBlanks v d) : readValue nested c = .ok (v, d) := by
  generalize hc : c.skipBlanks = c₀ at h
  cases h with
  | int read => exact readValue_of_numberAt (hc ▸ read)
  | float read => exact readValue_of_numberAt (hc ▸ read)
  | null | trueWord | falseWord =>
    unfold readValue
    rw [hc]
    exact readWord_append
  | text read =>
    unfold readValue
    rw [hc]
    simp [Lead.ofByte, read]
  | list within read =>
    unfold readValue
    rw [hc, within]
    simp [Lead.ofByte, Reader.items, read]
  | object within read =>
    unfold readValue
    rw [hc, within]
    simp [Lead.ofByte, read]

theorem readValue_eq_ok_iff : readValue nested c = .ok (v, d) ↔ Fronts nested c.skipBlanks v d :=
  ⟨fronts_of_readValue, readValue_of_fronts⟩

end Json

end Fulfilment
