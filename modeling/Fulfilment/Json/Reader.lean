import Fulfilment.Json.Number

/-!
# Reading values

The reader of free-form values, and the ways to pass over a value that is not wanted or to say what it is. Values that
are read may be nested to a given depth; values that are skipped, to any.

* `Value.reader`: reads any value. Of members of one name the last is kept.
* `skipValue`: passes over a value.
* `unexpected`: the fault of a value that stands where another kind should.
-/

namespace Fulfilment

namespace Json

/-- What the first byte of a value says about it. -/
inductive Lead
  | null
  | true
  | false
  | minus
  | digit
  | quote
  | bracket
  | brace
  | other
  deriving DecidableEq

namespace Lead

def ofByte (b : UInt8) : Lead :=
  if b = 110 then null
  else if b = 116 then true
  else if b = 102 then false
  else if b = 45 then minus
  else if 48 ≤ b ∧ b ≤ 57 then digit
  else if b = 34 then quote
  else if b = 91 then bracket
  else if b = 123 then brace
  else other

end Lead

/-- The letters of the words behind their first. -/
def nullTail : Bytes := [117, 108, 108]
def trueTail : Bytes := [114, 117, 101]
def falseTail : Bytes := [97, 108, 115, 101]

/-- Takes a word and stands for the value `a`. -/
def readWord {α : Type} (a : α) (word : Bytes) (c : Cursor) : Except Fault (α × Cursor) :=
  match c.word word with
  | .error e => .error e
  | .ok d => .ok (a, d)

theorem size_readWord {α : Type} {a b : α} {word : Bytes} {c d : Cursor} (h : readWord a word c = .ok (b, d)) :
    d.size ≤ c.size := by
  unfold readWord at h
  split at h
  · cases h
  · rename_i hw
    cases h
    exact Cursor.size_word hw

/-! ### Values that are wanted -/

/-- The members up to the closing brace, written into `ms`. -/
def membersFrom (r : Reader Value) (ms : List (String × Value)) (first : Bool) (c : Cursor) :
    Except Fault (List (String × Value) × Cursor) :=
  match _hk : c.nextKey first with
  | .error e => .error e
  | .ok (.done d) => .ok (ms, d)
  | .ok (.more d) =>
    match _ht : readText d with
    | .error e => .error e
    | .ok (k, d₁) =>
      match _hc : d₁.colon with
      | .error e => .error e
      | .ok d₂ =>
        match _hv : r.read d₂ with
        | .error e => .error e
        | .ok (v, d₃) => membersFrom r (Value.insert k v ms) false d₃
  termination_by c.size
  decreasing_by
    have h₁ := Cursor.size_nextKey _hk
    have h₂ := size_readText _ht
    have h₃ := Cursor.size_colon _hc
    have h₄ := r.shrinks _hv
    simp only [Cursor.Turn.cursor] at h₁
    omega

theorem size_membersFrom {r : Reader Value} {ms ms' : List (String × Value)} {first : Bool} {c d : Cursor}
    (h : membersFrom r ms first c = .ok (ms', d)) : d.size < c.size := by
  fun_induction membersFrom r ms first c with
  | case1 => cases h
  | case2 ms first c d' hk =>
    cases h
    exact Cursor.size_nextKey hk
  | case3 => cases h
  | case4 => cases h
  | case5 => cases h
  | case6 ms first c d₀ hk k d₁ ht d₂ hc v d₃ hv ih =>
    have h₁ := Cursor.size_nextKey hk
    have h₂ := size_readText ht
    have h₃ := Cursor.size_colon hc
    have h₄ := r.shrinks hv
    have h₅ := ih h
    simp only [Cursor.Turn.cursor] at h₁
    omega

/-- Reads a value of which the items and members are read by `nested`, if they may be there at all. -/
def readValue (nested : Option (Reader Value)) (c : Cursor) : Except Fault (Value × Cursor) :=
  let c := c.skipBlanks
  match c.rest with
  | [] => .error (malformed .endInValue c.position)
  | b :: r =>
    let after : Cursor := ⟨r, c.position.after b⟩
    match Lead.ofByte b with
    | .null => readWord .null nullTail after
    | .true => readWord (.bool true) trueTail after
    | .false => readWord (.bool false) falseTail after
    | .minus =>
      match readNumber true after with
      | .error e => .error e
      | .ok (n, d) => .ok (n.toValue, d)
    | .digit =>
      match readNumber false c with
      | .error e => .error e
      | .ok (n, d) => .ok (n.toValue, d)
    | .quote =>
      match readText after with
      | .error e => .error e
      | .ok (s, d) => .ok (.text s, d)
    | .bracket =>
      match nested with
      | none => .error (malformed .tooDeep c.beyond)
      | some r =>
        match r.items after with
        | .error e => .error e
        | .ok (vs, d) => .ok (.list vs, d)
    | .brace =>
      match nested with
      | none => .error (malformed .tooDeep c.beyond)
      | some r =>
        match membersFrom r [] true after with
        | .error e => .error e
        | .ok (ms, d) => .ok (.object ms, d)
    | .other => .error (malformed .noValue c.beyond)

theorem size_readValue {nested : Option (Reader Value)} {c d : Cursor} {v : Value}
    (h : readValue nested c = .ok (v, d)) : d.size < c.size := by
  have hc := Cursor.size_skipBlanks c
  unfold readValue at h
  dsimp only at h
  split at h
  · cases h
  · rename_i b r hr
    have hs := Cursor.size_of_rest hr
    have hd : (Cursor.mk r (c.skipBlanks.position.after b)).size < c.size := by
      simp only [Cursor.size] at *
      omega
    split at h
    · exact Nat.lt_of_le_of_lt (size_readWord h) hd
    · exact Nat.lt_of_le_of_lt (size_readWord h) hd
    · exact Nat.lt_of_le_of_lt (size_readWord h) hd
    · split at h <;> cases h
      rename_i h'
      exact Nat.lt_trans (size_readNumber h') hd
    · split at h <;> cases h
      rename_i h'
      exact Nat.lt_of_lt_of_le (size_readNumber h') hc
    · split at h <;> cases h
      rename_i h'
      exact Nat.lt_trans (size_readText h') hd
    · split at h
      · cases h
      · split at h <;> cases h
        rename_i h'
        exact Nat.lt_of_le_of_lt (Reader.size_itemsFrom _ h') hd
    · split at h
      · cases h
      · split at h <;> cases h
        rename_i h'
        exact Nat.lt_trans (size_membersFrom h') hd
    · cases h

namespace Value

/-- Reads a value nested at most `depth` deep. -/
def reader : Nat → Reader Value
  | 0 => ⟨readValue none, size_readValue⟩
  | depth + 1 => ⟨readValue (some (reader depth)), size_readValue⟩

end Value

/-- How deep a document may be nested. -/
def depthLimit : Nat := 127

namespace Value

/-- Reads a text that holds one value. -/
def parse (text : Bytes) : Except Fault Value := readAll (reader depthLimit) text

end Value

/-! ### Values that are not wanted -/

/-- What a skipped item stands in. -/
inductive Frame
  | list
  | object
  deriving DecidableEq

namespace Frame

def closing : Frame → UInt8
  | list => 93
  | object => 125

def endFault : Frame → Malformation
  | list => .endInList
  | object => .endInObject

def commaFault : Frame → Malformation
  | list => .noListComma
  | object => .noObjectComma

end Frame

/-- Passes over a string whose opening quote has been taken. -/
def skipText (c : Cursor) : Except Fault Cursor :=
  match Text.scan .skip c with
  | .error e => .error e
  | .ok (_, d) => .ok d

/-- Passes over a number. -/
def skipNumber (c : Cursor) : Except Fault Cursor :=
  match NumberText.read .skip c with
  | .error e => .error e
  | .ok (_, d) => .ok d

/-- Passes over a key and its colon. -/
def skipKey (c : Cursor) : Except Fault Cursor :=
  let c := c.skipBlanks
  match c.rest with
  | [] => .error (malformed .endInObject c.position)
  | b :: r =>
    if b = 34 then
      match skipText ⟨r, c.position.after b⟩ with
      | .error e => .error e
      | .ok d => d.colon
    else .error (malformed .keyNotText c.beyond)

/-- Goes to the value of the next item in the frame. -/
def enter (f : Frame) (c : Cursor) : Except Fault Cursor :=
  match f with
  | .list => .ok c
  | .object => skipKey c

/-- What was passed: a whole value, or the bracket that opens a frame. -/
inductive Passed
  | whole (c : Cursor)
  | opened (f : Frame) (c : Cursor)

namespace Passed

def cursor : Passed → Cursor
  | whole c => c
  | opened _ c => c

end Passed

/-- Passes over a value that is no list or object, or over the bracket of one. -/
def pass (c : Cursor) : Except Fault Passed :=
  let c := c.skipBlanks
  match c.rest with
  | [] => .error (malformed .endInValue c.position)
  | b :: r =>
    let after : Cursor := ⟨r, c.position.after b⟩
    match Lead.ofByte b with
    | .null => (after.word nullTail).map .whole
    | .true => (after.word trueTail).map .whole
    | .false => (after.word falseTail).map .whole
    | .minus => (skipNumber after).map .whole
    | .digit => (skipNumber c).map .whole
    | .quote => (skipText after).map .whole
    | .bracket => .ok (.opened .list after)
    | .brace => .ok (.opened .object after)
    | .other => .error (malformed .noValue c.beyond)

/-- Whether an item follows in a frame; `first` where none has been passed. -/
def turn (f : Frame) (first : Bool) (c : Cursor) : Except Fault Cursor.Turn :=
  let c := c.skipBlanks
  match c.rest with
  | [] => .error (malformed f.endFault c.position)
  | b :: r =>
    let after : Cursor := ⟨r, c.position.after b⟩
    if b = f.closing then .ok (.done after)
    else if first then (enter f c).map .more
    else if b = 44 then (enter f after).map .more
    else .error (malformed f.commaFault c.beyond)

private theorem map_ok {α β : Type} {f : α → β} {x : Except Fault α} {b : β} (h : x.map f = .ok b) :
    ∃ a, x = .ok a ∧ f a = b := by
  cases x with
  | error e => cases h
  | ok a => exact ⟨a, rfl, Except.ok.inj h⟩

theorem size_skipText {c d : Cursor} (h : skipText c = .ok d) : d.size < c.size := by
  unfold skipText at h
  split at h <;> cases h
  rename_i h'
  exact Text.size_scan h'

theorem size_skipNumber {c d : Cursor} (h : skipNumber c = .ok d) : d.size < c.size := by
  unfold skipNumber at h
  split at h <;> cases h
  rename_i h'
  exact NumberText.size_read h'

theorem size_enter {f : Frame} {c d : Cursor} (h : enter f c = .ok d) : d.size ≤ c.size := by
  unfold enter at h
  split at h
  · cases h
    exact Nat.le_refl _
  · have hc := Cursor.size_skipBlanks c
    unfold skipKey at h
    dsimp only at h
    split at h
    · cases h
    · rename_i b r hr
      have hs := Cursor.size_of_rest hr
      split at h
      · split at h
        · cases h
        · rename_i h'
          have h₁ := size_skipText h'
          have h₂ := Cursor.size_colon h
          simp only [Cursor.size] at *
          omega
      · cases h

theorem size_pass {c : Cursor} {p : Passed} (h : pass c = .ok p) : p.cursor.size < c.size := by
  have hc := Cursor.size_skipBlanks c
  unfold pass at h
  dsimp only at h
  split at h
  · cases h
  · rename_i b r hr
    have hs := Cursor.size_of_rest hr
    have hd : (Cursor.mk r (c.skipBlanks.position.after b)).size < c.size := by
      simp only [Cursor.size] at *
      omega
    split at h
    · obtain ⟨d, h', rfl⟩ := map_ok h
      exact Nat.lt_of_le_of_lt (Cursor.size_word h') hd
    · obtain ⟨d, h', rfl⟩ := map_ok h
      exact Nat.lt_of_le_of_lt (Cursor.size_word h') hd
    · obtain ⟨d, h', rfl⟩ := map_ok h
      exact Nat.lt_of_le_of_lt (Cursor.size_word h') hd
    · obtain ⟨d, h', rfl⟩ := map_ok h
      exact Nat.lt_trans (size_skipNumber h') hd
    · obtain ⟨d, h', rfl⟩ := map_ok h
      exact Nat.lt_of_lt_of_le (size_skipNumber h') hc
    · obtain ⟨d, h', rfl⟩ := map_ok h
      exact Nat.lt_trans (size_skipText h') hd
    · cases h
      exact hd
    · cases h
      exact hd
    · cases h

theorem size_turn {f : Frame} {first : Bool} {c : Cursor} {t : Cursor.Turn} (h : turn f first c = .ok t) :
    t.cursor.size ≤ c.size := by
  have hc := Cursor.size_skipBlanks c
  unfold turn at h
  dsimp only at h
  split at h
  · cases h
  · rename_i b r hr
    have hs := Cursor.size_of_rest hr
    have hd : (Cursor.mk r (c.skipBlanks.position.after b)).size ≤ c.size := by
      simp only [Cursor.size] at *
      omega
    split at h
    · cases h
      exact hd
    · split at h
      · obtain ⟨d, h', rfl⟩ := map_ok h
        exact Nat.le_trans (size_enter h') hc
      · split at h
        · obtain ⟨d, h', rfl⟩ := map_ok h
          exact Nat.le_trans (size_enter h') hd
        · cases h

theorem size_turn_done {f : Frame} {first : Bool} {c d : Cursor} (h : turn f first c = .ok (.done d)) :
    d.size < c.size := by
  have hc := Cursor.size_skipBlanks c
  unfold turn at h
  dsimp only at h
  split at h
  · cases h
  · rename_i b r hr
    have hs := Cursor.size_of_rest hr
    split at h
    · cases h
      simp only [Cursor.size] at *
      omega
    · split at h
      · obtain ⟨d, _, h'⟩ := map_ok h
        cases h'
      · split at h
        · obtain ⟨d, _, h'⟩ := map_ok h
          cases h'
        · cases h

/-- What a skipping run does next: pass a value, or look for the next item of a frame. -/
inductive Duty
  | value
  | resume (first : Bool)

/-- Passes over the rest of the frames `open`, the innermost first. -/
def skipFrom (frames : List Frame) (duty : Duty) (c : Cursor) : Except Fault Cursor :=
  match duty with
  | .value =>
    match _hp : pass c with
    | .error e => .error e
    | .ok (.whole d) => skipFrom frames (.resume false) d
    | .ok (.opened f d) => skipFrom (f :: frames) (.resume true) d
  | .resume first =>
    match frames with
    | [] => .ok c
    | f :: outer =>
      match _ht : turn f first c with
      | .error e => .error e
      | .ok (.done d) => skipFrom outer (.resume false) d
      | .ok (.more d) => skipFrom (f :: outer) .value d
  termination_by 2 * c.size + match duty with | .value => 0 | .resume _ => 1
  decreasing_by
    · have := size_pass _hp
      simp only [Passed.cursor] at this
      omega
    · have := size_pass _hp
      simp only [Passed.cursor] at this
      omega
    · have := size_turn_done _ht
      omega
    · have := size_turn _ht
      simp only [Cursor.Turn.cursor] at this
      omega

/-- Passes over one value. -/
def skipValue (c : Cursor) : Except Fault Cursor := skipFrom [] .value c

theorem size_skipFrom {frames : List Frame} {duty : Duty} {c d : Cursor} (h : skipFrom frames duty c = .ok d) :
    d.size ≤ c.size := by
  fun_induction skipFrom frames duty c with
  | case1 => cases h
  | case2 frames c d' hp ih => exact Nat.le_trans (ih h) (Nat.le_of_lt (size_pass hp))
  | case3 frames c f d' hp ih => exact Nat.le_trans (ih h) (Nat.le_of_lt (size_pass hp))
  | case4 c =>
    cases h
    exact Nat.le_refl _
  | case5 => cases h
  | case6 c first f outer d' ht ih => exact Nat.le_trans (ih h) (Nat.le_of_lt (size_turn_done ht))
  | case7 c first f outer d' ht ih => exact Nat.le_trans (ih h) (size_turn ht)

theorem size_skipValue {c d : Cursor} (h : skipValue c = .ok d) : d.size < c.size := by
  unfold skipValue at h
  unfold skipFrom at h
  split at h
  · cases h
  · rename_i hp
    exact Nat.lt_of_le_of_lt (size_skipFrom h) (size_pass hp)
  · rename_i hp
    exact Nat.lt_of_le_of_lt (size_skipFrom h) (size_pass hp)

/-! ### Values of another kind -/

/-- What stands at the cursor, and the cursor behind it; before lists and objects it stays. -/
def look (c : Cursor) : Except Fault (Found × Cursor) :=
  match c.rest with
  | [] => .error (malformed .noValue c.beyond)
  | b :: r =>
    let after : Cursor := ⟨r, c.position.after b⟩
    match Lead.ofByte b with
    | .null => readWord .null nullTail after
    | .true => readWord (.bool true) trueTail after
    | .false => readWord (.bool false) falseTail after
    | .minus => (readNumber true after).map fun x => (x.1.found, x.2)
    | .digit => (readNumber false c).map fun x => (x.1.found, x.2)
    | .quote => (readText after).map fun x => (.text x.1, x.2)
    | .bracket => .ok (.list, c)
    | .brace => .ok (.object, c)
    | .other => .error (malformed .noValue c.beyond)

/-- The fault of what stands at the cursor where `expected` should. -/
def unexpected (expected : String) (c : Cursor) : Fault :=
  match look c with
  | .error e => e
  | .ok (found, d) => mismatched (.kind found expected) d.position

end Json

end Fulfilment
