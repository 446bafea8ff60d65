import Fulfilment.Proofs.Json.Front
import Fulfilment.Proofs.Json.Grammar.Text

/-!
# Values that are read and values that are skipped

Skipping is less strict than reading: it does not look at what a string stands for, at how large a number is, or at
how deep values are nested. But whatever is read can be skipped, and ends at the same place (`skipValue_of_read`).
-/

namespace Fulfilment

namespace Json

variable {c d d₁ d₂ : Cursor} {first : Bool}

/-! ### Strings -/

namespace Text

variable {acc bs r t text : Bytes} {p : Position} {n : Nat}

theorem scanFrom_skip_code {x y z w : UInt8} (digits : hexCode? x y z w = some n) :
    scanFrom .skip acc ⟨[92, 117, x, y, z, w] ++ r, p⟩ = scanFrom .skip acc ⟨r, p.past [92, 117, x, y, z, w]⟩ := by
  have hcode : hexEscape ⟨x :: y :: z :: w :: r, (p.after 92).after 117⟩ = _ :=
    hexEscape_eq_ok_iff.2 ⟨x, y, z, w, r, rfl, digits, rfl⟩
  exact scanFrom_escape (escape_code (codeEscape_skip hcode))

/-- The two halves of a pair are skipped one after the other. -/
theorem scanFrom_skip_piece (h : Piece t bs) (acc : Bytes) :
    ∃ acc', scanFrom .skip acc ⟨t ++ r, p⟩ = scanFrom .skip acc' ⟨r, p.past t⟩ := by
  cases h with
  | plain quote backslash control =>
    exact ⟨_, scanFrom_plain (List.forall_mem_singleton.2 ⟨quote, backslash, control⟩)⟩
  | short known => exact ⟨_, scanFrom_shortEscape known⟩
  | code digits => exact ⟨acc, scanFrom_skip_code digits⟩
  | pair digits _ digits' => exact ⟨acc, (scanFrom_skip_code digits).trans (scanFrom_skip_code digits')⟩

theorem scanFrom_skip_pieces (h : Pieces text bs) (acc : Bytes) :
    ∃ bs', scanFrom .skip acc ⟨text ++ 34 :: r, p⟩ = .ok (bs', ⟨r, p.past (text ++ [34])⟩) := by
  induction h generalizing acc p with
  | nil =>
    refine ⟨acc.reverse, ?_⟩
    rw [List.nil_append, List.nil_append, scanFrom]
    rfl
  | cons first rest ih =>
    obtain ⟨acc', hfirst⟩ := scanFrom_skip_piece first acc
    obtain ⟨bs', hrest⟩ := ih acc'
    refine ⟨bs', ?_⟩
    rw [List.append_assoc, hfirst, hrest]
    simp

end Text

theorem skipText_of_readText {s : String} (h : readText c = .ok (s, d)) : skipText c = .ok d := by
  obtain ⟨text, hspells, r, p, rfl, rfl⟩ := readText_eq_ok_iff.1 h
  obtain ⟨bs', hskip⟩ := Text.scanFrom_skip_pieces hspells []
  unfold skipText Text.scan
  rw [List.append_assoc, List.singleton_append, hskip]

/-! ### Numbers -/

namespace NumberText

theorem readWhole_skip {x : List Nat × Cursor} (h : readWhole .keep c = .ok x) : readWhole .skip c = .ok x := by
  unfold readWhole at *
  split at h
  · cases h
  · exact h

theorem readFraction_skip {x : List Nat × Cursor} (h : readFraction .keep c = .ok x) :
    readFraction .skip c = .ok x := by
  unfold readFraction at *
  split at h
  · exact h
  · dsimp only at *
    split at h
    · rename_i hpoint
      rw [if_pos hpoint]
      split at h
      · split at h <;> cases h
      · rename_i hrun
        rw [if_neg hrun]
        exact h
    · rename_i hpoint
      rw [if_neg hpoint]
      exact h

theorem exponentRun_lenient {strict : Bool} {n : Nat} {bs : Bytes} {p : Position} {x : Nat × Cursor}
    (h : exponentRun strict n bs p = .ok x) : exponentRun false n bs p = .ok x := by
  induction bs generalizing n p with
  | nil => exact h
  | cons b r ih =>
    unfold exponentRun at h ⊢
    split at h
    · exact h
    · split at h
      · rename_i hle
        rw [if_pos hle]
        exact ih h
      · rename_i hle
        rw [if_neg hle]
        split at h
        · cases h
        · exact ih h

theorem exponentDigits_skip {strict : Bool} {x : Nat × Cursor} (h : exponentDigits .keep strict c = .ok x) :
    exponentDigits .skip false c = .ok x := by
  unfold exponentDigits at *
  split at h
  · cases h
  · split at h
    · cases h
    · exact exponentRun_lenient h

theorem readExponent_skip {zero : Bool} {x : Option Int × Cursor} (h : readExponent .keep zero c = .ok x) :
    readExponent .skip zero c = .ok x := by
  unfold readExponent at *
  split at h
  · exact h
  · dsimp only at *
    split at h
    · rename_i hletter
      rw [if_pos hletter]
      split at h
      · cases h
      · rename_i s r'
        split at h
        · rename_i hminus
          rw [if_pos hminus]
          split at h
          · cases h
          · rename_i n d' hdigits
            rw [exponentDigits_skip hdigits]
            exact h
        · rename_i hminus
          rw [if_neg hminus]
          split at h
          · cases h
          · rename_i n d' hdigits
            rw [show (decide (Mode.skip = Mode.keep) && !zero) = false from rfl, exponentDigits_skip hdigits]
            exact h
    · rename_i hletter
      rw [if_neg hletter]
      exact h

end NumberText

theorem skipNumber_of_readNumber {negative : Bool} {n : Number} (h : readNumber negative c = .ok (n, d)) :
    skipNumber c = .ok d := by
  unfold readNumber at h
  split at h
  · cases h
  · rename_i t d' ht
    split at h <;> cases h
    unfold NumberText.read at ht
    split at ht
    · cases ht
    · rename_i hwhole
      split at ht
      · cases ht
      · rename_i hfraction
        split at ht
        · cases ht
        · rename_i hexponent
          cases ht
          unfold skipNumber NumberText.read
          rw [NumberText.readWhole_skip hwhole]
          dsimp only
          rw [NumberText.readFraction_skip hfraction]
          dsimp only
          rw [NumberText.readExponent_skip hexponent]

/-! ### Steps of a skipping run -/

section

variable {frames : List Frame} {f : Frame}

theorem pass_skipBlanks (c : Cursor) : pass c.skipBlanks = pass c := by
  unfold pass
  rw [Cursor.skipBlanks_skipBlanks]

theorem skipFrom_pass (frames : List Frame) (c : Cursor) : skipFrom frames .value c = match pass c with
    | .error e => .error e
    | .ok (.whole d) => skipFrom frames (.resume false) d
    | .ok (.opened f d) => skipFrom (f :: frames) (.resume true) d := by
  rw [skipFrom]
  split
  · rename_i hp
    rw [hp]
  · rename_i hp
    rw [hp]
  · rename_i hp
    rw [hp]

theorem skipFrom_skipBlanks (frames : List Frame) (c : Cursor) :
    skipFrom frames .value c.skipBlanks = skipFrom frames .value c := by
  rw [skipFrom_pass, pass_skipBlanks, ← skipFrom_pass]

theorem skipFrom_done (h : turn f first c = .ok (.done d)) :
    skipFrom (f :: frames) (.resume first) c = skipFrom frames (.resume false) d := by
  rw [skipFrom]
  split
  · rename_i ht
    cases h.symm.trans ht
  · rename_i ht
    cases h.symm.trans ht
    rfl
  · rename_i ht
    cases h.symm.trans ht

theorem skipFrom_more (h : turn f first c = .ok (.more d)) :
    skipFrom (f :: frames) (.resume first) c = skipFrom (f :: frames) .value d := by
  rw [skipFrom.eq_def _ (.resume first)]
  dsimp only
  split
  · rename_i ht
    cases h.symm.trans ht
  · rename_i ht
    cases h.symm.trans ht
  · rename_i ht
    cases h.symm.trans ht
    rfl

end

/-- A number that is read at the front is passed over. -/
theorem pass_of_numberAt? {n : Number} (h : numberAt? c.skipBlanks = some (.ok (n, d))) :
    pass c = .ok (.whole d) := by
  unfold numberAt? at h
  unfold pass
  dsimp only
  cases hrest : c.skipBlanks.rest with
  | nil =>
    rw [hrest] at h
    cases h
  | cons b text =>
    rw [hrest] at h
    dsimp only at h ⊢
    cases hlead : Lead.ofByte b with
    | minus | digit =>
      rw [hlead] at h
      dsimp only at h ⊢
      rw [skipNumber_of_readNumber (Option.some.inj h)]
      rfl
    | _ =>
      rw [hlead] at h
      cases h

/-! ### Items and members -/

theorem turn_eq {f : Frame} {b : UInt8} {r : Bytes} {p : Position} (h : c.skipBlanks = ⟨b :: r, p⟩) :
    turn f first c = if b = f.closing then .ok (.done ⟨r, p.after b⟩)
      else if first then (enter f ⟨b :: r, p⟩).map .more
      else if b = 44 then (enter f ⟨r, p.after b⟩).map .more
      else .error (malformed f.commaFault (Cursor.beyond ⟨b :: r, p⟩)) := by
  unfold turn
  rw [h]

/-- Where a skipping run goes on, the blanks before the item may still be there. -/
theorem turn_of_nextItem {t : Cursor.Turn} (h : c.nextItem first = .ok t) :
    (∃ d, t = .done d ∧ turn .list first c = .ok (.done d)) ∨
      ∃ d d', t = .more d ∧ turn .list first c = .ok (.more d') ∧ d'.skipBlanks = d := by
  rcases Cursor.of_nextItem h with ⟨r, p, hc, rfl⟩ |
    ⟨b, r, p, hc, hb, ⟨rfl, rfl⟩ | ⟨rfl, rfl, b', r', p', hd, -, rfl⟩⟩
  · exact .inl ⟨_, rfl, turn_eq hc⟩
  · refine .inr ⟨_, _, rfl, (turn_eq hc).trans (if_neg hb), ?_⟩
    rw [← hc, Cursor.skipBlanks_skipBlanks]
  · exact .inr ⟨_, _, rfl, (turn_eq hc).trans (if_neg hb), hd⟩

theorem skipKey_of_quote {r : Bytes} {p : Position} {k : String} (h : c.skipBlanks = ⟨34 :: r, p⟩)
    (ht : readText ⟨r, p.after 34⟩ = .ok (k, d₁)) (hc : d₁.colon = .ok d₂) : skipKey c = .ok d₂ := by
  unfold skipKey
  rw [h]
  dsimp only
  rw [if_pos rfl, skipText_of_readText ht]
  exact hc

theorem turn_of_nextKey_done (h : c.nextKey first = .ok (.done d)) : turn .object first c = .ok (.done d) := by
  rcases Cursor.of_nextKey h with ⟨r, p, hc, he⟩ | ⟨r, p, -, -, he⟩ | ⟨r, p, r', p', -, -, -, he⟩
  · cases he
    exact turn_eq hc
  · cases he
  · cases he

theorem turn_of_nextKey_more {k : String} (h : c.nextKey first = .ok (.more d)) (ht : readText d = .ok (k, d₁))
    (hc : d₁.colon = .ok d₂) : turn .object first c = .ok (.more d₂) := by
  rcases Cursor.of_nextKey h with ⟨r, p, hkey, he⟩ | ⟨r, p, rfl, hkey, he⟩ | ⟨r, p, r', p', rfl, hkey, hd, he⟩
  · cases he
  · cases he
    have hstay : Cursor.skipBlanks ⟨34 :: r, p⟩ = ⟨34 :: r, p⟩ := rfl
    rw [turn_eq hkey]
    exact congrArg (Except.map Cursor.Turn.more) (skipKey_of_quote hstay ht hc)
  · cases he
    rw [turn_eq hkey]
    exact congrArg (Except.map Cursor.Turn.more) (skipKey_of_quote hd ht hc)

/-! ### Whole values -/

namespace Value

/-- Items that are read are skipped. -/
theorem skipFrom_of_itemsFrom {r : Reader Value} {acc vs : List Value} {outer : List Frame}
    (hr : ∀ frames c v d, r.read c = .ok (v, d) → skipFrom frames .value c = skipFrom frames (.resume false) d)
    (h : r.itemsFrom acc first c = .ok (vs, d)) :
    skipFrom (.list :: outer) (.resume first) c = skipFrom outer (.resume false) d := by
  fun_induction Reader.itemsFrom r acc first c with
  | case1 => cases h
  | case2 acc first c d' ht =>
    cases h
    rcases turn_of_nextItem ht with ⟨_, he, hturn⟩ | ⟨_, _, he, -⟩
    · cases he
      exact skipFrom_done hturn
    · cases he
  | case3 => cases h
  | case4 acc first c d' ht a d'' hread ih =>
    rcases turn_of_nextItem ht with ⟨_, he, -⟩ | ⟨_, d₀, he, hturn, rfl⟩
    · cases he
    · cases he
      rw [skipFrom_more hturn, ← skipFrom_skipBlanks, hr _ _ _ _ hread]
      exact ih h

theorem skipFrom_of_membersFrom {r : Reader Value} {ms ms' : List (String × Value)} {outer : List Frame}
    (hr : ∀ frames c v d, r.read c = .ok (v, d) → skipFrom frames .value c = skipFrom frames (.resume false) d)
    (h : membersFrom r ms first c = .ok (ms', d)) :
    skipFrom (.object :: outer) (.resume first) c = skipFrom outer (.resume false) d := by
  fun_induction membersFrom r ms first c with
  | case1 => cases h
  | case2 ms first c d' hk =>
    cases h
    exact skipFrom_done (turn_of_nextKey_done hk)
  | case3 => cases h
  | case4 => cases h
  | case5 => cases h
  | case6 ms first c d₀ hk k d₁ ht d₂ hc v d₃ hv ih =>
    rw [skipFrom_more (turn_of_nextKey_more hk ht hc), hr _ _ _ _ hv]
    exact ih h

theorem skipFrom_of_readValue {nested : Option (Reader Value)} {v : Value} (frames : List Frame)
    (hr : ∀ r ∈ nested, ∀ frames c v d, r.read c = .ok (v, d) →
      skipFrom frames .value c = skipFrom frames (.resume false) d)
    (h : readValue nested c = .ok (v, d)) : skipFrom frames .value c = skipFrom frames (.resume false) d := by
  have hfronts := readValue_eq_ok_iff.1 h
  rw [skipFrom_pass]
  generalize hc : c.skipBlanks = c₀ at hfronts
  cases hfronts with
  | null | trueWord | falseWord =>
    unfold pass
    rw [hc]
    simp [Lead.ofByte, Cursor.word_append, Except.map]
  | int read | float read => rw [pass_of_numberAt? (hc ▸ read)]
  | text read =>
    unfold pass
    rw [hc]
    simp [Lead.ofByte, skipText_of_readText read, Except.map]
  | list within read =>
    unfold pass
    rw [hc]
    exact skipFrom_of_itemsFrom (hr _ within) read
  | object within read =>
    unfold pass
    rw [hc]
    exact skipFrom_of_membersFrom (hr _ within) read

theorem skipFrom_of_read {depth : Nat} {v : Value} (frames : List Frame) (h : (reader depth).read c = .ok (v, d)) :
    skipFrom frames .value c = skipFrom frames (.resume false) d := by
  rw [reader_read] at h
  induction depth generalizing frames c v d with
  | zero =>
    refine skipFrom_of_readValue frames (fun r hr => ?_) h
    cases hr
  | succ depth ih =>
    refine skipFrom_of_readValue frames (fun r hr frames c v d hread => ?_) h
    cases hr
    rw [reader_read] at hread
    exact ih frames hread

end Value

/-- What is read is also skipped, to the same place. -/
theorem skipValue_of_read {depth : Nat} {v : Value} (h : (Value.reader depth).read c = .ok (v, d)) :
    skipValue c = .ok d := by
  rw [skipValue, Value.skipFrom_of_read [] h, skipFrom]

end Json

end Fulfilment
