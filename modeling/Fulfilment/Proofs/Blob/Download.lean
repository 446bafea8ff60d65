import Fulfilment.Blob.Remote
import Fulfilment.Depot.Basic
import Mathlib.Logic.Relation

/-!
# Files in chunks

A transfer never holds more than it may, and ends before the first chunk that would be too much
(`Transfer.Reaches.within`, `Transfer.exists_last`). So whatever chunks a file is cut into, and whether its size is
announced or not, it is fetched just when the whole of it is within the limit, as if it were held in memory
(`BlobService.fetch_within_limit`).
-/

namespace Fulfilment

namespace Transfer

variable {limit : Nat} {t t' : Transfer} {fault : Failure}

/-- The file of which the transfer is. -/
def whole (t : Transfer) : Bytes := t.received ++ t.coming.flatten

/-- How far a transfer gets, one chunk after the other. -/
def Reaches (limit : Nat) : Transfer → Transfer → Prop :=
  Relation.ReflTransGen fun t t' => t.next limit = .more t'

/-! ### One chunk -/

theorem next_eq_more_iff : t.next limit = .more t' ↔ ∃ chunk, t.coming = chunk :: t'.coming ∧
    t'.received = t.received ++ chunk ∧ t'.received.length ≤ limit := by
  unfold next
  obtain ⟨received, coming⟩ := t
  obtain ⟨received', coming'⟩ := t'
  cases coming with
  | nil => simp
  | cons chunk rest =>
    by_cases hlimit : limit < received.length + chunk.length
    · simp only [if_pos hlimit, List.cons.injEq]
      constructor
      · intro h
        cases h
      · rintro ⟨_, ⟨rfl, rfl⟩, rfl, hle⟩
        rw [List.length_append] at hle
        omega
    · simp only [if_neg hlimit, Turn.more.injEq, mk.injEq, List.cons.injEq]
      constructor
      · rintro ⟨rfl, rfl⟩
        exact ⟨chunk, ⟨rfl, rfl⟩, rfl, by rw [List.length_append]; omega⟩
      · rintro ⟨_, ⟨rfl, rfl⟩, rfl, -⟩
        exact ⟨rfl, rfl⟩

theorem next_eq_tooMuch_iff : t.next limit = .tooMuch ↔ ∃ chunk rest, t.coming = chunk :: rest ∧
    limit < t.received.length + chunk.length := by
  unfold next
  cases t.coming with
  | nil => simp
  | cons chunk rest =>
    by_cases hlimit : limit < t.received.length + chunk.length <;> simp [hlimit]

theorem next_eq_complete_iff : t.next limit = .complete ↔ t.coming = [] := by
  unfold next
  cases t.coming with
  | nil => simp
  | cons chunk rest =>
    by_cases hlimit : limit < t.received.length + chunk.length <;> simp [hlimit]

theorem whole_next (h : t.next limit = .more t') : t'.whole = t.whole := by
  obtain ⟨chunk, hcoming, hreceived, -⟩ := next_eq_more_iff.1 h
  unfold whole
  rw [hcoming, hreceived, List.flatten_cons, List.append_assoc]

/-! ### All chunks -/

namespace Reaches

/-- No more is held than may be. -/
theorem within (h : Reaches limit t t') (start : t.received.length ≤ limit) : t'.received.length ≤ limit := by
  induction h with
  | refl => exact start
  | tail _ last _ =>
    obtain ⟨_, _, _, hle⟩ := next_eq_more_iff.1 last
    exact hle

/-- What is held is what was held before and the chunks that were asked for since. -/
theorem split (h : Reaches limit t t') :
    ∃ taken, t.coming = taken ++ t'.coming ∧ t'.received = t.received ++ taken.flatten := by
  induction h with
  | refl => exact ⟨[], rfl, (List.append_nil _).symm⟩
  | tail _ last ih =>
    obtain ⟨taken, hcoming, hreceived⟩ := ih
    obtain ⟨chunk, hnext, hlast, -⟩ := next_eq_more_iff.1 last
    refine ⟨taken ++ [chunk], ?_, ?_⟩
    · rw [hcoming, hnext, List.append_assoc, List.singleton_append]
    · rw [hlast, hreceived, List.flatten_append, List.flatten_singleton, List.append_assoc]

theorem whole_eq (h : Reaches limit t t') : t'.whole = t.whole := by
  induction h with
  | refl => rfl
  | tail _ last ih => rw [whole_next last, ih]

theorem run_eq (h : Reaches limit t t') : t.run fault limit = t'.run fault limit := by
  induction h with
  | refl => rfl
  | tail _ last ih =>
    rw [ih, run]
    split
    · rename_i hnext
      cases last.symm.trans hnext
      rfl
    · rename_i hnext
      cases last.symm.trans hnext
    · rename_i hnext
      cases last.symm.trans hnext

end Reaches

/-- A transfer comes to an end: all chunks are there, or the next is one too many. -/
theorem exists_last (limit : Nat) (t : Transfer) :
    ∃ t', Reaches limit t t' ∧ (t'.next limit = .complete ∨ t'.next limit = .tooMuch) := by
  obtain ⟨received, coming⟩ := t
  induction coming generalizing received with
  | nil => exact ⟨_, .refl, .inl rfl⟩
  | cons chunk rest ih =>
    cases hnext : next limit ⟨received, chunk :: rest⟩ with
    | more t₁ =>
      obtain ⟨received₁, coming₁⟩ := t₁
      obtain ⟨_, hcoming, -, -⟩ := next_eq_more_iff.1 hnext
      obtain ⟨-, rfl⟩ := List.cons.inj hcoming
      obtain ⟨t', hreach, hend⟩ := ih received₁
      exact ⟨t', .head hnext hreach, hend⟩
    | tooMuch => exact ⟨_, .refl, .inr hnext⟩
    | complete => exact ⟨_, .refl, .inl hnext⟩

theorem run_of_complete (h : t.next limit = .complete) : t.run fault limit = .ok t.received := by
  rw [run]
  split
  · rename_i hnext
    cases h.symm.trans hnext
  · rename_i hnext
    cases h.symm.trans hnext
  · rfl

theorem run_of_tooMuch (h : t.next limit = .tooMuch) : t.run fault limit = .error fault := by
  rw [run]
  split
  · rename_i hnext
    cases h.symm.trans hnext
  · rfl
  · rename_i hnext
    cases h.symm.trans hnext

/-- Where a transfer ends: with the whole file, or before a chunk with which it is too large. -/
inductive Ends (limit : Nat) (file : Bytes) (t : Transfer) : Prop
  | complete (fits : file.length ≤ limit) (all : t.coming = []) (received : t.received = file)
  | tooMuch {chunk : Bytes} {rest : List Bytes} (large : limit < file.length) (left : t.coming = chunk :: rest)
    (exceeds : limit < t.received.length + chunk.length)

/-- There is nothing behind the end of a transfer. -/
theorem Reaches.last {t₀ : Transfer} {file : Bytes} (h : Reaches limit t₀ t) (h' : Reaches limit t₀ t')
    (hends : Ends limit file t') : Reaches limit t t' := by
  have hstop : ∀ t₁, t'.next limit ≠ .more t₁ := by
    intro t₁ hnext
    obtain ⟨chunk, hcoming, hreceived, hle⟩ := next_eq_more_iff.1 hnext
    cases hends with
    | complete _ all _ => cases all.symm.trans hcoming
    | tooMuch _ left exceeds =>
      cases left.symm.trans hcoming
      rw [hreceived, List.length_append] at hle
      omega
  have hunique : Relator.RightUnique fun t t' : Transfer => t.next limit = .more t' := by
    intro a b c hb hc
    cases hb.symm.trans hc
    rfl
  rcases Relation.ReflTransGen.total_of_right_unique hunique h h' with hreach | hreach
  · exact hreach
  · rcases hreach.cases_head with rfl | ⟨t₁, hnext, -⟩
    · exact .refl
    · exact absurd hnext (hstop t₁)

/-- A transfer ends with the whole file just when that is within the limit. -/
theorem ends (limit : Nat) (fault : Failure) (start : t.received.length ≤ limit) :
    ∃ t', Reaches limit t t' ∧ Ends limit t.whole t' ∧
      t.run fault limit = if t.whole.length ≤ limit then .ok t.whole else .error fault := by
  obtain ⟨t', hreach, hend⟩ := exists_last limit t
  have hwithin := hreach.within start
  refine ⟨t', hreach, ?_⟩
  rw [hreach.run_eq, ← hreach.whole_eq]
  rcases hend with hcomplete | hover
  · have hcoming := next_eq_complete_iff.1 hcomplete
    have hwhole : t'.whole = t'.received := by rw [whole, hcoming, List.flatten_nil, List.append_nil]
    rw [hwhole, if_pos hwithin]
    exact ⟨.complete hwithin hcoming rfl, run_of_complete hcomplete⟩
  · obtain ⟨chunk, rest, hcoming, hexceeds⟩ := next_eq_tooMuch_iff.1 hover
    have hlarge : limit < t'.whole.length := by
      rw [whole, hcoming, List.flatten_cons, List.length_append, List.length_append]
      omega
    rw [if_neg (Nat.not_le.2 hlarge)]
    exact ⟨.tooMuch hlarge hcoming hexceeds, run_of_tooMuch hover⟩

end Transfer

/-! ### Files -/

/-- The transfer of a file before the first chunk is asked for. -/
def Download.start (d : Download) : Transfer := ⟨[], d.chunks⟩

/-- What becomes of a file that is sent: it is too large, or breaks off, or is there. -/
def Download.outcome (d : Download) (bucket key : String) (limit : Nat) (file : Bytes) : Except Failure Bytes :=
  if file.length ≤ limit then
    if d.broken then .error (BlobService.failedTo "read" bucket key) else .ok file
  else .error (tooLarge bucket key limit)

theorem Download.receive_eq {d : Download} {file : Bytes} (bucket key : String) (limit : Nat)
    (cut : d.chunks.flatten = file) (announced : ∀ n ∈ d.announced, n = file.length) :
    d.receive bucket key limit = d.outcome bucket key limit file := by
  have hwhole : d.start.whole = file := cut
  obtain ⟨-, -, -, hrun⟩ := Transfer.ends (t := d.start) limit (tooLarge bucket key limit) (Nat.zero_le _)
  rw [hwhole] at hrun
  unfold receive outcome
  split
  · -- an announcement is true, so the file is not taken for larger than it is
    rename_i hany
    obtain ⟨n, hn, hlimit⟩ := (Option.any_eq_true _ _).1 hany
    have hlarge := of_decide_eq_true hlimit
    rw [announced n hn] at hlarge
    rw [if_neg (Nat.not_le.2 hlarge)]
  · rw [show Transfer.run (tooLarge bucket key limit) limit ⟨[], d.chunks⟩ = _ from hrun]
    by_cases hfits : file.length ≤ limit
    · simp only [if_pos hfits]
    · simp only [if_neg hfits]

/-- A file that is sent in chunks, of which the size is announced as it is or not at all, is fetched just when all of
it is within the limit, and is then the chunks put together. It is fetched as one that is held in memory. Where the
connection breaks off behind the chunks, nothing is fetched. What was received is never more than the limit, and no
chunk is asked for behind the first that would be too much. -/
theorem BlobService.fetch_within_limit {m : Type → Type} [Monad m] [LawfulMonad m]
    {send : BlobService.Request → m BlobService.Reply} {bucket key : String} {status : Nat} {d : Download}
    {file : Bytes} (limit : Nat) (sent : send ⟨"GET", path bucket key, none⟩ = pure (.answered status d))
    (success : isSuccess status = true) (cut : d.chunks.flatten = file)
    (announced : ∀ n ∈ d.announced, n = file.length) :
    fetch send bucket key limit =
        pure (if file.length ≤ limit then if d.broken then .error (failedTo "read" bucket key) else .ok file
          else .error (tooLarge bucket key limit)) ∧
      (d.broken = false → ∀ depot : Depot, depot.blob? bucket key = some file →
        fetch send bucket key limit = pure (depot.fetch bucket key limit)) ∧
      (∀ t, Transfer.Reaches limit d.start t → t.received.length ≤ limit ∧
        ∃ taken, d.chunks = taken ++ t.coming ∧ t.received = taken.flatten) ∧
      ∃ t, Transfer.Reaches limit d.start t ∧ t.Ends limit file ∧
        ∀ t', Transfer.Reaches limit d.start t' → Transfer.Reaches limit t' t := by
  have hfetch : fetch send bucket key limit = pure (d.outcome bucket key limit file) := by
    unfold fetch
    rw [sent, pure_bind]
    dsimp only
    rw [if_pos success, Download.receive_eq bucket key limit cut announced]
  obtain ⟨t, hreach, hends, -⟩ := Transfer.ends (t := d.start) limit (tooLarge bucket key limit) (Nat.zero_le _)
  have hwhole : d.start.whole = file := cut
  rw [hwhole] at hends
  refine ⟨hfetch, fun unbroken depot hstored => ?_, fun t hreach => ⟨hreach.within (Nat.zero_le _), hreach.split⟩,
    t, hreach, hends, fun t' hreach' => hreach'.last hreach hends⟩
  rw [hfetch, Download.outcome, unbroken, Depot.fetch, hstored]
  dsimp only
  by_cases hfits : file.length ≤ limit
  · rw [if_pos hfits, if_neg (Nat.not_lt.2 hfits), if_neg Bool.false_ne_true]
  · rw [if_neg hfits, if_pos (Nat.not_le.1 hfits)]

/-- Six bytes in three chunks, one of them empty, are refused before the last chunk where five are allowed. -/
theorem BlobService.fetch_within_limit_of_three :
    let d : Download := ⟨some 6, [[1, 2, 3], [], [4, 5, 6]], false⟩
    let send : BlobService.Request → Id BlobService.Reply := fun _ => .answered 200 d
    (send ⟨"GET", path "b" "k.csv", none⟩ = pure (.answered 200 d) ∧ isSuccess 200 = true ∧
      d.chunks.flatten = [1, 2, 3, 4, 5, 6] ∧ ∀ n ∈ d.announced, n = [1, 2, 3, 4, 5, 6].length) ∧
      fetch send "b" "k.csv" 5 = pure (.error (tooLarge "b" "k.csv" 5)) ∧
      fetch send "b" "k.csv" 6 = pure (.ok [1, 2, 3, 4, 5, 6]) := by
  intro d send
  have announced : ∀ n ∈ d.announced, n = [1, 2, 3, 4, 5, 6].length := by
    intro n hn
    cases hn
    rfl
  have sent : send ⟨"GET", path "b" "k.csv", none⟩ = pure (.answered 200 d) := rfl
  have hrefused := (fetch_within_limit 5 sent rfl rfl announced).1
  have hfetched := (fetch_within_limit 6 sent rfl rfl announced).1
  exact ⟨⟨sent, rfl, rfl, announced⟩, hrefused, hfetched⟩

end Fulfilment
