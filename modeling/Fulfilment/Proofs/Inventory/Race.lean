import Fulfilment.Inventory.Race
import Fulfilment.Proofs.Inventory.Reservation

/-!
# What reservations side by side may forget

The figure that a reservation has seen may be out of date when it puts what is left of it, so that what others have
taken meanwhile is forgotten. But every figure seen, and every figure put, is the one at the start less what some of
the reservations took (`Race.Kept`), so that no stock is made up and none is taken that was not there
(`Race.run_figure`).
-/

namespace Fulfilment

open Program (bind_eq)

/-! ### The two halves -/

section

variable (hubId skuId : String) (quantity : Int64) (rule : AvailabilityRule) (d : Depot)

/-- The first half of a reservation tells a figure to put only if the one record allows the quantity. -/
theorem check_spec :
    ∃ c d' cs, Depot.inventory.check hubId skuId quantity rule d = (c, d') ∧ Depot.Booked d cs d' ∧
      (∀ call ∈ cs, call.writesStock = false) ∧
      ((∃ outcome, c = .over outcome ∧ ∀ before after, outcome ≠ .ok (.reserved before after)) ∨
        ∃ s after, d.records hubId skuId = [s] ∧ s.after? rule quantity = some after ∧
          c = .putting s.onHand after) := by
  unfold Inventory.check
  rcases snapshot_spec hubId skuId d with ⟨-, d', hl, hb⟩ | ⟨-, d', hl, hb⟩
  · exact ⟨_, d', _, bind_eq hl, hb, by simp [Call.writesStock], .inl ⟨_, rfl, by simp⟩⟩
  rcases onlyRecord_cases hubId skuId (d.records hubId skuId) with ⟨e, he⟩ | ⟨s, hs, he⟩
  · rw [he] at hl
    exact ⟨_, d', _, bind_eq hl, hb, by simp [Call.writesStock], .inl ⟨_, rfl, by simp⟩⟩
  rw [he] at hl
  rw [bind_eq hl]
  dsimp only
  cases ha : s.after? rule quantity with
  | none => exact ⟨_, d', _, rfl, hb, by simp [Call.writesStock], .inl ⟨_, rfl, by simp⟩⟩
  | some after => exact ⟨_, d', _, rfl, hb, by simp [Call.writesStock], .inr ⟨s, after, hs, ha, rfl⟩⟩

theorem put_spec (tenantId : String) (before after : Int64) :
    (∃ e d', Depot.inventory.put tenantId hubId skuId before after d = (.error e, d') ∧
      Depot.Booked d [.setOnHand ⟨tenantId, hubId, skuId, after⟩ false] d') ∨
    ∃ d', Depot.inventory.put tenantId hubId skuId before after d = (.ok (.reserved before after), d') ∧
      Depot.Booked d [.setOnHand ⟨tenantId, hubId, skuId, after⟩ true] d' := by
  unfold Inventory.put
  rcases Depot.setOnHand_spec ⟨tenantId, hubId, skuId, after⟩ d with ⟨d', hu, hb⟩ | ⟨d', hu, hb⟩
  · exact .inl ⟨_, d', bind_eq hu, hb⟩
  · exact .inr ⟨d', bind_eq hu, hb⟩

end

namespace Race

variable {p : Plan} {s : Snapshot} {d : Depot} {race race' : Race} {e : Event} {n k : Nat} {c c' : Checked}

/-! ### What a reservation takes -/

theorem Plan.quantity_eq {r : Reservation} (h : p.reservations[n]? = some r) : p.quantity n = r.quantity.toInt := by
  unfold Plan.quantity
  rw [h]
  rfl

theorem Plan.taken_concat (counted : List Nat) (n : Nat) :
    p.taken (counted ++ [n]) = p.taken counted + p.quantity n := by
  induction counted with
  | nil => exact Int.add_comm ..
  | cons k rest ih =>
    rw [List.cons_append, taken, taken, ih, Int.add_assoc]

theorem Plan.quantity_nonneg (positive : ∀ r ∈ p.reservations, 0 < r.quantity.toInt) (n : Nat) :
    0 ≤ p.quantity n := by
  unfold Plan.quantity
  cases h : p.reservations[n]? with
  | none => exact Int.le_refl 0
  | some r => exact Int.le_of_lt (positive r (List.mem_of_getElem? h))

theorem Plan.taken_nonneg (positive : ∀ r ∈ p.reservations, 0 < r.quantity.toInt) (counted : List Nat) :
    0 ≤ p.taken counted := by
  induction counted with
  | nil => exact Int.le_refl 0
  | cons n rest ih =>
    have := quantity_nonneg positive n
    rw [taken]
    omega

/-! ### One half -/

theorem reaches_eq_some : race.reaches n c k = some c' ↔ (k = n ∧ c = c') ∨ (k ≠ n ∧ race.reached k = some c') := by
  unfold reaches
  split
  case isTrue h => simp [h]
  case isFalse h => simp [h]

theorem step_cases (h : step? p race e = some race') :
    (∃ n r, e = .check n ∧ p.reservations[n]? = some r ∧ race.reached n = none ∧ race' = race.check p n r) ∨
    ∃ n r before after, e = .put n ∧ p.reservations[n]? = some r ∧ race.reached n = some (.putting before after) ∧
      race' = race.put p n r before after := by
  cases e with
  | check n =>
    simp only [step?] at h
    split at h
    case h_1 r hr hn =>
      cases h
      exact .inl ⟨n, r, rfl, hr, hn, rfl⟩
    case h_2 => cases h
  | put n =>
    simp only [step?] at h
    split at h
    case h_1 r before after hr hn =>
      cases h
      exact .inr ⟨n, r, before, after, rfl, hr, hn, rfl⟩
    case h_2 => cases h

/-! ### What is kept -/

/-- The figure is the one at the start less what some of the reservations took, each of which has put a figure. -/
structure Less (p : Plan) (s : Snapshot) (puts counted : List Nat) (figure : Int64) : Prop where
  among : counted.Sublist puts
  figure : figure.toInt = s.onHand.toInt - p.taken counted

/-- What a reservation goes by that is still to put its figure. -/
structure Seen (p : Plan) (s : Snapshot) (puts : List Nat) (n : Nat) (before after : Int64) : Prop where
  less : ∃ counted, Less p s puts counted before
  left : after.toInt = before.toInt - p.quantity n
  nonneg : 0 ≤ after.toInt

/-- What holds all along. -/
structure Kept (p : Plan) (d : Depot) (s : Snapshot) (race : Race) : Prop where
  record : ∃ left counted, race.depot.records p.hubId p.skuId = [{ s with onHand := left }] ∧
    Less p s race.puts counted left ∧ counted.getLast? = race.puts.getLast? ∧ (0 ≤ s.onHand.toInt → 0 ≤ left.toInt)
  seen : ∀ n before after, race.reached n = some (.putting before after) → Seen p s race.puts n before after
  reserved : ∀ n, n ∈ race.puts ↔ ∃ before after, race.reached n = some (.over (.ok (.reserved before after)))
  once : race.puts.Nodup
  made : race.depot.calls.countP (·.puts p.hubId p.skuId) =
    d.calls.countP (·.puts p.hubId p.skuId) + race.puts.length

theorem kept_start (record : d.records p.hubId p.skuId = [s]) : Kept p d s (start d) where
  record := ⟨s.onHand, [], record, ⟨List.Sublist.refl _, by simp [Plan.taken]⟩, rfl, id⟩
  seen := by
    intro n before after h
    cases h
  reserved := by
    intro n
    simp [start]
  once := List.nodup_nil
  made := rfl

theorem Less.concat {puts counted : List Nat} {before after : Int64} (h : Less p s puts counted before)
    (left : after.toInt = before.toInt - p.quantity n) : Less p s (puts ++ [n]) (counted ++ [n]) after := by
  refine ⟨h.among.append (List.Sublist.refl _), ?_⟩
  rw [Plan.taken_concat, left, h.figure]
  omega

theorem Seen.later {puts : List Nat} {before after : Int64} (h : Seen p s puts k before after) (n : Nat) :
    Seen p s (puts ++ [n]) k before after := by
  obtain ⟨counted, hless⟩ := h.less
  exact ⟨⟨counted, hless.among.trans (List.sublist_append_left ..), hless.figure⟩, h.left, h.nonneg⟩

/-- A half that puts nothing. -/
theorem Kept.idle {d' : Depot} {cs : List Call} (h : Kept p d s race) (booked : Depot.Booked race.depot cs d')
    (idle : ∀ call ∈ cs, call.writesStock = false) (fresh : n ∉ race.puts)
    (unput : ∀ before after, c ≠ .over (.ok (.reserved before after)))
    (hseen : ∀ before after, c = .putting before after → Seen p s race.puts n before after) :
    Kept p d s { race with depot := d', reached := race.reaches n c } where
  record := by
    obtain ⟨left, counted, hr, hl⟩ := h.record
    refine ⟨left, counted, ?_, hl⟩
    unfold Depot.records at hr ⊢
    rwa [booked.stock_of_not_writes idle]
  seen := by
    intro k before after hk
    rcases reaches_eq_some.1 hk with ⟨rfl, hc⟩ | ⟨-, hk⟩
    · exact hseen before after hc
    · exact h.seen k before after hk
  reserved := by
    intro k
    constructor
    · intro hm
      obtain ⟨before, after, hk⟩ := (h.reserved k).1 hm
      exact ⟨before, after, reaches_eq_some.2 (.inr ⟨fun hkn => fresh (hkn ▸ hm), hk⟩)⟩
    · rintro ⟨before, after, hk⟩
      rcases reaches_eq_some.1 hk with ⟨-, hc⟩ | ⟨-, hk⟩
      · exact absurd hc (unput before after)
      · exact (h.reserved k).2 ⟨before, after, hk⟩
  once := h.once
  made := by
    rw [booked.calls, List.countP_append, countP_puts_eq_zero idle, h.made]
    rfl

/-- A figure is put, in place of whatever was on hand. -/
theorem Kept.overwrite {d' : Depot} {tenantId : String} {before after : Int64} (h : Kept p d s race)
    (booked : Depot.Booked race.depot [.setOnHand ⟨tenantId, p.hubId, p.skuId, after⟩ true] d')
    (fresh : n ∉ race.puts)
    (seen : Seen p s race.puts n before after) :
    Kept p d s ⟨d', race.reaches n (.over (.ok (.reserved before after))), race.puts ++ [n]⟩ where
  record := by
    obtain ⟨left, -, hr, -⟩ := h.record
    obtain ⟨counted, hless⟩ := seen.less
    refine ⟨after, counted ++ [n], ?_, hless.concat seen.left, by simp, fun _ => seen.nonneg⟩
    have hput := Depot.filter_putOnHand_self (x := after) hr
    unfold Depot.records
    rw [booked.stock_eq]
    exact hput
  seen := by
    intro k before' after' hk
    rcases reaches_eq_some.1 hk with ⟨-, hc⟩ | ⟨-, hk⟩
    · cases hc
    · exact (h.seen k before' after' hk).later n
  reserved := by
    intro k
    rw [List.mem_append, List.mem_singleton]
    constructor
    · rintro (hm | rfl)
      · obtain ⟨before', after', hk⟩ := (h.reserved k).1 hm
        exact ⟨before', after', reaches_eq_some.2 (.inr ⟨fun hkn => fresh (hkn ▸ hm), hk⟩)⟩
      · exact ⟨before, after, reaches_eq_some.2 (.inl ⟨rfl, rfl⟩)⟩
    · rintro ⟨before', after', hk⟩
      rcases reaches_eq_some.1 hk with ⟨hkn, -⟩ | ⟨-, hk⟩
      · exact .inr hkn
      · exact .inl ((h.reserved k).2 ⟨before', after', hk⟩)
  once := by
    refine List.nodup_append.2 ⟨h.once, by simp, fun a ha b hb => ?_⟩
    rw [List.mem_singleton.1 hb]
    rintro rfl
    exact fresh ha
  made := by
    rw [booked.calls, List.countP_append, h.made, List.length_append]
    simp [Call.puts, Nat.add_assoc]

theorem not_mem_puts (h : Kept p d s race) (hn : ∀ outcome, race.reached n ≠ some (.over outcome)) :
    n ∉ race.puts := by
  intro hm
  obtain ⟨before, after, hk⟩ := (h.reserved n).1 hm
  exact hn _ hk

theorem Kept.check {r : Reservation} (h : Kept p d s race) (hr : p.reservations[n]? = some r)
    (hn : race.reached n = none) : Kept p d s (race.check p n r) := by
  obtain ⟨c, d', cs, hc, hb, hi, hcase⟩ := check_spec p.hubId p.skuId r.quantity r.rule race.depot
  have fresh : n ∉ race.puts := not_mem_puts h (by simp [hn])
  unfold Race.check
  rw [hc]
  rcases hcase with ⟨outcome, rfl, ho⟩ | ⟨t, after, ht, ha, rfl⟩
  · refine h.idle hb hi fresh (fun before after hk => ?_) nofun
    exact ho before after (Checked.over.inj hk)
  · refine h.idle hb hi fresh nofun (fun before after' hk => ?_)
    cases hk
    -- The figure seen is the one on hand now.
    obtain ⟨left, counted, hrec, hless, -⟩ := h.record
    obtain rfl := List.singleton_inj.1 (hrec.symm.trans ht)
    obtain ⟨hexact, hnonneg, -⟩ := Snapshot.toInt_of_after? ha
    refine ⟨⟨counted, hless⟩, ?_, hnonneg⟩
    rw [Plan.quantity_eq hr]
    exact hexact

theorem Kept.put {r : Reservation} {before after : Int64} (h : Kept p d s race)
    (hn : race.reached n = some (.putting before after)) : Kept p d s (race.put p n r before after) := by
  have fresh : n ∉ race.puts := not_mem_puts h (by simp [hn])
  unfold Race.put
  rcases put_spec p.hubId p.skuId race.depot r.tenantId before after with ⟨e, d', hp, hb⟩ | ⟨d', hp, hb⟩
  · rw [hp]
    exact h.idle hb (by simp [Call.writesStock]) fresh nofun nofun
  · rw [hp]
    exact h.overwrite hb fresh (h.seen n before after hn)

theorem Kept.step (h : Kept p d s race) (hs : step? p race e = some race') : Kept p d s race' := by
  rcases step_cases hs with ⟨n, r, rfl, hr, hn, rfl⟩ | ⟨n, r, before, after, rfl, -, hn, rfl⟩
  · exact h.check hr hn
  · exact h.put hn

theorem Kept.run {events : List Event} (h : Kept p d s race) (hr : events.foldlM (step? p) race = some race') :
    Kept p d s race' := by
  induction events generalizing race with
  | nil =>
    cases hr
    exact h
  | cons e rest ih =>
    rw [List.foldlM_cons, Option.bind_eq_bind, Option.bind_eq_some_iff] at hr
    obtain ⟨next, hs, hr⟩ := hr
    exact ih (h.step hs) hr

/-- Whatever figures reservations have seen, and whichever of them could not put theirs: what is on hand is the figure
at the start less what some of those took that have put theirs, the last among them, and never below zero for their
sake. -/
theorem run_figure {events : List Event} (record : d.records p.hubId p.skuId = [s])
    (positive : ∀ r ∈ p.reservations, 0 < r.quantity.toInt) (run : run? p d events = some race) :
    ∃ left counted, race.depot.records p.hubId p.skuId = [{ s with onHand := left }] ∧
      left.toInt = s.onHand.toInt - p.taken counted ∧
      counted.Sublist race.puts ∧ counted.getLast? = race.puts.getLast? ∧
      left.toInt ≤ s.onHand.toInt ∧ (0 ≤ s.onHand.toInt → 0 ≤ left.toInt) ∧
      race.puts.Nodup ∧
      (∀ n, n ∈ race.puts ↔ ∃ before after, race.reached n = some (.over (.ok (.reserved before after)))) ∧
      race.depot.calls.countP (·.puts p.hubId p.skuId) =
        d.calls.countP (·.puts p.hubId p.skuId) + race.puts.length := by
  have h := (kept_start record).run run
  obtain ⟨left, counted, hrec, hless, hlast, hnonneg⟩ := h.record
  have htaken := Plan.taken_nonneg positive counted
  have hle : left.toInt ≤ s.onHand.toInt := by
    rw [hless.figure]
    omega
  exact ⟨left, counted, hrec, hless.figure, hless.among, hlast, hle, hnonneg, h.once, h.reserved, h.made⟩

/-- Three reservations by both rules. -/
def threeAtOnce : Plan := ⟨"h1", "k1", [⟨"t1", 4, .onHand⟩, ⟨"t2", 3, .onHandLessReserved⟩, ⟨"t1", 2, .onHand⟩]⟩

def evening : Instant := ⟨⟨2024, 9, 2, by decide⟩, 64800, 0, by decide⟩

/-- Ten pieces, one of them reserved. -/
def tenButOne : Snapshot := ⟨"h1", "k1", 10, 1, none⟩

def allThrees : Uuid := ⟨List.replicate 32 ⟨3, by decide⟩, by decide⟩

/-- The third figure that is put is not taken. -/
def shelf : Depot :=
  { Depot.opened ⟨evening, fun _ => (allThrees, evening), fun _ => allThrees⟩ with
    stock := [tenButOne]
    updates := ⟨false, 0, [false, false, true]⟩ }

/-- The first two see the same figure; the third sees what the second has left, and cannot put its own. -/
def crossing : List Event := [.check 0, .check 1, .put 0, .put 1, .check 2, .put 2]

/-- Four pieces are forgotten. -/
theorem run_figure_of_crossing :
    shelf.records threeAtOnce.hubId threeAtOnce.skuId = [tenButOne] ∧
      (∀ r ∈ threeAtOnce.reservations, 0 < r.quantity.toInt) ∧
      ∃ race, run? threeAtOnce shelf crossing = some race ∧
        race.depot.records "h1" "k1" = [{ tenButOne with onHand := 7 }] ∧ race.puts = [0, 1] ∧
        ∃ left counted, race.depot.records "h1" "k1" = [{ tenButOne with onHand := left }] ∧
          left.toInt = tenButOne.onHand.toInt - threeAtOnce.taken counted ∧
          counted.Sublist race.puts ∧ counted.getLast? = race.puts.getLast? ∧
          left.toInt ≤ tenButOne.onHand.toInt ∧ (0 ≤ tenButOne.onHand.toInt → 0 ≤ left.toInt) ∧
          race.puts.Nodup ∧
          (∀ n, n ∈ race.puts ↔ ∃ before after, race.reached n = some (.over (.ok (.reserved before after)))) ∧
          race.depot.calls.countP (·.puts "h1" "k1") = shelf.calls.countP (·.puts "h1" "k1") + race.puts.length := by
  have record : shelf.records threeAtOnce.hubId threeAtOnce.skuId = [tenButOne] := by decide
  have positive : ∀ r ∈ threeAtOnce.reservations, 0 < r.quantity.toInt := by decide
  have run : run? threeAtOnce shelf crossing = some ((run? threeAtOnce shelf crossing).get (by decide)) :=
    (Option.some_get _).symm
  exact ⟨record, positive, _, run, by decide, by decide, run_figure record positive run⟩

end Race

end Fulfilment
