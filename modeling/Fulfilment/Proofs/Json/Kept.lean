import Fulfilment.Json.Reader
import Fulfilment.Proofs.Program

/-!
# The values that are kept

How deep values are nested, and what they hold when they were read: a value that was read without a fraction or an
exponent anywhere (`Value.floatless`) holds integers of words of 64 bits only, and members in increasing order of
their names (`Value.kept_of_read`).
-/

namespace Fulfilment

namespace Json

namespace Value

/-! ### Depth -/

mutual

/-- How deep lists and objects are nested. -/
def depth : Value → Nat
  | list items => depthOfItems items + 1
  | object members => depthOfMembers members + 1
  | _ => 0

def depthOfItems : List Value → Nat
  | [] => 0
  | v :: rest => max v.depth (depthOfItems rest)

def depthOfMembers : List (String × Value) → Nat
  | [] => 0
  | (_, v) :: rest => max v.depth (depthOfMembers rest)

end

theorem depth_list_le {items : List Value} {d : Nat} : (list items).depth ≤ d + 1 ↔ ∀ v ∈ items, v.depth ≤ d := by
  rw [depth, Nat.add_le_add_iff_right]
  induction items with
  | nil => simp [depthOfItems]
  | cons v rest ih => rw [depthOfItems, Nat.max_le, ih, List.forall_mem_cons]

theorem lt_depth_list {items : List Value} {d : Nat} : d + 1 < (list items).depth ↔ ∃ v ∈ items, d < v.depth := by
  rw [← Nat.not_le, depth_list_le]
  simp

theorem depth_object_le {members : List (String × Value)} {d : Nat} :
    (object members).depth ≤ d + 1 ↔ ∀ m ∈ members, m.2.depth ≤ d := by
  rw [depth, Nat.add_le_add_iff_right]
  induction members with
  | nil => simp [depthOfMembers]
  | cons m rest ih =>
    obtain ⟨k, v⟩ := m
    rw [depthOfMembers, Nat.max_le, ih, List.forall_mem_cons]

theorem lt_depth_object {members : List (String × Value)} {d : Nat} :
    d + 1 < (object members).depth ↔ ∃ m ∈ members, d < m.2.depth := by
  rw [← Nat.not_le, depth_object_le]
  simp

/-! ### What values are kept -/

mutual

/-- Whether every number is an integer. -/
def floatless : Value → Bool
  | float _ => false
  | list items => floatlessItems items
  | object members => floatlessMembers members
  | _ => true

def floatlessItems : List Value → Bool
  | [] => true
  | v :: rest => v.floatless && floatlessItems rest

def floatlessMembers : List (String × Value) → Bool
  | [] => true
  | (_, v) :: rest => v.floatless && floatlessMembers rest

end

theorem floatless_list {items : List Value} : (list items).floatless = true ↔ ∀ v ∈ items, v.floatless = true := by
  rw [floatless]
  induction items with
  | nil => simp [floatlessItems]
  | cons v rest ih => rw [floatlessItems, Bool.and_eq_true, ih, List.forall_mem_cons]

theorem floatless_object {members : List (String × Value)} :
    (object members).floatless = true ↔ ∀ m ∈ members, m.2.floatless = true := by
  rw [floatless]
  induction members with
  | nil => simp [floatlessMembers]
  | cons m rest ih =>
    obtain ⟨k, v⟩ := m
    rw [floatlessMembers, Bool.and_eq_true, ih, List.forall_mem_cons]

/-- Members in increasing order of their names. -/
def Ascending (members : List (String × Value)) : Prop := members.Pairwise fun m m' => m.1 < m'.1

/-- An object has its members in increasing order of their names. -/
def Ordered : Value → Prop
  | object members => Ascending members
  | _ => True

/-- The values that are written and read back: all numbers are integers of words of 64 bits, and all members stand in
increasing order of their names. -/
inductive Kept : Value → Prop
  | null : Kept null
  | bool (b : Bool) : Kept (bool b)
  | int {n : Int} (low : min64 ≤ n) (high : n ≤ maxWord64) : Kept (int n)
  | text (s : String) : Kept (text s)
  | list {items : List Value} (each : ∀ v ∈ items, Kept v) : Kept (list items)
  | object {members : List (String × Value)} (each : ∀ m ∈ members, Kept m.2) (ascending : Ascending members) :
    Kept (object members)

/-! ### Members one after another -/

section

variable {k : String} {v : Value} {ms ms' : List (String × Value)}

theorem mem_insert {m : String × Value} (h : m ∈ insert k v ms) : m = (k, v) ∨ m ∈ ms := by
  induction ms with
  | nil => exact .inl (List.mem_singleton.1 h)
  | cons m' rest ih =>
    obtain ⟨k', v'⟩ := m'
    unfold insert at h
    split at h
    · exact (List.mem_cons.1 h).imp_right (List.mem_cons_of_mem _)
    · split at h
      · exact List.mem_cons.1 h
      · rcases List.mem_cons.1 h with rfl | h
        · exact .inr List.mem_cons_self
        · exact (ih h).imp_right (List.mem_cons_of_mem _)

theorem Ascending.insert (h : Ascending ms) : Ascending (insert k v ms) := by
  induction ms with
  | nil => exact List.pairwise_singleton _ _
  | cons m rest ih =>
    obtain ⟨k', v'⟩ := m
    obtain ⟨hfirst, hrest⟩ := List.pairwise_cons.1 h
    unfold Value.insert
    split
    · rename_i hk
      exact List.pairwise_cons.2 ⟨fun m hm => hk ▸ hfirst m hm, hrest⟩
    · split
      · rename_i hlt
        refine List.pairwise_cons.2 ⟨fun m hm => ?_, h⟩
        rcases List.mem_cons.1 hm with rfl | hm
        · exact hlt
        · exact String.lt_trans hlt (hfirst m hm)
      · rename_i hne hlt
        refine List.pairwise_cons.2 ⟨fun m hm => ?_, ih hrest⟩
        rcases mem_insert hm with rfl | hm
        · exact String.not_le.1 fun hle => hne (String.le_antisymm hle (String.not_lt.1 hlt))
        · exact hfirst m hm

/-- A member of a new name is added. -/
theorem perm_insert (h : ∀ m ∈ ms, m.1 ≠ k) : (insert k v ms).Perm ((k, v) :: ms) := by
  induction ms with
  | nil => exact .refl _
  | cons m rest ih =>
    obtain ⟨k', v'⟩ := m
    obtain ⟨hne, hrest⟩ := List.forall_mem_cons.1 h
    unfold insert
    rw [if_neg (Ne.symm hne)]
    split
    · exact .refl _
    · exact ((ih hrest).cons _).trans (.swap _ _ _)

/-- Members in increasing order of their names are in no other order. -/
theorem Ascending.eq_of_perm (h : Ascending ms) (h' : Ascending ms') (hp : ms.Perm ms') : ms = ms' :=
  hp.eq_of_pairwise (fun _ _ _ _ hlt hgt => absurd hgt (String.lt_asymm hlt)) h h'

theorem Ascending.nodup (h : Ascending ms) : (ms.map (·.1)).Nodup := by
  refine List.pairwise_map.2 (h.imp ?_)
  intro m m' hlt he
  rw [he] at hlt
  exact String.lt_irrefl _ hlt

/-- Of members in increasing order of their names, each is found under its name. -/
theorem Ascending.lookup_eq_some_iff (h : Ascending ms) : lookup k ms = some v ↔ (k, v) ∈ ms := by
  induction ms with
  | nil => simp [lookup]
  | cons m rest ih =>
    obtain ⟨j, w⟩ := m
    obtain ⟨hfirst, hrest⟩ := List.pairwise_cons.1 h
    rw [lookup, List.mem_cons]
    by_cases hk : k = j
    · subst hk
      have hlater : (k, v) ∉ rest := fun hmem => String.lt_irrefl k (hfirst _ hmem)
      simp [hlater, eq_comm]
    · simp [hk, ih hrest]

/-- Writes members one after another. -/
def insertAll (ms : List (String × Value)) : List (String × Value) → List (String × Value) :=
  List.foldl (fun ms m => insert m.1 m.2 ms) ms

theorem Ascending.insertAll (h : Ascending ms) : Ascending (insertAll ms ms') := by
  induction ms' generalizing ms with
  | nil => exact h
  | cons m rest ih => exact ih h.insert

theorem perm_insertAll (h : ((ms ++ ms').map (·.1)).Nodup) : (insertAll ms ms').Perm (ms ++ ms') := by
  induction ms' generalizing ms with
  | nil => rw [List.append_nil]; exact .refl ms
  | cons m rest ih =>
    have hmoved : (ms ++ m :: rest).Perm (m :: ms ++ rest) := List.perm_middle
    have hnames := (hmoved.map (·.1)).nodup_iff.1 h
    have hnew : ∀ m' ∈ ms, m'.1 ≠ m.1 := by
      rw [List.cons_append, List.map_cons, List.nodup_cons] at hnames
      exact fun m' hm' he => hnames.1 (List.mem_map.2 ⟨m', List.mem_append_left _ hm', he⟩)
    have hinsert : (insert m.1 m.2 ms ++ rest).Perm (m :: ms ++ rest) := (perm_insert hnew).append_right rest
    exact (ih ((hinsert.map (·.1)).nodup_iff.2 hnames)).trans (hinsert.trans hmoved.symm)

/-- Members that come in increasing order of their names are added at the end. -/
theorem insertAll_of_ascending (h : Ascending (ms ++ ms')) : insertAll ms ms' = ms ++ ms' :=
  Ascending.eq_of_perm (Ascending.insertAll (List.pairwise_append.1 h).1) h (perm_insertAll h.nodup)

end

/-! ### Values read -/

end Value

theorem Reader.forall_of_itemsFrom {α : Type} {r : Reader α} {P : α → Prop} {acc as : List α} {first : Bool}
    {c d : Cursor} (hr : ∀ c a c', r.read c = .ok (a, c') → P a) (hacc : ∀ a ∈ acc, P a)
    (h : r.itemsFrom acc first c = .ok (as, d)) : ∀ a ∈ as, P a := by
  fun_induction itemsFrom r acc first c with
  | case1 => cases h
  | case2 =>
    cases h
    exact fun a ha => hacc a (List.mem_reverse.1 ha)
  | case3 => cases h
  | case4 acc first c d ht a d' hread ih =>
    exact ih (List.forall_mem_cons.2 ⟨hr _ _ _ hread, hacc⟩) h

theorem forall_of_membersFrom {r : Reader Value} {P : Value → Prop} {ms ms' : List (String × Value)} {first : Bool}
    {c d : Cursor} (hr : ∀ c v c', r.read c = .ok (v, c') → P v)
    (hms : (∀ m ∈ ms, P m.2) ∧ Value.Ascending ms) (h : membersFrom r ms first c = .ok (ms', d)) :
    (∀ m ∈ ms', P m.2) ∧ Value.Ascending ms' := by
  fun_induction membersFrom r ms first c with
  | case1 => cases h
  | case2 =>
    cases h
    exact hms
  | case3 => cases h
  | case4 => cases h
  | case5 => cases h
  | case6 ms first c d₀ hk k d₁ ht d₂ hc v d₃ hv ih =>
    refine ih ⟨fun m hm => ?_, hms.2.insert⟩ h
    rcases Value.mem_insert hm with rfl | hm
    · exact hr _ _ _ hv
    · exact hms.1 m hm

theorem readNumber_int {negative : Bool} {c d : Cursor} {n : Int} (h : readNumber negative c = .ok (.int n, d)) :
    min64 ≤ n ∧ n ≤ maxWord64 := by
  unfold readNumber at h
  split at h
  · cases h
  · rename_i t d' hread
    split at h
    · rename_i x hx
      cases h
      have hnatural : (0 : Int) ≤ NumberText.natural t.whole := Int.natCast_nonneg _
      unfold NumberText.value? at hx
      dsimp only at hx
      split at hx
      · rename_i hrange
        cases hx
        unfold min64 maxWord64 at *
        omega
      · split at hx
        · rename_i hrange
          cases hx
          unfold min64 maxWord64 at *
          omega
        · cases hd : t.double? <;> rw [hd] at hx <;> cases hx
    · cases h

namespace Value

theorem kept_of_readWord {v w : Value} {word : Bytes} {c d : Cursor} (hv : v.Kept)
    (h : readWord v word c = .ok (w, d)) : w.Kept := by
  unfold readWord at h
  split at h <;> cases h
  exact hv

theorem kept_of_readNumber {negative : Bool} {c d : Cursor} {n : Number} (h : readNumber negative c = .ok (n, d))
    (hn : n.toValue.floatless = true) : n.toValue.Kept := by
  cases n with
  | int n =>
    obtain ⟨low, high⟩ := readNumber_int h
    exact .int low high
  | float => cases hn

theorem kept_of_readValue {nested : Option (Reader Value)} {c d : Cursor} {v : Value}
    (hr : ∀ r, nested = some r → ∀ c v c', r.read c = .ok (v, c') → v.floatless = true → v.Kept)
    (h : readValue nested c = .ok (v, d)) (hv : v.floatless = true) : v.Kept := by
  unfold readValue at h
  dsimp only at h
  split at h
  · cases h
  · split at h
    · exact kept_of_readWord .null h
    · exact kept_of_readWord (.bool true) h
    · exact kept_of_readWord (.bool false) h
    · split at h <;> cases h
      rename_i hnumber
      exact kept_of_readNumber hnumber hv
    · split at h <;> cases h
      rename_i hnumber
      exact kept_of_readNumber hnumber hv
    · split at h <;> cases h
      exact .text _
    · split at h
      · cases h
      · -- what stands in a list or an object was read by the nested reader
        rename_i r
        split at h <;> cases h
        rename_i hitems
        have hkept := Reader.forall_of_itemsFrom (P := fun v => v.floatless = true → v.Kept) (hr r rfl)
          (fun _ hmem => absurd hmem List.not_mem_nil) hitems
        rw [floatless_list] at hv
        exact .list fun v hmem => hkept v hmem (hv v hmem)
    · split at h
      · cases h
      · rename_i r
        split at h <;> cases h
        rename_i hmembers
        obtain ⟨hkept, hascending⟩ := forall_of_membersFrom (P := fun v => v.floatless = true → v.Kept) (hr r rfl)
          ⟨fun _ hmem => absurd hmem List.not_mem_nil, .nil⟩ hmembers
        rw [floatless_object] at hv
        exact .object (fun m hmem => hkept m hmem (hv m hmem)) hascending
    · cases h

theorem kept_of_read {d : Nat} {c c' : Cursor} {v : Value} (h : (reader d).read c = .ok (v, c'))
    (hv : v.floatless = true) : v.Kept := by
  induction d generalizing c c' v with
  | zero =>
    have h : readValue none c = .ok (v, c') := h
    refine kept_of_readValue (fun r hr => ?_) h hv
    cases hr
  | succ d ih =>
    have h : readValue (some (reader d)) c = .ok (v, c') := h
    refine kept_of_readValue (fun r hr => ?_) h hv
    cases hr
    exact fun _ _ _ => ih

theorem kept_of_parse {text : Bytes} {v : Value} (h : parse text = .ok v) (hv : v.floatless = true) : v.Kept := by
  obtain ⟨⟨w, c⟩, hread, hend⟩ := Program.ok_of_bind h
  obtain ⟨-, -, hv'⟩ := Program.ok_of_bind hend
  cases hv'
  exact kept_of_read hread hv

end Value

end Json

end Fulfilment
