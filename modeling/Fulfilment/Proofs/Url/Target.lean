import Fulfilment.Http.Exchange
import Fulfilment.Http.Target
import Fulfilment.Proofs.Program
import Fulfilment.Proofs.Text.Utf8

/-!
# What is sent of an address

The path and the query of an address of the web hold printable characters of ASCII only, and none of the marks at
which they would end (`sendable_of_parse?`). So whoever gets them as the target of a request reads the path and the
query that the address has (`ofPath_target`). An address has no query if no question mark stands in its text
(`query_eq_none`).
-/

namespace Fulfilment

namespace Url

variable {c d : Char} {cs more scheme text : List Char} {s : String} {u : Url}

/-! ### Escaped text -/

/-- Printable characters of ASCII without any of the marks. -/
def Clean (marks cs : List Char) : Prop := ∀ c ∈ cs, 0x20 ≤ c.toNat ∧ c.toNat ≤ 0x7E ∧ c ∉ marks

/-- The characters that a byte in hexadecimal is written with. -/
def percentMarks : List Char :=
  ['%', '0', '1', '2', '3', '4', '5', '6', '7', '8', '9', 'A', 'B', 'C', 'D', 'E', 'F']

theorem hexDigit_mem_percentMarks : ∀ n < 16, Char.ofNat (Form.hexDigit n).toNat ∈ percentMarks := by
  decide

theorem mem_percentMarks (h : c ∈ percentChar d) : c ∈ percentMarks := by
  obtain ⟨b, -, hc⟩ := List.mem_flatMap.1 h
  have hb : b.toNat < 256 := b.toNat_lt
  simp only [Form.percent, List.map_cons, List.map_nil, List.mem_cons, List.not_mem_nil, or_false] at hc
  rcases hc with rfl | rfl | rfl
  · decide
  · exact hexDigit_mem_percentMarks _ (by omega)
  · exact hexDigit_mem_percentMarks _ (by omega)

theorem printable_of_mem_percentMarks : ∀ c ∈ percentMarks, 0x20 ≤ c.toNat ∧ c.toNat ≤ 0x7E := by
  have hall : percentMarks.all (fun c => 0x20 ≤ c.toNat ∧ c.toNat ≤ 0x7E) = true := by decide
  intro c hc
  simpa using List.all_eq_true.1 hall c hc

theorem clean_escape (apart : percentMarks.all (!more.contains ·) = true) (cs : List Char) :
    Clean more (escape more cs) := by
  intro c hc
  obtain ⟨d, -, hc⟩ := List.mem_flatMap.1 hc
  split at hc
  · have hmark := mem_percentMarks hc
    obtain ⟨hlow, hhigh⟩ := printable_of_mem_percentMarks c hmark
    have hmore : c ∉ more := by simpa using List.all_eq_true.1 apart c hmark
    exact ⟨hlow, hhigh, hmore⟩
  · rename_i hplain
    obtain rfl := List.mem_singleton.1 hc
    simp only [Bool.or_eq_true, decide_eq_true_eq, List.contains_iff_mem, not_or] at hplain
    exact ⟨by omega, by omega, hplain.2⟩

theorem clean_escape_query (cs : List Char) : Clean (queryMarks true) (escape (queryMarks true) cs) :=
  clean_escape (by decide) cs

/-! ### Paths -/

theorem clean_resolve {done segments : List (List Char)} (h : ∀ s ∈ done, Clean pathMarks s) :
    ∀ s ∈ resolve done segments, Clean pathMarks s := by
  have htail : ∀ s ∈ done.tail, Clean pathMarks s := fun s hs => h s (List.mem_of_mem_tail hs)
  have hempty : Clean pathMarks [] := fun c hc => absurd hc List.not_mem_nil
  induction segments generalizing done with
  | nil => simpa [resolve] using h
  | cons s rest ih =>
    have hstep {front : List (List Char)} (hfront : ∀ s ∈ front, Clean pathMarks s) :
        ∀ s ∈ resolve front rest, Clean pathMarks s :=
      ih hfront fun s hs => hfront s (List.mem_of_mem_tail hs)
    unfold resolve
    split
    · apply hstep
      split
      · exact List.forall_mem_cons.2 ⟨hempty, htail⟩
      · exact htail
    · split
      · apply hstep
        split
        · exact List.forall_mem_cons.2 ⟨hempty, h⟩
        · exact h
      · exact hstep (List.forall_mem_cons.2 ⟨clean_escape (by decide) s, h⟩)

/-- The last segment stays in some form. -/
theorem resolve_ne_nil {segments : List (List Char)} (h : segments ≠ []) (done : List (List Char)) :
    resolve done segments ≠ [] := by
  induction segments generalizing done with
  | nil => exact absurd rfl h
  | cons s rest ih =>
    unfold resolve
    cases rest with
    | nil =>
      split
      · simp [resolve]
      · split <;> simp [resolve]
    | cons s' rest =>
      split
      · exact ih (List.cons_ne_nil _ _) _
      · split
        · exact ih (List.cons_ne_nil _ _) _
        · exact ih (List.cons_ne_nil _ _) _

theorem clean_makePath (special : Bool) (cs : List Char) : Clean pathMarks (makePath special cs) := by
  intro c hc
  obtain ⟨s, hs, hc⟩ := List.mem_flatMap.1 hc
  rcases List.mem_cons.1 hc with rfl | hc
  · decide
  · exact clean_resolve (fun s hs => absurd hs List.not_mem_nil) s hs c hc

theorem makePath_ne_nil (special : Bool) (cs : List Char) : makePath special cs ≠ [] := by
  unfold makePath
  dsimp only
  intro h
  rw [List.flatMap_eq_nil_iff] at h
  obtain ⟨s, rest, hs⟩ := List.exists_cons_of_ne_nil (resolve_ne_nil (partsAt_ne_nil '/' _) [])
  exact absurd (h s (hs ▸ List.mem_cons_self)) (List.cons_ne_nil _ _)

/-! ### Addresses of the web -/

/-- The path and the query can be sent as they are. -/
structure Sendable (u : Url) : Prop where
  path_ne : u.path ≠ []
  path : Clean pathMarks u.path
  query : ∀ q ∈ u.query, Clean (queryMarks true) q

theorem mem_of_mem_tidy (h : c ∈ tidy cs) : c ∈ cs := by
  unfold tidy at h
  dsimp only at h
  have hfront := (List.mem_filter.1 h).1
  rw [List.mem_reverse] at hfront
  have hback := (List.dropWhile_sublist _).subset hfront
  rw [List.mem_reverse] at hback
  exact (List.dropWhile_sublist _).subset hback

theorem mem_of_splitScheme? {rest : List Char} (h : splitScheme? cs = some (scheme, rest)) (hc : c ∈ rest) :
    c ∈ cs := by
  unfold splitScheme? at h
  dsimp only at h
  split at h
  · rename_i hdrop
    split at h
    · cases h
      exact List.mem_of_mem_drop (hdrop ▸ List.mem_cons_of_mem _ hc)
    · cases h
  · cases h

theorem of_ofAuthority? (h : ofAuthority? scheme text = some u) :
    u.scheme = scheme ∧ u.query = (splitTail (isSpecial scheme) text).2.1 ∧
      (isSpecial scheme = true → ∃ rest, u.path = makePath true rest) := by
  unfold ofAuthority? at h
  simp only [Option.bind_eq_bind, Option.bind_eq_some_iff] at h
  obtain ⟨port, -, h⟩ := h
  split at h
  · rename_i special
    obtain ⟨host, -, h⟩ := Option.bind_eq_some_iff.1 h
    split at h
    · cases h
    · cases h
      refine ⟨rfl, rfl, fun _ => ?_⟩
      dsimp only
      rw [if_pos (.inl special), special]
      exact ⟨_, rfl⟩
  · rename_i plain
    obtain ⟨host, -, h⟩ := Option.bind_eq_some_iff.1 h
    split at h
    · cases h
    · cases h
      exact ⟨rfl, rfl, fun special => absurd special plain⟩

theorem isHttp_of_ofFile? (h : ofFile? text = some u) : u.isHttp = false := by
  have hscheme : u.scheme = "file".toList := by
    unfold ofFile? at h
    dsimp only at h
    split at h
    · split at h
      all_goals
        obtain ⟨host, -, h⟩ := Option.bind_eq_some_iff.1 h
        cases h
        rfl
    · cases h
      rfl
  rw [isHttp, hscheme]
  decide +kernel

theorem isSpecial_of_isHttp (web : u.isHttp = true) : isSpecial u.scheme = true := by
  rw [isHttp, Bool.or_eq_true, beq_iff_eq, beq_iff_eq] at web
  rcases web with h | h
  · rw [h]
    decide +kernel
  · rw [h]
    decide +kernel

/-- An address of the web has an authority, which is written in its text. -/
theorem exists_ofAuthority? (h : parse? s = some u) (web : u.isHttp = true) :
    ∃ text, ofAuthority? u.scheme text = some u ∧ isSpecial u.scheme = true ∧ ∀ c ∈ text, c ∈ s.toList := by
  have special := isSpecial_of_isHttp web
  unfold parse? at h
  simp only [Option.bind_eq_bind, Option.bind_eq_some_iff] at h
  obtain ⟨⟨scheme, rest⟩, hsplit, h⟩ := h
  have hrest : ∀ c ∈ rest, c ∈ s.toList := fun c hc => mem_of_mem_tidy (mem_of_splitScheme? hsplit hc)
  dsimp only at h
  split at h
  · rw [isHttp_of_ofFile? h] at web
    cases web
  split at h
  · rename_i hspecial
    obtain ⟨hscheme, -⟩ := of_ofAuthority? h
    exact ⟨_, hscheme ▸ h, special, fun c hc => hrest c ((List.dropWhile_sublist _).subset hc)⟩
  · rename_i hplain
    split at h
    · rw [(of_ofAuthority? h).1] at special
      exact absurd special hplain
    · cases h
      exact absurd special hplain

theorem sendable_of_parse? (h : parse? s = some u) (web : u.isHttp = true) : u.Sendable := by
  obtain ⟨text, hu, special, -⟩ := exists_ofAuthority? h web
  obtain ⟨-, hquery, hpath⟩ := of_ofAuthority? hu
  obtain ⟨rest, hpath⟩ := hpath special
  refine ⟨?_, ?_, ?_⟩
  · rw [hpath]
    exact makePath_ne_nil true rest
  · rw [hpath]
    exact clean_makePath true rest
  · intro q hq
    rw [hquery, special] at hq
    obtain ⟨tail, -, rfl⟩ := Option.map_eq_some_iff.1 hq
    exact clean_escape_query tail

theorem query_eq_none (h : parse? s = some u) (web : u.isHttp = true) (bare : '?' ∉ s.toList) : u.query = none := by
  obtain ⟨text, hu, special, hmem⟩ := exists_ofAuthority? h web
  obtain ⟨-, hquery, -⟩ := of_ofAuthority? hu
  have hfront : ∀ c ∈ text.takeWhile (· != '#'), (c != '?') = true := by
    intro c hc
    have hc := hmem c ((List.takeWhile_sublist _).subset hc)
    rw [bne_iff_ne]
    rintro rfl
    exact bare hc
  have hback : (text.takeWhile (· != '#') ++ []).dropWhile (· != '?') = [] := List.dropWhile_append_of_pos hfront
  rw [List.append_nil] at hback
  rw [hquery, splitTail, hback]
  rfl

end Url

theorem Http.parse?_of_address? {text : String} {url : Url} (h : Http.address? text = .ok url) :
    Url.parse? text = some url := by
  unfold Http.address? at h
  split at h
  · cases h
  · rename_i hparse
    split at h
    · cases h
      exact hparse
    · cases h

/-- Whether a text is an address of the web can be computed. -/
theorem Http.exists_web_address (text : String) (h : (Http.address? text).toOption.map Url.isHttp = some true) :
    ∃ url, Http.address? text = .ok url ∧ url.isHttp = true := by
  obtain ⟨url, hurl, web⟩ := Option.map_eq_some_iff.1 h
  exact ⟨url, Program.eq_ok_of_toOption hurl, web⟩

/-! ### Targets of requests -/

namespace Http.Target

variable {b : UInt8} {path query : Bytes}

theorem ne_of_isPathByte (h : isPathByte b = true) : b ≠ 0x23 ∧ b ≠ 0x3F := by
  constructor
  all_goals
    rintro rfl
    revert h
    decide

theorem ne_of_isQueryByte (h : isQueryByte b = true) : b ≠ 0x23 := by
  rintro rfl
  revert h
  decide

/-- A target is cut at the question mark. -/
theorem ofPath_append (hpath : ∀ b ∈ path, isPathByte b = true) (hquery : ∀ b ∈ query, isQueryByte b = true)
    (hne : path ≠ []) (wellFormed : (Utf8.decode? (path ++ 0x3F :: query)).isSome = true) :
    ofPath (path ++ 0x3F :: query) = .ok ⟨path, some query⟩ := by
  have hunmarked : ∀ b ∈ path ++ 0x3F :: query, (b != 0x23) = true := by
    intro b hb
    rw [bne_iff_ne]
    rcases List.mem_append.1 hb with hb | hb
    · exact (ne_of_isPathByte (hpath b hb)).1
    · rcases List.mem_cons.1 hb with rfl | hb
      · decide
      · exact ne_of_isQueryByte (hquery b hb)
  have hwhole : (path ++ 0x3F :: query).takeWhile (· != 0x23) = path ++ 0x3F :: query := by
    have htake : (path ++ 0x3F :: query ++ []).takeWhile (· != 0x23) = path ++ 0x3F :: query ++ [] :=
      List.takeWhile_append_of_pos hunmarked
    rwa [List.append_nil] at htake
  have hfront : ∀ b ∈ path, (b != 0x3F) = true := fun b hb => bne_iff_ne.2 (ne_of_isPathByte (hpath b hb)).2
  have hcut : (path ++ 0x3F :: query).takeWhile (· != 0x3F) = path := by
    rw [List.takeWhile_append_of_pos hfront]
    simp
  have hrest : ((path ++ 0x3F :: query).dropWhile (· != 0x3F)).tail? = some query := by
    rw [List.dropWhile_append_of_pos hfront]
    simp
  have hpath' : path.all isPathByte = true := List.all_eq_true.2 hpath
  have hquery' : query.all isQueryByte = true := List.all_eq_true.2 hquery
  unfold ofPath
  simp only [hwhole, hcut, hrest, hpath', hquery', wellFormed, Option.getD_some, Bool.and_self, if_true,
    List.isEmpty_eq_false_iff.2 hne, Bool.false_eq_true, if_false]

end Http.Target

namespace Url

variable {c : Char} {cs : List Char} {u : Url}

theorem isPathByte_of_clean : ∀ n < 0x7F, 0x20 ≤ n → Char.ofNat n ∉ pathMarks →
    Http.Target.isPathByte (Utf8.byte n) = true := by
  decide +kernel

theorem isQueryByte_of_clean : ∀ n < 0x7F, 0x20 ≤ n → Char.ofNat n ∉ queryMarks true →
    Http.Target.isQueryByte (Utf8.byte n) = true := by
  decide +kernel

/-- Each byte that clean text is written as is a character of it. -/
theorem exists_of_mem_encode {marks : List Char} (h : Clean marks cs) {b : UInt8} (hb : b ∈ Utf8.encode cs) :
    ∃ n, n < 0x7F ∧ 0x20 ≤ n ∧ Char.ofNat n ∉ marks ∧ b = Utf8.byte n := by
  obtain ⟨c, hc, hb⟩ := List.mem_flatMap.1 hb
  obtain ⟨hlow, hhigh, hmark⟩ := h c hc
  rw [Utf8.encodeChar, if_pos (by omega), List.mem_singleton] at hb
  refine ⟨c.toNat, by omega, hlow, ?_, hb⟩
  rwa [Char.ofNat_toNat]

/-- The path and the query of an address are read off the target of a request as they are. -/
theorem ofPath_target (h : u.Sendable) {query : List Char} (hquery : u.query = some query) :
    Http.Target.ofPath (Utf8.encode u.target) = .ok ⟨Utf8.encode u.path, some (Utf8.encode query)⟩ := by
  have htarget : Utf8.encode u.target = Utf8.encode u.path ++ 0x3F :: Utf8.encode query := by
    rw [target, hquery, Utf8.encode, List.flatMap_append]
    rfl
  have hpath : ∀ b ∈ Utf8.encode u.path, Http.Target.isPathByte b = true := by
    intro b hb
    obtain ⟨n, hhigh, hlow, hmark, rfl⟩ := exists_of_mem_encode h.path hb
    exact isPathByte_of_clean n hhigh hlow hmark
  have hbytes : ∀ b ∈ Utf8.encode query, Http.Target.isQueryByte b = true := by
    intro b hb
    obtain ⟨n, hhigh, hlow, hmark, rfl⟩ := exists_of_mem_encode (h.query query hquery) hb
    exact isQueryByte_of_clean n hhigh hlow hmark
  have hne : Utf8.encode u.path ≠ [] := by
    intro hnil
    apply h.path_ne
    apply Utf8.encode_inj
    rw [hnil]
    rfl
  rw [htarget]
  apply Http.Target.ofPath_append hpath hbytes hne
  rw [← htarget, Utf8.decode_encode]
  rfl

end Url

end Fulfilment
