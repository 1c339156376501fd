import VoiceOrder.Menu.CodeUnits

/-! # Similarity rests on the edit distance

The loop fills one of two rows over what it held before and then swaps them. What it leaves is
the table of edit distances, row by row. Texts are lists of code units here, in which a surrogate
may stand alone. -/

namespace VoiceOrder.Menu

open EditDistance VoiceOrder.Tts

namespace Units

/-! ## The loop -/

/-- The body of the inner loop, for entry `j` of row `i`. -/
def fillEntry (a b : CodeUnits) (i : ℕ) (prev curr : List ℕ) (j : ℕ) : List ℕ :=
  let cost := if a[i - 1]? = b[j - 1]? then 0 else 1
  curr.set j
    (min (min (prev[j]?.getD 0 + 1) (curr[j - 1]?.getD 0 + 1)) (prev[j - 1]?.getD 0 + cost))

/-- The inner loop, which writes row `i` over the contents of `curr`. -/
def fillRow (a b : CodeUnits) (i : ℕ) (prev curr : List ℕ) : List ℕ :=
  (List.range' 1 b.length).foldl (fillEntry a b i prev) (curr.set 0 i)

/-- The body of the outer loop: the rows `prev` and `curr`, swapped at the end. -/
def nextRows (a b : CodeUnits) (rows : List ℕ × List ℕ) (i : ℕ) : List ℕ × List ℕ :=
  (fillRow a b i rows.1 rows.2, rows.1)

/-- Classic edit distance, with two rows that are swapped and written over. -/
def levenshtein (a b : CodeUnits) : ℕ :=
  let m := a.length
  let n := b.length
  if m = 0 then n
  else if n = 0 then m
  else
    let prev := List.range (n + 1)
    let curr := List.replicate (n + 1) 0
    let rows := (List.range' 1 m).foldl (nextRows a b) (prev, curr)
    rows.1[n]?.getD 0

/-! ## What the loop leaves -/

variable {a b : CodeUnits} {i j : ℕ} {prev curr : List ℕ}

/-- The first entries of a row are those of the table; what follows them may be stale. -/
structure Filled (a b : CodeUnits) (j : ℕ) (curr : List ℕ) : Prop where
  length : curr.length = b.length + 1
  entry : ∀ k ≤ j, curr[k]? = some (distance a (b.take k))

theorem Filled.eq_row (h : Filled a b b.length curr) : curr = row a b := by
  refine List.ext_getElem (by rw [h.length, length_row]) ?_
  intro k hk _
  have hentry := h.entry k (by have := h.length; omega)
  rw [List.getElem?_eq_getElem hk] at hentry
  rw [getElem_row]
  exact Option.some.inj hentry

/-- One entry more, from the one beside it and the two above. -/
theorem fillEntry_filled (hi : i < a.length) (hj : j < b.length)
    (h : Filled (a.take (i + 1)) b j curr) :
    Filled (a.take (i + 1)) b (j + 1)
      (fillEntry a b (i + 1) (row (a.take i) b) curr (j + 1)) := by
  have habove := getElem?_row (a.take i) b (Nat.succ_le_of_lt hj)
  have hdiagonal := getElem?_row (a.take i) b hj.le
  have hcost : (if a[i]? = b[j]? then 0 else 1) = if a[i] = b[j] then 0 else 1 := by
    simp only [List.getElem?_eq_getElem hi, List.getElem?_eq_getElem hj, Option.some_inj]
  refine ⟨?_, ?_⟩
  · simp only [fillEntry, List.length_set]
    exact h.length
  · intro k hk
    simp only [fillEntry, Nat.add_sub_cancel]
    by_cases hlast : k = j + 1
    · subst hlast
      rw [List.getElem?_set_self (by rw [h.length]; omega), habove, hdiagonal, h.entry j le_rfl,
        hcost, distance_take_succ hi hj]
      rfl
    · rw [List.getElem?_set_ne (Ne.symm hlast)]
      exact h.entry k (by omega)

/-- The inner loop replaces the row `curr`, whatever it held. -/
theorem fillRow_eq_row (hi : i < a.length) (hcurr : curr.length = b.length + 1) :
    fillRow a b (i + 1) (row (a.take i) b) curr = row (a.take (i + 1)) b := by
  have hfilled : ∀ j ≤ b.length, Filled (a.take (i + 1)) b j
      ((List.range' 1 j).foldl (fillEntry a b (i + 1) (row (a.take i) b)) (curr.set 0 (i + 1))) := by
    intro j
    induction j with
    | zero =>
        intro _
        refine ⟨by simpa using hcurr, ?_⟩
        intro k hk
        obtain rfl : k = 0 := by omega
        rw [List.range'_zero, List.foldl_nil, List.getElem?_set_self (by omega), List.take_zero,
          distance_nil_right, List.length_take_of_le hi]
    | succ j ih =>
        intro hj
        rw [List.range'_1_concat, List.foldl_append, List.foldl_cons, List.foldl_nil,
          Nat.add_comm 1 j]
        exact fillEntry_filled hi hj (ih (by omega))
  exact (hfilled b.length le_rfl).eq_row

/-- After each round of the outer loop `prev` is the row of the table. -/
theorem nextRows_foldl (a b : CodeUnits) (hcurr : curr.length = b.length + 1) (hi : i ≤ a.length) :
    ∃ stale : List ℕ, stale.length = b.length + 1 ∧
      (List.range' 1 i).foldl (nextRows a b) (row [] b, curr) = (row (a.take i) b, stale) := by
  induction i with
  | zero => exact ⟨curr, hcurr, rfl⟩
  | succ i ih =>
      obtain ⟨stale, hstale, hrows⟩ := ih (by omega)
      refine ⟨row (a.take i) b, length_row _ _, ?_⟩
      rw [List.range'_1_concat, List.foldl_append, hrows, Nat.add_comm 1 i]
      simp only [List.foldl_cons, List.foldl_nil, nextRows]
      rw [fillRow_eq_row hi hstale]

theorem levenshtein_eq_distance (a b : CodeUnits) : levenshtein a b = distance a b := by
  simp only [levenshtein]
  split
  case isTrue ha => rw [List.length_eq_zero_iff.mp ha, distance_nil_left]
  case isFalse =>
    split
    case isTrue hb => rw [List.length_eq_zero_iff.mp hb, distance_nil_right]
    case isFalse =>
      have hcurr : (List.replicate (b.length + 1) 0).length = b.length + 1 := List.length_replicate
      obtain ⟨stale, -, hrows⟩ := nextRows_foldl a b hcurr le_rfl
      rw [← row_nil, hrows, List.take_length, getElem?_row_length]
      rfl

example : levenshtein (codeUnits "coke zero") (codeUnits "cola zero") = 2 := by decide

/-! ## Similarity -/

/-- A run of white space is replaced by one space; `inGap` says that one is being consumed. -/
def collapseSpaces (inGap : Bool) : CodeUnits → CodeUnits
  | [] => []
  | unit :: rest =>
      if isSpace unit then
        if inGap then collapseSpaces true rest else ' '.val.toUInt16 :: collapseSpaces true rest
      else unit :: collapseSpaces false rest

def normalize (toLowerCase : CodeUnits → CodeUnits) (s : CodeUnits) : CodeUnits :=
  trim (collapseSpaces false (toLowerCase s))

/-- 1 for the same text up to case and white space, 0 for an empty one. -/
def similarity (toLowerCase : CodeUnits → CodeUnits) (a b : CodeUnits) : ℚ :=
  let na := normalize toLowerCase a
  let nb := normalize toLowerCase b
  if na = [] ∨ nb = [] then 0
  else if na = nb then 1
  else if nb <:+: na ∨ na <:+: nb then 9 / 10
  else
    let dist := levenshtein na nb
    let maxLen := max na.length nb.length
    if maxLen = 0 then 0 else 1 - (dist : ℚ) / maxLen

variable (toLowerCase : CodeUnits → CodeUnits)

theorem levenshtein_le (a b : CodeUnits) : levenshtein a b ≤ max a.length b.length := by
  rw [levenshtein_eq_distance]
  exact distance_le_max a b

theorem similarity_comm (a b : CodeUnits) :
    similarity toLowerCase a b = similarity toLowerCase b a := by
  simp only [similarity, levenshtein_eq_distance]
  rw [distance_comm, max_comm]
  simp only [or_comm, eq_comm]

/-- The share of the longer text that is edited. -/
theorem editedShare_mem (na nb : CodeUnits) :
    0 ≤ (levenshtein na nb : ℚ) / (max na.length nb.length : ℕ) ∧
      (levenshtein na nb : ℚ) / (max na.length nb.length : ℕ) ≤ 1 := by
  refine ⟨div_nonneg (Nat.cast_nonneg _) (Nat.cast_nonneg _), ?_⟩
  exact div_le_one_of_le₀ (by exact_mod_cast levenshtein_le na nb) (Nat.cast_nonneg _)

theorem similarity_mem (a b : CodeUnits) :
    0 ≤ similarity toLowerCase a b ∧ similarity toLowerCase a b ≤ 1 := by
  have hshare := editedShare_mem (normalize toLowerCase a) (normalize toLowerCase b)
  simp only [similarity]
  split_ifs with hempty heq hin hlen
  · exact ⟨le_rfl, zero_le_one⟩
  · exact ⟨zero_le_one, le_rfl⟩
  · norm_num
  · exact ⟨le_rfl, zero_le_one⟩
  · exact ⟨sub_nonneg.mpr hshare.2, sub_le_self _ hshare.1⟩

/-- Texts that differ keep a distance, which the last branch subtracts. -/
theorem similarity_eq_one_iff (a b : CodeUnits) :
    similarity toLowerCase a b = 1 ↔
      normalize toLowerCase a = normalize toLowerCase b ∧ normalize toLowerCase a ≠ [] := by
  simp only [similarity]
  split_ifs with hempty heq hin hlen
  · refine ⟨fun h => absurd h (by norm_num), ?_⟩
    rintro ⟨heq, hne⟩
    exact absurd hempty (by simp [← heq, hne])
  · exact ⟨fun _ => ⟨heq, fun h => hempty (.inl h)⟩, fun _ => rfl⟩
  · exact ⟨fun h => absurd h (by norm_num), fun h => absurd h.1 heq⟩
  · exact ⟨fun h => absurd h (by norm_num), fun h => absurd h.1 heq⟩
  · refine ⟨fun h => absurd ?_ heq, fun h => absurd h.1 heq⟩
    have hshare := sub_eq_self.mp h
    rw [div_eq_zero_iff, Nat.cast_eq_zero, Nat.cast_eq_zero, levenshtein_eq_distance] at hshare
    exact distance_eq_zero_iff.mp (hshare.resolve_right hlen)

/-- The loop computes the least number of edits of single code units, and the similarity on top of
it is symmetric, between 0 and 1, and 1 for the same normalised text only. -/
theorem similarity_exact (toLowerCase : CodeUnits → CodeUnits) (a b : CodeUnits) :
    levenshtein a b = distance a b ∧
      IsLeast {n | EditedIn n a b} (levenshtein a b) ∧
      similarity toLowerCase a b = similarity toLowerCase b a ∧
      0 ≤ similarity toLowerCase a b ∧ similarity toLowerCase a b ≤ 1 ∧
      (similarity toLowerCase a b = 1 ↔
        normalize toLowerCase a = normalize toLowerCase b ∧ normalize toLowerCase a ≠ []) := by
  have hdistance := levenshtein_eq_distance a b
  have hbounds := similarity_mem toLowerCase a b
  refine ⟨hdistance, ?_, similarity_comm toLowerCase a b, hbounds.1, hbounds.2,
    similarity_eq_one_iff toLowerCase a b⟩
  rw [hdistance]
  exact distance_isLeast a b

end Units

/-! ## Strings of characters -/

theorem dropWhile_flatMap {α β : Type*} {f : α → List β} {p : α → Bool} {q : β → Bool} {xs : List α}
    (htrue : ∀ x, p x = true → ∀ y ∈ f x, q y = true)
    (hfalse : ∀ x, p x = false → f x ≠ [] ∧ ∀ y ∈ f x, q y = false) :
    (xs.flatMap f).dropWhile q = (xs.dropWhile p).flatMap f := by
  induction xs with
  | nil => rfl
  | cons x xs ih =>
      rw [List.flatMap_cons]
      cases hx : p x with
      | true =>
          rw [List.dropWhile_append_of_pos (htrue x hx), List.dropWhile_cons_of_pos hx, ih]
      | false =>
          obtain ⟨hne, hall⟩ := hfalse x hx
          obtain ⟨y, ys, hy⟩ := List.exists_cons_of_ne_nil hne
          have hhead : q y = false := hall y (hy ▸ List.mem_cons_self)
          rw [List.dropWhile_cons_of_neg (by simp [hx]), List.flatMap_cons, hy, List.cons_append,
            List.dropWhile_cons_of_neg (by simp [hhead])]

theorem trim_flatMap_charUnits (s : List Char) :
    trim (s.flatMap charUnits) = (Ordering.AgentReply.trimChars s).flatMap charUnits := by
  have htrue (c : Char) (hc : isWhiteSpace c = true) :
      ∀ unit ∈ charUnits c, isSpace unit = true := by
    intro unit hmem
    obtain ⟨space, hunits, hspace⟩ := charUnits_of_isSpace hc
    rw [hunits] at hmem
    rwa [List.mem_singleton.mp hmem]
  have hfalse (c : Char) (hc : isWhiteSpace c = false) :
      charUnits c ≠ [] ∧ ∀ unit ∈ charUnits c, isSpace unit = false :=
    ⟨charUnits_ne_nil c, fun unit => isSpace_of_mem_charUnits hc⟩
  have hback (s : List Char) :
      (s.flatMap (List.reverse ∘ charUnits)).dropWhile isSpace =
        (s.dropWhile isWhiteSpace).flatMap (List.reverse ∘ charUnits) := by
    refine dropWhile_flatMap ?_ ?_
    · intro c hc unit hmem
      exact htrue c hc unit (List.mem_reverse.mp hmem)
    · intro c hc
      refine ⟨mt List.reverse_eq_nil_iff.mp (hfalse c hc).1, ?_⟩
      intro unit hmem
      exact (hfalse c hc).2 unit (List.mem_reverse.mp hmem)
  rw [trim, List.rdropWhile, dropWhile_flatMap htrue hfalse, List.reverse_flatMap, hback,
    Ordering.AgentReply.trimChars, List.flatMap_reverse]

theorem Units.collapseSpaces_append (inGap : Bool) {units : CodeUnits} (hne : units ≠ [])
    (hall : ∀ unit ∈ units, isSpace unit = false) (rest : CodeUnits) :
    Units.collapseSpaces inGap (units ++ rest) = units ++ Units.collapseSpaces false rest := by
  induction units generalizing inGap with
  | nil => exact absurd rfl hne
  | cons unit units ih =>
      have hunit : isSpace unit = false := hall unit List.mem_cons_self
      have htail : Units.collapseSpaces false (units ++ rest) =
          units ++ Units.collapseSpaces false rest := by
        cases units with
        | nil => rfl
        | cons next units =>
            exact ih false (List.cons_ne_nil _ _) fun unit hmem => hall unit (.tail _ hmem)
      rw [List.cons_append, Units.collapseSpaces, if_neg (by simp [hunit]), htail, List.cons_append]

theorem collapseSpaces_flatMap_charUnits (inGap : Bool) (s : List Char) :
    Units.collapseSpaces inGap (s.flatMap charUnits) = (collapseSpaces inGap s).flatMap charUnits := by
  induction s generalizing inGap with
  | nil => rfl
  | cons c s ih =>
      rw [List.flatMap_cons, collapseSpaces]
      cases hc : isWhiteSpace c with
      | true =>
          obtain ⟨unit, hunits, hspace⟩ := charUnits_of_isSpace hc
          have hone : charUnits ' ' = [' '.val.toUInt16] := rfl
          rw [hunits, List.singleton_append, Units.collapseSpaces, if_pos hspace, if_pos rfl]
          cases inGap with
          | true => exact ih true
          | false => rw [if_neg (by simp), if_neg (by simp), ih, List.flatMap_cons, hone,
              List.singleton_append]
      | false =>
          have hall : ∀ unit ∈ charUnits c, isSpace unit = false :=
            fun unit => isSpace_of_mem_charUnits hc
          rw [Units.collapseSpaces_append inGap (charUnits_ne_nil c) hall, ih, if_neg (by simp),
            List.flatMap_cons]

variable {toLowerCase : String → String} {lowerUnits : CodeUnits → CodeUnits}

theorem codeUnits_normalize (hlower : ∀ s, lowerUnits (codeUnits s) = codeUnits (toLowerCase s))
    (s : String) : codeUnits (normalize toLowerCase s) = Units.normalize lowerUnits (codeUnits s) := by
  rw [Units.normalize, hlower, codeUnits, codeUnits, collapseSpaces_flatMap_charUnits,
    trim_flatMap_charUnits, normalize, String.toList_ofList]

/-- The similarity of strings is that of their code units. -/
theorem similarity_eq_units (hlower : ∀ s, lowerUnits (codeUnits s) = codeUnits (toLowerCase s))
    (a b : String) :
    similarity toLowerCase a b = Units.similarity lowerUnits (codeUnits a) (codeUnits b) := by
  have hempty (s : String) : codeUnits s = [] ↔ s = "" := codeUnits_inj (b := "")
  have heq (s t : String) : codeUnits s = codeUnits t ↔ s = t := codeUnits_inj
  have hin (s t : String) : codeUnits s <:+: codeUnits t ↔ s.toList <:+: t.toList :=
    isInfix_flatMap_charUnits_iff
  simp only [similarity, Units.similarity, ← codeUnits_normalize hlower, hempty, heq, hin,
    levenshtein_eq_distance, Units.levenshtein_eq_distance]

end VoiceOrder.Menu
