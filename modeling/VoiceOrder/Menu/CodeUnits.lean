import VoiceOrder.Menu.FuzzyMatcher

/-! # Text as code units

A string of characters and the list of its code units contain the same strings, since no half of
a surrogate pair is taken for a character. -/

namespace VoiceOrder.Menu

open VoiceOrder.Tts

/-- The first half of a surrogate pair. -/
def isLead (unit : UInt16) : Prop := 0xD800 ≤ unit.toNat ∧ unit.toNat < 0xDC00

/-- The second half. -/
def isTrail (unit : UInt16) : Prop := 0xDC00 ≤ unit.toNat ∧ unit.toNat < 0xE000

/-- One code unit that is its number, or the two halves of a pair. -/
inductive Encoded (c : Char) : CodeUnits → Prop where
  | single {unit : UInt16} : unit.toNat = c.toNat → ¬isLead unit → ¬isTrail unit →
      Encoded c [unit]
  | pair {lead trail : UInt16} : isLead lead → isTrail trail →
      c.toNat = 0x10000 + (lead.toNat - 0xD800) * 1024 + (trail.toNat - 0xDC00) →
      Encoded c [lead, trail]

theorem charUnits_encoded (c : Char) : Encoded c (charUnits c) := by
  have hvalid : c.toNat < 0xD800 ∨ 0xDFFF < c.toNat ∧ c.toNat < 0x110000 := c.valid
  unfold charUnits
  split
  case isTrue hsmall =>
    have hlt : c.toNat < 0x10000 := hsmall
    have hunit : c.val.toUInt16.toNat = c.toNat := by
      rw [UInt32.toNat_toUInt16]
      exact Nat.mod_eq_of_lt hlt
    refine .single hunit ?_ ?_
    · unfold isLead
      omega
    · unfold isTrail
      omega
  case isFalse hlarge =>
    have hle : 0x10000 ≤ c.toNat := Nat.le_of_not_lt hlarge
    have hoffset : (c.val - 0x10000).toNat = c.toNat - 0x10000 :=
      UInt32.toNat_sub_of_le _ _ (UInt32.le_iff_toNat_le.mpr hle)
    have hlead : ((0xD800 : UInt16) + ((c.val - 0x10000) >>> 10).toUInt16).toNat =
        0xD800 + (c.toNat - 0x10000) / 1024 := by
      rw [UInt16.toNat_add, UInt32.toNat_toUInt16, UInt32.toNat_shiftRight, hoffset]
      simp only [Nat.shiftRight_eq_div_pow]
      simp
      omega
    have htrail : ((0xDC00 : UInt16) + ((c.val - 0x10000) &&& 0x3FF).toUInt16).toNat =
        0xDC00 + (c.toNat - 0x10000) % 1024 := by
      rw [UInt16.toNat_add, UInt32.toNat_toUInt16, UInt32.toNat_and, hoffset]
      have hmask : (c.toNat - 0x10000) &&& (0x3FF : UInt32).toNat = (c.toNat - 0x10000) % 1024 :=
        Nat.and_two_pow_sub_one_eq_mod _ 10
      rw [hmask]
      simp
      omega
    refine .pair ?_ ?_ ?_
    · unfold isLead
      omega
    · unfold isTrail
      omega
    · omega

variable {c d : Char} {s t : List Char} {rest rest' : CodeUnits}

theorem charUnits_ne_nil (c : Char) : charUnits c ≠ [] := by
  intro hnil
  have hc := charUnits_encoded c
  rw [hnil] at hc
  cases hc

/-- No character starts with the second half of a pair. -/
theorem not_isTrail_of_charUnits {trail : UInt16} (h : charUnits c ++ rest = trail :: rest') :
    ¬isTrail trail := by
  have hc := charUnits_encoded c
  generalize charUnits c = units at h hc
  cases hc with
  | single _ _ htrail =>
      obtain ⟨rfl, -⟩ := List.cons.inj h
      exact htrail
  | pair hlead _ _ =>
      obtain ⟨rfl, -⟩ := List.cons.inj h
      unfold isLead at hlead
      unfold isTrail
      omega

/-- The first code unit tells how many belong to the character, and these are the character. -/
theorem charUnits_append_inj (h : charUnits c ++ rest = charUnits d ++ rest') :
    c = d ∧ rest = rest' := by
  have hc := charUnits_encoded c
  have hd := charUnits_encoded d
  generalize charUnits c = units at h hc
  generalize charUnits d = units' at h hd
  cases hc with
  | single hunit hlead _ =>
      cases hd with
      | single hunit' _ _ =>
          obtain ⟨rfl, hrest⟩ := List.cons.inj h
          exact ⟨Char.toNat_inj.mp (hunit.symm.trans hunit'), hrest⟩
      | pair hlead' _ _ =>
          obtain ⟨rfl, -⟩ := List.cons.inj h
          exact absurd hlead' hlead
  | pair hlead _ hpair =>
      cases hd with
      | single _ hlead' _ =>
          obtain ⟨rfl, -⟩ := List.cons.inj h
          exact absurd hlead hlead'
      | pair _ _ hpair' =>
          simp only [List.cons_append, List.nil_append, List.cons.injEq] at h
          obtain ⟨rfl, rfl, hrest⟩ := h
          exact ⟨Char.toNat_inj.mp (hpair.trans hpair'.symm), hrest⟩

theorem isPrefix_of_flatMap_charUnits (h : s.flatMap charUnits <+: t.flatMap charUnits) :
    s <+: t := by
  induction s generalizing t with
  | nil => exact List.nil_prefix
  | cons c s ih =>
      obtain ⟨rest, h⟩ := h
      rw [List.flatMap_cons, List.append_assoc] at h
      cases t with
      | nil => exact absurd (List.append_eq_nil_iff.mp h).1 (charUnits_ne_nil c)
      | cons d t =>
          rw [List.flatMap_cons] at h
          obtain ⟨rfl, hrest⟩ := charUnits_append_inj h
          exact List.cons_prefix_cons.mpr ⟨rfl, ih ⟨rest, hrest⟩⟩

theorem flatMap_charUnits_inj (h : s.flatMap charUnits = t.flatMap charUnits) : s = t := by
  have hst : s <+: t := isPrefix_of_flatMap_charUnits (h ▸ List.prefix_rfl)
  have hts : t <+: s := isPrefix_of_flatMap_charUnits (h ▸ List.prefix_rfl)
  exact hst.eq_of_length_le hts.length_le

theorem codeUnits_inj {a b : String} : codeUnits a = codeUnits b ↔ a = b :=
  ⟨fun h => String.toList_inj.mp (flatMap_charUnits_inj h), fun h => h ▸ rfl⟩

/-- Past a first character, either a character is behind or only the first half of a pair. -/
theorem tail_charUnits_append {unit : UInt16} {units : CodeUnits}
    (h : unit :: units = charUnits d ++ rest) :
    units = rest ∨ ∃ trail, isTrail trail ∧ units = trail :: rest := by
  have hd := charUnits_encoded d
  generalize charUnits d = units' at h hd
  cases hd with
  | single => exact .inl (List.cons.inj h).2
  | pair _ htrail _ => exact .inr ⟨_, htrail, (List.cons.inj h).2⟩

theorem isInfix_of_flatMap_charUnits (h : s.flatMap charUnits <:+: t.flatMap charUnits) :
    s <:+: t := by
  obtain ⟨before, after, h⟩ := h
  rw [List.append_assoc] at h
  cases s with
  | nil => exact List.nil_infix
  | cons c s =>
      induction t generalizing before with
      | nil =>
          have hnil := (List.append_eq_nil_iff.mp (List.append_eq_nil_iff.mp h).2).1
          exact absurd (List.append_eq_nil_iff.mp hnil).1 (charUnits_ne_nil c)
      | cons d t ih =>
          cases before with
          | nil => exact (isPrefix_of_flatMap_charUnits ⟨after, h⟩).isInfix
          | cons unit before =>
              rcases tail_charUnits_append h with hrest | ⟨trail, htrail, hrest⟩
              · exact List.infix_cons (ih before hrest)
              · cases before with
                | nil =>
                    have hstart : (c :: s).flatMap charUnits ++ after =
                        trail :: t.flatMap charUnits := hrest
                    rw [List.flatMap_cons, List.append_assoc] at hstart
                    exact absurd htrail (not_isTrail_of_charUnits hstart)
                | cons _ before => exact List.infix_cons (ih before (List.cons.inj hrest).2)

/-- Where the code units of a string occur, they start at a character. -/
theorem isInfix_flatMap_charUnits_iff :
    s.flatMap charUnits <:+: t.flatMap charUnits ↔ s <:+: t := by
  constructor
  · exact isInfix_of_flatMap_charUnits
  · rintro ⟨before, after, rfl⟩
    exact ⟨before.flatMap charUnits, after.flatMap charUnits, by simp⟩

/-! ## White space -/

/-- The characters that are white space, by their numbers. -/
def IsSpaceNat (n : ℕ) : Prop :=
  (9 ≤ n ∧ n ≤ 13) ∨ n = 32 ∨ n = 0xA0 ∨ n = 0x1680 ∨ (0x2000 ≤ n ∧ n ≤ 0x200A) ∨ n = 0x2028 ∨
    n = 0x2029 ∨ n = 0x202F ∨ n = 0x205F ∨ n = 0x3000 ∨ n = 0xFEFF

theorem isWhiteSpace_iff (c : Char) : isWhiteSpace c = true ↔ IsSpaceNat c.toNat := by
  simp [isWhiteSpace, IsSpaceNat, Char.le_def, UInt32.le_iff_toNat_le, ← Char.toNat_inj]
  omega

theorem isSpace_of_toNat_eq {unit : UInt16} (hunit : unit.toNat = c.toNat) :
    isSpace unit = isWhiteSpace c := by
  rw [isSpace, hunit, Char.ofNat_toNat]

/-- Half of a pair is no white space. -/
theorem isSpace_of_surrogate {unit : UInt16} (h : isLead unit ∨ isTrail unit) :
    isSpace unit = false := by
  have hinvalid : ¬unit.toNat.isValidChar := by
    unfold isLead isTrail at h
    unfold Nat.isValidChar
    omega
  rw [isSpace, Char.ofNat, dif_neg hinvalid]
  decide

/-- White space is one code unit. -/
theorem charUnits_of_isSpace (h : isWhiteSpace c = true) :
    ∃ unit, charUnits c = [unit] ∧ isSpace unit = true := by
  have hc := charUnits_encoded c
  generalize charUnits c = units at hc
  cases hc with
  | single hunit => exact ⟨_, rfl, (isSpace_of_toNat_eq hunit).trans h⟩
  | pair _ _ hpair =>
      have hspace := (isWhiteSpace_iff c).mp h
      unfold IsSpaceNat at hspace
      omega

theorem isSpace_of_mem_charUnits {unit : UInt16} (h : isWhiteSpace c = false)
    (hmem : unit ∈ charUnits c) : isSpace unit = false := by
  have hc := charUnits_encoded c
  generalize charUnits c = units at hc hmem
  cases hc with
  | single hunit =>
      rw [List.mem_singleton.mp hmem]
      exact (isSpace_of_toNat_eq hunit).trans h
  | pair hlead htrail _ =>
      rcases List.mem_pair.mp hmem with rfl | rfl
      · exact isSpace_of_surrogate (.inl hlead)
      · exact isSpace_of_surrogate (.inr htrail)

end VoiceOrder.Menu
