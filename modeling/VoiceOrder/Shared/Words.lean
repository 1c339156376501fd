import Mathlib.Data.List.Basic
import Mathlib.Data.List.DropRight

/-! # Words of a list

The maximal runs without blanks, and what becomes of them when the list is cut. -/

namespace Words

variable {α : Type*} {blank : α → Bool} {text first second word : List α} {entry : α}

/-- The words between blanks, in their order. -/
def words (blank : α → Bool) (text : List α) : List (List α) :=
  (text.splitOnP blank).filter fun word => !word.isEmpty

@[simp] theorem words_nil : words blank [] = [] := rfl

theorem words_append_cons (h : blank entry = true) (first second : List α) :
    words blank (first ++ entry :: second) = words blank first ++ words blank second := by
  unfold words
  rw [List.splitOnP_append_cons _ _ h, List.filter_append]

theorem words_cons (h : blank entry = true) (text : List α) :
    words blank (entry :: text) = words blank text := words_append_cons h [] text

theorem words_concat (h : blank entry = true) (text : List α) :
    words blank (text ++ [entry]) = words blank text := by
  rw [words_append_cons h, words_nil, List.append_nil]

theorem words_of_word (hne : word ≠ []) (h : ∀ entry ∈ word, blank entry = false) :
    words blank word = [word] := by
  unfold words
  rw [List.splitOnP_eq_singleton h]
  simp [hne]

@[simp] theorem words_dropWhile (text : List α) :
    words blank (text.dropWhile blank) = words blank text := by
  induction text with
  | nil => rfl
  | cons entry text ih =>
      by_cases h : blank entry = true
      · rw [List.dropWhile_cons_of_pos h, ih, words_cons h]
      · rw [List.dropWhile_cons_of_neg h]

@[simp] theorem words_rdropWhile (text : List α) :
    words blank (text.rdropWhile blank) = words blank text := by
  induction text using List.reverseRecOn with
  | nil => rfl
  | append_singleton text entry ih =>
      by_cases h : blank entry = true
      · rw [List.rdropWhile_concat_pos _ _ _ h, ih, words_concat h]
      · rw [List.rdropWhile_concat_neg _ _ _ h]

/-! ## Cuts -/

/-- A cut between the two lists goes through a word. -/
def Divides (blank : α → Bool) (first second : List α) : Prop :=
  (∃ entry ∈ first.getLast?, blank entry = false) ∧ ∃ entry ∈ second.head?, blank entry = false

theorem words_append_of_not_divides (h : ¬Divides blank first second) :
    words blank (first ++ second) = words blank first ++ words blank second := by
  rcases List.eq_nil_or_concat' first with rfl | ⟨start, last, rfl⟩
  · rfl
  · cases second with
    | nil => simp
    | cons head rest =>
        by_cases hlast : blank last = true
        · rw [List.append_assoc, List.singleton_append, words_append_cons hlast, words_concat hlast]
        · by_cases hhead : blank head = true
          · rw [words_append_cons hhead, words_cons hhead]
          · exact absurd ⟨⟨last, by simp, by simpa using hlast⟩, head, rfl, by simpa using hhead⟩ h

/-- An entry in front of a word makes it longer. -/
theorem length_words_cons (h : blank entry = false) (hhead : ∃ next ∈ text.head?, blank next = false) :
    (words blank (entry :: text)).length = (words blank text).length := by
  obtain ⟨next, hnext, hword⟩ := hhead
  obtain ⟨rest, rfl⟩ : ∃ rest, text = next :: rest := by
    cases text with
    | nil => cases hnext
    | cons other rest => exact ⟨rest, by rw [Option.some.inj hnext]⟩
  unfold words
  rw [List.splitOnP_cons_eq_if_modifyHead, List.splitOnP_cons_eq_if_modifyHead, if_neg (by simp [h]),
    if_neg (by simp [hword])]
  cases rest.splitOnP blank <;> simp

/-- A cut through a word makes two of it. -/
theorem length_words_of_divides (h : Divides blank first second) :
    (words blank (first ++ second)).length + 1 =
      (words blank first).length + (words blank second).length := by
  obtain ⟨hlast, hhead⟩ := h
  induction first with
  | nil =>
      obtain ⟨_, hnone, -⟩ := hlast
      cases hnone
  | cons entry rest ih =>
      cases rest with
      | nil =>
          have hentry : blank entry = false := by simpa using hlast
          have hone : words blank [entry] = [[entry]] :=
            words_of_word (List.cons_ne_nil _ _) (by simpa using hentry)
          rw [List.singleton_append, length_words_cons hentry hhead, hone, List.length_singleton,
            Nat.add_comm]
      | cons next rest =>
          have hrest := ih (by simpa using hlast)
          by_cases hentry : blank entry = true
          · rw [List.cons_append, words_cons hentry, words_cons hentry]
            exact hrest
          · have hword : blank entry = false := by simpa using hentry
            by_cases hnext : blank next = true
            · have hone : words blank [entry] = [[entry]] :=
                words_of_word (List.cons_ne_nil _ _) (by simpa using hword)
              have hfront : ∀ later, words blank (entry :: next :: later) = [entry] :: words blank later :=
                fun later => (words_append_cons hnext [entry] later).trans (by rw [hone]; rfl)
              rw [List.cons_append, words_cons hnext, words_cons hnext] at hrest
              rw [List.cons_append, List.cons_append, hfront, hfront, List.length_cons, List.length_cons]
              omega
            · have hstart : ∃ entry ∈ (next :: rest).head?, blank entry = false :=
                ⟨next, rfl, by simpa using hnext⟩
              rw [List.cons_append, length_words_cons hword ⟨next, rfl, by simpa using hnext⟩,
                length_words_cons hword hstart]
              exact hrest

/-- A cut leaves no fewer words, and the same words just if it goes through none. -/
theorem length_words_append_le (first second : List α) :
    (words blank (first ++ second)).length ≤
      (words blank first).length + (words blank second).length := by
  by_cases h : Divides blank first second
  · have := length_words_of_divides h
    omega
  · rw [words_append_of_not_divides h, List.length_append]

/-- What follows the words of the first list completes the words of the whole just if the cut goes
through no word and these are the words of the second. -/
theorem words_append_eq_iff {rest : List (List α)} (h : (words blank second).length ≤ rest.length) :
    words blank first ++ rest = words blank (first ++ second) ↔
      ¬Divides blank first second ∧ rest = words blank second := by
  by_cases hdivides : Divides blank first second
  · have hlength := length_words_of_divides hdivides
    constructor
    · intro heq
      have := congrArg List.length heq
      rw [List.length_append] at this
      omega
    · exact fun hand => absurd hdivides hand.1
  · rw [words_append_of_not_divides hdivides, List.append_cancel_left_eq]
    exact ⟨fun heq => ⟨hdivides, heq⟩, And.right⟩

/-! ## Pieces -/

variable {ι β : Type*} {lists : List ι} {split whole : ι → List β}

theorem length_flatMap_le (h : ∀ list ∈ lists, (whole list).length ≤ (split list).length) :
    (lists.flatMap whole).length ≤ (lists.flatMap split).length := by
  induction lists with
  | nil => exact le_rfl
  | cons list lists ih =>
      have hrest := ih fun other hother => h other (List.mem_cons_of_mem _ hother)
      have hfirst := h list List.mem_cons_self
      rw [List.flatMap_cons, List.flatMap_cons, List.length_append, List.length_append]
      omega

/-- Where no list has fewer parts than it should, they add up to what they should just if each
list has its own. -/
theorem flatMap_eq_iff (h : ∀ list ∈ lists, (whole list).length ≤ (split list).length) :
    lists.flatMap split = lists.flatMap whole ↔ ∀ list ∈ lists, split list = whole list := by
  induction lists with
  | nil => simp
  | cons list lists ih =>
      have hlater : ∀ other ∈ lists, (whole other).length ≤ (split other).length :=
        fun other hother => h other (List.mem_cons_of_mem _ hother)
      rw [List.flatMap_cons, List.flatMap_cons, List.forall_mem_cons, ← ih hlater]
      constructor
      · intro heq
        have hlength := congrArg List.length heq
        have hfirst := h list List.mem_cons_self
        have hrest := length_flatMap_le hlater
        rw [List.length_append, List.length_append] at hlength
        exact List.append_inj heq (by omega)
      · rintro ⟨hfirst, hrest⟩
        rw [hfirst, hrest]

end Words
