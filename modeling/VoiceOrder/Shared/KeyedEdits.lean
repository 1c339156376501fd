import Mathlib.Data.List.Perm.Basic
import VoiceOrder.Shared.OrderedMap

/-! # Edits of a list of keyed entries

An edit appends an entry under a fresh key, or amends the entries of one key by what the first
of them says. It may be refused, and then it leaves the entries as they are. -/

open OrderedMap

inductive KeyedEdit (κ β ε : Type) where
  | append (body : Except ε β)
  | amend (target : κ) (change : Option β → Except ε (β → Option β))

namespace KeyedEdit

variable {κ β ε : Type} [DecidableEq κ]

/-- Rewrite or drop the entries of one key. -/
def amendAt (entries : List (κ × β)) (target : κ) (change : β → Option β) : List (κ × β) :=
  entries.filterMap fun entry =>
    if entry.1 = target then (change entry.2).map (entry.1, ·) else some entry

def run (fresh : κ) (entries : List (κ × β)) : KeyedEdit κ β ε → Except ε (List (κ × β))
  | .append body => body.map fun body => entries ++ [(fresh, body)]
  | .amend target change => (change (get entries target)).map (amendAt entries target)

/-- The key whose entries the edit reads. -/
def target : KeyedEdit κ β ε → Option κ
  | .append _ => none
  | .amend target _ => some target

/-- What the edit leaves of the entries that are there. -/
def amended (entries : List (κ × β)) : KeyedEdit κ β ε → List (κ × β)
  | .append _ => entries
  | .amend target change =>
      match change (get entries target) with
      | .ok change => amendAt entries target change
      | .error _ => entries

/-- The entry the edit adds, if it adds one. -/
def appended : KeyedEdit κ β ε → List β
  | .append (.ok body) => [body]
  | _ => []

/-- Why the edit is refused, if it is. -/
def refusal (entries : List (κ × β)) : KeyedEdit κ β ε → Option ε
  | .append (.ok _) => none
  | .append (.error error) => some error
  | .amend target change =>
      match change (get entries target) with
      | .ok _ => none
      | .error error => some error

/-- The entries after the edit, refused or not. -/
def apply (fresh : κ) (entries : List (κ × β)) (edit : KeyedEdit κ β ε) : List (κ × β) :=
  edit.amended entries ++ edit.appended.map (fresh, ·)

section

variable {entries kept new : List (κ × β)} {edit other : KeyedEdit κ β ε} {fresh key target : κ}

/-- A run either returns the entries after the edit, or the refusal. -/
theorem run_eq (entries : List (κ × β)) (edit : KeyedEdit κ β ε) (fresh : κ) :
    edit.run fresh entries =
      match edit.refusal entries with
      | none => .ok (edit.apply fresh entries)
      | some error => .error error := by
  cases edit with
  | append body =>
      cases body with
      | ok body => rfl
      | error error => rfl
  | amend target change =>
      simp only [run, refusal, apply, amended, appended]
      cases change (get entries target) with
      | ok change => simp [Except.map]
      | error error => rfl

theorem run_eq_ok {result : List (κ × β)} :
    edit.run fresh entries = .ok result ↔
      edit.refusal entries = none ∧ edit.apply fresh entries = result := by
  rw [run_eq]
  cases edit.refusal entries <;> simp

/-- A refused edit changes nothing. -/
theorem apply_of_refused {error : ε} (h : edit.refusal entries = some error) :
    edit.apply fresh entries = entries := by
  cases edit with
  | append body =>
      cases body with
      | ok body => cases h
      | error error => exact List.append_nil _
  | amend target change =>
      simp only [refusal] at h
      simp only [apply, amended, appended]
      cases hchange : change (get entries target) with
      | ok change => simp [hchange] at h
      | error error => exact List.append_nil _

theorem map_eq_ok {α γ : Type} {computation : Except ε α} {f : α → γ} {result : γ} :
    computation.map f = .ok result ↔ ∃ value, computation = .ok value ∧ f value = result := by
  cases computation <;> simp [Except.map]

/-- An accepted addition appends its entry. -/
theorem run_append {body : Except ε β} {result : List (κ × β)} :
    (append body).run fresh entries = .ok result ↔
      ∃ added, body = .ok added ∧ entries ++ [(fresh, added)] = result :=
  map_eq_ok

/-- An accepted amendment changes the entries of its key. -/
theorem run_amend {change : Option β → Except ε (β → Option β)} {result : List (κ × β)} :
    (amend target change).run fresh entries = .ok result ↔
      ∃ f, change (get entries target) = .ok f ∧ amendAt entries target f = result :=
  map_eq_ok

/-! ## What an edit leaves alone -/

theorem get_amendAt (change : β → Option β) (h : target ≠ key) :
    get (amendAt entries target change) key = get entries key := by
  induction entries with
  | nil => rfl
  | cons entry entries ih =>
      unfold amendAt at *
      rw [List.filterMap_cons, get_cons]
      by_cases htarget : entry.1 = target
      · have hkey : entry.1 ≠ key := fun heq => h (htarget.symm.trans heq)
        rw [if_pos htarget, if_neg hkey]
        cases change entry.2 with
        | none => exact ih
        | some body => rw [Option.map_some, get_cons, if_neg hkey, ih]
      · rw [if_neg htarget]
        dsimp only
        rw [get_cons, ih]

theorem mem_amendAt {change : β → Option β} {entry : κ × β} :
    entry ∈ amendAt entries target change ↔
      (entry.1 ≠ target ∧ entry ∈ entries) ∨
        entry.1 = target ∧ ∃ body, (target, body) ∈ entries ∧ change body = some entry.2 := by
  rw [amendAt, List.mem_filterMap]
  constructor
  · rintro ⟨source, hsource, hentry⟩
    by_cases htarget : source.1 = target
    · rw [if_pos htarget] at hentry
      obtain ⟨body, hbody, rfl⟩ := Option.map_eq_some_iff.mp hentry
      exact .inr ⟨htarget, source.2, htarget ▸ hsource, hbody⟩
    · rw [if_neg htarget] at hentry
      cases hentry
      exact .inl ⟨htarget, hsource⟩
  · rintro (⟨hne, hmem⟩ | ⟨rfl, body, hmem, hbody⟩)
    · exact ⟨entry, hmem, if_neg hne⟩
    · refine ⟨_, hmem, (if_pos rfl).trans ?_⟩
      rw [hbody]
      rfl

/-- Rewritten entries keep their places and their keys, and those of other keys are the same. -/
theorem forall₂_amendAt (change : β → β) : List.Forall₂
    (fun entry after => after.1 = entry.1 ∧ (entry.1 ≠ target → after = entry)) entries
      (amendAt entries target fun body => some (change body)) := by
  induction entries with
  | nil => exact .nil
  | cons entry entries ih =>
      unfold amendAt at *
      rw [List.filterMap_cons]
      by_cases htarget : entry.1 = target
      · rw [if_pos htarget]
        exact .cons ⟨rfl, fun hne => absurd htarget hne⟩ ih
      · rw [if_neg htarget]
        exact .cons ⟨rfl, fun _ => rfl⟩ ih

theorem amendAt_none : amendAt entries target (fun _ => none) =
    entries.filter fun entry => entry.1 ≠ target := by
  rw [amendAt, ← List.filterMap_eq_filter]
  refine List.filterMap_congr fun entry _ => ?_
  by_cases htarget : entry.1 = target <;> simp [htarget, Option.guard]

theorem get_append (entries new : List (κ × β)) (key : κ) :
    get (entries ++ new) key = (get entries key).or (get new key) := by
  induction entries with
  | nil => rfl
  | cons entry entries ih =>
      rw [List.cons_append, get_cons, get_cons, ih]
      split <;> rfl

theorem get_eq_none (h : ∀ entry ∈ entries, entry.1 ≠ key) : get entries key = none := by
  rw [OrderedMap.get, List.find?_eq_none.mpr]
  · rfl
  · intro entry hentry
    simpa using h entry hentry

theorem get_amended (h : edit.target ≠ some key) : get (edit.amended entries) key = get entries key := by
  cases edit with
  | append body => rfl
  | amend target change =>
      simp only [amended]
      cases change (get entries target) with
      | error error => rfl
      | ok change => exact get_amendAt change fun heq => h (congrArg some heq)

theorem get_apply (h : edit.target.getD fresh ≠ key) :
    get (edit.apply fresh entries) key = get entries key := by
  have hnew : get (edit.appended.map (fresh, ·)) key = none := by
    refine get_eq_none fun entry hentry => ?_
    obtain ⟨body, hbody, rfl⟩ := List.mem_map.mp hentry
    cases edit with
    | append => exact h
    | amend => cases hbody
  have htarget : edit.target ≠ some key := by
    cases edit with
    | append => exact fun heq => nomatch heq
    | amend target change => exact fun heq => h (Option.some.inj heq)
  rw [apply, get_append, hnew, Option.or_none, get_amended htarget]

/-- The verdict on an edit depends on no more than the entry it reads. -/
theorem refusal_congr {others : List (κ × β)}
    (h : ∀ key, edit.target = some key → get entries key = get others key) :
    edit.refusal entries = edit.refusal others := by
  cases edit with
  | append body => cases body <;> rfl
  | amend target change => simp only [refusal, h target rfl]

/-- An edit that does not touch what another one reads leaves the verdict on it. -/
theorem refusal_apply (h : other.target ≠ some (edit.target.getD fresh)) :
    other.refusal (edit.apply fresh entries) = other.refusal entries := by
  refine refusal_congr fun key hkey => get_apply fun heq => h ?_
  rw [hkey, heq]

/-- An edit acts on the entries that were there, past any that it does not read. -/
theorem amended_append (h : ∀ entry ∈ new, edit.target ≠ some entry.1) :
    edit.amended (kept ++ new) = edit.amended kept ++ new := by
  cases edit with
  | append body => rfl
  | amend target change =>
      have hne : ∀ entry ∈ new, entry.1 ≠ target := fun entry hentry heq =>
        h entry hentry (congrArg some heq.symm)
      have hnew : ∀ change : β → Option β, amendAt new target change = new := by
        intro change
        refine (List.filterMap_congr fun entry hentry => ?_).trans List.filterMap_some
        rw [if_neg (hne entry hentry)]
      simp only [amended]
      rw [get_append, get_eq_none hne, Option.or_none]
      cases change (get kept target) with
      | error error => rfl
      | ok change =>
          dsimp only
          rw [amendAt, List.filterMap_append]
          exact congrArg _ (hnew change)

theorem keys_amended (entries : List (κ × β)) (edit : KeyedEdit κ β ε) :
    ((edit.amended entries).map Prod.fst).Sublist (entries.map Prod.fst) := by
  have hamend : ∀ target (change : β → Option β),
      ((amendAt entries target change).map Prod.fst).Sublist (entries.map Prod.fst) := by
    intro target change
    induction entries with
    | nil => exact .slnil
    | cons entry entries ih =>
        unfold amendAt at *
        rw [List.filterMap_cons]
        by_cases htarget : entry.1 = target
        · rw [if_pos htarget]
          cases change entry.2 with
          | none => exact ih.cons _
          | some body => exact ih.cons_cons _
        · rw [if_neg htarget]
          exact ih.cons_cons _
  cases edit with
  | append body => exact .refl _
  | amend target change =>
      simp only [amended]
      cases change (get entries target) with
      | error error => exact .refl _
      | ok change => exact hamend target change

/-! ## Edits of different entries commute -/

theorem amendAt_comm {target other : κ} (h : target ≠ other) (change change' : β → Option β) :
    amendAt (amendAt entries target change) other change' =
      amendAt (amendAt entries other change') target change := by
  unfold amendAt
  rw [List.filterMap_filterMap, List.filterMap_filterMap]
  refine List.filterMap_congr fun entry _ => ?_
  by_cases htarget : entry.1 = target
  · have hother : entry.1 ≠ other := fun heq => h (htarget.symm.trans heq)
    rw [if_pos htarget, if_neg hother, Option.bind_some, if_pos htarget]
    cases change entry.2 with
    | none => rfl
    | some body => simp [hother]
  · rw [if_neg htarget, Option.bind_some]
    by_cases hother : entry.1 = other
    · rw [if_pos hother]
      cases change' entry.2 with
      | none => rfl
      | some body => simp [htarget]
    · simp [hother, htarget]

theorem amended_comm (h : ∀ key, edit.target = some key → other.target ≠ some key) :
    other.amended (edit.amended entries) = edit.amended (other.amended entries) := by
  cases edit with
  | append body => rfl
  | amend target change =>
      cases other with
      | append body => rfl
      | amend target' change' =>
          have hne : target ≠ target' := fun heq => h target rfl (congrArg some heq.symm)
          have hget : get ((.amend target change : KeyedEdit κ β ε).amended entries) target' =
              get entries target' := get_amended fun heq => hne (Option.some.inj heq)
          have hget' : get ((.amend target' change' : KeyedEdit κ β ε).amended entries) target =
              get entries target := get_amended fun heq => hne (Option.some.inj heq).symm
          simp only [amended] at hget hget' ⊢
          rw [hget, hget']
          cases hchange : change (get entries target) with
          | error error => rfl
          | ok f =>
              cases hchange' : change' (get entries target') with
              | error error => rfl
              | ok g => exact amendAt_comm hne f g

end

end KeyedEdit
