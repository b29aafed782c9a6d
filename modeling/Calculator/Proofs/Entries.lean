import Calculator.Value
import Mathlib.Data.List.Nodup

/-!
# Entries with keys

What putting entries leaves behind: each key keeps its place and has the value that was put last.
Entries whose keys differ are found where they are, and put one after the other they are all there.
-/

namespace Calculator

variable {κ α : Type} [DecidableEq κ] {key name : κ} {entries updates : List (κ × α)}

theorem mem_putEntry {value : α} {entry : κ × α} (h : entry ∈ putEntry key value entries) :
    entry = (key, value) ∨ entry ∈ entries := by
  induction entries with
  | nil => exact .inl (List.mem_singleton.1 h)
  | cons first rest ih =>
    simp only [putEntry] at h
    split at h
    · next hkey => exact (List.mem_cons.1 h).imp (hkey ▸ ·) (List.mem_cons_of_mem first)
    · rcases List.mem_cons.1 h with rfl | hmem
      · exact .inr List.mem_cons_self
      · exact (ih hmem).imp_right (List.mem_cons_of_mem first)

theorem putEntry_of_notMem (h : key ∉ entries.map Prod.fst) (value : α) :
    putEntry key value entries = entries ++ [(key, value)] := by
  induction entries with
  | nil => rfl
  | cons first rest ih =>
    rw [List.map_cons, List.mem_cons, not_or] at h
    rw [putEntry, if_neg (Ne.symm h.1), ih h.2, List.cons_append]

theorem nodup_keys_putEntry (h : (entries.map Prod.fst).Nodup) (value : α) :
    ((putEntry key value entries).map Prod.fst).Nodup := by
  rw [keys_putEntry]
  split
  · exact h
  · next hnew =>
    refine List.nodup_append.2 ⟨h, List.nodup_singleton key, fun old hold new hmem heq => hnew ?_⟩
    rwa [← List.mem_singleton.1 hmem, ← heq]

theorem nodup_keys_putEntries (h : (entries.map Prod.fst).Nodup) (updates : List (κ × α)) :
    ((putEntries entries updates).map Prod.fst).Nodup := by
  induction updates generalizing entries with
  | nil => exact h
  | cons update updates ih => exact ih (nodup_keys_putEntry h update.2)

theorem mem_putEntries {entry : κ × α} (h : entry ∈ putEntries entries updates) :
    entry ∈ updates ∨ entry ∈ entries := by
  induction updates generalizing entries with
  | nil => exact .inr h
  | cons update updates ih =>
    rcases ih h with hmem | hmem
    · exact .inl (List.mem_cons_of_mem update hmem)
    · rcases mem_putEntry hmem with rfl | hold
      · exact .inl List.mem_cons_self
      · exact .inr hold

theorem mem_keys_putEntries (h : key ∈ entries.map Prod.fst) (updates : List (κ × α)) :
    key ∈ (putEntries entries updates).map Prod.fst := by
  induction updates generalizing entries with
  | nil => exact h
  | cons update updates ih =>
    refine ih ?_
    rw [keys_putEntry]
    split
    · exact h
    · exact List.mem_append_left _ h

theorem keys_putEntries_of_mem (h : ∀ update ∈ updates, update.1 ∈ entries.map Prod.fst) :
    (putEntries entries updates).map Prod.fst = entries.map Prod.fst := by
  induction updates generalizing entries with
  | nil => rfl
  | cons update updates ih =>
    rw [List.forall_mem_cons] at h
    have hkeys : (putEntry update.1 update.2 entries).map Prod.fst = entries.map Prod.fst := by
      rw [keys_putEntry, if_pos h.1]
    refine (ih ?_).trans hkeys
    rw [hkeys]
    exact h.2

theorem lookup_eq_none_of_notMem (h : name ∉ entries.map Prod.fst) :
    entries.lookup name = none := by
  rw [List.lookup_eq_none_iff]
  rintro entry hmem
  refine bne_iff_ne.2 ?_
  rintro rfl
  exact h (List.mem_map_of_mem hmem)

theorem exists_lookup_of_mem (h : name ∈ entries.map Prod.fst) :
    ∃ v, entries.lookup name = some v := by
  obtain ⟨entry, hmem, rfl⟩ := List.mem_map.1 h
  rw [← Option.isSome_iff_exists, Option.isSome_iff_ne_none, Ne, List.lookup_eq_none_iff]
  exact fun hnone => bne_iff_ne.1 (hnone entry hmem) rfl

theorem putEntries_nil (h : (updates.map Prod.fst).Nodup) : putEntries [] updates = updates := by
  suffices happend : ∀ entries : List (κ × α), ((entries ++ updates).map Prod.fst).Nodup →
      putEntries entries updates = entries ++ updates from happend [] h
  clear h
  induction updates with
  | nil => exact fun entries _ => (List.append_nil entries).symm
  | cons update updates ih =>
    intro entries h
    have hnew : update.1 ∉ entries.map Prod.fst := by
      rw [List.map_append, List.map_cons, List.nodup_append] at h
      exact fun hmem => h.2.2 _ hmem _ List.mem_cons_self rfl
    rw [List.append_cons] at h ⊢
    exact (congrArg (putEntries · updates) (putEntry_of_notMem hnew update.2)).trans (ih _ h)

/-- What was put is found, and else what was there before. -/
theorem lookup_putEntries (h : (updates.map Prod.fst).Nodup) (entries : List (κ × α)) (name : κ) :
    (putEntries entries updates).lookup name = (updates.lookup name).or (entries.lookup name) := by
  induction updates generalizing entries with
  | nil => rfl
  | cons update updates ih =>
    obtain ⟨key, value⟩ := update
    rw [List.map_cons, List.nodup_cons] at h
    refine (ih h.2 _).trans ?_
    rw [lookup_putEntry, List.lookup_cons]
    by_cases hname : name = key
    · simp [hname, lookup_eq_none_of_notMem h.1]
    · simp [hname, beq_false_of_ne hname]

end Calculator
