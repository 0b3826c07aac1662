import Mathlib.Data.List.Basic
import Mathlib.Data.List.Perm.Subperm

/-!
A log shared by many writers, each entry under the key of its writer. What one writer does to
the log is seen in its own entries and in no one else's.
-/

namespace GatewayAuth.Lib.Logs

variable {κ α : Type*}

def tag (k : κ) (l : List α) : List (κ × α) := l.map fun a => (k, a)

@[simp] lemma tag_nil (k : κ) : tag k ([] : List α) = [] := rfl

/-- The entries of the writers in `keep`. -/
def only (keep : κ → Bool) (log : List (κ × α)) : List (κ × α) := log.filter fun e => keep e.1

@[simp] lemma only_append (keep : κ → Bool) (log log' : List (κ × α)) :
    only keep (log ++ log') = only keep log ++ only keep log' := List.filter_append ..

lemma only_tag {keep : κ → Bool} {k : κ} (hk : keep k = true) (l : List α) :
    only keep (tag k l) = tag k l :=
  List.filter_eq_self.mpr fun e he => by
    obtain ⟨a, -, rfl⟩ := List.mem_map.mp he
    exact hk

lemma only_tag_of_not {keep : κ → Bool} {k : κ} (hk : keep k = false) (l : List α) :
    only keep (tag k l) = [] :=
  List.filter_eq_nil_iff.mpr fun e he => by
    obtain ⟨a, -, rfl⟩ := List.mem_map.mp he
    simp [hk]

variable [DecidableEq κ]

/-- The entries of `k`, in the order of the log. -/
def entries (log : List (κ × α)) (k : κ) : List α :=
  log.filterMap fun e => if e.1 = k then some e.2 else none

@[simp] lemma entries_nil (k : κ) : entries ([] : List (κ × α)) k = [] := rfl

@[simp] lemma entries_append (log log' : List (κ × α)) (k : κ) :
    entries (log ++ log') k = entries log k ++ entries log' k := by
  simp [entries]

@[simp] lemma entries_tag_self (k : κ) (l : List α) : entries (tag k l) k = l := by
  simp [entries, tag, List.filterMap_map]

lemma entries_tag_of_ne {k k' : κ} (h : k' ≠ k) (l : List α) : entries (tag k l) k' = [] := by
  simp [entries, tag, List.filterMap_map, h.symm]

lemma mem_entries {log : List (κ × α)} {k : κ} {a : α} : a ∈ entries log k ↔ (k, a) ∈ log := by
  refine ⟨?_, ?_⟩
  · intro h
    obtain ⟨⟨k', b⟩, he, hk⟩ := List.mem_filterMap.mp h
    simp only [Option.ite_none_right_eq_some, Option.some.injEq] at hk
    obtain ⟨rfl, rfl⟩ := hk
    exact he
  · intro h
    exact List.mem_filterMap.mpr ⟨(k, a), h, by simp⟩

lemma entries_map {β : Type*} (f : α → β) (log : List (κ × α)) (k : κ) :
    entries (log.map fun e => (e.1, f e.2)) k = (entries log k).map f := by
  simp only [entries, List.filterMap_map, List.map_filterMap]
  refine List.filterMap_congr fun e _ => ?_
  by_cases he : e.1 = k <;> simp [he]

lemma count_entries [DecidableEq α] (log : List (κ × α)) (k : κ) (a : α) :
    log.count (k, a) = (entries log k).count a := by
  induction log with
  | nil => rfl
  | cons e log ih =>
    obtain ⟨k', b⟩ := e
    by_cases hk : k' = k
    · subst hk
      have hentries : entries ((k', b) :: log) k' = b :: entries log k' := by simp [entries]
      rw [hentries, List.count_cons, List.count_cons, ih]
      simp
    · have hentries : entries ((k', b) :: log) k = entries log k := by simp [entries, hk]
      rw [hentries, List.count_cons, ih]
      simp [hk]

/-- **A log holds no more than another when it does so writer by writer.** -/
lemma subperm_of_entries [DecidableEq α] {log log' : List (κ × α)}
    (h : ∀ k, (entries log k).Subperm (entries log' k)) : log.Subperm log' := by
  refine List.subperm_ext_iff.mpr fun e _ => ?_
  obtain ⟨k, a⟩ := e
  rw [count_entries, count_entries]
  exact (h k).count_le a

/-- How often a writer stands among those of the entries of a kind. -/
lemma count_writers (log : List (κ × α)) (p : κ → α → Bool) (k : κ) :
    ((log.filter fun e => p e.1 e.2).map Prod.fst).count k = (entries log k).countP (p k) := by
  unfold List.count entries
  rw [List.countP_map, List.countP_filter, List.countP_filterMap]
  refine List.countP_congr fun e _ => ?_
  by_cases he : e.1 = k
  · subst he
    simp
  · simp [he]

/-- **Two logs have as many entries of two kinds when every writer has.** -/
lemma countP_of_entries {β : Type*} {log : List (κ × α)} {log' : List (κ × β)}
    {p : κ → α → Bool} {q : κ → β → Bool}
    (h : ∀ k, (entries log k).countP (p k) = (entries log' k).countP (q k)) :
    (log.countP fun e => p e.1 e.2) = log'.countP fun e => q e.1 e.2 := by
  have hperm : ((log.filter fun e => p e.1 e.2).map Prod.fst).Perm
      ((log'.filter fun e => q e.1 e.2).map Prod.fst) := by
    refine List.perm_iff_count.mpr fun k => ?_
    rw [count_writers, count_writers, h k]
  have hlength := hperm.length_eq
  rwa [List.length_map, List.length_map, ← List.countP_eq_length_filter,
    ← List.countP_eq_length_filter] at hlength

end GatewayAuth.Lib.Logs
