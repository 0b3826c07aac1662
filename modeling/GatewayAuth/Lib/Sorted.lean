import Mathlib.Order.Basic
import Mathlib.Data.List.Sort

/-!
Finite sets kept as strictly increasing lists, as an ordered-tree set presents them: the
elements are listed in order, and equal sets have equal lists.
-/

namespace GatewayAuth.Lib.Sorted

variable {α : Type*} [LinearOrder α]

def insertSorted (a : α) : List α → List α
  | [] => [a]
  | b :: l => if a < b then a :: b :: l else if a = b then b :: l else b :: insertSorted a l

lemma mem_insertSorted {a x : α} {l : List α} : x ∈ insertSorted a l ↔ x = a ∨ x ∈ l := by
  induction l with
  | nil => simp [insertSorted]
  | cons b l ih =>
    rw [insertSorted]
    split_ifs with h1 h2
    · simp
    · subst h2; simp
    · simp only [List.mem_cons, ih]; tauto

lemma pairwise_insertSorted {a : α} {l : List α} (h : l.Pairwise (· < ·)) :
    (insertSorted a l).Pairwise (· < ·) := by
  induction l with
  | nil => simp [insertSorted]
  | cons b l ih =>
    obtain ⟨hb, hl⟩ := List.pairwise_cons.mp h
    rw [insertSorted]
    split_ifs with h1 h2
    · refine List.pairwise_cons.mpr ⟨fun x hx => ?_, h⟩
      rcases List.mem_cons.mp hx with rfl | hx
      · exact h1
      · exact h1.trans (hb x hx)
    · exact h
    · refine List.pairwise_cons.mpr ⟨fun x hx => ?_, ih hl⟩
      rcases mem_insertSorted.mp hx with rfl | hx
      · exact lt_of_le_of_ne (not_lt.mp h1) (Ne.symm h2)
      · exact hb x hx

variable (α) in
/-- A strictly increasing list. -/
structure SortedSet where
  toList : List α
  sorted : toList.Pairwise (· < ·)

namespace SortedSet

def empty : SortedSet α := ⟨[], List.Pairwise.nil⟩

def insert (a : α) (s : SortedSet α) : SortedSet α :=
  ⟨insertSorted a s.toList, pairwise_insertSorted s.sorted⟩

def extend (s : SortedSet α) (l : List α) : SortedSet α := l.foldl (fun s a => s.insert a) s

@[simp] lemma mem_empty {x : α} : x ∉ (empty : SortedSet α).toList := by simp [empty]

@[simp] lemma mem_insert {a x : α} {s : SortedSet α} :
    x ∈ (s.insert a).toList ↔ x = a ∨ x ∈ s.toList := mem_insertSorted

@[simp] lemma mem_extend {x : α} {s : SortedSet α} {l : List α} :
    x ∈ (s.extend l).toList ↔ x ∈ s.toList ∨ x ∈ l := by
  induction l generalizing s with
  | nil => simp [extend]
  | cons a l ih =>
    have : s.extend (a :: l) = (s.insert a).extend l := rfl
    rw [this, ih, mem_insert, List.mem_cons]
    tauto

end SortedSet

end GatewayAuth.Lib.Sorted
