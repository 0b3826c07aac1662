import GatewayAuth.Lib.Metering

/-!
What a cell rate lets through, as a law about windows of time.

A check of the generic cell rate algorithm passes exactly when there is room for one more in every
window of time that ends with it: for the tolerance and one more cell, and for one cell each period
that fits into the window. In the window since the first check of the key there is room for the
tolerance alone. The cell holds one number; the law speaks of all that has passed.
-/

namespace GatewayAuth.Lib.CellRate

open GatewayAuth.Lib.Metering

/-- The times of the checks that have passed. -/
def passTimes (h : List (ℕ × Bool)) : List ℕ := (h.filter Prod.snd).map Prod.fst

/-- How many of the times are at `s` or later. -/
def since (ps : List ℕ) (s : ℕ) : ℕ := ps.countP fun a => s ≤ a

/-- There is room for one more at `now`, at one cell every `t` and a tolerance of `b` cells. -/
structure Admits (t b : ℕ) (ps : List ℕ) (now : ℕ) : Prop where
  window : ∀ s ≤ now, (since ps s + 1) * t ≤ (b + 1) * t + (now - s)
  first : ∀ s, ps.head? = some s → (ps.length + 1) * t ≤ b * t + (now - s)

@[simp] lemma passTimes_pass (h : List (ℕ × Bool)) (u : ℕ) :
    passTimes (h ++ [(u, true)]) = passTimes h ++ [u] := by
  simp [passTimes]

@[simp] lemma passTimes_refuse (h : List (ℕ × Bool)) (u : ℕ) :
    passTimes (h ++ [(u, false)]) = passTimes h := by
  simp [passTimes]

lemma passTimes_le {h : List (ℕ × Bool)} {u : ℕ} (hu : ∀ e ∈ h, e.1 ≤ u) :
    ∀ a ∈ passTimes h, a ≤ u := by
  intro a ha
  obtain ⟨e, he, rfl⟩ := List.mem_map.mp ha
  exact hu e (List.mem_of_mem_filter he)

lemma since_snoc_of_le {u s : ℕ} (hs : s ≤ u) (ps : List ℕ) :
    since (ps ++ [u]) s = since ps s + 1 := by
  simp [since, List.countP_append, hs]

/-- Nothing is in a window that opens after the last time. -/
lemma since_snoc_of_lt {ps : List ℕ} {u s : ℕ} (hps : ∀ a ∈ ps, a ≤ u) (hs : u < s) :
    since (ps ++ [u]) s = 0 := by
  refine List.countP_eq_zero.mpr fun a ha => ?_
  simp only [decide_eq_true_eq]
  rcases List.mem_append.mp ha with ha | ha
  · have := hps a ha
    omega
  · rw [List.mem_singleton.mp ha]
    omega

variable {t b : ℕ} {h : List (ℕ × Bool)}

lemma answers_snoc {Cell : Type} {m : Meter Cell} {e : ℕ × Bool} (ha : Answers m (h ++ [e])) :
    Answers m h ∧ e.2 = verdict m (h.map Prod.fst) e.1 :=
  ⟨fun earlier t a hpre => ha earlier t a (hpre.trans (List.prefix_append h [e])),
    ha h e.1 e.2 List.prefix_rfl⟩

lemma times_snoc {e : ℕ × Bool} (hs : ((h ++ [e]).map Prod.fst).Pairwise (· ≤ ·)) :
    (h.map Prod.fst).Pairwise (· ≤ ·) ∧ ∀ e' ∈ h, e'.1 ≤ e.1 := by
  rw [List.map_append, List.pairwise_append] at hs
  obtain ⟨hsorted, -, hlast⟩ := hs
  exact ⟨hsorted, fun e' he' => hlast e'.1 (List.mem_map_of_mem he') e.1 (by simp)⟩

/-- What has passed by `now` is paid for at `x`: in every window, and twice for the first. -/
structure Paid (t : ℕ) (ps : List ℕ) (now x : ℕ) : Prop where
  window : ∀ s ≤ now, s + since ps s * t ≤ x
  first : ∀ s, ps.head? = some s → s + (ps.length + 1) * t ≤ x

lemma paid_nil {now x : ℕ} (hx : now ≤ x) : Paid t [] now x :=
  ⟨fun s hs => by simpa [since] using hs.trans hx, fun s hs => by cases hs⟩

/-- The first that passes is paid for twice. -/
lemma paid_singleton {u now x : ℕ} (hu : u ≤ now) (hx : now ≤ x) :
    Paid t [u] now x ↔ u + t + t ≤ x := by
  have htwo : u + ([u].length + 1) * t = u + t + t := by
    rw [List.length_singleton]
    ring
  refine ⟨fun h => htwo ▸ h.first u rfl, fun h => ⟨fun s hs => ?_, fun s hs => ?_⟩⟩
  · by_cases hsu : s ≤ u
    · have hone : since [u] s = 1 := by simp [since, hsu]
      rw [hone]
      omega
    · have hzero : since [u] s = 0 := by simp [since, hsu]
      rw [hzero]
      omega
  · obtain rfl : u = s := by simpa using hs
    rw [htwo]
    exact h

/-- One more is one more cell to pay for, at the time when it passes or later. -/
lemma paid_snoc {ps : List ℕ} {u now x : ℕ} (hne : ps ≠ []) (hps : ∀ a ∈ ps, a ≤ u) (hu : u ≤ now)
    (hx : now ≤ x) : Paid t (ps ++ [u]) now x ↔ u + t ≤ x ∧ Paid t ps u (x - t) := by
  have hlength : ((ps ++ [u]).length + 1) * t = (ps.length + 1) * t + t := by
    rw [List.length_append, List.length_singleton]
    ring
  have hhead : (ps ++ [u]).head? = ps.head? := by
    cases ps with
    | nil => exact absurd rfl hne
    | cons a ps => rfl
  refine ⟨fun h => ?_, fun ⟨hroom, h⟩ => ⟨fun s hsnow => ?_, fun s hs => ?_⟩⟩
  · have hroom := h.window u hu
    rw [since_snoc_of_le le_rfl, Nat.succ_mul] at hroom
    refine ⟨by omega, fun s hsu => ?_, fun s hs => ?_⟩
    · have hpaid := h.window s (hsu.trans hu)
      rw [since_snoc_of_le hsu, Nat.succ_mul] at hpaid
      omega
    · have hpaid := h.first s (hhead.trans hs)
      rw [hlength] at hpaid
      omega
  · by_cases hsu : s ≤ u
    · have hpaid := h.window s hsu
      rw [since_snoc_of_le hsu, Nat.succ_mul]
      omega
    · rw [since_snoc_of_lt hps (by omega)]
      omega
  · have hpaid := h.first s (hhead.symm.trans hs)
    rw [hlength]
    omega

/-- **The cell is the earliest time at which all that has passed is paid for**, and it is zero
until something has. -/
lemma after_le_iff (ht : 0 < t) (hb : 1 ≤ b) (ha : Answers (gcra t (b * t)) h)
    (hs : (h.map Prod.fst).Pairwise (· ≤ ·)) {now x : ℕ} (hnow : ∀ e ∈ h, e.1 ≤ now)
    (hx : now ≤ x) :
    (after (gcra t (b * t)) (h.map Prod.fst) = 0 ↔ passTimes h = []) ∧
      (after (gcra t (b * t)) (h.map Prod.fst) ≤ x ↔ Paid t (passTimes h) now x) := by
  induction h using List.reverseRecOn generalizing now x with
  | nil => exact ⟨iff_of_true rfl rfl, iff_of_true (Nat.zero_le x) (paid_nil hx)⟩
  | append_singleton h e ih =>
    obtain ⟨u, a⟩ := e
    obtain ⟨hinit, hanswer⟩ := answers_snoc ha
    obtain ⟨hsorted, hlast⟩ := times_snoc hs
    simp only at hanswer hlast
    have hu : u ≤ now := hnow (u, a) (by simp)
    have hbefore : ∀ e ∈ h, e.1 ≤ now := fun e he => hnow e (List.mem_append_left _ he)
    rw [List.map_append, List.map_singleton, after_snoc]
    rw [verdict] at hanswer
    generalize hcell : after (gcra t (b * t)) (h.map Prod.fst) = cell at ih hanswer
    by_cases hzero : cell = 0
    · -- the first check passes
      have hnone : passTimes h = [] := (ih hinit hsorted hlast le_rfl).1.mp hzero
      have hpass := gcra_check_zero (Nat.le_mul_of_pos_left t hb) u
      rw [hzero, hpass] at hanswer
      subst hanswer
      rw [hzero, hpass, passTimes_pass, hnone, List.nil_append, paid_singleton hu hx]
      exact ⟨iff_of_false (by simp only; omega) (by simp), Iff.rfl⟩
    · have hknown : passTimes h ≠ [] := fun hnil =>
        hzero ((ih hinit hsorted hlast le_rfl).1.mpr hnil)
      by_cases hlate : u + b * t < cell
      · rw [gcra_check hzero, if_pos hlate] at hanswer ⊢
        subst hanswer
        rw [passTimes_refuse]
        exact ih hinit hsorted hbefore hx
      · rw [gcra_check hzero, if_neg hlate] at hanswer ⊢
        subst hanswer
        rw [passTimes_pass, paid_snoc hknown (passTimes_le hlast) hu hx]
        refine ⟨iff_of_false (by simp only; omega) (by simp), ?_⟩
        by_cases hroom : u + t ≤ x
        · rw [and_iff_right hroom, ← (ih hinit hsorted hlast (x := x - t) (by omega)).2]
          simp only
          omega
        · exact iff_of_false (by simp only; omega) fun hpaid => hroom hpaid.1

lemma paid_iff_admits {ps : List ℕ} {now : ℕ} (hps : ∀ a ∈ ps, a ≤ now) :
    Paid t ps now (now + b * t) ↔ Admits t b ps now := by
  have hwindow : ∀ s ≤ now, s + since ps s * t ≤ now + b * t ↔
      (since ps s + 1) * t ≤ (b + 1) * t + (now - s) := by
    intro s hs
    rw [Nat.succ_mul, Nat.succ_mul]
    omega
  have hfirst : ∀ s, ps.head? = some s → (s + (ps.length + 1) * t ≤ now + b * t ↔
      (ps.length + 1) * t ≤ b * t + (now - s)) := by
    intro s hs
    have hle := hps s (List.mem_of_head? hs)
    omega
  refine ⟨fun h => ⟨fun s hs => ?_, fun s hs => ?_⟩, fun h => ⟨fun s hs => ?_, fun s hs => ?_⟩⟩
  · exact (hwindow s hs).mp (h.window s hs)
  · exact (hfirst s hs).mp (h.first s hs)
  · exact (hwindow s hs).mpr (h.window s hs)
  · exact (hfirst s hs).mpr (h.first s hs)

/-- **A check passes exactly when there is room for one more.** -/
lemma verdict_iff (ht : 0 < t) (hb : 1 ≤ b) (ha : Answers (gcra t (b * t)) h)
    (hs : (h.map Prod.fst).Pairwise (· ≤ ·)) {now : ℕ} (hnow : ∀ e ∈ h, e.1 ≤ now) :
    verdict (gcra t (b * t)) (h.map Prod.fst) now = true ↔ Admits t b (passTimes h) now := by
  obtain ⟨hzero, hle⟩ := after_le_iff ht hb ha hs hnow (Nat.le_add_right now (b * t))
  rw [← paid_iff_admits (passTimes_le hnow), ← hle, verdict]
  by_cases hcell : after (gcra t (b * t)) (h.map Prod.fst) = 0
  · rw [hcell, gcra_check_zero (Nat.le_mul_of_pos_left t hb)]
    exact iff_of_true rfl (Nat.zero_le _)
  · rw [gcra_check hcell]
    split_ifs with hlate
    · exact iff_of_false (by simp) (by omega)
    · exact iff_of_true rfl (by omega)

/-- **A window lets through the tolerance, one more, and what is replenished over it**, wherever it
opens. -/
lemma window_le (ht : 0 < t) (hb : 1 ≤ b) (ha : Answers (gcra t (b * t)) h)
    (hs : (h.map Prod.fst).Pairwise (· ≤ ·)) (s w : ℕ) :
    ((passTimes h).countP fun a => s ≤ a ∧ a ≤ s + w) * t ≤ (b + 1) * t + w := by
  induction h using List.reverseRecOn with
  | nil => simp [passTimes]
  | append_singleton h e ih =>
    obtain ⟨u, a⟩ := e
    obtain ⟨hinit, hanswer⟩ := answers_snoc ha
    obtain ⟨hsorted, hlast⟩ := times_snoc hs
    have hearlier := ih hinit hsorted
    cases a with
    | false => rwa [passTimes_refuse]
    | true =>
      rw [passTimes_pass, List.countP_append]
      by_cases hin : s ≤ u ∧ u ≤ s + w
      · have hadmits := (verdict_iff ht hb hinit hsorted hlast).mp hanswer.symm
        have hcount : ((passTimes h).countP fun a => s ≤ a ∧ a ≤ s + w) ≤ since (passTimes h) s :=
          List.countP_mono_left fun a _ hand => by
            simp only [decide_eq_true_eq] at hand ⊢
            exact hand.1
        have hone : [u].countP (fun a => s ≤ a ∧ a ≤ s + w) = 1 := by simp [hin]
        calc _ ≤ (since (passTimes h) s + 1) * t := by
              rw [hone]
              exact Nat.mul_le_mul_right t (Nat.add_le_add_right hcount 1)
          _ ≤ (b + 1) * t + (u - s) := hadmits.window s hin.1
          _ ≤ (b + 1) * t + w := by omega
      · have hnone : [u].countP (fun a => s ≤ a ∧ a ≤ s + w) = 0 := by
          rw [List.countP_singleton, if_neg (by simpa using hin)]
        rwa [hnone]

/-- Times that are a period apart leave a period for each of them. -/
lemma since_le_of_apart {ps : List ℕ} {now : ℕ} (hps : ps.Pairwise fun a a' => a + t ≤ a')
    (hnow : ∀ a ∈ ps, a + t ≤ now) {s : ℕ} (hs : s ≤ now) : s + since ps s * t ≤ now := by
  induction ps using List.reverseRecOn generalizing now with
  | nil => simpa [since] using hs
  | append_singleton ps u ih =>
    rw [List.pairwise_append] at hps
    obtain ⟨hpairs, -, hlast⟩ := hps
    have hbefore : ∀ a ∈ ps, a + t ≤ u := fun a ha => hlast a ha u (by simp)
    have hu : u + t ≤ now := hnow u (by simp)
    by_cases hsu : s ≤ u
    · have := ih hpairs hbefore hsu
      rw [since_snoc_of_le hsu, Nat.succ_mul]
      omega
    · have hle : ∀ a ∈ ps, a ≤ u := fun a ha => (Nat.le_add_right a t).trans (hbefore a ha)
      rw [since_snoc_of_lt hle (by omega)]
      omega

/-- **Who keeps the pace is never refused**: a check that comes a period after each of those that
have passed, which are a period apart, passes. -/
lemma admits_of_apart (hb : 1 ≤ b) {ps : List ℕ} {now : ℕ}
    (hps : (ps ++ [now]).Pairwise fun a a' => a + t ≤ a') : Admits t b ps now := by
  rw [List.pairwise_append] at hps
  obtain ⟨hpairs, -, hlast⟩ := hps
  have hbefore : ∀ a ∈ ps, a + t ≤ now := fun a ha => hlast a ha now (by simp)
  have htolerance : t ≤ b * t := Nat.le_mul_of_pos_left t hb
  refine ⟨fun s hs => ?_, fun s hs => ?_⟩
  · have hpaid := since_le_of_apart hpairs hbefore hs
    rw [Nat.succ_mul, Nat.succ_mul]
    omega
  · have hle := hbefore s (List.mem_of_head? hs)
    have hall : since ps s = ps.length := by
      obtain ⟨ps, rfl⟩ := List.head?_eq_some_iff.mp hs
      refine List.countP_eq_length.mpr fun a ha => decide_eq_true ?_
      rcases List.mem_cons.mp ha with rfl | ha
      · exact le_rfl
      · exact (Nat.le_add_right s t).trans ((List.pairwise_cons.mp hpairs).1 a ha)
    have hpaid := since_le_of_apart hpairs hbefore (s := s) (by omega)
    rw [hall] at hpaid
    rw [Nat.succ_mul]
    omega

end GatewayAuth.Lib.CellRate
