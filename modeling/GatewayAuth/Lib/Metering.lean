import Mathlib.Logic.Function.Basic
import Mathlib.Order.Basic
import Mathlib.Order.Lattice
import Mathlib.Data.List.Basic
import Mathlib.Data.List.Induction
import Mathlib.Tactic.Ring

/-!
Metering by cells: a rate limiter that keeps one cell of state for each key.

A check reads the clock and the cell, says whether the caller may pass, and leaves a new
cell. With one cell for each key, what a check answers is settled by the earlier checks of
the same key, and how many checks can pass at one instant is a property of the cell alone.
-/

namespace GatewayAuth.Lib.Metering

/-- A cell discipline: the cell of a key never seen, and what a check does to a cell. -/
structure Meter (Cell : Type) where
  fresh : Cell
  check : ℕ → Cell → Bool × Cell

variable {κ Cell : Type} (m : Meter Cell)

/-- The cell of a key after checks at the times `ts`. -/
def after (ts : List ℕ) : Cell := ts.foldl (fun c t => (m.check t c).2) m.fresh

/-- What a check at time `t` answers after checks at the times `ts`. -/
def verdict (ts : List ℕ) (t : ℕ) : Bool := (m.check t (after m ts)).1

lemma after_snoc (ts : List ℕ) (t : ℕ) :
    after m (ts ++ [t]) = (m.check t (after m ts)).2 := by
  simp [after, List.foldl_append]

/-! ### One cell for each key -/

variable [DecidableEq κ]

def checkKey (cells : κ → Cell) (t : ℕ) (k : κ) : Bool × (κ → Cell) :=
  ((m.check t (cells k)).1, Function.update cells k (m.check t (cells k)).2)

@[simp] lemma checkKey_self (cells : κ → Cell) (t : ℕ) (k : κ) :
    (checkKey m cells t k).2 k = (m.check t (cells k)).2 := by
  simp [checkKey]

lemma checkKey_of_ne (cells : κ → Cell) (t : ℕ) {k k' : κ} (h : k' ≠ k) :
    (checkKey m cells t k).2 k' = cells k' := by
  simp [checkKey, h]

/-! ### Checks at one instant -/

/-- How many of `n` checks at time `t` pass from the cell `c`, and the cell they leave. -/
def burst (t : ℕ) (c : Cell) : ℕ → ℕ × Cell
  | 0 => (0, c)
  | n + 1 =>
    let r := burst t c n
    let v := m.check t r.2
    (r.1 + v.1.toNat, v.2)

/-- No more than `b` checks pass at one instant, whatever the cell. -/
def Bounded (b : ℕ) : Prop := ∀ t c n, (burst m t c n).1 ≤ b

/-- Every answer of a history, of times and answers, is what the meter says after the times
before it. -/
def Answers (h : List (ℕ × Bool)) : Prop :=
  ∀ earlier t a, earlier ++ [(t, a)] <+: h → a = verdict m (earlier.map Prod.fst) t

/-- How many checks at time `t` have passed. -/
def passes (h : List (ℕ × Bool)) (t : ℕ) : ℕ := (h.filter fun e => e.1 = t ∧ e.2 = true).length

lemma passes_snoc (h : List (ℕ × Bool)) (u : ℕ) (a : Bool) (t : ℕ) :
    passes (h ++ [(u, a)]) t = passes h t + if u = t then a.toNat else 0 := by
  unfold passes
  by_cases hu : u = t
  · cases a <;> simp [hu]
  · simp [hu]

lemma passes_eq_zero {h : List (ℕ × Bool)} {t : ℕ} (hlt : ∀ e ∈ h, e.1 < t) :
    passes h t = 0 := by
  have hnil : h.filter (fun e => e.1 = t ∧ e.2 = true) = [] := by
    rw [List.filter_eq_nil_iff]
    intro e he hand
    have heq : e.1 = t := by simp only [decide_eq_true_eq] at hand; exact hand.1
    have := hlt e he
    omega
  rw [passes, hnil, List.length_nil]

variable {m}

/-- In a history whose times do not decrease, the checks at one time are a burst from some
cell. -/
lemma exists_burst {h : List (ℕ × Bool)} (ha : Answers m h)
    (hs : (h.map Prod.fst).Pairwise (· ≤ ·)) (t : ℕ) :
    ∃ c n, passes h t = (burst m t c n).1 ∧
      ((∀ e ∈ h, e.1 ≤ t) → after m (h.map Prod.fst) = (burst m t c n).2) := by
  induction h using List.reverseRecOn with
  | nil => exact ⟨m.fresh, 0, rfl, fun _ => rfl⟩
  | append_singleton h e ih =>
    obtain ⟨u, a⟩ := e
    rw [List.map_append, List.pairwise_append] at hs
    obtain ⟨hsorted, -, hlast⟩ := hs
    have hle : ∀ e ∈ h, e.1 ≤ u := fun e he => hlast e.1 (List.mem_map_of_mem he) u (by simp)
    have hanswers : Answers m h := fun earlier t a hpre =>
      ha earlier t a (hpre.trans (List.prefix_append h _))
    have hanswer : a = verdict m (h.map Prod.fst) u := ha h u a (List.prefix_refl _)
    obtain ⟨c, n, hpasses, hafter⟩ := ih hanswers hsorted
    rw [passes_snoc, List.map_append, List.map_singleton, after_snoc]
    rcases lt_trichotomy u t with hu | rfl | hu
    · have hzero : passes h t = 0 := passes_eq_zero fun e he => lt_of_le_of_lt (hle e he) hu
      refine ⟨(m.check u (after m (h.map Prod.fst))).2, 0, ?_, fun _ => rfl⟩
      rw [hzero, if_neg (by omega)]
      rfl
    · refine ⟨c, n + 1, ?_, fun _ => ?_⟩
      · rw [burst, if_pos rfl, hpasses, hanswer, verdict, hafter hle]
      · rw [burst, hafter hle]
    · refine ⟨c, n, ?_, fun hall => ?_⟩
      · rw [if_neg (by omega), hpasses, Nat.add_zero]
      · have := hall (u, a) (by simp)
        omega

/-- **No more than `b` checks of a bounded meter pass at one time.** -/
lemma passes_le {b : ℕ} (hb : Bounded m b) {h : List (ℕ × Bool)} (ha : Answers m h)
    (hs : (h.map Prod.fst).Pairwise (· ≤ ·)) (t : ℕ) : passes h t ≤ b := by
  obtain ⟨c, n, hpasses, -⟩ := exists_burst ha hs t
  rw [hpasses]
  exact hb t c n

variable (m)

/-! ### The generic cell rate algorithm -/

/-- One cell every `t`, with a tolerance of `τ`. The state is the theoretical arrival time of the
next cell, and zero until a cell has passed: a key that is met for the first time is given one cell
less than a key that is known. -/
def gcra (t τ : ℕ) : Meter ℕ where
  fresh := 0
  check now cell :=
    let tat := if cell = 0 then now + t else cell
    if now < tat - τ then (false, cell) else (true, max tat now + t)

lemma gcra_check_zero {t τ : ℕ} (h : t ≤ τ) (now : ℕ) :
    (gcra t τ).check now 0 = (true, now + t + t) := by
  have hpass : ¬now < now + t - τ := by omega
  simp [gcra, hpass]

lemma gcra_check {t τ cell : ℕ} (h : cell ≠ 0) (now : ℕ) :
    (gcra t τ).check now cell =
      if now + τ < cell then (false, cell) else (true, max cell now + t) := by
  have hlate : now < cell - τ ↔ now + τ < cell := by omega
  simp [gcra, h, hlate]

/-- Every check passed moves the arrival time of a known key, read from `now` on, by one cell. -/
lemma gcra_burst {t cell : ℕ} (hcell : cell ≠ 0) (b now n : ℕ) :
    (burst (gcra t (b * t)) now cell n).1 * t ≤ (b + 1) * t ∧
      (burst (gcra t (b * t)) now cell n).2 ≠ 0 ∧
      max (burst (gcra t (b * t)) now cell n).2 now =
        max cell now + (burst (gcra t (b * t)) now cell n).1 * t := by
  induction n with
  | zero => simp [burst, hcell]
  | succ n ih =>
    rw [burst]
    generalize burst (gcra t (b * t)) now cell n = r at ih
    obtain ⟨a, c⟩ := r
    obtain ⟨hle, hne, hmax⟩ := ih
    simp only at hle hne hmax
    by_cases hlate : now + b * t < c
    · have hc : (gcra t (b * t)).check now c = (false, c) := by rw [gcra_check hne, if_pos hlate]
      simpa only [hc, Bool.toNat_false, Nat.add_zero] using ⟨hle, hne, hmax⟩
    · have hs : (a + 1) * t = a * t + t := by ring
      have hb : (b + 1) * t = b * t + t := by ring
      have hnow : now ≤ max cell now := le_max_right _ _
      have hc : (gcra t (b * t)).check now c = (true, max c now + t) := by
        rw [gcra_check hne, if_neg hlate]
      simp only [hc, Bool.toNat_true]
      exact ⟨by omega, by omega, by omega⟩

/-- A key that is met for the first time passes as many checks as the tolerance has cells. -/
lemma gcra_burst_fresh {t b : ℕ} (ht : 0 < t) (hb : 1 ≤ b) (now n : ℕ) :
    burst (gcra t (b * t)) now 0 n = (0, 0) ∨
      (burst (gcra t (b * t)) now 0 n).1 ≤ b ∧ (burst (gcra t (b * t)) now 0 n).2 =
        now + ((burst (gcra t (b * t)) now 0 n).1 + 1) * t := by
  induction n with
  | zero => exact .inl rfl
  | succ n ih =>
    right
    rw [burst]
    generalize burst (gcra t (b * t)) now 0 n = r at ih
    obtain ⟨a, c⟩ := r
    simp only [Prod.mk.injEq] at ih
    rcases ih with ⟨rfl, rfl⟩ | ⟨hle, hc⟩
    · rw [gcra_check_zero (Nat.le_mul_of_pos_left t hb)]
      simp only [Bool.toNat_true]
      exact ⟨by omega, by ring⟩
    · have hs : (a + 1) * t = a * t + t := by ring
      have hne : c ≠ 0 := by omega
      simp only
      rw [gcra_check hne]
      by_cases hlate : now + b * t < c
      · rw [if_pos hlate]
        exact ⟨by simpa using hle, by simpa using hc⟩
      · have hlt : a + 1 ≤ b := by
          refine Nat.le_of_mul_le_mul_right ?_ ht
          omega
        rw [if_neg hlate, max_eq_left (by omega), hc]
        simp only [Bool.toNat_true]
        exact ⟨hlt, by ring⟩

/-- **A cell rate of `t` with a tolerance of `b` cells passes at most `b + 1` checks at one
instant.** -/
lemma gcra_bounded {t b : ℕ} (ht : 0 < t) (hb : 1 ≤ b) : Bounded (gcra t (b * t)) (b + 1) := by
  intro now cell n
  by_cases hcell : cell = 0
  · subst hcell
    rcases gcra_burst_fresh ht hb now n with hzero | ⟨hle, -⟩
    · rw [hzero]
      exact Nat.zero_le _
    · omega
  · exact Nat.le_of_mul_le_mul_right (gcra_burst hcell b now n).1 ht

/-- The first instant of a key is held to the tolerance, and a later one is not. -/
example : (burst (gcra 1 (3 * 1)) 5 0 9).1 = 3 ∧ (burst (gcra 1 (3 * 1)) 5 1 9).1 = 4 := by decide

end GatewayAuth.Lib.Metering
