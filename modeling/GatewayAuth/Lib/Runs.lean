import Mathlib.Data.List.Induction
import Mathlib.Tactic.ByContra

/-!
Runs of a deterministic machine, as a step function folded over a list of events.

A run is reasoned about by an invariant of its steps, by an invariant that only holds while
every step meets a condition, by a bad state that no step leaves, by comparison with the run from
which some of the events have been left out, and by comparison with a run over other events.
-/

namespace GatewayAuth.Lib.Runs

variable {S E : Type*} (step : S → E → S)

def run (s : S) (es : List E) : S := es.foldl step s

@[simp] lemma run_nil (s : S) : run step s [] = s := rfl
@[simp] lemma run_cons (s : S) (e : E) (es : List E) :
    run step s (e :: es) = run step (step s e) es := rfl

/-- Every step of the run meets `P` in the state it is taken from. -/
def Steps (P : S → E → Prop) : S → List E → Prop
  | _, [] => True
  | s, e :: es => P s e ∧ Steps P (step s e) es

/-- An element of a list with one more at its end is that one, or stands in the list. -/
lemma snoc_eq_append_cons {l before after : List E} {r a : E} :
    l ++ [r] = before ++ a :: after ↔
      (l = before ∧ r = a ∧ after = []) ∨ ∃ init, after = init ++ [r] ∧ l = before ++ a :: init := by
  refine ⟨fun h => ?_, ?_⟩
  · rcases List.eq_nil_or_concat after with rfl | ⟨init, last, rfl⟩
    · obtain ⟨hl, hlast⟩ := List.append_inj' h rfl
      exact .inl ⟨hl, (List.cons.inj hlast).1, rfl⟩
    · have h' : l ++ [r] = (before ++ a :: init) ++ [last] := by simpa using h
      obtain ⟨hl, hlast⟩ := List.append_inj' h' rfl
      exact .inr ⟨init, by rw [(List.cons.inj hlast).1, List.concat_eq_append], hl⟩
  · rintro (⟨rfl, rfl, rfl⟩ | ⟨init, rfl, rfl⟩)
    · rfl
    · simp

variable {step}

/-- **The invariant rule.** -/
lemma run_inv {I : S → Prop} (hstep : ∀ s e, I s → I (step s e)) {s : S} (h : I s)
    (es : List E) : I (run step s es) := by
  induction es generalizing s with
  | nil => exact h
  | cons e es ih => exact ih (hstep s e h)

/-- The invariant rule for a step that keeps the invariant only under a condition. -/
lemma run_inv_of_steps {P : S → E → Prop} {I : S → Prop}
    (hstep : ∀ s e, P s e → I s → I (step s e)) {s : S} {es : List E}
    (hes : Steps step P s es) (h : I s) : I (run step s es) := by
  induction es generalizing s with
  | nil => exact h
  | cons e es ih => exact ih hes.2 (hstep s e hes.1 h)

/-- The invariant rule that also sees the events so far, each of which meets a condition on those
before it. -/
lemma run_inv_of_past {P : List E → E → Prop} {I : List E → S → Prop} {s : S} (h : I [] s)
    (hstep : ∀ past t e, P past e → I past t → I (past ++ [e]) (step t e)) (es : List E)
    (hes : ∀ past e, past ++ [e] <+: es → P past e) : I es (run step s es) := by
  induction es using List.reverseRecOn with
  | nil => exact h
  | append_singleton past e ih =>
    have hpast := ih fun past' e' h' => hes past' e' (h'.trans (List.prefix_append past [e]))
    have hrun : run step s (past ++ [e]) = step (run step s past) e := by
      unfold run
      rw [List.foldl_append, List.foldl_cons, List.foldl_nil]
    rw [hrun]
    exact hstep past _ e (hes past e List.prefix_rfl) hpast

/-- If a step that breaks a condition leads to a state that every step keeps bad, then a run
that does not end badly has met the condition at every step. -/
lemma steps_of_not_bad {P : S → E → Prop} {I B : S → Prop}
    (hstep : ∀ s e, I s → I (step s e)) (hbreak : ∀ s e, I s → ¬P s e → B (step s e))
    (hstay : ∀ s e, B s → B (step s e)) {s : S} (h : I s) {es : List E}
    (hrun : ¬B (run step s es)) : Steps step P s es := by
  induction es generalizing s with
  | nil => trivial
  | cons e es ih =>
    refine ⟨?_, ih (hstep s e h) hrun⟩
    by_contra hP
    exact hrun (run_inv hstay (hbreak s e h hP) es)

/-- **Leaving events out, on another machine.** If the events kept move the two machines from
related states to related states, and an event left out moves the first one alone without breaking
the relation, then a run of the first is related to the run of the second over the events kept. -/
lemma run_filter_of {S' : Type*} {step' : S' → E → S'} {R : S → S' → Prop} {P : E → Prop}
    {keep : E → Bool} (hkeep : ∀ s t e, P e → keep e = true → R s t → R (step s e) (step' t e))
    (hdrop : ∀ s t e, P e → keep e = false → R s t → R (step s e) t) {s : S} {t : S'}
    (h : R s t) {es : List E} (hes : ∀ e ∈ es, P e) :
    R (run step s es) (run step' t (es.filter keep)) := by
  induction es generalizing s t with
  | nil => exact h
  | cons e es ih =>
    have he := hes e List.mem_cons_self
    have hrest : ∀ e ∈ es, P e := fun e' he' => hes e' (List.mem_cons_of_mem e he')
    rcases hk : keep e with _ | _
    · rw [List.filter_cons_of_neg (by simp [hk]), run_cons]
      exact ih (hdrop s t e he hk h) hrest
    · rw [List.filter_cons_of_pos hk, run_cons, run_cons]
      exact ih (hkeep s t e he hk h) hrest

/-- **Leaving events out.** If the events kept move related states to related states, and an
event left out moves the first state alone without breaking the relation, then a run is
related to the run over the events kept. -/
lemma run_filter {R : S → S → Prop} {keep : E → Bool}
    (hkeep : ∀ s t e, keep e = true → R s t → R (step s e) (step t e))
    (hdrop : ∀ s t e, keep e = false → R s t → R (step s e) t) {s t : S} (h : R s t)
    (es : List E) : R (run step s es) (run step t (es.filter keep)) :=
  run_filter_of (P := fun _ => True) (fun s t e _ => hkeep s t e) (fun s t e _ => hdrop s t e) h
    fun _ _ => trivial

/-- **Two machines side by side.** If related events move related states to related states, then
runs over related events end in related states. -/
lemma run_forall₂ {S' E' : Type*} {step' : S' → E' → S'} {R : S → S' → Prop} {Q : E → E' → Prop}
    (hstep : ∀ s s' e e', Q e e' → R s s' → R (step s e) (step' s' e')) {s : S} {s' : S'}
    (h : R s s') {es : List E} {es' : List E'} (hes : List.Forall₂ Q es es') :
    R (run step s es) (run step' s' es') := by
  induction hes generalizing s s' with
  | nil => exact h
  | cons he _ ih => exact ih (hstep s s' _ _ he h)

end GatewayAuth.Lib.Runs
