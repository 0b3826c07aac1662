import GatewayAuth.Checks

/-!
What clients have to do with each other: nothing but the budgets they share.

Handlers meet in the limiters alone, and there under the scope and the name they ask under. If one
set of requests asks under other keys than the rest, then the gateway does for it what it would do
if the rest had never come: the same records, counts, requests to the upstreams and responses, in
the same order.
-/

namespace GatewayAuth.Isolation

open GatewayAuth.Lib.Logs GatewayAuth.Lib.Runs
open GatewayAuth.Classify GatewayAuth.Authz GatewayAuth.Ratelimit
open GatewayAuth.Server GatewayAuth.Service GatewayAuth.Checks

variable {Cell : Type} {x : Crates Cell} {g : Inner}

/-! ### What a step takes from the limiters -/

/-- Two steps differ in the limiters they leave, and in nothing else. -/
def Agree (a b : Effect Cell) : Prop := b = { a with limiters := b.limiters }

lemma arrive_agree (l l' : RateLimiters Cell) (now : ℕ) (parts : Parts) :
    Agree (arrive x g l now parts) (arrive x g l' now parts) := by
  unfold arrive
  rcases handleHead x g now parts with r | p
  · rfl
  · rfl

lemma afterBody_agree (now : ℕ) (h : Handler) (p : Principal) {s s' : Screened Cell}
    (hresult : s.result = s'.result) (hasked : s.asked = s'.asked) :
    Agree (afterBody x g now h p s) (afterBody x g now h p s') := by
  obtain ⟨result, l, asked⟩ := s
  obtain ⟨result', l', asked'⟩ := s'
  obtain rfl : result = result' := hresult
  obtain rfl : asked = asked' := hasked
  rcases result with r | call
  · rfl
  · rcases hout : call.outgoing g h.parts with e | out
    · simp [Agree, afterBody, resume, hout, Effect.finish]
    · simp [Agree, afterBody, resume, hout, Effect.quiet]

/-- **A handler takes one answer from the limiters**, and nothing else. -/
lemma advance_agree {l l' : RateLimiters Cell} {now : ℕ} {h : Handler} {sig : Signal}
    (hanswer : ∀ s name, asked x g (front h) sig = some (s, name) →
      (l.check x.governor now s name).1 = (l'.check x.governor now s name).1) :
    Agree (advance x g l now h sig) (advance x g l' now h sig) := by
  cases sig with
  | body b =>
    rcases ha : awaiting h with _ | p
    · have hnot : ∀ p, h.phase ≠ .readingBody p := fun p hp => by
        rw [awaiting_eq_some.mpr hp] at ha
        cases ha
      have hidle : ∀ l'' : RateLimiters Cell, advance x g l'' now h (.body b) = .quiet l'' h := by
        intro l''
        rcases hp : h.phase with p | _ | _ | _ | _
        · exact absurd hp (hnot p)
        all_goals simp [advance, hp]
      rw [hidle, hidle]
      rfl
    · have hp := awaiting_eq_some.mp ha
      simp only [advance, hp]
      rcases hs : screen x g h.parts p b with r | ⟨c, b'⟩
      · have hbody : ∀ l'' : RateLimiters Cell,
            handleBody x g l'' now h.parts p b = ⟨.error r, l'', none⟩ := by
          intro l''
          simp [handleBody, hs]
        rw [hbody, hbody]
        exact afterBody_agree now _ p rfl rfl
      · have hasked : asked x g (front h) (.body b) = some (c.scope, p.name) := by
          simp [asked, front, ha, admits, hs]
        have hsame := hanswer _ _ hasked
        rcases hl : l.check x.governor now c.scope p.name with ⟨a, m⟩
        rcases hl' : l'.check x.governor now c.scope p.name with ⟨a', m'⟩
        rw [hl, hl'] at hsame
        obtain rfl : a = a' := hsame
        refine afterBody_agree now _ p ?_ ?_
        · cases a <;> simp [handleBody, hs, hl, hl']
        · cases a <;> simp [handleBody, hs, hl, hl']
  | handOver => rcases hp : h.phase with p | ⟨_, _, _ | _⟩ | _ | _ | _ <;> simp [advance, hp] <;> rfl
  | head r =>
    rcases r with e | ⟨status, headers⟩
    · rcases hp : h.phase with p | ⟨_, _, _ | _⟩ | _ | _ | _ <;> simp [advance, hp] <;> rfl
    · rcases hp : h.phase with p | ⟨_, _, _ | _⟩ | _ | _ | _ <;> simp [advance, hp] <;> rfl
  | bytes r =>
    rcases r with e | body
    · rcases hp : h.phase with p | ⟨_, _, _ | _⟩ | _ | _ | _ <;> simp [advance, hp] <;> rfl
    · rcases hp : h.phase with p | ⟨_, _, _ | _⟩ | _ | _ | _ <;> simp [advance, hp] <;> rfl
  | drop => rfl

/-! ### Two runs, with and without the other requests -/

/-- The second state is what the first one holds of the requests in `keep`. -/
structure Seen (keep : ℕ → Bool) (w w' : World Cell) : Prop where
  exited : w'.exited = w.exited
  handlers : ∀ id, keep id = true → w'.handlers id = w.handlers id
  trail : w'.trail = only keep w.trail
  metrics : w'.metrics = only keep w.metrics
  wire : w'.wire = only keep w.wire
  checks : w'.checks = only keep w.checks

variable {keep : ℕ → Bool} {w w' : World Cell}

lemma seen_keep (hs : Seen keep w w') {id : ℕ} (hid : keep id = true) {eff eff' : Effect Cell}
    (heff : Agree eff eff') : Seen keep (w.apply id eff) (w'.apply id eff') := by
  rw [Agree] at heff
  rw [heff]
  refine ⟨hs.exited, fun id' hid' => ?_, ?_, ?_, ?_, ?_⟩
  · by_cases hne : id' = id
    · subst hne
      simp [World.apply]
    · simp [World.apply, hne, hs.handlers id' hid']
  · simp [World.apply, hs.trail, only_tag hid]
  · simp [World.apply, hs.metrics, only_tag hid]
  · simp [World.apply, hs.wire, only_tag hid]
  · simp [World.apply, hs.checks, only_tag hid]

lemma seen_drop (hs : Seen keep w w') {id : ℕ} (hid : keep id = false) (eff : Effect Cell) :
    Seen keep (w.apply id eff) w' := by
  refine ⟨hs.exited, fun id' hid' => ?_, ?_, ?_, ?_, ?_⟩
  · have hne : id' ≠ id := by
      rintro rfl
      rw [hid] at hid'
      cases hid'
    simp [World.apply, hne, hs.handlers id' hid']
  · simp [World.apply, hs.trail, only_tag_of_not hid]
  · simp [World.apply, hs.metrics, only_tag_of_not hid]
  · simp [World.apply, hs.wire, only_tag_of_not hid]
  · simp [World.apply, hs.checks, only_tag_of_not hid]

/-- No request in `keep` has asked under a scope and a name that another request has asked
under. -/
def Apart (keep : ℕ → Bool) (checks : List (ℕ × Check)) : Prop :=
  ∀ e ∈ checks, ∀ e' ∈ checks, keep e.1 = true → keep e'.1 = false →
    ¬(e.2.scope = e'.2.scope ∧ e.2.name = e'.2.name)

lemma Apart.past {log log' : List (ℕ × Check)} (h : Apart keep (log ++ log')) : Apart keep log :=
  fun e he e' he' => h e (List.mem_append_left _ he) e' (List.mem_append_left _ he')

/-- Under a key of the requests in `keep`, the two runs have asked and been answered the same. -/
lemma history_seen (hs : Seen keep w w') {s : Scope} {name : String}
    (hother : ∀ e ∈ w.checks, keep e.1 = false → ¬(e.2.scope = s ∧ e.2.name = name)) :
    history w'.checks s name = history w.checks s name := by
  rw [hs.checks]
  unfold history keyed only
  rw [List.filter_filter]
  have hfilter : ∀ e ∈ w.checks,
      (decide (e.2.scope = s ∧ e.2.name = name) && keep e.1) =
        decide (e.2.scope = s ∧ e.2.name = name) := by
    intro e he
    rcases hk : keep e.1 with _ | _
    · simp [hother e he hk]
    · simp
  rw [List.filter_congr hfilter]

/-- The events of the requests in `keep`, and the end of the process. -/
def Event.kept (keep : ℕ → Bool) : Event → Bool
  | .arrive id _ | .signal id _ => keep id
  | .exit => true

variable {budgets : RateLimit}

lemma seen_step_keep (hm : Metered x budgets w) (hm' : Metered x budgets w')
    (hs : Seen keep w w') {e : ℕ × Event} (he : Event.kept keep e.2 = true)
    (hapart : Apart keep (step x g w e).checks) :
    Seen keep (step x g w e) (step x g w' e) := by
  have hc := (step_consult (x := x) (g := g) w e).2
  rw [hc] at hapart
  obtain ⟨now, e⟩ := e
  by_cases hexited : w.exited = true
  · have hexited' : w'.exited = true := hs.exited.trans hexited
    simpa [step, hexited, hexited'] using hs
  have hexited' : ¬w'.exited = true := fun h => hexited (hs.exited.symm.trans h)
  cases e with
  | arrive id parts =>
    have hid : keep id = true := he
    simp only [step, hexited, hexited', hs.handlers id hid]
    rcases hh : w.handlers id with _ | h
    · exact seen_keep hs hid (arrive_agree _ _ now parts)
    · simpa [hh] using hs
  | signal id sig =>
    have hid : keep id = true := he
    simp only [step, hexited, hexited', hs.handlers id hid]
    rcases hh : w.handlers id with _ | h
    · simpa [hh] using hs
    · refine seen_keep hs hid (advance_agree fun s name hasked => ?_)
      -- The question is logged, so no other request has asked under its key.
      have hlogged : (id, ⟨now, s, name, (w.limiters.check x.governor now s name).1⟩) ∈
          w.checks ++ (stepAsks x g w (now, .signal id sig)).toList.flatMap fun a =>
            tag a.1 (logged x w.limiters now (some a.2)) := by
        simp [stepAsks, hexited, hh, hasked, logged, tag]
      have hhistory : history w'.checks s name = history w.checks s name :=
        history_seen hs fun e' he' hk hkey =>
          hapart _ hlogged e' (List.mem_append_left _ he') hid hk ⟨hkey.1.symm, hkey.2.symm⟩
      rw [check_eq_verdict hm, check_eq_verdict hm', hhistory]
  | exit =>
    simp only [step, hexited, hexited']
    refine ⟨rfl, fun id hid => ?_, hs.trail, hs.metrics, hs.wire, hs.checks⟩
    simp [World.exit, hs.handlers id hid]

lemma seen_step_drop (hs : Seen keep w w') {e : ℕ × Event} (he : Event.kept keep e.2 = false) :
    Seen keep (step x g w e) w' := by
  obtain ⟨now, e⟩ := e
  by_cases hexited : w.exited = true
  · simpa [step, hexited] using hs
  cases e with
  | arrive id parts =>
    rcases hh : w.handlers id with _ | h
    · simpa [step, hexited, hh] using seen_drop hs he (arrive x g w.limiters now parts)
    · simpa [step, hexited, hh] using hs
  | signal id sig =>
    rcases hh : w.handlers id with _ | h
    · simpa [step, hexited, hh] using hs
    · simpa [step, hexited, hh] using seen_drop hs he (advance x g w.limiters now h sig)
  | exit => cases he

/-- **Clients that share no budget do not see each other.** In every run, if the requests of a set
have asked under other scopes and names than the requests outside it, then the run without the
others gives each request of the set the same handler, and its logs are what the whole run has
logged for the set, in the same order: the records, the counts, the requests to the upstreams, and
the questions to the limiters with their answers. -/
theorem others_unseen (x : Crates Cell) (g : Inner) (budgets : RateLimit) (keep : ℕ → Bool)
    (es : List (ℕ × Event))
    (hapart : Apart keep (run (step x g) (World.start x budgets) es).checks) :
    Seen keep (run (step x g) (World.start x budgets) es)
      (run (step x g) (World.start x budgets) (es.filter fun e => Event.kept keep e.2)) := by
  let R : World Cell → World Cell → Prop := fun w w' =>
    Metered x budgets w ∧ Metered x budgets w' ∧ (Apart keep w.checks → Seen keep w w')
  have hpast : ∀ (w : World Cell) e, Apart keep (step x g w e).checks → Apart keep w.checks := by
    intro w e h
    rw [(step_consult w e).2] at h
    exact h.past
  have hkeep : ∀ w w' e, Event.kept keep e.2 = true → R w w' →
      R (step x g w e) (step x g w' e) := fun w w' e he ⟨hm, hm', hseen⟩ =>
    ⟨metered_step w e hm, metered_step w' e hm', fun h =>
      seen_step_keep hm hm' (hseen (hpast w e h)) he h⟩
  have hdrop : ∀ w w' e, Event.kept keep e.2 = false → R w w' → R (step x g w e) w' :=
    fun w w' e he ⟨hm, hm', hseen⟩ =>
      ⟨metered_step w e hm, hm', fun h => seen_step_drop (hseen (hpast w e h)) he⟩
  have hstart : R (World.start x budgets) (World.start x budgets) :=
    ⟨metered_start budgets, metered_start budgets, fun _ => ⟨rfl, fun _ _ => rfl, rfl, rfl, rfl, rfl⟩⟩
  exact (run_filter hkeep hdrop hstart es).2.2 hapart

/-- A mutation of one token, with a read of another on its way. -/
def twoTokens : List (ℕ × Event) :=
  [(0, .arrive 0 (exampleParts .post "/" "write-token")),
    (1, .arrive 1 (exampleParts .get "/" "read-token")), (2, .signal 1 (.body (.ok []))),
    (3, .signal 0 (.body (.ok (ascii (requestText setRule))))), (4, .signal 1 .handOver),
    (5, .signal 0 .handOver)]

theorem others_unseen_tokens :
    (run (step exampleCrates (exampleGateway true)) (World.start exampleCrates ⟨1, 1⟩)
        [(0, .arrive 0 (exampleParts .post "/" "write-token")),
          (3, .signal 0 (.body (.ok (ascii (requestText setRule))))), (5, .signal 0 .handOver)]).wire =
      only (fun id => id == 0) (run (step exampleCrates (exampleGateway true))
        (World.start exampleCrates ⟨1, 1⟩) twoTokens).wire :=
  (others_unseen exampleCrates (exampleGateway true) ⟨1, 1⟩ (fun id => id == 0) twoTokens
    (by unfold Apart; decide +kernel)).wire

end GatewayAuth.Isolation
