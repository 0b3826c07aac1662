import GatewayAuth.Checks
import GatewayAuth.Mediation

/-!
Rate budgets: whom a budget is spent by, and what a request costs.

One cell is taken for each request that is admitted under a scope and a name, and nothing else
bears on the answer. A batch is one request.
-/

namespace GatewayAuth.Budgets

open GatewayAuth.Lib.Logs GatewayAuth.Lib.Runs GatewayAuth.Lib.Metering
open GatewayAuth.JsonBody GatewayAuth.Classify GatewayAuth.Authz GatewayAuth.Forwarding
open GatewayAuth.Ratelimit GatewayAuth.Server GatewayAuth.Mediation GatewayAuth.Service
open GatewayAuth.Checks

variable {Cell : Type} {x : Crates Cell} {g : Inner}

/-! ### Who has asked -/

/-- What a request was admitted as: it has passed authentication, the body limit,
classification and authorization. -/
def admitted (x : Crates Cell) (g : Inner) (h : Handler) : Option (Scope × String) :=
  match handleHead x g h.arrivedAt h.parts, h.body with
  | .ok p, some b => admits x g h.parts p b
  | _, _ => none

/-- The gateway's own answers before it asks the limiters. -/
def refusals : List ℕ := [400, 401, 403, 413]

/-- The questions of a request are those it was admitted for, and a request refused before
asking was not admitted. -/
structure AskedFor (x : Crates Cell) (g : Inner) (h : Handler) (checks : List Check) : Prop where
  waiting : ∀ p, h.phase = .readingBody p →
    h.body = none ∧ handleHead x g h.arrivedAt h.parts = .ok p
  asked : checks.map (fun c => (c.scope, c.name)) = (admitted x g h).toList
  refused : ∀ status message wwwAuthenticate,
    h.phase = .responded (.error status message wwwAuthenticate) → status ∈ refusals →
      admitted x g h = none

def Asked (x : Crates Cell) (g : Inner) (v : View) : Prop :=
  match v.handler with
  | none => v.checks = []
  | some h => AskedFor x g h v.checks

lemma asked_arrive {v : View} (hv : v.handler = none) (h : Asked x g v) (l : RateLimiters Cell)
    (now : ℕ) (parts : Parts) : Asked x g (v.extend (arrive x g l now parts)) := by
  unfold Asked at h
  rw [hv] at h
  obtain ⟨-, hc⟩ := arrive_consult (x := x) (g := g) l now parts
  unfold Asked
  simp only [View.extend, hc, List.append_nil, h]
  unfold arrive
  rcases hhead : handleHead x g now parts with r | p
  · exact ⟨by simp [Effect.finish], by simp [admitted, hhead, Effect.finish],
      by simp [admitted, hhead, Effect.finish]⟩
  · refine ⟨fun p' hp' => ?_, by simp [admitted, hhead, Effect.quiet],
      by simp [admitted, hhead, Effect.quiet]⟩
    simp only [Effect.quiet, Phase.readingBody.injEq] at hp'
    subst hp'
    exact ⟨rfl, hhead⟩

/-- A refusal after the question is one of the limiters, or the upstream's. -/
lemma afterBody_refused {now : ℕ} {h : Handler} {parts : Parts} {p : Principal}
    {l : RateLimiters Cell} {b : Except Unit Bytes} {status : ℕ} {message : String}
    {wwwAuthenticate : Bool}
    (hphase : (afterBody x g now h p (handleBody x g l now parts p b)).handler.phase =
      .responded (.error status message wwwAuthenticate)) (hs : status ∈ refusals) :
    admits x g parts p b = none := by
  unfold admits
  rcases hscreen : screen x g parts p b with r | ⟨c, b'⟩
  · rfl
  · exfalso
    rcases hl : l.check x.governor now c.scope p.name with ⟨_ | _, l'⟩
    · simp only [handleBody, hscreen, hl, afterBody, Effect.finish, Refusal.exit,
        Phase.responded.injEq, Response.error.injEq] at hphase
      obtain ⟨rfl, -⟩ := hphase
      simp [refusals] at hs
    · rcases hout : (Call.new x now p c b').outgoing g h.parts with e | out
      · simp only [handleBody, hscreen, hl, afterBody, resume, hout, Effect.finish, handleResult,
          Phase.responded.injEq, Response.error.injEq] at hphase
        obtain ⟨rfl, -⟩ := hphase
        cases e <;> simp [refusals, errorStatus] at hs
      · simp [handleBody, hscreen, hl, afterBody, resume, hout, Effect.quiet] at hphase

lemma handleResult_not_refused {now : ℕ} {parts : Parts} {call : Call}
    {result : Except ProxyError ProxyResponse} {status : ℕ} {message : String}
    {wwwAuthenticate : Bool}
    (h : (handleResult x g now parts call result).response =
      .error status message wwwAuthenticate) : status ∉ refusals := by
  rcases result with e | upstream
  · simp only [handleResult, Response.error.injEq] at h
    obtain ⟨rfl, -⟩ := h
    cases e <;> simp [refusals, errorStatus]
  · cases h

lemma asked_move {v : View} {h : Handler} (hv : v.handler = some h) (ha : Asked x g v)
    {l : RateLimiters Cell} {now : ℕ} {s : Signal} {eff : Effect Cell}
    (hm : Move x g l now h s eff) : Asked x g (v.extend eff) := by
  have hfor : AskedFor x g h v.checks := by
    unfold Asked at ha
    rwa [hv] at ha
  cases hm with
  | idle _ _ => rwa [View.extend_quiet hv]
  | drop =>
    rcases h.kill_cases with ⟨r, -, hk⟩ | ⟨-, hk⟩
    · rw [hk]
      rwa [View.extend_quiet hv]
    · rw [hk]
      simp only [Asked, View.extend, Effect.quiet, List.append_nil]
      exact ⟨by simp, hfor.asked, by simp⟩
  | @body p b hp =>
    obtain ⟨hbody, hhead⟩ := hfor.waiting p hp
    obtain ⟨-, hc, hparts, harrived, hbody', hawaiting⟩ := afterBody_consult (x := x) (g := g) now
      { h with body := some b } p (handleBody x g l now h.parts p b)
    obtain ⟨-, hlogged⟩ := handleBody_consult (x := x) (g := g) l now h.parts p b
    have hnone : v.checks = [] := by
      have := hfor.asked
      simpa [admitted, hhead, hbody] using this
    have hadmitted : ∀ h' : Handler, h'.arrivedAt = h.arrivedAt → h'.parts = h.parts →
        h'.body = some b → admitted x g h' = admits x g h.parts p b := by
      intro h' ha hp hb
      simp only [admitted, ha, hp, hb, hhead]
    simp only [Asked, View.extend, hnone, List.nil_append, hc]
    rw [hlogged]
    refine ⟨fun p' hp' => ?_, ?_, fun status m a hphase hs => ?_⟩
    · have := awaiting_eq_some.mpr hp'
      rw [hawaiting] at this
      cases this
    · rw [logged_key, hadmitted _ harrived hparts hbody']
    · rw [hadmitted _ harrived hparts hbody']
      exact afterBody_refused hphase hs
  | handOver hp =>
    simp only [Asked, View.extend, Effect.quiet, List.append_nil]
    exact ⟨by simp, hfor.asked, by simp⟩
  | head hp =>
    simp only [Asked, View.extend, Effect.quiet, List.append_nil]
    exact ⟨by simp, hfor.asked, by simp⟩
  | headFailed hp =>
    simp only [Asked, View.extend, Effect.finish, List.append_nil]
    refine ⟨by simp, hfor.asked, fun status m a hphase hs => ?_⟩
    exact absurd hs (handleResult_not_refused (Phase.responded.inj hphase))
  | bytes hp =>
    simp only [Asked, View.extend, Effect.finish, List.append_nil]
    refine ⟨by simp, hfor.asked, fun status m a hphase hs => ?_⟩
    exact absurd hs (handleResult_not_refused (Phase.responded.inj hphase))

lemma asked_run (x : Crates Cell) (g : Inner) (budgets : RateLimit) (es : List (ℕ × Event))
    (id : ℕ) : Asked x g ((run (step x g) (World.start x budgets) es).view id) := by
  refine run_inv (I := fun w : World Cell => Asked x g (w.view id)) (fun w e hw => ?_) ?_ es
  · exact view_inv (fun _ l now parts hv ha => asked_arrive hv ha l now parts)
      (fun _ _ _ _ _ _ hv hm ha => asked_move hv ha hm) id w e hw
  · rw [view_start]
    rfl

/-! ### Leaving a request out -/

def Event.isAbout (id : ℕ) : Event → Bool
  | .arrive id' _ | .signal id' _ => id' == id
  | .exit => false

/-- Two runs are alike for a scope and a name, the request `i` apart: the same is left to ask
of every other request, and the same has been asked and answered. -/
structure Alike (i : ℕ) (s : Scope) (name : String) (w w' : World Cell) : Prop where
  exited : w.exited = w'.exited
  front : ∀ j, j ≠ i → (w.handlers j).map front = (w'.handlers j).map front
  keyed : keyed w.checks s name = keyed w'.checks s name

/-- What a step adds to the questions of a scope and a name. -/
def added (x : Crates Cell) (budgets : RateLimit) (s : Scope) (name : String)
    (earlier : List (ℕ × Check)) (now : ℕ) : Option (ℕ × Scope × String) → List (ℕ × Check)
  | some (id, a) =>
    if a = (s, name) then
      [(id, ⟨now, s, name,
        budgetVerdict x budgets s (earlier.map fun e => (e.2.time, e.2.allowed)) now⟩)]
    else []
  | none => []

lemma keyed_step {budgets : RateLimit} {w : World Cell} (hm : Metered x budgets w)
    (e : ℕ × Event) (s : Scope) (name : String) :
    keyed (step x g w e).checks s name = keyed w.checks s name ++
      added x budgets s name (keyed w.checks s name) e.1 (stepAsks x g w e) := by
  obtain ⟨-, hc⟩ := step_consult (x := x) (g := g) w e
  rw [hc]
  rcases hq : stepAsks x g w e with _ | ⟨id, s', name'⟩
  · simp [added]
  · by_cases ha : (s', name') = (s, name)
    · cases ha
      have hverdict := check_eq_verdict hm e.1 s name
      simp [added, keyed, logged, tag, hverdict, history]
    · have hne : ¬(s' = s ∧ name' = name) := fun h => ha (by rw [h.1, h.2])
      simp [added, keyed, logged, tag, ha, hne]

/-- An event of another request, or the end of the process, keeps two runs alike. -/
lemma alike_keep {budgets : RateLimit} {w w' : World Cell} (hm : Metered x budgets w)
    (hm' : Metered x budgets w') {i : ℕ} {s : Scope} {name : String} {e : ℕ × Event}
    (he : Event.isAbout i e.2 = false) (h : Alike i s name w w') :
    Alike i s name (step x g w e) (step x g w' e) := by
  have hasks : stepAsks x g w e = stepAsks x g w' e := by
    obtain ⟨now, e⟩ := e
    cases e with
    | signal id s =>
      have hid : id ≠ i := by simpa [Event.isAbout] using he
      simp only [stepAsks, h.exited, h.front id hid]
    | _ => simp only [stepAsks, h.exited]
  refine ⟨?_, fun j hj => ?_, ?_⟩
  · rw [exited_step, exited_step, h.exited]
  · rw [front_step, front_step, h.exited, h.front j hj]
  · rw [keyed_step hm, keyed_step hm', h.keyed, hasks]

/-- An event of the request left out keeps two runs alike, if it asks under another key. -/
lemma alike_drop {budgets : RateLimit} {w w' : World Cell} (hm : Metered x budgets w) {i : ℕ}
    {s : Scope} {name : String} {e : ℕ × Event} (he : Event.isAbout i e.2 = true)
    (hother : ∀ c, (i, c) ∈ (step x g w e).checks → ¬(c.scope = s ∧ c.name = name))
    (h : Alike i s name w w') : Alike i s name (step x g w e) w' := by
  refine ⟨?_, fun j hj => ?_, ?_⟩
  · rw [exited_step, ← h.exited]
    obtain ⟨now, e⟩ := e
    cases e with
    | exit => cases he
    | _ => simp
  · rw [front_step, ← h.front j hj]
    obtain ⟨now, e⟩ := e
    cases e with
    | exit => cases he
    | arrive id parts =>
      have hid : id = i := by simpa [Event.isAbout] using he
      simp [nextFront, hid, Ne.symm hj]
    | signal id sig =>
      have hid : id = i := by simpa [Event.isAbout] using he
      simp [nextFront, hid, Ne.symm hj]
  · rw [keyed_step hm, ← h.keyed]
    obtain ⟨-, hc⟩ := step_consult (x := x) (g := g) w e
    rcases hq : stepAsks x g w e with _ | ⟨id, a⟩
    · simp [added]
    · have hid : id = i := by
        obtain ⟨sig, hsig⟩ := stepAsks_eq_some hq
        simpa [hsig, Event.isAbout] using he
      subst hid
      have hne : a ≠ (s, name) := by
        rintro rfl
        rw [hq] at hc
        refine hother ⟨e.1, s, name, (w.limiters.check x.governor e.1 s name).1⟩ ?_ ⟨rfl, rfl⟩
        rw [hc]
        simp [logged, tag]
      simp [added, hne]

/-- The run without the events of a request. -/
def without (i : ℕ) (es : List (ℕ × Event)) : List (ℕ × Event) :=
  es.filter fun e => !Event.isAbout i e.2

/-- **A request that does not ask under a key changes nothing under it.** -/
lemma keyed_without (x : Crates Cell) (g : Inner) (budgets : RateLimit) (es : List (ℕ × Event))
    (i : ℕ) (s : Scope) (name : String)
    (hother : ∀ c, (i, c) ∈ (run (step x g) (World.start x budgets) es).checks →
      ¬(c.scope = s ∧ c.name = name)) :
    keyed (run (step x g) (World.start x budgets) (without i es)).checks s name =
      keyed (run (step x g) (World.start x budgets) es).checks s name := by
  have hgrow : ∀ (w : World Cell) e c, (i, c) ∈ w.checks → (i, c) ∈ (step x g w e).checks := by
    intro w e c hc
    rw [(step_consult w e).2]
    exact List.mem_append_left _ hc
  -- Alike as long as the request has not asked under the key; it has not by the end.
  let R : World Cell → World Cell → Prop := fun w w' =>
    Metered x budgets w ∧ Metered x budgets w' ∧
      ((∀ c, (i, c) ∈ w.checks → ¬(c.scope = s ∧ c.name = name)) → Alike i s name w w')
  have hkeep : ∀ w w' e, (!Event.isAbout i e.2) = true → R w w' →
      R (step x g w e) (step x g w' e) := by
    rintro w w' e he ⟨hm, hm', halike⟩
    refine ⟨metered_step w e hm, metered_step w' e hm', fun hc => ?_⟩
    exact alike_keep hm hm' (by simpa using he) (halike fun c hmem => hc c (hgrow w e c hmem))
  have hdrop : ∀ w w' e, (!Event.isAbout i e.2) = false → R w w' → R (step x g w e) w' := by
    rintro w w' e he ⟨hm, hm', halike⟩
    refine ⟨metered_step w e hm, hm', fun hc => ?_⟩
    exact alike_drop hm (by simpa using he) hc (halike fun c hmem => hc c (hgrow w e c hmem))
  have hstart : R (World.start x budgets) (World.start x budgets) :=
    ⟨metered_start budgets, metered_start budgets, fun _ => ⟨rfl, fun _ _ => rfl, rfl⟩⟩
  have hrun := run_filter hkeep hdrop hstart es
  exact (hrun.2.2 hother).keyed.symm

/-- The request has ended in a refusal that comes before the limiters are asked. -/
def Refused (w : World Cell) (i : ℕ) : Prop :=
  ∃ h status message wwwAuthenticate, w.handlers i = some h ∧
    h.phase = .responded (.error status message wwwAuthenticate) ∧ status ∈ refusals

/-- **Rate budgets do not interfere.** What a scope and a name are answered is one function of
the earlier questions under them, for all runs; a request has asked what it was admitted for, if
it was; and a request that was refused or admitted under another key may as well not have been,
for every question and answer under that key. -/
theorem budgets_independent (x : Crates Cell) (g : Inner) (budgets : RateLimit) :
    ∃ answer : Scope → List (ℕ × Bool) → ℕ → Bool, ∀ es : List (ℕ × Event),
      (∀ s name earlier t a, earlier ++ [(t, a)] <+:
          history (run (step x g) (World.start x budgets) es).checks s name →
        a = answer s earlier t) ∧
      (∀ id, (entries (run (step x g) (World.start x budgets) es).checks id).map
          (fun c => (c.scope, c.name)) =
        (((run (step x g) (World.start x budgets) es).handlers id).bind (admitted x g)).toList) ∧
      ∀ i s name, Refused (run (step x g) (World.start x budgets) es) i ∨
          (∀ h a, (run (step x g) (World.start x budgets) es).handlers i = some h →
            admitted x g h = some a → a ≠ (s, name)) →
        keyed (run (step x g) (World.start x budgets) (without i es)).checks s name =
          keyed (run (step x g) (World.start x budgets) es).checks s name := by
  refine ⟨budgetVerdict x budgets, fun es => ?_⟩
  have hasked := asked_run x g budgets es
  have hkeys : ∀ id, (entries (run (step x g) (World.start x budgets) es).checks id).map
      (fun c => (c.scope, c.name)) =
        (((run (step x g) (World.start x budgets) es).handlers id).bind
          (admitted x g)).toList := by
    intro id
    have h := hasked id
    unfold Asked World.view at h
    rcases hh : (run (step x g) (World.start x budgets) es).handlers id with _ | hd
    · simp only [hh] at h
      simp [h]
    · simp only [hh] at h
      exact h.asked
  refine ⟨(metered_run g budgets es).answered, hkeys, fun i s name hi => ?_⟩
  refine keyed_without x g budgets es i s name fun c hc hkey => ?_
  have hmem : (s, name) ∈ (((run (step x g) (World.start x budgets) es).handlers i).bind
      (admitted x g)).toList := by
    rw [← hkeys i, ← hkey.1, ← hkey.2]
    exact List.mem_map_of_mem (mem_entries.mpr hc)
  obtain ⟨h, hh, ha⟩ := Option.bind_eq_some_iff.mp (Option.mem_toList.mp hmem)
  rcases hi with ⟨h', status, message, www, hh', hphase, hs⟩ | hother
  · rw [hh] at hh'
    cases hh'
    have hfor := hasked i
    unfold Asked World.view at hfor
    simp only [hh] at hfor
    rw [hfor.refused status message www hphase hs] at ha
    cases ha
  · exact hother h (s, name) hh ha rfl

/-! ### What passes at one instant -/

lemma step_times (w : World Cell) (e : ℕ × Event) : ∃ new,
    (step x g w e).checks = w.checks ++ new ∧ (new.map fun c => c.2.time).Sublist [e.1] := by
  obtain ⟨-, hc⟩ := step_consult (x := x) (g := g) w e
  refine ⟨_, hc, ?_⟩
  rcases stepAsks x g w e with _ | ⟨id, s, name⟩
  · simp
  · simp [tag, logged]

/-- The limiters are asked in the order of time. -/
lemma run_times (w : World Cell) (es : List (ℕ × Event)) : ∃ new,
    (run (step x g) w es).checks = w.checks ++ new ∧
      (new.map fun c => c.2.time).Sublist (es.map Prod.fst) := by
  induction es generalizing w with
  | nil => exact ⟨[], by simp, by simp⟩
  | cons e es ih =>
    obtain ⟨new, hnew, hsub⟩ := step_times (x := x) (g := g) w e
    obtain ⟨new', hnew', hsub'⟩ := ih (step x g w e)
    refine ⟨new ++ new', by rw [run_cons, hnew', hnew, List.append_assoc], ?_⟩
    rw [List.map_append, List.map_cons]
    exact hsub.append hsub'

lemma history_times (s : Scope) (name : String) {budgets : RateLimit} {es : List (ℕ × Event)}
    (hes : (es.map Prod.fst).Pairwise (· ≤ ·)) :
    ((history (run (step x g) (World.start x budgets) es).checks s name).map
      Prod.fst).Pairwise (· ≤ ·) := by
  obtain ⟨new, hnew, hsub⟩ := run_times (x := x) (g := g) (World.start x budgets) es
  have hchecks : (run (step x g) (World.start x budgets) es).checks = new := by
    simpa [World.start] using hnew
  have hkeyed : ((history new s name).map Prod.fst) = (keyed new s name).map fun c => c.2.time := by
    simp [history, Function.comp_def]
  rw [hchecks, hkeyed]
  exact (hes.sublist hsub).sublist ((List.filter_sublist).map _)

/-- The limiter crate lets at most `m` checks of a key pass at one instant, under the quota of this
budget. -/
def AtOnce (governor : Governor Cell) (perMinute m : ℕ) : Prop :=
  ∀ quota, quotaOf perMinute = some quota → Bounded (governor quota) m

/-- **No more writes are let through at one instant than the limiter crate passes at once**, of
each principal name, in every run in which time does not go back. -/
lemma writes_passed_le {budgets : RateLimit} (hn : 1 ≤ budgets.writePerMinute) {m : ℕ}
    (hgov : AtOnce x.governor budgets.writePerMinute m) {es : List (ℕ × Event)}
    (hes : (es.map Prod.fst).Pairwise (· ≤ ·)) (name : String) (t : ℕ) :
    passes (history (run (step x g) (World.start x budgets) es).checks .write name) t ≤ m := by
  have hquota : quotaOf (perMinute budgets .write) =
      some ⟨budgets.writePerMinute, 60000000000 / budgets.writePerMinute⟩ := by
    rw [quotaOf, if_neg (by simp only [perMinute]; omega)]
    rfl
  have hanswers : Answers (x.governor ⟨budgets.writePerMinute,
      60000000000 / budgets.writePerMinute⟩)
      (history (run (step x g) (World.start x budgets) es).checks .write name) := by
    intro earlier t a hpre
    have h := (metered_run g budgets es).answered .write name earlier t a hpre
    rwa [budgetVerdict, hquota] at h
  exact passes_le (hgov _ hquota) hanswers (history_times .write name hes) t

/-! ### A batch and its parts -/

lemma handleBody_limiters {l : RateLimiters Cell} {now : ℕ} {parts : Parts} {p : Principal}
    {body : Except Unit Bytes} {c : Classification} {b : Bytes}
    (hs : screen x g parts p body = .ok (c, b)) :
    (handleBody x g l now parts p body).limiters =
      (l.check x.governor now c.scope p.name).2 := by
  rw [(handleBody_consult (x := x) (g := g) l now parts p body).1]
  simp [consult, admits, hs]

/-- **A batch costs what one of its mutations costs.** If an accepted batch is let through and
forwarded, each of its elements is accepted on its own; and one with a mutation in it, sent alone
at the same instant, is let through too, and leaves the limiters as the batch leaves them. And in
every run in which time does not go back, no more write requests are let through at one instant,
of each principal name, than the limiter crate passes at once under the budget. -/
theorem write_requests_bounded (x : Crates Cell) (g : Inner) (budgets : RateLimit)
    (hn : 1 ≤ budgets.writePerMinute) (m : ℕ)
    (hgov : AtOnce x.governor budgets.writePerMinute m) :
    (∀ (l : RateLimiters Cell) (now : ℕ) (parts : Parts) (p : Principal) (batch : Bytes) (v : Json)
      (cb : Classification) (call : Call), parts.method ≠ .get →
      (route parts.pathAndQuery).1 ≠ .graphNodeAdmin → x.readers.fromSlice batch = .ok v →
      classify x.readers batch = .ok cb →
      (handleBody x g l now parts p (.ok batch)).result = .ok call →
      ∀ e ∈ elements v, ∀ b, x.readers.fromSlice b = .ok e → b.length ≤ g.bodyLimit →
        ∃ c, classify x.readers b = .ok c ∧ (c.scope = .write →
          (∃ call', (handleBody x g l now parts p (.ok b)).result = .ok call') ∧
            (handleBody x g l now parts p (.ok b)).limiters =
              (handleBody x g l now parts p (.ok batch)).limiters)) ∧
    ∀ es : List (ℕ × Event), (es.map Prod.fst).Pairwise (· ≤ ·) → ∀ name t,
      passes (history (run (step x g) (World.start x budgets) es).checks .write name) t ≤ m := by
  refine ⟨?_, fun es hes name t => writes_passed_le hn hgov hes name t⟩
  intro l now parts p batch v cb call hmethod hroute hv hcb hcall e he b hb hfits
  obtain ⟨c, hc, hauthorized, hscope⟩ := classify_element p g.policy hv hcb he hb
  obtain ⟨c', b', hscreen, hpass, -⟩ := handleBody_ok.mp hcall
  obtain ⟨-, hauth, rfl, -⟩ := (screen_classified hmethod hroute hcb).mp hscreen
  refine ⟨c, hc, fun hwrite => ?_⟩
  have hscreen' : screen x g parts p (.ok b) = .ok (c, b) :=
    (screen_classified hmethod hroute hc).mpr ⟨hfits, hauthorized hauth, rfl, rfl⟩
  have hsame : c'.scope = c.scope := by rw [hscope hwrite, hwrite]
  rw [hsame] at hpass
  refine ⟨⟨_, handleBody_ok.mpr ⟨c, b, hscreen', hpass, rfl⟩⟩, ?_⟩
  rw [handleBody_limiters hscreen', handleBody_limiters hscreen, hsame]

/-- The generic cell rate algorithm passes the burst of the quota at once, and one more of a key
that it knows. -/
lemma atOnce_gcra {n : ℕ} (hn : 1 ≤ n) (hn' : n < 2 ^ 32) :
    AtOnce exampleCrates.governor n (n + 1) := by
  intro quota hquota
  rw [quotaOf, if_neg (by omega)] at hquota
  cases hquota
  have hpos : 0 < 60000000000 / n := Nat.div_pos (by omega) hn
  exact gcra_bounded hpos hn

/-- The limiters under a budget of one write. -/
def oneWrite : RateLimiters ℕ := .new exampleCrates.governor 600 1

/-- A batch of two mutations passes a budget of one write; of the same mutations one after the
other, only the first does. -/
theorem batch_outruns_budget :
    (∃ call, (handleBody exampleCrates (exampleGateway true) oneWrite 0
        (exampleParts .post "/" "write-token") operator
        (.ok (ascii (batchText [setRule, setRule])))).result = .ok call ∧
      (call.classification.operations.map OperationInfo.kind) = [.mutation, .mutation]) ∧
    (∃ call, (handleBody exampleCrates (exampleGateway true) oneWrite 0
        (exampleParts .post "/" "write-token") operator
        (.ok (ascii (requestText setRule)))).result = .ok call) ∧
    ∃ c, (handleBody exampleCrates (exampleGateway true)
        (handleBody exampleCrates (exampleGateway true) oneWrite 0
          (exampleParts .post "/" "write-token") operator
          (.ok (ascii (requestText setRule)))).limiters 0
        (exampleParts .post "/" "write-token") operator
        (.ok (ascii (requestText setRule)))).result = .error (.rateLimited operator c) :=
  ⟨⟨_, rfl, rfl⟩, ⟨_, rfl⟩, _, rfl⟩

theorem write_requests_bounded_example :
    (∃ c, classify exampleReaders (ascii (requestText setRule)) = .ok c ∧ (c.scope = .write →
      (∃ call', (handleBody exampleCrates (exampleGateway true) oneWrite 0
          (exampleParts .post "/" "write-token") operator
          (.ok (ascii (requestText setRule)))).result = .ok call') ∧
        (handleBody exampleCrates (exampleGateway true) oneWrite 0
          (exampleParts .post "/" "write-token") operator
          (.ok (ascii (requestText setRule)))).limiters =
        (handleBody exampleCrates (exampleGateway true) oneWrite 0
          (exampleParts .post "/" "write-token") operator
          (.ok (ascii (batchText [setRule, setRule])))).limiters)) ∧
      passes (history (run (step exampleCrates (exampleGateway true))
        (World.start exampleCrates ⟨1, 600⟩)
        [(0, .arrive 0 (exampleParts .post "/" "write-token")),
          (0, .signal 0 (.body (.ok (ascii (batchText [setRule, setRule])))))]).checks
        .write "operator") 0 ≤ 2 := by
  obtain ⟨hbatch, hruns⟩ := write_requests_bounded exampleCrates (exampleGateway true) ⟨1, 600⟩
    (by decide) 2 (atOnce_gcra le_rfl (by decide))
  refine ⟨hbatch oneWrite 0 (exampleParts .post "/" "write-token") operator
    (ascii (batchText [setRule, setRule])) (batchJson [setRule, setRule]) _ _ (by decide)
    (by decide) rfl rfl rfl (requestJson setRule) ?_ (ascii (requestText setRule)) rfl
    (by decide), hruns _ (by decide) "operator" 0⟩
  rw [elements_batchJson]
  exact List.mem_cons_self

end GatewayAuth.Budgets
