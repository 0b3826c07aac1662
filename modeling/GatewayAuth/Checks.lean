import GatewayAuth.Lib.Runs
import GatewayAuth.Service

/-!
The questions a run asks of the limiters.

A handler asks once, as it goes on with its body, under the scope and the principal name it has
been admitted with. What it asks is read from the request alone, and what is answered is settled
by the earlier questions of the same scope and name.
-/

namespace GatewayAuth.Checks

open GatewayAuth.Lib.Logs GatewayAuth.Lib.Runs GatewayAuth.Lib.Metering
open GatewayAuth.Classify GatewayAuth.Authz GatewayAuth.Forwarding GatewayAuth.Ratelimit
open GatewayAuth.Server GatewayAuth.Service

variable {Cell : Type} {x : Crates Cell} {g : Inner}

/-! ### What a step asks -/

/-- The principal of a handler that still waits for its body. -/
def awaiting (h : Handler) : Option Principal :=
  match h.phase with
  | .readingBody p => some p
  | _ => none

lemma awaiting_eq_some {h : Handler} {p : Principal} :
    awaiting h = some p ↔ h.phase = .readingBody p := by
  obtain ⟨parts, arrivedAt, body, phase⟩ := h
  cases phase <;> simp [awaiting]

/-- What a body is admitted as: the scope and the name under which the limiters are asked. -/
def admits (x : Crates Cell) (g : Inner) (parts : Parts) (p : Principal)
    (body : Except Unit Bytes) : Option (Scope × String) :=
  match screen x g parts p body with
  | .ok (c, _) => some (c.scope, p.name)
  | .error _ => none

/-- What is left to ask of a handler: its request, and its principal until it is asked. -/
structure Front where
  parts : Parts
  awaiting : Option Principal

def front (h : Handler) : Front := ⟨h.parts, awaiting h⟩

/-- What a signal makes a handler ask. -/
def asked (x : Crates Cell) (g : Inner) (f : Front) : Signal → Option (Scope × String)
  | .body b => f.awaiting.bind fun p => admits x g f.parts p b
  | _ => none

/-- Its body, or being dropped, is the last that a handler can be asked for. -/
def Front.after (f : Front) : Signal → Front
  | .body _ | .drop => { f with awaiting := none }
  | _ => f

/-- The limiters after a question, if there was one. -/
def consult (x : Crates Cell) (l : RateLimiters Cell) (now : ℕ) :
    Option (Scope × String) → RateLimiters Cell
  | none => l
  | some (s, name) => (l.check x.governor now s name).2

/-- The question and its answer, as they are logged. -/
def logged (x : Crates Cell) (l : RateLimiters Cell) (now : ℕ) :
    Option (Scope × String) → List Check
  | none => []
  | some (s, name) => [⟨now, s, name, (l.check x.governor now s name).1⟩]

lemma logged_key (l : RateLimiters Cell) (now : ℕ) (a : Option (Scope × String)) :
    (logged x l now a).map (fun c => (c.scope, c.name)) = a.toList := by
  cases a <;> rfl

lemma handleBody_consult (l : RateLimiters Cell) (now : ℕ) (parts : Parts) (p : Principal)
    (body : Except Unit Bytes) :
    (handleBody x g l now parts p body).limiters = consult x l now (admits x g parts p body) ∧
      ((handleBody x g l now parts p body).asked.toList.map fun a =>
        (⟨now, a.1, p.name, a.2⟩ : Check)) = logged x l now (admits x g parts p body) := by
  unfold handleBody admits
  rcases hs : screen x g parts p body with r | ⟨c, b⟩
  · exact ⟨rfl, rfl⟩
  · rcases hl : l.check x.governor now c.scope p.name with ⟨_ | _, l'⟩
    · simp [hl, consult, logged]
    · simp [hl, consult, logged]

lemma afterBody_consult (now : ℕ) (h : Handler) (p : Principal) (s : Screened Cell) :
    (afterBody x g now h p s).limiters = s.limiters ∧
      (afterBody x g now h p s).checks =
        s.asked.toList.map (fun a => (⟨now, a.1, p.name, a.2⟩ : Check)) ∧
      (afterBody x g now h p s).handler.parts = h.parts ∧
      (afterBody x g now h p s).handler.arrivedAt = h.arrivedAt ∧
      (afterBody x g now h p s).handler.body = h.body ∧
      awaiting (afterBody x g now h p s).handler = none := by
  obtain ⟨result, l, asked⟩ := s
  rcases result with r | call
  · simp [afterBody, Effect.finish, awaiting]
  · rcases hout : call.outgoing g h.parts with e | out
    · simp [afterBody, resume, hout, Effect.finish, awaiting]
    · simp [afterBody, resume, hout, Effect.quiet, awaiting]

/-- **A step asks the limiters what its signal makes the handler ask**, and nothing else. -/
lemma move_consult {l : RateLimiters Cell} {now : ℕ} {h : Handler} {s : Signal}
    {eff : Effect Cell} (hm : Move x g l now h s eff) :
    eff.limiters = consult x l now (asked x g (front h) s) ∧
      eff.checks = logged x l now (asked x g (front h) s) := by
  cases hm with
  | idle hs _ =>
    have hnone : asked x g (front h) s = none := by
      cases s with
      | body b =>
        rcases ha : awaiting h with _ | p
        · simp [asked, front, ha]
        · exact absurd (awaiting_eq_some.mp ha) (hs b p rfl)
      | _ => rfl
    rw [hnone]
    exact ⟨rfl, rfl⟩
  | drop => exact ⟨rfl, rfl⟩
  | @body p b hp =>
    obtain ⟨hl, hc, -⟩ := afterBody_consult (x := x) (g := g) now { h with body := some b } p
      (handleBody x g l now h.parts p b)
    obtain ⟨hl', hc'⟩ := handleBody_consult (x := x) (g := g) l now h.parts p b
    have hasked : asked x g (front h) (.body b) = admits x g h.parts p b := by
      simp [asked, front, awaiting, hp]
    rw [hl, hc, hl', hc', hasked]
    exact ⟨rfl, rfl⟩
  | handOver hp => exact ⟨rfl, rfl⟩
  | head hp => exact ⟨rfl, rfl⟩
  | headFailed hp => exact ⟨rfl, rfl⟩
  | bytes hp => exact ⟨rfl, rfl⟩

/-- What is left to ask after a step does not depend on the limiters. -/
lemma front_move {l : RateLimiters Cell} {now : ℕ} {h : Handler} {s : Signal}
    {eff : Effect Cell} (hm : Move x g l now h s eff) :
    front eff.handler = (front h).after s := by
  cases hm with
  | idle hs hdrop =>
    cases s with
    | body b =>
      rcases ha : awaiting h with _ | p
      · simp [Effect.quiet, Front.after, front, ha]
      · exact absurd (awaiting_eq_some.mp ha) (hs b p rfl)
    | drop => exact absurd rfl hdrop
    | _ => rfl
  | drop =>
    rcases h.kill_cases with ⟨r, hr, hk⟩ | ⟨-, hk⟩
    · simp [Effect.quiet, hk, front, awaiting, hr, Front.after]
    · simp [Effect.quiet, hk, front, awaiting, Front.after]
  | @body p b hp =>
    obtain ⟨-, -, hparts, -, -, hawaiting⟩ := afterBody_consult (x := x) (g := g) now
      { h with body := some b } p (handleBody x g l now h.parts p b)
    simp [front, hparts, hawaiting, Front.after]
  | handOver hp => simp [Effect.quiet, front, awaiting, hp, Front.after]
  | head hp => simp [Effect.quiet, front, awaiting, hp, Front.after]
  | headFailed hp => simp [Effect.finish, front, awaiting, hp, Front.after]
  | bytes hp => simp [Effect.finish, front, awaiting, hp, Front.after]

lemma arrive_consult (l : RateLimiters Cell) (now : ℕ) (parts : Parts) :
    (arrive x g l now parts).limiters = l ∧ (arrive x g l now parts).checks = [] := by
  unfold arrive
  rcases handleHead x g now parts with r | p
  · exact ⟨rfl, rfl⟩
  · exact ⟨rfl, rfl⟩

/-- The whole step's question, with the request that asks. -/
def stepAsks (x : Crates Cell) (g : Inner) (w : World Cell) (e : ℕ × Event) :
    Option (ℕ × Scope × String) :=
  if w.exited then none
  else
    match e.2 with
    | .signal id s =>
      ((w.handlers id).map front).bind fun f => (asked x g f s).map fun a => (id, a)
    | _ => none

lemma stepAsks_eq_some {w : World Cell} {e : ℕ × Event} {id : ℕ} {a : Scope × String}
    (h : stepAsks x g w e = some (id, a)) : ∃ s, e.2 = .signal id s := by
  obtain ⟨now, e⟩ := e
  unfold stepAsks at h
  split_ifs at h
  cases e with
  | signal id' s =>
    obtain ⟨f, -, hf⟩ := Option.bind_eq_some_iff.mp h
    obtain ⟨a', -, heq⟩ := Option.map_eq_some_iff.mp hf
    cases heq
    exact ⟨s, rfl⟩
  | _ => cases h

/-- **A step of the service asks at most one question**, and logs it. -/
lemma step_consult (w : World Cell) (e : ℕ × Event) :
    (step x g w e).limiters = consult x w.limiters e.1 ((stepAsks x g w e).map Prod.snd) ∧
      (step x g w e).checks = w.checks ++ (stepAsks x g w e).toList.flatMap fun a =>
        tag a.1 (logged x w.limiters e.1 (some a.2)) := by
  obtain ⟨now, e⟩ := e
  unfold step stepAsks
  by_cases hexited : w.exited = true
  · simp [hexited, consult]
  simp only [hexited]
  cases e with
  | arrive id parts =>
    obtain ⟨hl, hc⟩ := arrive_consult (x := x) (g := g) w.limiters now parts
    rcases hh : w.handlers id with _ | h
    · simp [hh, World.apply, hl, hc, consult]
    · simp [hh, consult]
  | signal id s =>
    rcases hh : w.handlers id with _ | h
    · simp [hh, consult]
    · obtain ⟨hl, hc⟩ := move_consult (advance_move x g w.limiters now h s)
      rcases ha : asked x g (front h) s with _ | a
      · simp [hh, World.apply, hl, hc, ha, consult, logged]
      · simp [hh, World.apply, hl, hc, ha, consult]
  | exit => simp [consult, World.exit]

/-! ### What is answered -/

/-- The questions of one scope and name, each with the request that asked. -/
def keyed (log : List (ℕ × Check)) (s : Scope) (name : String) : List (ℕ × Check) :=
  log.filter fun e => e.2.scope = s ∧ e.2.name = name

/-- When they were asked and what was answered. -/
def history (log : List (ℕ × Check)) (s : Scope) (name : String) : List (ℕ × Bool) :=
  (keyed log s name).map fun e => (e.2.time, e.2.allowed)

def perMinute (budgets : RateLimit) : Scope → ℕ
  | .read => budgets.readPerMinute
  | .write => budgets.writePerMinute

/-- What the budget of a scope answers at a time, after earlier questions and answers. -/
def budgetVerdict (x : Crates Cell) (budgets : RateLimit) (s : Scope) (earlier : List (ℕ × Bool))
    (now : ℕ) : Bool :=
  match quotaOf (perMinute budgets s) with
  | none => true
  | some quota => verdict (x.governor quota) (earlier.map Prod.fst) now

/-- The limiters hold, for every scope and name, the cell that the questions asked under them
leave; and every answer so far was that of the budget. -/
structure Metered (x : Crates Cell) (budgets : RateLimit) (w : World Cell) : Prop where
  quota : ∀ s, (w.limiters.limiter s).map KeyedLimiter.quota = quotaOf (perMinute budgets s)
  cell : ∀ s name k, w.limiters.limiter s = some k → k.cells name =
    after (x.governor k.quota) ((history w.checks s name).map Prod.fst)
  answered : ∀ s name earlier t a, earlier ++ [(t, a)] <+: history w.checks s name →
    a = budgetVerdict x budgets s earlier t

lemma metered_start (budgets : RateLimit) : Metered x budgets (World.start x budgets) := by
  refine ⟨fun s => ?_, fun s name k hk => ?_, fun s name earlier t a h => ?_⟩
  · cases s <;> simp [World.start, limiter_new, build, perMinute, Option.map_map, Function.comp_def]
  · rw [World.start, limiter_new] at hk
    obtain ⟨quota, -, rfl⟩ := Option.map_eq_some_iff.mp hk
    rfl
  · simp [World.start, history, keyed] at h

/-- The limiters answer as the budget does. -/
lemma check_eq_verdict {budgets : RateLimit} {w : World Cell} (h : Metered x budgets w)
    (now : ℕ) (s : Scope) (name : String) :
    (w.limiters.check x.governor now s name).1 =
      budgetVerdict x budgets s (history w.checks s name) now := by
  unfold budgetVerdict
  rw [← h.quota s]
  rcases hk : w.limiters.limiter s with _ | k
  · rw [check_unlimited hk]
    rfl
  · rw [check_limited hk, h.cell s name k hk]
    rfl

lemma history_append (log log' : List (ℕ × Check)) (s : Scope) (name : String) :
    history (log ++ log') s name = history log s name ++ history log' s name := by
  simp [history, keyed]

lemma history_singleton (id : ℕ) (c : Check) (s : Scope) (name : String) :
    history [(id, c)] s name =
      if c.scope = s ∧ c.name = name then [(c.time, c.allowed)] else [] := by
  unfold history keyed
  by_cases h : c.scope = s ∧ c.name = name <;> simp [h]

lemma cell_asked {budgets : RateLimit} {w : World Cell} (h : Metered x budgets w) (now id : ℕ)
    (s : Scope) (name : String) (s' : Scope) (name' : String) (k : KeyedLimiter Cell)
    (hk : (w.limiters.check x.governor now s name).2.limiter s' = some k) :
    k.cells name' = after (x.governor k.quota) ((history (w.checks ++
      [(id, ⟨now, s, name, (w.limiters.check x.governor now s name).1⟩)]) s' name').map
        Prod.fst) := by
  rw [history_append, history_singleton, List.map_append]
  by_cases hs : s' = s
  · subst hs
    rcases hk₀ : w.limiters.limiter s' with _ | k₀
    · rw [check_unlimited hk₀, hk₀] at hk
      cases hk
    · rw [check_limited hk₀, limiter_withLimiter] at hk
      cases hk
      by_cases hname : name' = name
      · subst hname
        have hcell := h.cell s' name' k₀ hk₀
        simp only [and_self, if_true, List.map_cons, List.map_nil, after_snoc, checkKey_self]
        rw [hcell]
      · rw [if_neg (fun hand => hname hand.2.symm)]
        simpa [checkKey_of_ne _ _ _ hname] using h.cell s' name' k₀ hk₀
  · have hsame : w.limiters.limiter s' = some k := by
      rcases hk₀ : w.limiters.limiter s with _ | k₀
      · rwa [check_unlimited hk₀] at hk
      · rwa [check_limited hk₀, limiter_withLimiter_of_ne _ _ hs] at hk
    rw [if_neg (fun hand => hs hand.1.symm)]
    simpa using h.cell s' name' k hsame

/-- **Every step keeps the limiters metered.** -/
lemma metered_step {budgets : RateLimit} (w : World Cell) (e : ℕ × Event)
    (h : Metered x budgets w) : Metered x budgets (step x g w e) := by
  obtain ⟨hl, hc⟩ := step_consult (x := x) (g := g) w e
  rcases hq : stepAsks x g w e with _ | ⟨id, s, name⟩
  · rw [hq] at hl hc
    simp only [Option.map_none, consult] at hl
    simp only [Option.toList_none, List.flatMap_nil, List.append_nil] at hc
    exact ⟨hl ▸ h.quota, by rw [hl, hc]; exact h.cell, by rw [hc]; exact h.answered⟩
  · rw [hq] at hl hc
    simp only [Option.map_some, consult] at hl
    have hnew : (step x g w e).checks = w.checks ++
        [(id, ⟨e.1, s, name, (w.limiters.check x.governor e.1 s name).1⟩)] := by
      simpa [logged, tag] using hc
    refine ⟨fun s' => ?_, fun s' name' k hk => ?_, fun s' name' earlier t a hpre => ?_⟩
    · rw [hl, check_quota]
      exact h.quota s'
    · rw [hl] at hk
      rw [hnew]
      exact cell_asked h e.1 id s name s' name' k hk
    · rw [hnew, history_append, history_singleton] at hpre
      split_ifs at hpre with hkey
      · obtain ⟨rfl, rfl⟩ := hkey
        rcases List.prefix_concat_iff.mp hpre with heq | hpre
        · obtain ⟨rfl, hlast⟩ := List.append_inj' heq rfl
          cases hlast
          exact check_eq_verdict h e.1 s name
        · exact h.answered s name earlier t a hpre
      · rw [List.append_nil] at hpre
        exact h.answered s' name' earlier t a hpre

lemma metered_run (g : Inner) (budgets : RateLimit) (es : List (ℕ × Event)) :
    Metered x budgets (run (step x g) (World.start x budgets) es) :=
  run_inv metered_step (metered_start budgets) es

/-! ### Two runs, with and without a request -/

def nextFront (x : Crates Cell) (g : Inner) (exited : Bool) (f : Option Front) (id : ℕ)
    (e : ℕ × Event) : Option Front :=
  if exited then f
  else
    match e.2 with
    | .arrive id' parts =>
      if id' = id ∧ f.isNone then some ⟨parts, (handleHead x g e.1 parts).toOption⟩ else f
    | .signal id' s => if id' = id then f.map fun f => f.after s else f
    | .exit => f.map fun f => f.after .drop

/-- **What is left to ask of a request depends on its own events alone.** -/
lemma front_step (w : World Cell) (e : ℕ × Event) (id : ℕ) :
    ((step x g w e).handlers id).map front =
      nextFront x g w.exited ((w.handlers id).map front) id e := by
  obtain ⟨now, e⟩ := e
  unfold step nextFront
  by_cases hexited : w.exited = true
  · simp [hexited]
  simp only [hexited]
  cases e with
  | arrive id' parts =>
    by_cases hid : id' = id
    · subst hid
      rcases hh : w.handlers id' with _ | h
      · rcases hhead : handleHead x g now parts with r | p
        · simp [World.apply, arrive, hhead, hh, front, awaiting, Effect.finish, Except.toOption]
        · simp [World.apply, arrive, hhead, hh, front, awaiting, Effect.quiet, Except.toOption]
      · simp [hh]
    · rcases hh : w.handlers id' with _ | h
      · simp [hh, World.apply, hid, Ne.symm hid]
      · simp [hh, hid]
  | signal id' s =>
    by_cases hid : id' = id
    · subst hid
      rcases hh : w.handlers id' with _ | h
      · simp [hh]
      · simp [World.apply, hh, front_move (advance_move x g w.limiters now h s)]
    · rcases hh : w.handlers id' with _ | h
      · simp [hh, hid]
      · simp [hh, World.apply, hid, Ne.symm hid]
  | exit =>
    rcases hh : w.handlers id with _ | h
    · simp [World.exit, hh]
    · have hkill := front_move (advance_move x g w.limiters now h .drop)
      simpa [World.exit, hh, advance, Effect.quiet] using hkill

lemma exited_step (w : World Cell) (e : ℕ × Event) :
    (step x g w e).exited = (w.exited || match e.2 with | .exit => true | _ => false) := by
  obtain ⟨now, e⟩ := e
  unfold step
  by_cases hexited : w.exited = true
  · simp [hexited]
  simp only [hexited]
  cases e with
  | arrive id parts => rcases hh : w.handlers id with _ | h <;> simp [hh, World.apply, hexited]
  | signal id s => rcases hh : w.handlers id with _ | h <;> simp [hh, World.apply, hexited]
  | exit => simp [World.exit]

end GatewayAuth.Checks
