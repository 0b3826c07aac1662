import GatewayAuth.Lib.Fairness
import GatewayAuth.Wire

/-!
Progress: no request is left without an answer.

A handler waits three times, and nothing but the environment can keep it waiting: no other
request, no refusal of its own and no order of events leads it into an await that what it waits
for does not end. So in an endless run in which the handler is not dropped and does not wait for
ever for what never comes, its request is answered.
-/

namespace GatewayAuth.Progress

open GatewayAuth.Lib.Fairness
open GatewayAuth.Authz GatewayAuth.Ratelimit GatewayAuth.Server
open GatewayAuth.Service GatewayAuth.Wire

/-! ### The awaits of a handler -/

/-- What ends an await. A call can fail before the upstream has been handed the request. -/
def awaits : Phase → Signal → Bool
  | .readingBody _, .body _ => true
  | .sending _ _ false, .handOver => true
  | .sending _ _ true, .head (.ok _) => true
  | .sending _ _ _, .head (.error _) => true
  | .buffering _ _ _, .bytes _ => true
  | _, _ => false

/-- How far a handler is from its end. -/
def rank : Phase → ℕ
  | .readingBody _ => 4
  | .sending _ _ false => 3
  | .sending _ _ true => 2
  | .buffering _ _ _ => 1
  | .responded _ => 0
  | .dropped => 0

variable {Cell : Type} {x : Crates Cell} {g : Inner}

/-- With its body, a handler goes on to send or has ended. -/
lemma afterBody_phase (now : ℕ) (h : Handler) (p : Principal) (s : Screened Cell) :
    (∃ call out, (afterBody x g now h p s).handler.phase = .sending call out false) ∨
      ∃ r, (afterBody x g now h p s).handler.phase = .responded r := by
  obtain ⟨result, l, asked⟩ := s
  cases result with
  | error r => exact .inr ⟨_, rfl⟩
  | ok call =>
    cases hout : call.outgoing g h.parts with
    | error e => exact .inr ⟨_, by simp [afterBody, resume, hout, Effect.finish]; rfl⟩
    | ok out => exact .inl ⟨call, out, by simp [afterBody, resume, hout, Effect.quiet]⟩

/-- **One step.** A handler that is not dropped stays where it is, or gets closer to its end. -/
lemma advance_forward (l : RateLimiters Cell) (now : ℕ) (h : Handler) {s : Signal}
    (hs : s ≠ .drop) :
    (advance x g l now h s).handler = h ∨
      (advance x g l now h s).handler.phase ≠ .dropped ∧
        rank (advance x g l now h s).handler.phase < rank h.phase := by
  have hmove := advance_move x g l now h s
  generalize advance x g l now h s = eff at hmove
  cases hmove with
  | idle _ _ => exact .inl rfl
  | drop => exact absurd rfl hs
  | @body p b hp =>
    right
    rcases afterBody_phase (x := x) (g := g) now { h with body := some b } p
      (handleBody x g l now h.parts p b) with ⟨call, out, heq⟩ | ⟨r, heq⟩ <;>
      rw [heq, hp] <;> simp [rank]
  | handOver hp => exact .inr (by simp [Effect.quiet, hp, rank])
  | head hp => exact .inr (by simp [Effect.quiet, hp, rank])
  | @headFailed call out handed e hp =>
    right
    cases handed <;> rw [hp] <;> simp [Effect.finish, rank]
  | bytes hp => exact .inr (by simp [Effect.finish, hp, rank])

/-- What a handler waits for moves it. -/
lemma advance_awaited (l : RateLimiters Cell) (now : ℕ) {h : Handler} {s : Signal}
    (hs : awaits h.phase s = true) :
    (advance x g l now h s).handler ≠ h := by
  intro heq
  have hphase := congrArg Handler.phase heq
  obtain ⟨parts, arrivedAt, body, phase⟩ := h
  rcases phase with p | ⟨call, out, _ | _⟩ | ⟨call, status, headers⟩ | r | _ <;>
    rcases s with b | _ | (e | ⟨st, hs⟩) | (e | b) | _ <;>
    simp [awaits] at hs <;> simp [advance, Effect.quiet, Effect.finish] at hphase
  rcases afterBody_phase (x := x) (g := g) now ⟨parts, arrivedAt, some b, .readingBody p⟩ p
    (handleBody x g l now parts p b) with ⟨call, out, h⟩ | ⟨r, h⟩ <;> simp [h] at hphase

/-! ### Endless runs -/

/-- In an endless run, neither its connection nor the process ends under the request, and its
handler does not wait for ever without what it waits for. -/
structure Served (x : Crates Cell) (g : Inner) (budgets : RateLimit) (es : ℕ → ℕ × Event)
    (id : ℕ) : Prop where
  kept : ∀ n, (es n).2.signalTo id ≠ some .drop
  given : ∀ n h, 0 < rank h.phase →
    (∀ m ≥ n, (upTo (step x g) (World.start x budgets) es m).handlers id = some h) →
    ∃ m ≥ n, ∃ s, (es m).2.signalTo id = some s ∧ awaits h.phase s = true

/-- A handler of the request, if it has one, is not dropped. -/
def Spared (id : ℕ) (w : World Cell) : Prop :=
  w.exited = false ∧ ∀ h, w.handlers id = some h → h.phase ≠ .dropped

/-- A step leaves a handler where it is, or takes it closer to its end. -/
lemma handlers_step {w : World Cell} {id : ℕ} {h : Handler} (hh : w.handlers id = some h)
    {e : ℕ × Event} (he : e.2.signalTo id ≠ some .drop) :
    ∃ h', (step x g w e).handlers id = some h' ∧
      (h' = h ∨ h'.phase ≠ .dropped ∧ rank h'.phase < rank h.phase) := by
  rcases view_step_some (x := x) (g := g) hh e with heq | ⟨s, -, hs, heq⟩
  · exact ⟨h, (congrArg View.handler heq).trans hh, .inl rfl⟩
  · refine ⟨_, congrArg View.handler heq, advance_forward _ _ _ ?_⟩
    rintro rfl
    exact he hs

lemma arrive_phase (l : RateLimiters Cell) (now : ℕ) (parts : Parts) :
    (arrive x g l now parts).handler.phase ≠ .dropped := by
  unfold arrive
  cases handleHead x g now parts with
  | ok p => simp [Effect.quiet]
  | error r => simp [Effect.finish]

lemma exited_step {w : World Cell} (hw : w.exited = false) {id : ℕ} {e : ℕ × Event}
    (he : e.2.signalTo id ≠ some .drop) : (step x g w e).exited = false := by
  rcases step_cases (x := x) (g := g) w e with
    heq | ⟨hexit, -⟩ | ⟨_, _, -, -, heq⟩ | ⟨_, _, _, -, -, heq⟩
  · rwa [heq]
  · exact absurd (by rw [hexit]; rfl) he
  · rwa [heq]
  · rwa [heq]

lemma spared_step {w : World Cell} {id : ℕ} (hw : Spared id w) {e : ℕ × Event}
    (he : e.2.signalTo id ≠ some .drop) : Spared id (step x g w e) := by
  obtain ⟨hexited, hp⟩ := hw
  refine ⟨exited_step hexited he, fun h' hh' => ?_⟩
  cases hh : w.handlers id with
  | none =>
    rcases view_step_none (x := x) (g := g) hh e with heq | ⟨parts, heq⟩
    · rw [show (step x g w e).handlers id = none from (congrArg View.handler heq).trans hh] at hh'
      cases hh'
    · cases (congrArg View.handler heq).symm.trans hh'
      exact arrive_phase _ _ parts
  | some h =>
    obtain ⟨h'', hh'', rfl | ⟨hp'', -⟩⟩ := handlers_step (x := x) (g := g) hh he
    · cases hh''.symm.trans hh'
      exact hp _ hh
    · cases hh''.symm.trans hh'
      exact hp''

section Served

variable {budgets : RateLimit} {es : ℕ → ℕ × Event} {id : ℕ}

/-- A request that has arrived has a handler. -/
lemma exists_handler (hserved : Served x g budgets es id) {n t₀ : ℕ} {parts : Parts}
    (harrive : es n = (t₀, .arrive id parts)) {m : ℕ} (hm : n < m) :
    ∃ h, (upTo (step x g) (World.start x budgets) es m).handlers id = some h := by
  refine upTo_inv (I := fun w : World Cell => ∃ h, w.handlers id = some h) (n := n + 1)
    (fun k _ hk => ?_) ?_ hm
  · obtain ⟨h, hh⟩ := hk
    obtain ⟨h', hh', -⟩ := handlers_step (x := x) (g := g) hh (hserved.kept k)
    exact ⟨h', hh'⟩
  · have hexited : (upTo (step x g) (World.start x budgets) es n).exited = false :=
      upTo_inv (I := fun w : World Cell => w.exited = false) (fun k _ h => exited_step h (hserved.kept k)) rfl
        n.zero_le
    rw [upTo_succ, harrive]
    generalize upTo (step x g) (World.start x budgets) es n = w at hexited
    cases hh : w.handlers id with
    | none => exact ⟨_, by simp [step, hexited, hh, World.apply]; rfl⟩
    | some h => exact ⟨h, by simp [step, hexited, hh]⟩

/-- **The gateway leaves no request waiting.** In every endless run in which its handler is not
dropped, and is not left for ever without what it waits for, a request that arrives is answered,
and keeps the one answer, whatever else the clients and the upstream do and in which order. -/
theorem answered_if_served (hserved : Served x g budgets es id) {n t₀ : ℕ} {parts : Parts}
    (harrive : es n = (t₀, .arrive id parts)) :
    ∃ m > n, ∃ h r, h.phase = .responded r ∧
      ∀ k ≥ m, (upTo (step x g) (World.start x budgets) es k).handlers id = some h := by
  have hspared : ∀ k, Spared id (upTo (step x g) (World.start x budgets) es k) := fun k =>
    upTo_inv (fun j _ h => spared_step h (hserved.kept j)) ⟨rfl, by simp [World.start]⟩ k.zero_le
  have hgoal := exists_goal (n := n + 1)
    (fun k => (upTo (step x g) (World.start x budgets) es k).handlers id)
    (fun o => o.elim 0 fun h => rank h.phase)
    (fun o => ∀ h, o = some h → rank h.phase = 0)
    (fun o k => ∃ h s, o = some h ∧ (es k).2.signalTo id = some s ∧ awaits h.phase s = true)
    ?step ?help ?fair
  · obtain ⟨m, hm, hend⟩ := hgoal
    obtain ⟨h, hh⟩ := exists_handler hserved harrive hm
    have hdropped := (hspared m).2 h hh
    obtain ⟨r, hr⟩ : ∃ r, h.phase = .responded r := by
      have hzero := hend h hh
      rcases hp : h.phase with p | ⟨call, out, _ | _⟩ | ⟨call, status, headers⟩ | r | _ <;>
        simp [hp, rank] at hzero hdropped ⊢
    refine ⟨m, hm, h, r, hr, fun k hk => ?_⟩
    refine upTo_inv (I := fun w : World Cell => w.handlers id = some h) (fun j _ hj => ?_) hh hk
    exact (congrArg View.handler (view_step_responded hj hr (es j))).trans hj
  case step =>
    intro k _ hk
    obtain ⟨h, hh, -⟩ := not_forall₂.mp hk
    rw [upTo_succ]
    obtain ⟨h', hh', rfl | ⟨-, hlt⟩⟩ := handlers_step (x := x) (g := g) hh (hserved.kept k)
    · exact .inl (hh'.trans hh.symm)
    · exact .inr (by simpa [hh, hh'] using hlt)
  case help =>
    rintro k _ - ⟨h, s, hh, hs, hawaits⟩
    rw [upTo_succ]
    have hheq := congrArg View.handler
      (view_step_signal (x := x) (g := g) hh (hspared k).1 (e := es k) hs)
    rcases advance_forward (x := x) (g := g)
      (upTo (step x g) (World.start x budgets) es k).limiters (es k).1 h
      (fun hdrop => hserved.kept k (hdrop ▸ hs)) with hsame | ⟨-, hlt⟩
    · exact absurd hsame (advance_awaited _ _ hawaits)
    · simp only [World.view, View.extend] at hheq
      simpa [hh, hheq] using hlt
  case fair =>
    intro k _ hk hstill
    obtain ⟨h, hh, hrank⟩ := not_forall₂.mp hk
    obtain ⟨m, hm, s, hs, hawaits⟩ := hserved.given k h (by omega) fun m hm =>
      (hstill m hm).trans hh
    exact ⟨m, hm, h, s, hh, hs, hawaits⟩

end Served

/-- The mutation is sent and answered, and other requests keep arriving. -/
def endlessRun (n : ℕ) : ℕ × Event :=
  answeredRun[n]?.getD (n, .arrive n (exampleParts .post "/" "read-token"))

lemma endlessRun_kept (n : ℕ) : (endlessRun n).2.signalTo 0 ≠ some .drop := by
  rcases n with _ | _ | _ | _ | _ | n <;> simp [endlessRun, answeredRun, Event.signalTo]

/-- Each await of the mutation is ended by the next event. -/
lemma endlessRun_given : ∀ n < 5, ((upTo (step exampleCrates (exampleGateway true))
    (World.start exampleCrates .default) endlessRun n).handlers 0).all (fun h =>
      rank h.phase = 0 || ((endlessRun n).2.signalTo 0).any (awaits h.phase)) = true := by
  decide +kernel

lemma endlessRun_answered {n : ℕ} (hn : 5 ≤ n) {h : Handler}
    (hh : (upTo (step exampleCrates (exampleGateway true)) (World.start exampleCrates .default)
      endlessRun n).handlers 0 = some h) : rank h.phase = 0 := by
  have hanswered : (upTo (step exampleCrates (exampleGateway true))
      (World.start exampleCrates .default) endlessRun n).handlers 0 =
        some ⟨exampleParts .post "/" "write-token", 0, some (.ok (ascii (requestText setRule))),
          .responded (.relay 200 [("x-node", ascii "a")] (ascii "ok"))⟩ :=
    upTo_inv (I := fun w : World ℕ => w.handlers 0 = some ⟨_, _, _, .responded _⟩)
      (fun k _ hk => (congrArg View.handler (view_step_responded hk rfl (endlessRun k))).trans hk)
      rfl hn
  cases hanswered.symm.trans hh
  rfl

theorem answered_if_served_mutation :
    ∃ m > 0, ∃ h r, h.phase = .responded r ∧
      ∀ k ≥ m, (upTo (step exampleCrates (exampleGateway true))
        (World.start exampleCrates .default) endlessRun k).handlers 0 = some h := by
  have harrive : endlessRun 0 = (0, .arrive 0 (exampleParts .post "/" "write-token")) := rfl
  refine answered_if_served ⟨endlessRun_kept, fun n h hrank hh => ?_⟩ harrive
  rcases lt_or_ge n 5 with hn | hn
  · have hgiven := endlessRun_given n hn
    rw [hh n le_rfl] at hgiven
    rcases hs : (endlessRun n).2.signalTo 0 with _ | s
    · have hzero : rank h.phase = 0 := by simpa [hs] using hgiven
      omega
    · have hawaits : rank h.phase = 0 ∨ awaits h.phase s = true := by simpa [hs] using hgiven
      exact ⟨n, le_rfl, s, hs, hawaits.resolve_left hrank.ne'⟩
  · have hzero := endlessRun_answered hn (hh n le_rfl)
    omega

end GatewayAuth.Progress
