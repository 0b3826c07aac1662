import GatewayAuth.Lib.Runs
import GatewayAuth.Service

/-!
The audit trail of writes. A handler emits the record of a call after the await on the
upstream, so the record is lost exactly when the handler is dropped at that await.
-/

namespace GatewayAuth.Trail

open GatewayAuth.Lib.Logs GatewayAuth.Lib.Runs
open GatewayAuth.Classify GatewayAuth.Forwarding GatewayAuth.Ratelimit GatewayAuth.Audit
open GatewayAuth.Server GatewayAuth.Service

variable {Cell : Type} {x : Crates Cell} {g : Inner}

/-! ### A write and its record -/

/-- The record tells the call of this request. -/
structure Describes (r : AuditRecord) (parts : Parts) (call : Call) : Prop where
  principal : r.principal = call.principal.name
  sourceIp : r.sourceIp = some parts.peerIp
  scope : r.scope = some call.classification.scope
  operationKinds : r.operationKinds = operationKinds call.classification
  topLevelFields : r.topLevelFields = topFields call.classification

/-- The handler has completed or was dropped. -/
def Gone (h : Handler) : Prop := (∃ r, h.phase = .responded r) ∨ h.phase = .dropped

/-- The request has been handed to the upstream, as a write. -/
def WriteSent (v : View) : Prop := ∃ s ∈ v.sent, s.1.classification.scope = .write

/-- If the handler is gone, each write it has handed to the upstream is told by the one record
of the request. -/
def Recorded (v : View) : Prop :=
  ∀ h, v.handler = some h → Gone h → ∀ s ∈ v.sent, s.1.classification.scope = .write →
    ∃ r, v.records = [r] ∧ Describes r h.parts s.1

/-- The step drops the handler of a write that is on its way, with its connection or with the
process. -/
def Abandons (id : ℕ) (w : World Cell) (e : ℕ × Event) : Prop :=
  w.exited = false ∧ e.2.signalTo id = some .drop ∧
    (∃ h, w.handlers id = some h ∧ ¬Gone h) ∧ WriteSent (w.view id)

lemma handleResult_records {call : Call} (hw : call.classification.scope = .write) (now : ℕ)
    (parts : Parts) (result : Except ProxyError ProxyResponse) :
    ∃ r, (handleResult x g now parts call result).records = [r] ∧ Describes r parts call := by
  rcases result with e | upstream
  · exact ⟨_, rfl, rfl, rfl, rfl, rfl, rfl⟩
  · refine ⟨_, if_pos (.inl hw), rfl, rfl, rfl, rfl, rfl⟩

/-! ### The records and the wire, at each await -/

/-- What has been recorded and sent for a request, by where its handler stands. -/
def Accounted (v : View) : Prop :=
  match v.handler with
  | none => v.records = [] ∧ v.sent = []
  | some h =>
    match h.phase with
    | .readingBody _ => v.records = [] ∧ v.sent = []
    | .sending call out handed => v.records = [] ∧ v.sent = if handed then [(call, out)] else []
    | .buffering call _ _ => v.records = [] ∧ ∃ out, v.sent = [(call, out)]
    | .responded _ => ∀ s ∈ v.sent, s.1.classification.scope = .write →
        ∃ r, v.records = [r] ∧ Describes r h.parts s.1
    | .dropped => v.records = []

lemma accounted_arrive {v : View} (hv : v.handler = none) (h : Accounted v)
    (l : RateLimiters Cell) (now : ℕ) (parts : Parts) :
    Accounted (v.extend (arrive x g l now parts)) := by
  obtain ⟨hd, records, sent, checks⟩ := v
  simp only at hv
  subst hv
  obtain ⟨hr, hs⟩ := h
  simp only at hr hs
  subst hr hs
  unfold arrive
  rcases handleHead x g now parts with r | p
  · simp [Accounted, View.extend, Effect.finish]
  · simp [Accounted, View.extend, Effect.quiet]

lemma accounted_afterBody {v : View} (hr : v.records = []) (hs : v.sent = []) (now : ℕ)
    (h : Handler) (p : Authz.Principal) (s : Screened Cell) :
    Accounted (v.extend (afterBody x g now h p s)) := by
  obtain ⟨result, l, asked⟩ := s
  rcases result with r | call
  · simp [Accounted, View.extend, afterBody, Effect.finish, hs]
  · rcases hout : call.outgoing g h.parts with e | out
    · simp [Accounted, View.extend, afterBody, resume, hout, Effect.finish, hs]
    · simp [Accounted, View.extend, afterBody, resume, hout, Effect.quiet, hr, hs]

/-- The result of `forward` ends the handler with the record of a write it has sent. -/
lemma accounted_finish {v : View} {h : Handler} {call : Call} (hr : v.records = [])
    (hs : ∀ s ∈ v.sent, s.1 = call) (l : RateLimiters Cell) (now : ℕ)
    (result : Except ProxyError ProxyResponse) :
    Accounted (v.extend (Effect.finish l h (handleResult x g now h.parts call result))) := by
  simp only [Accounted, View.extend, Effect.finish, List.append_nil, hr, List.nil_append]
  intro s hmem hw
  have hcall := hs s hmem
  rw [hcall] at hw ⊢
  exact handleResult_records hw now h.parts result

/-- Until the handler has completed nothing is recorded. -/
lemma records_eq_nil {v : View} {h : Handler} (hv : v.handler = some h) (ha : Accounted v)
    (hp : ∀ r, h.phase ≠ .responded r) : v.records = [] := by
  unfold Accounted at ha
  rw [hv] at ha
  obtain ⟨parts, arrivedAt, body, phase⟩ := h
  cases phase with
  | readingBody p => exact ha.1
  | sending call out handed => exact ha.1
  | buffering call status headers => exact ha.1
  | responded r => exact absurd rfl (hp r)
  | dropped => exact ha

/-- **Every step of a handler keeps the account**, the one that drops it included. -/
lemma accounted_move {v : View} {h : Handler} (hv : v.handler = some h) (ha : Accounted v)
    {l : RateLimiters Cell} {now : ℕ} {s : Signal} {eff : Effect Cell}
    (hm : Move x g l now h s eff) : Accounted (v.extend eff) := by
  have hrecords := records_eq_nil hv ha
  have hphase := ha
  unfold Accounted at hphase
  rw [hv] at hphase
  simp only at hphase
  cases hm with
  | idle _ _ => rwa [View.extend_quiet hv]
  | drop =>
    rcases h.kill_cases with ⟨r, -, hk⟩ | ⟨hp, hk⟩
    · rw [hk]
      rwa [View.extend_quiet hv]
    · rw [hk]
      simpa [Accounted, View.extend, Effect.quiet] using hrecords hp
  | body hp =>
    rw [hp] at hphase
    exact accounted_afterBody hphase.1 hphase.2 now _ _ _
  | @handOver call out hp =>
    rw [hp] at hphase
    obtain ⟨hr, hs⟩ := hphase
    simp only [Bool.false_eq_true, if_false] at hs
    simp [Accounted, View.extend, Effect.quiet, hr, hs]
  | @head call out status headers hp =>
    rw [hp] at hphase
    obtain ⟨hr, hs⟩ := hphase
    simp only [if_true] at hs
    simp [Accounted, View.extend, Effect.quiet, hr, hs]
  | @headFailed call out handed e hp =>
    rw [hp] at hphase
    obtain ⟨hr, hs⟩ := hphase
    refine accounted_finish hr (fun s hmem => ?_) l now _
    cases handed
    · simp [hs] at hmem
    · simp only [hs, if_true, List.mem_singleton] at hmem
      rw [hmem]
  | @bytes call status headers r result hp =>
    rw [hp] at hphase
    obtain ⟨hr, out, hs⟩ := hphase
    refine accounted_finish hr (fun s hmem => ?_) l now _
    rw [hs, List.mem_singleton] at hmem
    rw [hmem]

lemma accounted_step (id : ℕ) (w : World Cell) (e : ℕ × Event) (h : Accounted (w.view id)) :
    Accounted ((step x g w e).view id) :=
  view_inv (fun _ l now parts hv ha => accounted_arrive hv ha l now parts)
    (fun _ _ _ _ _ _ hv hm ha => accounted_move hv ha hm) id w e h

/-! ### Dropped while a write is on its way -/

/-- Only a signal to drop it leaves a handler dropped. -/
lemma dropped_of_move {l : RateLimiters Cell} {now : ℕ} {h : Handler} {s : Signal}
    {eff : Effect Cell} (hm : Move x g l now h s eff) (hd : eff.handler.phase = .dropped) :
    eff.sent = [] ∧ (h.phase = .dropped ∨ s = .drop) := by
  cases hm with
  | idle _ _ => exact ⟨rfl, .inl hd⟩
  | drop => exact ⟨rfl, .inr rfl⟩
  | @body p b hp =>
    unfold afterBody at hd
    rcases hr : (handleBody x g l now h.parts p b).result with r | call
    · simp [hr, Effect.finish] at hd
    · rcases hout : call.outgoing g h.parts with e | out
      · simp [hr, resume, hout, Effect.finish] at hd
      · simp [hr, resume, hout, Effect.quiet] at hd
  | handOver hp => simp [Effect.quiet] at hd
  | head hp => simp [Effect.quiet] at hd
  | headFailed hp => simp [Effect.finish] at hd
  | bytes hp => simp [Effect.finish] at hd

/-- No write is on the wire of a dropped handler. -/
def NoneLost (v : View) : Prop :=
  ∀ h, v.handler = some h → h.phase = .dropped → ¬WriteSent v

/-- A write was sent, its handler dropped, and nothing recorded. -/
def Lost (v : View) : Prop :=
  (∃ h, v.handler = some h ∧ h.phase = .dropped) ∧ WriteSent v ∧ v.records = []

lemma noneLost_step {id : ℕ} {w : World Cell} {e : ℕ × Event} (hkeep : ¬Abandons id w e)
    (h : NoneLost (w.view id)) : NoneLost ((step x g w e).view id) := by
  rcases hh : w.handlers id with _ | hd
  · rcases view_step_none (x := x) (g := g) hh e with heq | ⟨parts, heq⟩
    · rwa [heq]
    · rw [heq]
      intro h' hh' hdropped
      simp only [View.extend, Option.some.injEq] at hh'
      subst hh'
      unfold arrive at hdropped
      rcases hhead : handleHead x g e.1 parts with r | p
      · simp [hhead, Effect.finish] at hdropped
      · simp [hhead, Effect.quiet] at hdropped
  · rcases view_step_some (x := x) (g := g) hh e with heq | ⟨s, hexited, hs, heq⟩
    · rwa [heq]
    · rw [heq]
      rintro h' hh' hdropped ⟨sent, hsent, hwrite⟩
      simp only [View.extend, Option.some.injEq] at hh'
      subst hh'
      obtain ⟨hnone, hor⟩ := dropped_of_move (advance_move x g w.limiters e.1 hd s) hdropped
      simp only [View.extend, hnone, List.append_nil] at hsent
      have hphase : hd.phase = .dropped := by
        by_contra hne
        have hdrop : s = .drop := hor.resolve_left hne
        subst hdrop
        have hgone : Gone hd := by
          by_contra hlive
          exact hkeep ⟨hexited, hs, ⟨hd, hh, hlive⟩, sent, hsent, hwrite⟩
        obtain ⟨r, hr⟩ := hgone.resolve_right hne
        rcases hd.kill_cases with ⟨r', hr', hk⟩ | ⟨hp, -⟩
        · simp [advance, Effect.quiet, hk, hr] at hdropped
        · exact hp r hr
      exact h hd hh hphase ⟨sent, hsent, hwrite⟩

/-- Nothing happens to a handler once it is dropped. -/
lemma quiet_of_dropped {l : RateLimiters Cell} {now : ℕ} {h : Handler} {s : Signal}
    {eff : Effect Cell} (hm : Move x g l now h s eff) (hp : h.phase = .dropped) :
    eff = .quiet l h := by
  have hkill : h.kill = h := by
    unfold Handler.kill
    rw [hp]
    simp only [← hp]
  cases hm with
  | idle _ _ => rfl
  | drop => rw [hkill]
  | body hp' => cases hp.symm.trans hp'
  | handOver hp' => cases hp.symm.trans hp'
  | head hp' => cases hp.symm.trans hp'
  | headFailed hp' => cases hp.symm.trans hp'
  | bytes hp' => cases hp.symm.trans hp'

lemma lost_step {id : ℕ} {w : World Cell} {e : ℕ × Event} (h : Lost (w.view id)) :
    Lost ((step x g w e).view id) := by
  obtain ⟨⟨hd, hh, hphase⟩, hrest⟩ := h
  rcases view_step_some (x := x) (g := g) hh e with heq | ⟨s, -, -, heq⟩
  · rw [heq]
    exact ⟨⟨hd, hh, hphase⟩, hrest⟩
  · rw [heq, quiet_of_dropped (advance_move x g w.limiters e.1 hd s) hphase,
      View.extend_quiet hh]
    exact ⟨⟨hd, hh, hphase⟩, hrest⟩

/-- A write that is abandoned is lost. -/
lemma lost_of_abandons {id : ℕ} {w : World Cell} {e : ℕ × Event} (ha : Accounted (w.view id))
    (h : Abandons id w e) : Lost ((step x g w e).view id) := by
  obtain ⟨hexited, hs, ⟨hd, hh, hlive⟩, hsent⟩ := h
  have hp : ∀ r, hd.phase ≠ .responded r := fun r hr => hlive (.inl ⟨r, hr⟩)
  have hkill : hd.kill = { hd with phase := .dropped } := by
    rcases hd.kill_cases with ⟨r, hr, -⟩ | ⟨-, hk⟩
    · exact absurd hr (hp r)
    · exact hk
  have hrecords : (w.view id).records = [] := records_eq_nil hh ha hp
  rw [view_step_signal hh hexited hs]
  refine ⟨⟨_, rfl, ?_⟩, ?_, ?_⟩
  · simp [advance, Effect.quiet, hkill]
  · simpa [WriteSent, View.extend, advance, Effect.quiet] using hsent
  · simpa [View.extend, advance, Effect.quiet] using hrecords

lemma recorded_of_noneLost {v : View} (ha : Accounted v) (hn : NoneLost v) : Recorded v := by
  intro h hv hgone s hs hw
  rcases hgone with ⟨r, hr⟩ | hd
  · unfold Accounted at ha
    rw [hv] at ha
    simp only [hr] at ha
    exact ha s hs hw
  · exact absurd ⟨s, hs, hw⟩ (hn h hv hd)

lemma not_recorded_of_lost {v : View} (h : Lost v) : ¬Recorded v := by
  obtain ⟨⟨hd, hv, hp⟩, ⟨s, hs, hw⟩, hr⟩ := h
  intro hrecorded
  obtain ⟨r, hr', -⟩ := hrecorded hd hv (.inr hp) s hs hw
  rw [hr] at hr'
  cases hr'

/-- **A write leaves the gateway without its record exactly when its handler is dropped on the
way.** In every run, once the handler of a request is gone, each write it has handed to the
upstream is told by the one record of the request, if and only if no step of the run dropped the
handler between the hand-over and the record. -/
theorem write_recorded_iff (x : Crates Cell) (g : Inner) (budgets : RateLimit)
    (es : List (ℕ × Event)) (id : ℕ) :
    Recorded ((run (step x g) (World.start x budgets) es).view id) ↔
      Steps (step x g) (fun w e => ¬Abandons id w e) (World.start x budgets) es := by
  have hstart : Accounted ((World.start x budgets).view id) := by
    rw [view_start]
    exact ⟨rfl, rfl⟩
  have hnone : NoneLost ((World.start x budgets).view id) := by
    rw [view_start]
    intro h hh
    cases hh
  refine ⟨fun h => ?_, fun hsteps => ?_⟩
  · refine steps_of_not_bad (I := fun w => Accounted (w.view id))
      (B := fun w => Lost (w.view id)) (accounted_step id) (fun w e ha hnot => ?_)
      (fun w e => lost_step) hstart fun hlost => not_recorded_of_lost hlost h
    exact lost_of_abandons ha (not_not.mp hnot)
  · have hinv := run_inv_of_steps (I := fun w => Accounted (w.view id) ∧ NoneLost (w.view id))
      (fun w e hkeep hw => ⟨accounted_step id w e hw.1, noneLost_step hkeep hw.2⟩) hsteps
      ⟨hstart, hnone⟩
    exact recorded_of_noneLost hinv.1 hinv.2

/-- A mutation is handed to the upstream and its client disconnects. -/
def disconnectRun : List (ℕ × Event) :=
  [(0, .arrive 0 (exampleParts .post "/" "write-token")),
    (1, .signal 0 (.body (.ok (ascii (requestText setRule))))), (2, .signal 0 .handOver),
    (3, .signal 0 .drop)]

theorem disconnect_loses_record :
    ¬Recorded ((run (step exampleCrates (exampleGateway true))
      (World.start exampleCrates .default) disconnectRun).view 0) :=
  not_recorded_of_lost ⟨⟨_, rfl, rfl⟩, ⟨_, List.mem_singleton_self _, rfl⟩, rfl⟩

end GatewayAuth.Trail
