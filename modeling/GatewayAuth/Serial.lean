import GatewayAuth.Checks
import GatewayAuth.Handle

/-!
A run, one request after the other.

Handlers advance in any order, but each asks the limiters at one moment, when it goes on with its
body. So a run is as good as one in which the requests are served one at a time by `handle`, each
when its body was there: the limiters end up the same, and for each request the records, what was
sent and the response are those of its turn.
-/

namespace GatewayAuth.Serial

open GatewayAuth.Lib.Runs
open GatewayAuth.Classify GatewayAuth.Authz GatewayAuth.Forwarding GatewayAuth.Ratelimit
open GatewayAuth.Server GatewayAuth.Service GatewayAuth.Checks
open GatewayAuth.Handle

/-! ### Turns -/

/-- A request whose body is there. -/
structure Turn where
  id : ℕ
  parts : Parts
  arrivedAt : ℕ
  body : Except Unit Bytes
  bodyAt : ℕ

variable {Cell : Type} (x : Crates Cell) (g : Inner)

/-- The limiters after the requests have been handled one after the other. -/
def serve (l : RateLimiters Cell) (ts : List Turn) : RateLimiters Cell :=
  ts.foldl (fun l t => limitersAfter x g l t.arrivedAt t.bodyAt t.parts (some t.body)) l

/-- The turn that an event of a run gives to a request. -/
def turn (w : World Cell) (e : ℕ × Event) : Option Turn :=
  if w.exited then none
  else
    match e.2 with
    | .signal id (.body b) =>
      match w.handlers id with
      | some h => (awaiting h).map fun _ => ⟨id, h.parts, h.arrivedAt, b, e.1⟩
      | none => none
    | _ => none

/-- The turns of a run, in their order. -/
def turns (w : World Cell) : List (ℕ × Event) → List Turn
  | [] => []
  | e :: es => (turn w e).toList ++ turns (step x g w e) es

/-- A request has fared as `handle` says: it is answered with the response and the records of its
exit, or it has recorded nothing, and nothing was sent for it but what the client is given. -/
def Fits (o : Handled) (phase : Phase) (v : View) : Prop :=
  (∀ s ∈ v.sent, o.given = some s) ∧
    match phase with
    | .responded r => ∃ e, o.exit = some e ∧ v.records = e.records ∧ r = e.response
    | _ => o.exit = none ∧ v.records = []

/-- The request has fared as `handle` serves it from these limiters, with its body at `t₁`. -/
def HandledAs (l : RateLimiters Cell) (t₁ : ℕ) (h : Handler) (v : View) : Prop :=
  ∃ t₂ client, Fits (handle x g l h.arrivedAt t₁ t₂ h.parts h.body client) h.phase v

/-! ### A handler between its awaits -/

/-- The handler has come to this call of `forward` from these limiters. -/
structure Calls (l : RateLimiters Cell) (t₁ : ℕ) (h : Handler) (call : Call) (out : Outgoing)
    (v : View) : Prop where
  recorded : v.records = []
  sent : ∀ s ∈ v.sent, s = (call, out)
  outgoing : call.outgoing g h.parts = .ok out
  called : ∃ p b, handleHead x g h.arrivedAt h.parts = .ok p ∧ h.body = some b ∧
    (handleBody x g l t₁ h.parts p b).result = .ok call

/-- What has been done for a request, by where its handler stands. -/
def Stands (l : RateLimiters Cell) (t₁ : ℕ) (h : Handler) (v : View) : Prop :=
  match h.phase with
  | .readingBody p => v.records = [] ∧ v.sent = [] ∧ h.body = none ∧
      handleHead x g h.arrivedAt h.parts = .ok p
  | .sending call out _ => Calls x g l t₁ h call out v
  | .buffering call _ _ => ∃ out, Calls x g l t₁ h call out v
  | _ => HandledAs x g l t₁ h v

variable {x g} {l : RateLimiters Cell} {t₁ : ℕ} {h : Handler} {v : View}

/-- What `handle` makes of a call is left to the client. -/
lemma Calls.handle_eq {call : Call} {out : Outgoing} (hc : Calls x g l t₁ h call out v) (t₂ : ℕ)
    (client : Outgoing → Option Exchange) :
    handle x g l h.arrivedAt t₁ t₂ h.parts h.body client =
      match client out with
      | none => .dropped (some (call, out))
      | some exchange =>
        .forwarded call out exchange (handleResult x g t₂ h.parts call exchange.result) := by
  obtain ⟨p, b, hhead, hbody, hresult⟩ := hc.called
  rw [hbody, handle_call hhead hresult]
  cases hclient : client out <;> simp [callForward, hc.outgoing, hclient]

lemma Calls.handledAs {call : Call} {out : Outgoing} (hc : Calls x g l t₁ h call out v)
    {h' : Handler} (hh' : h' = { h with phase := h'.phase })
    (hp : ∀ r, h'.phase ≠ .responded r) : HandledAs x g l t₁ h' v := by
  refine ⟨0, fun _ => none, ?_⟩
  have heq := hc.handle_eq 0 fun _ => none
  rw [hh']
  simp only at heq ⊢
  rw [heq]
  refine ⟨fun s hs => by rw [hc.sent s hs]; rfl, ?_⟩
  obtain ⟨parts, arrivedAt, body, phase⟩ := h'
  cases phase with
  | responded r => exact absurd rfl (hp r)
  | _ => exact ⟨rfl, hc.recorded⟩

/-- Where a handler stands, it has fared as `handle` says. -/
lemma Stands.handledAs (hs : Stands x g l t₁ h v) : HandledAs x g l t₁ h v := by
  unfold Stands at hs
  cases hp : h.phase with
  | readingBody p =>
    rw [hp] at hs
    obtain ⟨hr, hsent, hbody, hhead⟩ := hs
    refine ⟨0, fun _ => none, ?_⟩
    rw [hbody, handle_dropped hhead, hp]
    exact ⟨by simp [hsent], rfl, hr⟩
  | sending call out handed =>
    rw [hp] at hs
    exact hs.handledAs rfl (by simp [hp])
  | buffering call status headers =>
    rw [hp] at hs
    obtain ⟨out, hc⟩ := hs
    exact hc.handledAs rfl (by simp [hp])
  | responded r => simpa only [hp] using hs
  | dropped => simpa only [hp] using hs

/-! ### One step of a handler -/

/-- A handler that completes as `handle` does has fared as it says. -/
lemma stands_finish {t₂ : ℕ} {client : Outgoing → Option Exchange} {e : Exit}
    (hr : v.records = [])
    (hexit : (handle x g l h.arrivedAt t₁ t₂ h.parts h.body client).exit = some e)
    (hgiven : ∀ s ∈ v.sent, (handle x g l h.arrivedAt t₁ t₂ h.parts h.body client).given = some s)
    {h' : Handler} (hh' : h' = { h with phase := .responded e.response }) {eff : Effect Cell}
    (hrec : eff.records = e.records) (hsent : eff.sent = []) :
    Stands x g l t₁ h' (v.extend eff) := by
  rw [hh']
  refine ⟨t₂, client, ?_, e, hexit, ?_, rfl⟩
  · simpa [View.extend, hsent] using hgiven
  · simp [View.extend, hr, hrec]

lemma stands_arrive (hr : v.records = []) (hs : v.sent = []) (l' : RateLimiters Cell) (now : ℕ)
    (parts : Parts) :
    Stands x g l t₁ (arrive x g l' now parts).handler (v.extend (arrive x g l' now parts)) := by
  unfold arrive
  rcases hhead : handleHead x g now parts with r | p
  · have hexit : (handle x g l now t₁ now parts none fun _ => none).exit =
        some (r.exit x now parts) := by
      rw [handle_head_error hhead]
      rfl
    exact stands_finish (h := ⟨parts, now, none, .dropped⟩) hr hexit (by simp [hs]) rfl rfl rfl
  · exact ⟨by simp [View.extend, Effect.quiet, hr], by simp [View.extend, Effect.quiet, hs], rfl,
      hhead⟩

/-- **The turn of a request**: with its body, the handler has fared as `handle` from the limiters
it finds. -/
lemma stands_body {p : Principal} (hp : h.phase = .readingBody p) (hs : Stands x g l t₁ h v)
    (l' : RateLimiters Cell) (now : ℕ) (b : Except Unit Bytes) :
    Stands x g l' now (advance x g l' now h (.body b)).handler
      (v.extend (advance x g l' now h (.body b))) := by
  obtain ⟨hr, hsent, -, hhead⟩ :
      v.records = [] ∧ v.sent = [] ∧ h.body = none ∧
        handleHead x g h.arrivedAt h.parts = .ok p := by
    simpa only [Stands, hp] using hs
  simp only [advance, hp, afterBody]
  rcases hb : (handleBody x g l' now h.parts p b).result with r | call
  · have hexit : (handle x g l' h.arrivedAt now now h.parts (some b) fun _ => none).exit =
        some (r.exit x now h.parts) := by
      rw [handle_body_error hhead hb]
      rfl
    exact stands_finish (h := { h with body := some b }) hr hexit (by simp [hsent]) rfl rfl rfl
  · rcases hout : call.outgoing g h.parts with e | out
    · have hexit : (handle x g l' h.arrivedAt now now h.parts (some b) fun _ => none).exit =
          some (handleResult x g now h.parts call (.error e)) := by
        rw [handle_call hhead hb, callForward, hout]
        rfl
      simp only [resume, hout]
      exact stands_finish (h := { h with body := some b }) hr hexit (by simp [hsent]) rfl rfl rfl
    · simp only [resume, hout, Effect.quiet]
      exact ⟨by simp [View.extend, hr], by simp [View.extend, hsent], hout, p, b, hhead, rfl, hb⟩

/-- The result of an exchange ends the handler. -/
lemma Calls.stands_result {call : Call} {out : Outgoing} (hc : Calls x g l t₁ h call out v)
    (l' : RateLimiters Cell) (now : ℕ) (exchange : Exchange) :
    Stands x g l t₁ (Effect.finish l' h (handleResult x g now h.parts call exchange.result)).handler
      (v.extend (Effect.finish l' h (handleResult x g now h.parts call exchange.result))) := by
  have heq := hc.handle_eq now fun _ => some exchange
  refine stands_finish hc.recorded (congrArg Handled.exit heq) (fun s hs => ?_) rfl rfl rfl
  rw [heq, hc.sent s hs]
  rfl

/-- A step that is not the turn of the request takes it on as `handle` does. -/
lemma stands_advance (hv : v.handler = some h) (hs : Stands x g l t₁ h v)
    (l' : RateLimiters Cell) (now : ℕ) {s : Signal}
    (hturn : ∀ b p, s = .body b → h.phase ≠ .readingBody p) :
    Stands x g l t₁ (advance x g l' now h s).handler (v.extend (advance x g l' now h s)) := by
  have hstands := hs
  unfold Stands at hs
  have hm := advance_move x g l' now h s
  generalize heff : advance x g l' now h s = eff at hm ⊢
  cases hm with
  | idle _ _ => rwa [View.extend_quiet hv]
  | drop =>
    rcases h.kill_cases with ⟨r, -, hk⟩ | ⟨hp, hk⟩
    · rw [hk]
      rwa [View.extend_quiet hv]
    · obtain ⟨t₂, client, hgiven, hends⟩ := hstands.handledAs
      rw [hk]
      refine ⟨t₂, client, by simpa [View.extend, Effect.quiet] using hgiven, ?_⟩
      cases hphase : h.phase with
      | responded r => exact absurd hphase (hp r)
      | _ => simpa [View.extend, Effect.quiet, hphase] using hends
  | @body p b hp => exact absurd hp (hturn b p rfl)
  | @handOver call out hp =>
    rw [hp] at hs
    obtain ⟨hr, hsent, hout, hcalled⟩ := hs
    refine ⟨by simp [View.extend, Effect.quiet, hr], fun s hmem => ?_, hout, hcalled⟩
    rcases List.mem_append.mp hmem with hold | hnew
    · exact hsent s hold
    · exact List.mem_singleton.mp hnew
  | @head call out status headers hp =>
    rw [hp] at hs
    obtain ⟨hr, hsent, hout, hcalled⟩ := hs
    exact ⟨out, by simp [View.extend, Effect.quiet, hr],
      by simpa [View.extend, Effect.quiet] using hsent, hout, hcalled⟩
  | @headFailed call out handed e hp =>
    rw [hp] at hs
    exact hs.stands_result l' now (.unanswered e)
  | @bytes call status headers r result hp =>
    rw [hp] at hs
    obtain ⟨out, hc⟩ := hs
    rw [← heff]
    -- the result is the one that the signal carries
    cases r with
    | error e =>
      simp only [advance, hp]
      exact hc.stands_result l' now (.cut status headers e)
    | ok bytes =>
      simp only [advance, hp]
      exact hc.stands_result l' now (.answered status headers bytes)

/-- Only its turn changes more of a handler than where it stands, and changes the limiters. -/
lemma advance_same (l : RateLimiters Cell) (now : ℕ) {s : Signal}
    (hturn : ∀ b p, s = .body b → h.phase ≠ .readingBody p) :
    (advance x g l now h s).limiters = l ∧
      (advance x g l now h s).handler = { h with phase := (advance x g l now h s).handler.phase } := by
  have hm := advance_move x g l now h s
  generalize advance x g l now h s = eff at hm ⊢
  cases hm with
  | idle _ _ => exact ⟨rfl, rfl⟩
  | drop =>
    rcases h.kill_cases with ⟨r, -, hk⟩ | ⟨-, hk⟩
    · simp [Effect.quiet, hk]
    · simp [Effect.quiet, hk]
  | @body p b hp => exact absurd hp (hturn b p rfl)
  | handOver _ => exact ⟨rfl, rfl⟩
  | head _ => exact ⟨rfl, rfl⟩
  | headFailed _ => exact ⟨rfl, rfl⟩
  | bytes _ => exact ⟨rfl, rfl⟩

/-! ### The turns of a run -/

variable (x g) in
/-- A request whose body is there has had its turn, and fares as from the limiters that the turns
before it leave. Any other request fares the same from all limiters. -/
def Accounted (l₀ : RateLimiters Cell) (ts : List Turn) (id : ℕ) (h : Handler)
    (Fares : RateLimiters Cell → ℕ → Prop) : Prop :=
  match h.body with
  | none => (∀ t ∈ ts, t.id ≠ id) ∧ ∀ l t₁, Fares l t₁
  | some b => ∃ past t later, ts = past ++ t :: later ∧
      (t.id = id ∧ t.parts = h.parts ∧ t.arrivedAt = h.arrivedAt ∧ t.body = b) ∧
      Fares (serve x g l₀ past) t.bodyAt

variable {l₀ : RateLimiters Cell} {ts : List Turn} {id : ℕ}

lemma Accounted.mono {Fares Fares' : RateLimiters Cell → ℕ → Prop}
    (hacc : Accounted x g l₀ ts id h Fares) {h' : Handler} (hh' : h' = { h with phase := h'.phase })
    (hfares : ∀ l t₁, Fares l t₁ → Fares' l t₁) : Accounted x g l₀ ts id h' Fares' := by
  rw [hh']
  unfold Accounted at hacc ⊢
  rcases hbody : h.body with _ | b
  · simp only [hbody] at hacc ⊢
    exact ⟨hacc.1, fun l t₁ => hfares l t₁ (hacc.2 l t₁)⟩
  · simp only [hbody] at hacc ⊢
    obtain ⟨past, t, later, hts, ht, hf⟩ := hacc
    exact ⟨past, t, later, hts, ht, hfares _ _ hf⟩

/-- The turns of others change nothing. -/
lemma Accounted.append {Fares : RateLimiters Cell → ℕ → Prop}
    (hacc : Accounted x g l₀ ts id h Fares) {more : List Turn} (hmore : ∀ t ∈ more, t.id ≠ id) :
    Accounted x g l₀ (ts ++ more) id h Fares := by
  unfold Accounted at hacc ⊢
  rcases hbody : h.body with _ | b
  · simp only [hbody] at hacc ⊢
    refine ⟨fun t ht => ?_, hacc.2⟩
    rcases List.mem_append.mp ht with hold | hnew
    · exact hacc.1 t hold
    · exact hmore t hnew
  · simp only [hbody] at hacc ⊢
    obtain ⟨past, t, later, hts, ht, hf⟩ := hacc
    exact ⟨past, t, later ++ more, by simp [hts], ht, hf⟩

variable (x g) in
/-- The world is as after these turns, one after the other. -/
structure Serialized (l₀ : RateLimiters Cell) (ts : List Turn) (w : World Cell) : Prop where
  nodup : (ts.map Turn.id).Nodup
  limiters : w.limiters = serve x g l₀ ts
  arrived : ∀ t ∈ ts, ∃ h, w.handlers t.id = some h
  absent : ∀ id, w.handlers id = none → (w.view id).records = [] ∧ (w.view id).sent = []
  accounted : ∀ id h, w.handlers id = some h →
    Accounted x g l₀ ts id h fun l t₁ => Stands x g l t₁ h (w.view id)

lemma Serialized.apply {w : World Cell} (hs : Serialized x g l₀ ts w) {eff : Effect Cell}
    {more : List Turn} (hmore : ∀ t ∈ more, t.id = id)
    (hnodup : ((ts ++ more).map Turn.id).Nodup)
    (hlimiters : eff.limiters = serve x g l₀ (ts ++ more))
    (hacc : Accounted x g l₀ (ts ++ more) id eff.handler fun l t₁ =>
      Stands x g l t₁ eff.handler ((w.view id).extend eff)) :
    Serialized x g l₀ (ts ++ more) (w.apply id eff) := by
  refine ⟨hnodup, hlimiters, fun t ht => ?_, fun id' hid' => ?_, fun id' h' hh' => ?_⟩
  · by_cases hid : t.id = id
    · exact ⟨eff.handler, by simp [World.apply, hid]⟩
    · rcases List.mem_append.mp ht with hold | hnew
      · obtain ⟨h, hh⟩ := hs.arrived t hold
        exact ⟨h, by simpa [World.apply, hid] using hh⟩
      · exact absurd (hmore t hnew) hid
  · by_cases hid : id' = id
    · simp [World.apply, hid] at hid'
    · rw [view_apply_of_ne w hid]
      exact hs.absent id' (by simpa [World.apply, hid] using hid')
  · by_cases hid : id' = id
    · subst hid
      obtain rfl : eff.handler = h' := by simpa [World.apply] using hh'
      simpa only [view_apply_self] using hacc
    · rw [view_apply_of_ne w hid]
      have hh : w.handlers id' = some h' := by simpa [World.apply, hid] using hh'
      exact (hs.accounted id' h' hh).append fun t ht heq => hid (heq.symm.trans (hmore t ht))

/-- A step that gives no turn changes neither the limiters nor what is accounted for. -/
lemma serialized_signal {w : World Cell} (hs : Serialized x g l₀ ts w)
    (hh : w.handlers id = some h) {now : ℕ} {s : Signal}
    (hturn : ∀ b p, s = .body b → h.phase ≠ .readingBody p) :
    Serialized x g l₀ ts (w.apply id (advance x g w.limiters now h s)) := by
  obtain ⟨hlimiters, hsame⟩ := advance_same (x := x) (g := g) w.limiters now hturn
  have happly : Serialized x g l₀ (ts ++ []) (w.apply id (advance x g w.limiters now h s)) := by
    refine hs.apply (by simp) (by simpa using hs.nodup)
      (by simpa using hlimiters.trans hs.limiters) ?_
    rw [List.append_nil]
    exact (hs.accounted id h hh).mono hsame fun l t₁ hstands =>
      stands_advance hh hstands w.limiters now hturn
  simpa using happly

/-- The turn of a request comes after those of the others, and from the limiters they leave. -/
lemma serialized_body {w : World Cell} (hs : Serialized x g l₀ ts w)
    (hh : w.handlers id = some h) {p : Principal} (hp : h.phase = .readingBody p) (now : ℕ)
    (b : Except Unit Bytes) :
    Serialized x g l₀ (ts ++ [⟨id, h.parts, h.arrivedAt, b, now⟩])
      (w.apply id (advance x g w.limiters now h (.body b))) := by
  have hacc := hs.accounted id h hh
  -- the handler has no body yet, so it has had no turn
  have hbody : h.body = none := by
    unfold Accounted at hacc
    rcases hbody : h.body with _ | b'
    · rfl
    · simp only [hbody] at hacc
      obtain ⟨past, t, later, -, -, hstands⟩ := hacc
      simp [Stands, hp, hbody] at hstands
  simp only [Accounted, hbody] at hacc
  obtain ⟨hfresh, hstands⟩ := hacc
  have hhead : handleHead x g h.arrivedAt h.parts = .ok p := by
    have hstands' := hstands w.limiters now
    simp only [Stands, hp] at hstands'
    exact hstands'.2.2.2
  obtain ⟨hlimiters, -, hparts, harrivedAt, hbody', -⟩ := afterBody_consult (x := x) (g := g) now
    { h with body := some b } p (handleBody x g w.limiters now h.parts p b)
  have heff : advance x g w.limiters now h (.body b) = afterBody x g now { h with body := some b } p
      (handleBody x g w.limiters now h.parts p b) := by
    simp [advance, hp]
  rw [← heff] at hlimiters hparts harrivedAt hbody'
  refine hs.apply (by simp) ?_ ?_ ?_
  · rw [List.map_append, List.nodup_append]
    refine ⟨hs.nodup, by simp, ?_⟩
    rintro a ha _ hmem rfl
    obtain ⟨t, ht, hid⟩ := List.mem_map.mp ha
    exact hfresh t ht (hid.trans (List.mem_singleton.mp hmem))
  · rw [hlimiters, serve, List.foldl_append]
    simp [limitersAfter, hhead, hs.limiters, serve]
  · simp only [Accounted, hbody']
    refine ⟨ts, _, [], rfl, ⟨rfl, hparts.symm, harrivedAt.symm, rfl⟩, ?_⟩
    rw [← hs.limiters]
    exact stands_body hp (hstands w.limiters now) w.limiters now b

lemma serialized_arrive {w : World Cell} (hs : Serialized x g l₀ ts w)
    (hh : w.handlers id = none) (now : ℕ) (parts : Parts) :
    Serialized x g l₀ ts (w.apply id (arrive x g w.limiters now parts)) := by
  obtain ⟨hr, hsent⟩ := hs.absent id hh
  have hbody : (arrive x g w.limiters now parts).handler.body = none := by
    unfold arrive
    rcases handleHead x g now parts with r | p <;> rfl
  have happly : Serialized x g l₀ (ts ++ []) (w.apply id (arrive x g w.limiters now parts)) := by
    refine hs.apply (by simp) (by simpa using hs.nodup)
      (by simpa using (arrive_consult w.limiters now parts).1.trans hs.limiters) ?_
    simp only [Accounted, hbody]
    refine ⟨fun t ht heq => ?_, fun l t₁ => stands_arrive hr hsent w.limiters now parts⟩
    obtain ⟨h, hh'⟩ := hs.arrived t (by simpa using ht)
    rw [heq, hh] at hh'
    cases hh'
  simpa using happly

lemma serialized_exit {w : World Cell} (hs : Serialized x g l₀ ts w) :
    Serialized x g l₀ ts w.exit := by
  refine ⟨hs.nodup, hs.limiters, fun t ht => ?_, fun id hid => ?_, fun id h' hh' => ?_⟩
  · obtain ⟨h, hh⟩ := hs.arrived t ht
    exact ⟨h.kill, by simp [World.exit, hh]⟩
  · exact hs.absent id (by simpa [World.exit] using hid)
  · obtain ⟨h, hh, rfl⟩ : ∃ h, w.handlers id = some h ∧ h.kill = h' := by
      simpa [World.exit] using hh'
    obtain ⟨-, hsame⟩ := advance_same (x := x) (g := g) (h := h) w.limiters 0 (s := .drop)
      (by simp)
    refine (hs.accounted id h hh).mono hsame fun l t₁ hstands => ?_
    have hdropped := stands_advance hh hstands w.limiters 0 (s := .drop) (by simp)
    simpa [World.view, World.exit, View.extend, advance, Effect.quiet, hh] using hdropped

/-- **One step**, with the turn it gives. -/
lemma serialized_step {w : World Cell} (hs : Serialized x g l₀ ts w) (e : ℕ × Event) :
    Serialized x g l₀ (ts ++ (turn w e).toList) (step x g w e) := by
  obtain ⟨now, e⟩ := e
  by_cases hexited : w.exited = true
  · simpa [step, turn, hexited] using hs
  cases e with
  | arrive id parts =>
    cases hh : w.handlers id with
    | none => simpa [step, turn, hexited, hh] using serialized_arrive hs hh now parts
    | some h => simpa [step, turn, hexited, hh] using hs
  | signal id s =>
    cases hh : w.handlers id with
    | none => cases s <;> simpa [step, turn, hexited, hh] using hs
    | some h =>
      by_cases hturn : ∀ b p, s = .body b → h.phase ≠ .readingBody p
      · have hnone : turn w (now, .signal id s) = none := by
          cases s with
          | body b =>
            rcases ha : awaiting h with _ | p
            · simp [turn, hexited, hh, ha]
            · exact absurd (awaiting_eq_some.mp ha) (hturn b p rfl)
          | _ => simp [turn, hexited]
        simpa [step, hnone, hexited, hh] using serialized_signal hs hh hturn
      · obtain ⟨b, rfl, p, hp⟩ : ∃ b, s = .body b ∧ ∃ p, h.phase = .readingBody p := by
          simpa using hturn
        simpa [step, turn, hexited, hh, awaiting_eq_some.mpr hp] using
          serialized_body hs hh hp now b
  | exit => simpa [step, turn, hexited] using serialized_exit hs

/-! ### A run in turns -/

variable (x g) in
/-- The requests have been served one at a time, in these turns: each that has come to its turn
once, from the limiters that the turns before it leave, and all with the limiters, the records,
the responses and what was sent that `handle` has for them. -/
structure ServedInTurns (l₀ : RateLimiters Cell) (ts : List Turn) (w : World Cell) : Prop where
  once : (ts.map Turn.id).Nodup
  limiters : w.limiters = serve x g l₀ ts
  arrived : ∀ t ∈ ts, ∃ h, w.handlers t.id = some h
  handled : ∀ id h, w.handlers id = some h →
    Accounted x g l₀ ts id h fun l t₁ => HandledAs x g l t₁ h (w.view id)

lemma turns_append (w : World Cell) (es more : List (ℕ × Event)) :
    turns x g w (es ++ more) = turns x g w es ++ turns x g (run (step x g) w es) more := by
  induction es generalizing w with
  | nil => rfl
  | cons e es ih => simp [turns, ih, List.append_assoc]

/-- **Every run is one in turns.** Whatever the order in which handlers advance, the limiters and
what comes of each request are those of `handle` serving the requests one after the other. A
request has its turn when its body is there, between its arrival and its answer; turns are never
changed later. -/
theorem served_in_turns (x : Crates Cell) (g : Inner) (budgets : RateLimit)
    (es more : List (ℕ × Event)) :
    ServedInTurns x g (World.start x budgets).limiters (turns x g (World.start x budgets) es)
        (run (step x g) (World.start x budgets) es) ∧
      turns x g (World.start x budgets) es <+: turns x g (World.start x budgets) (es ++ more) := by
  refine ⟨?_, by rw [turns_append]; exact List.prefix_append _ _⟩
  have hserialized : Serialized x g (World.start x budgets).limiters
      (turns x g (World.start x budgets) es) (run (step x g) (World.start x budgets) es) := by
    induction es using List.reverseRecOn with
    | nil =>
      exact ⟨List.nodup_nil, rfl, by simp [turns], fun id _ => ⟨rfl, rfl⟩, fun id h hh => by cases hh⟩
    | append_singleton es e ih =>
      have hturns : turns x g (World.start x budgets) (es ++ [e]) =
          turns x g (World.start x budgets) es ++
            (turn (run (step x g) (World.start x budgets) es) e).toList := by
        simp [turns_append, turns]
      have hrun : run (step x g) (World.start x budgets) (es ++ [e]) =
          step x g (run (step x g) (World.start x budgets) es) e := by
        simp [run]
      rw [hturns, hrun]
      exact serialized_step ih e
  exact ⟨hserialized.nodup, hserialized.limiters, hserialized.arrived, fun id h hh =>
    (hserialized.accounted id h hh).mono rfl fun l t₁ hstands => hstands.handledAs⟩

end GatewayAuth.Serial
