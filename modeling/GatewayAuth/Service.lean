import GatewayAuth.Lib.Logs
import GatewayAuth.Server

/-!
The running service: any number of handlers, each advancing from await to await.

A handler waits for its body, then for the HTTP client to start on the request it was handed and to
return a response head, then for the bytes of that response. The redirects that the client follows
by itself lie between these two. At any await a handler may be dropped, with its connection or with
the process. Between awaits handlers share the limiters alone, and ask them once, so a stretch
between two awaits is one step.
-/

namespace GatewayAuth.Service

open GatewayAuth.Lib.Logs
open GatewayAuth.Classify GatewayAuth.Authz GatewayAuth.Forwarding GatewayAuth.Ratelimit
open GatewayAuth.Audit GatewayAuth.Server

/-! ### A handler -/

/-- Where a handler stands: at one of its awaits, or at its end. -/
inductive Phase
  | readingBody (p : Principal)
  | sending (call : Call) (out : Outgoing) (handed : Bool)
  | buffering (call : Call) (status : ℕ) (headers : HeaderMap)
  | responded (response : Response)
  | dropped

/-- A request and its handler. The body is there once it has been read. -/
structure Handler where
  parts : Parts
  arrivedAt : ℕ
  body : Option (Except Unit Bytes)
  phase : Phase

/-- The handler is dropped, unless it has completed. -/
def Handler.kill (h : Handler) : Handler :=
  match h.phase with
  | .responded _ => h
  | _ => { h with phase := .dropped }

lemma Handler.kill_cases (h : Handler) : (∃ r, h.phase = .responded r ∧ h.kill = h) ∨
    (∀ r, h.phase ≠ .responded r) ∧ h.kill = { h with phase := .dropped } := by
  obtain ⟨parts, arrivedAt, body, phase⟩ := h
  cases phase with
  | responded r => exact .inl ⟨r, rfl, rfl⟩
  | _ => exact .inr ⟨by simp, rfl⟩

/-- One question to the limiters and its answer. -/
structure Check where
  time : ℕ
  scope : Scope
  name : String
  allowed : Bool
  deriving DecidableEq

/-- What one step of a handler leaves: the handler and the limiters, and what it adds to the
logs. -/
structure Effect (Cell : Type) where
  handler : Handler
  limiters : RateLimiters Cell
  records : List AuditRecord
  metrics : List Metric
  sent : List (Call × Outgoing)
  checks : List Check

variable {Cell : Type} (x : Crates Cell) (g : Inner)

/-- The step changes the handler alone. -/
def Effect.quiet (l : RateLimiters Cell) (h : Handler) : Effect Cell := ⟨h, l, [], [], [], []⟩

/-- The handler completes. -/
def Effect.finish (l : RateLimiters Cell) (h : Handler) (e : Exit) : Effect Cell :=
  ⟨{ h with phase := .responded e.response }, l, e.records, e.metrics, [], []⟩

/-- What the environment does at an await of a handler. -/
inductive Signal
  | body (b : Except Unit Bytes)
  -- the HTTP client sends the request that it was handed, to follow it on its own
  | handOver
  -- what the client comes back with, behind any redirects
  | head (r : Except String (ℕ × HeaderMap))
  | bytes (r : Except String Bytes)
  | drop

/-- The handler starts, and runs to the await on the body. -/
def arrive (l : RateLimiters Cell) (now : ℕ) (parts : Parts) : Effect Cell :=
  match handleHead x g now parts with
  | .ok p => .quiet l ⟨parts, now, none, .readingBody p⟩
  | .error r => .finish l ⟨parts, now, none, .dropped⟩ (r.exit x now parts)

/-- The handler goes on with its body, to the await on `send` or to its end. -/
def resume (l : RateLimiters Cell) (now : ℕ) (h : Handler) (call : Call) : Effect Cell :=
  match call.outgoing g h.parts with
  | .ok out => .quiet l { h with phase := .sending call out false }
  | .error e => .finish l h (handleResult x g now h.parts call (.error e))

def afterBody (now : ℕ) (h : Handler) (p : Principal) (s : Screened Cell) : Effect Cell :=
  let checks := s.asked.toList.map fun a => ⟨now, a.1, p.name, a.2⟩
  match s.result with
  | .ok call => { resume x g s.limiters now h call with checks := checks }
  | .error r => { Effect.finish s.limiters h (r.exit x now h.parts) with checks := checks }

/-- One step of a handler. A signal it does not wait for changes nothing. -/
def advance (l : RateLimiters Cell) (now : ℕ) (h : Handler) : Signal → Effect Cell
  | .body b =>
    match h.phase with
    | .readingBody p =>
      afterBody x g now { h with body := some b } p (handleBody x g l now h.parts p b)
    | _ => .quiet l h
  | .handOver =>
    match h.phase with
    | .sending call out false =>
      { Effect.quiet l { h with phase := .sending call out true } with sent := [(call, out)] }
    | _ => .quiet l h
  | .head (.ok (status, headers)) =>
    match h.phase with
    | .sending call _ true => .quiet l { h with phase := .buffering call status headers }
    | _ => .quiet l h
  | .head (.error e) =>
    match h.phase with
    | .sending call _ _ =>
      .finish l h (handleResult x g now h.parts call (.error (.upstream e)))
    | _ => .quiet l h
  | .bytes (.ok body) =>
    match h.phase with
    | .buffering call status headers =>
      .finish l h (handleResult x g now h.parts call (.ok ⟨status, headers, body⟩))
    | _ => .quiet l h
  | .bytes (.error e) =>
    match h.phase with
    | .buffering call _ _ =>
      .finish l h (handleResult x g now h.parts call (.error (.upstream e)))
    | _ => .quiet l h
  | .drop => .quiet l h.kill

/-- What a signal can do to a handler. -/
inductive Move (l : RateLimiters Cell) (now : ℕ) (h : Handler) : Signal → Effect Cell → Prop
  | idle {s : Signal} : (∀ b p, s = .body b → h.phase ≠ .readingBody p) → s ≠ .drop →
      Move l now h s (.quiet l h)
  | drop : Move l now h .drop (.quiet l h.kill)
  | body {p : Principal} {b : Except Unit Bytes} : h.phase = .readingBody p →
      Move l now h (.body b)
        (afterBody x g now { h with body := some b } p (handleBody x g l now h.parts p b))
  | handOver {call : Call} {out : Outgoing} : h.phase = .sending call out false →
      Move l now h .handOver { Effect.quiet l { h with phase := .sending call out true } with
        sent := [(call, out)] }
  | head {call : Call} {out : Outgoing} {status : ℕ} {headers : HeaderMap} :
      h.phase = .sending call out true → Move l now h (.head (.ok (status, headers)))
        (.quiet l { h with phase := .buffering call status headers })
  | headFailed {call : Call} {out : Outgoing} {handed : Bool} {e : String} :
      h.phase = .sending call out handed → Move l now h (.head (.error e))
        (.finish l h (handleResult x g now h.parts call (.error (.upstream e))))
  | bytes {call : Call} {status : ℕ} {headers : HeaderMap} {r : Except String Bytes}
      {result : Except ProxyError ProxyResponse} : h.phase = .buffering call status headers →
      Move l now h (.bytes r) (.finish l h (handleResult x g now h.parts call result))

/-- **Every step of a handler is one of these moves.** -/
lemma advance_move (l : RateLimiters Cell) (now : ℕ) (h : Handler) (s : Signal) :
    Move x g l now h s (advance x g l now h s) := by
  rcases hp : h.phase with p | ⟨call, out, handed⟩ | ⟨call, status, headers⟩ | response | _ <;>
    rcases s with b | _ | (e | ⟨st, hs⟩) | (e | b) | _ <;> simp only [advance, hp] <;>
    first
      | exact .drop
      | exact .idle (by simp [hp]) (by simp)
      | exact .body hp
      | exact .headFailed hp
      | exact .bytes hp
      | skip
  · cases handed
    · exact .handOver hp
    · exact .idle (by simp) (by simp)
  · cases handed
    · exact .idle (by simp) (by simp)
    · exact .head hp

/-! ### The service -/

/-- The state of the process, with what it has emitted, handed to the HTTP client and asked so
far. -/
structure World (Cell : Type) where
  limiters : RateLimiters Cell
  handlers : ℕ → Option Handler
  trail : List (ℕ × AuditRecord)
  metrics : List (ℕ × Metric)
  wire : List (ℕ × Call × Outgoing)
  checks : List (ℕ × Check)
  exited : Bool

def World.start (budgets : RateLimit) : World Cell where
  limiters := .new x.governor budgets.readPerMinute budgets.writePerMinute
  handlers := fun _ => none
  trail := []
  metrics := []
  wire := []
  checks := []
  exited := false

/-- The process ends when the serve loop returns; it does not wait for handlers. -/
inductive Event
  | arrive (id : ℕ) (parts : Parts)
  | signal (id : ℕ) (s : Signal)
  | exit

def World.apply (w : World Cell) (id : ℕ) (eff : Effect Cell) : World Cell where
  limiters := eff.limiters
  handlers := Function.update w.handlers id (some eff.handler)
  trail := w.trail ++ tag id eff.records
  metrics := w.metrics ++ tag id eff.metrics
  wire := w.wire ++ tag id eff.sent
  checks := w.checks ++ tag id eff.checks
  exited := w.exited

def World.exit (w : World Cell) : World Cell :=
  { w with handlers := fun id => (w.handlers id).map Handler.kill, exited := true }

/-- One step of the service, at a time in nanoseconds. -/
def step (w : World Cell) (e : ℕ × Event) : World Cell :=
  if w.exited then w
  else
    match e.2 with
    | .arrive id parts =>
      match w.handlers id with
      | none => w.apply id (arrive x g w.limiters e.1 parts)
      | some _ => w
    | .signal id s =>
      match w.handlers id with
      | none => w
      | some h => w.apply id (advance x g w.limiters e.1 h s)
    | .exit => w.exit

variable {x g}

/-- **Every step of the service** leaves it as it is, ends the process, starts a handler, or
advances one. -/
lemma step_cases (w : World Cell) (e : ℕ × Event) :
    step x g w e = w ∨ (e.2 = .exit ∧ step x g w e = w.exit) ∨
      (∃ id parts, e.2 = .arrive id parts ∧ w.handlers id = none ∧
        step x g w e = w.apply id (arrive x g w.limiters e.1 parts)) ∨
      ∃ id h s, e.2 = .signal id s ∧ w.handlers id = some h ∧
        step x g w e = w.apply id (advance x g w.limiters e.1 h s) := by
  obtain ⟨now, e⟩ := e
  by_cases hexited : w.exited = true
  · exact .inl (by simp [step, hexited])
  cases e with
  | arrive id parts =>
    rcases hh : w.handlers id with _ | h
    · exact .inr (.inr (.inl ⟨id, parts, rfl, hh, by simp [step, hexited, hh]⟩))
    · exact .inl (by simp [step, hexited, hh])
  | signal id s =>
    rcases hh : w.handlers id with _ | h
    · exact .inl (by simp [step, hexited, hh])
    · exact .inr (.inr (.inr ⟨id, h, s, rfl, hh, by simp [step, hexited, hh]⟩))
  | exit => exact .inr (.inl ⟨rfl, by simp [step, hexited]⟩)

/-! ### One request of a run -/

/-- All that a run has to do with one request. -/
structure View where
  handler : Option Handler
  records : List AuditRecord
  sent : List (Call × Outgoing)
  checks : List Check

def World.view (w : World Cell) (id : ℕ) : View :=
  ⟨w.handlers id, entries w.trail id, entries w.wire id, entries w.checks id⟩

def View.extend (v : View) (eff : Effect Cell) : View :=
  ⟨some eff.handler, v.records ++ eff.records, v.sent ++ eff.sent, v.checks ++ eff.checks⟩

lemma View.extend_quiet {v : View} {h : Handler} (hv : v.handler = some h)
    (l : RateLimiters Cell) : v.extend (Effect.quiet l h) = v := by
  obtain ⟨handler, records, sent, checks⟩ := v
  simp only at hv
  subst hv
  simp [View.extend, Effect.quiet]

lemma view_start (budgets : RateLimit) (id : ℕ) :
    (World.start x budgets).view id = ⟨none, [], [], []⟩ := rfl

lemma view_apply_self (w : World Cell) (id : ℕ) (eff : Effect Cell) :
    (w.apply id eff).view id = (w.view id).extend eff := by
  simp [World.view, World.apply, View.extend]

lemma view_apply_of_ne (w : World Cell) {id id' : ℕ} (h : id' ≠ id) (eff : Effect Cell) :
    (w.apply id eff).view id' = w.view id' := by
  simp [World.view, World.apply, h, entries_tag_of_ne h]

/-- What an event is to a request: one of its own signals, or the end of the process, which
drops it. -/
def Event.signalTo (id : ℕ) : Event → Option Signal
  | .arrive _ _ => none
  | .signal id' s => if id' = id then some s else none
  | .exit => some .drop

lemma view_step_idle {w : World Cell} {id : ℕ} {h : Handler} (hh : w.handlers id = some h)
    {e : ℕ × Event} (he : w.exited = true ∨ e.2.signalTo id = none) :
    (step x g w e).view id = w.view id := by
  obtain ⟨now, e⟩ := e
  unfold step
  by_cases hexited : w.exited = true
  · simp [hexited]
  have hs : e.signalTo id = none := he.resolve_left hexited
  simp only [hexited]
  cases e with
  | arrive id' parts =>
    rcases hh' : w.handlers id' with _ | h'
    · have hne : id ≠ id' := by
        rintro rfl
        rw [hh] at hh'
        cases hh'
      simp [hh', view_apply_of_ne w hne]
    · simp [hh']
  | signal id' s =>
    have hne : id ≠ id' := by
      rintro rfl
      simp [Event.signalTo] at hs
    rcases hh' : w.handlers id' with _ | h'
    · simp [hh']
    · simp [hh', view_apply_of_ne w hne]
  | exit => cases hs

lemma view_step_signal {w : World Cell} {id : ℕ} {h : Handler} (hh : w.handlers id = some h)
    {e : ℕ × Event} {s : Signal} (hexited : w.exited = false)
    (hs : e.2.signalTo id = some s) :
    (step x g w e).view id = (w.view id).extend (advance x g w.limiters e.1 h s) := by
  obtain ⟨now, e⟩ := e
  unfold step
  simp only [hexited]
  cases e with
  | arrive id' parts => cases hs
  | signal id' s' =>
    obtain ⟨rfl, rfl⟩ : id' = id ∧ s' = s := by simpa [Event.signalTo] using hs
    simp [hh, view_apply_self]
  | exit =>
    cases hs
    simp [World.view, World.exit, View.extend, advance, Effect.quiet, hh]

/-- **A step is local to a request.** A request there is does not change, or advances by the
event's signal to it. -/
lemma view_step_some {w : World Cell} {id : ℕ} {h : Handler} (hh : w.handlers id = some h)
    (e : ℕ × Event) :
    (step x g w e).view id = w.view id ∨ ∃ s, w.exited = false ∧ e.2.signalTo id = some s ∧
      (step x g w e).view id = (w.view id).extend (advance x g w.limiters e.1 h s) := by
  rcases hs : e.2.signalTo id with _ | s
  · exact .inl (view_step_idle hh (.inr hs))
  · by_cases hexited : w.exited = true
    · exact .inl (view_step_idle hh (.inl hexited))
    · have hexited' : w.exited = false := by simpa using hexited
      exact .inr ⟨s, hexited', rfl, view_step_signal hh hexited' hs⟩

/-- A request there is not yet stays away, or arrives. -/
lemma view_step_none {w : World Cell} {id : ℕ} (hh : w.handlers id = none) (e : ℕ × Event) :
    (step x g w e).view id = w.view id ∨ ∃ parts, (step x g w e).view id =
      (w.view id).extend (arrive x g w.limiters e.1 parts) := by
  obtain ⟨now, e⟩ := e
  unfold step
  by_cases hexited : w.exited = true
  · simp [hexited]
  simp only [hexited]
  cases e with
  | arrive id' parts =>
    by_cases hid : id' = id
    · subst hid
      right
      exact ⟨parts, by simp [hh, view_apply_self]⟩
    · left
      rcases hh' : w.handlers id' with _ | h'
      · simp [hh', view_apply_of_ne w (Ne.symm hid)]
      · simp [hh']
  | signal id' s =>
    left
    rcases hh' : w.handlers id' with _ | h'
    · simp [hh']
    · have hne : id ≠ id' := by
        rintro rfl
        rw [hh] at hh'
        cases hh'
      simp [hh', view_apply_of_ne w hne]
  | exit =>
    left
    simp [World.view, World.exit, hh]

/-- **The invariant rule for one request**: what its own steps keep, every interleaving keeps. -/
lemma view_inv_advance {I : View → Prop}
    (harrive : ∀ v (l : RateLimiters Cell) now parts, v.handler = none → I v →
      I (v.extend (arrive x g l now parts)))
    (hadvance : ∀ v h (l : RateLimiters Cell) now s, v.handler = some h → I v →
      I (v.extend (advance x g l now h s))) (id : ℕ) (w : World Cell) (e : ℕ × Event)
    (h : I (w.view id)) : I ((step x g w e).view id) := by
  rcases hh : w.handlers id with _ | hd
  · rcases view_step_none (x := x) (g := g) hh e with heq | ⟨parts, heq⟩
    · rwa [heq]
    · rw [heq]
      exact harrive _ _ _ _ hh h
  · rcases view_step_some (x := x) (g := g) hh e with heq | ⟨s, -, -, heq⟩
    · rwa [heq]
    · rw [heq]
      exact hadvance _ _ _ _ _ hh h

/-- The rule for an invariant that the moves keep. -/
lemma view_inv {I : View → Prop}
    (harrive : ∀ v (l : RateLimiters Cell) now parts, v.handler = none → I v →
      I (v.extend (arrive x g l now parts)))
    (hmove : ∀ v h (l : RateLimiters Cell) now s eff, v.handler = some h →
      Move x g l now h s eff → I v → I (v.extend eff)) (id : ℕ) (w : World Cell) (e : ℕ × Event)
    (h : I (w.view id)) : I ((step x g w e).view id) :=
  view_inv_advance harrive
    (fun v hd l now s hv hi => hmove v hd l now s _ hv (advance_move x g l now hd s) hi) id w e h

end GatewayAuth.Service
