import GatewayAuth.Lib.Runs
import GatewayAuth.Service

/-!
The handler from its start to its end, for one request on its own. A run may do anything between
two steps of a handler, but what a handler emits and answers in a run is what it does here.
-/

namespace GatewayAuth.Handle

open GatewayAuth.Lib.Runs
open GatewayAuth.Classify GatewayAuth.Authz GatewayAuth.Forwarding GatewayAuth.Ratelimit
open GatewayAuth.Server GatewayAuth.Service

/-- What comes of a request given to the HTTP client. -/
inductive Exchange
  -- its URL cannot be read, so that there is nothing to send
  | unbuilt (e : String)
  | unanswered (e : String)
  | cut (status : ℕ) (headers : HeaderMap) (e : String)
  | answered (status : ℕ) (headers : HeaderMap) (body : Bytes)
  -- the client follows a redirect, back to the upstream the request is routed to or elsewhere
  | redirected (status : ℕ) (own : Bool) (next : Exchange)

/-- What `forward` returns: what the client makes of the last of its requests. -/
def Exchange.result : Exchange → Except ProxyError ProxyResponse
  | .unbuilt e => .error (.upstream e)
  | .unanswered e => .error (.upstream e)
  | .cut _ _ e => .error (.upstream e)
  | .answered status headers body => .ok ⟨status, headers, body⟩
  | .redirected _ _ next => next.result

/-- The last status of the routed upstream, which has answered with `seen` before. What answers
next is the routed upstream itself if `own`. -/
def Exchange.statusAfter (seen : Option ℕ) (own : Bool) : Exchange → Option ℕ
  | .unbuilt _ => seen
  | .unanswered _ => seen
  | .cut status _ _ => if own then some status else seen
  | .answered status _ _ => if own then some status else seen
  | .redirected status own' next => next.statusAfter (if own then some status else seen) own'

/-- The status the upstream has answered with, the last of them if it was asked again. -/
def Exchange.status (exchange : Exchange) : Option ℕ := exchange.statusAfter none true

/-- How a request fares: it is dropped at an await, with what the client was given by then,
refused to the principal it was identified as, without an upstream, or given to the client. -/
inductive Handled
  | dropped (given : Option (Call × Outgoing))
  | refused (identified : Option Principal) (exit : Exit)
  | unrouted (call : Call) (exit : Exit)
  | forwarded (call : Call) (out : Outgoing) (exchange : Exchange) (exit : Exit)

def Handled.exit : Handled → Option Exit
  | .dropped _ => none
  | .refused _ e => some e
  | .unrouted _ e => some e
  | .forwarded _ _ _ e => some e

/-- What the client was given. -/
def Handled.given : Handled → Option (Call × Outgoing)
  | .dropped given => given
  | .forwarded call out _ _ => some (call, out)
  | _ => none

variable {Cell : Type} (x : Crates Cell) (g : Inner)

/-- The call of `forward` and the rest of the handler. -/
def callForward (now : ℕ) (parts : Parts) (call : Call) (client : Outgoing → Option Exchange) :
    Handled :=
  match call.outgoing g parts with
  | .error e => .unrouted call (handleResult x g now parts call (.error e))
  | .ok out =>
    match client out with
    | none => .dropped (some (call, out))
    | some exchange =>
      .forwarded call out exchange (handleResult x g now parts call exchange.result)

/-- The handler, which starts at `t₀`, has the body at `t₁` and the result of `forward` at `t₂`.
Without a body or an exchange it was dropped waiting for it. -/
def handle (l : RateLimiters Cell) (t₀ t₁ t₂ : ℕ) (parts : Parts)
    (body : Option (Except Unit Bytes)) (client : Outgoing → Option Exchange) : Handled :=
  match handleHead x g t₀ parts with
  | .error r => .refused none (r.exit x t₀ parts)
  | .ok p =>
    match body with
    | none => .dropped none
    | some b =>
      match (handleBody x g l t₁ parts p b).result with
      | .error r => .refused (some p) (r.exit x t₁ parts)
      | .ok call => callForward x g t₂ parts call client

/-- The limiters it leaves. -/
def limitersAfter (l : RateLimiters Cell) (t₀ t₁ : ℕ) (parts : Parts)
    (body : Option (Except Unit Bytes)) : RateLimiters Cell :=
  match handleHead x g t₀ parts with
  | .error _ => l
  | .ok p =>
    match body with
    | none => l
    | some b => (handleBody x g l t₁ parts p b).limiters

/-! ### Where a handler is in a run -/

variable {x g} {l : RateLimiters Cell} {t₀ t₁ t₂ : ℕ} {parts : Parts} {p : Principal}
  {body : Option (Except Unit Bytes)} {b : Except Unit Bytes} {client : Outgoing → Option Exchange}

lemma handle_head_error {r : Refusal} (h : handleHead x g t₀ parts = .error r) :
    handle x g l t₀ t₁ t₂ parts body client = .refused none (r.exit x t₀ parts) := by
  unfold handle
  rw [h]

lemma handle_dropped (h : handleHead x g t₀ parts = .ok p) :
    handle x g l t₀ t₁ t₂ parts none client = .dropped none := by
  unfold handle
  rw [h]

lemma handle_body_error (h : handleHead x g t₀ parts = .ok p) {r : Refusal}
    (hb : (handleBody x g l t₁ parts p b).result = .error r) :
    handle x g l t₀ t₁ t₂ parts (some b) client = .refused (some p) (r.exit x t₁ parts) := by
  unfold handle
  rw [h]
  simp only [hb]

lemma handle_call (h : handleHead x g t₀ parts = .ok p) {call : Call}
    (hb : (handleBody x g l t₁ parts p b).result = .ok call) :
    handle x g l t₀ t₁ t₂ parts (some b) client = callForward x g t₂ parts call client := by
  unfold handle
  rw [h]
  simp only [hb]

/-- The handler has come to this call of `forward`. -/
def Called (x : Crates Cell) (g : Inner) (h : Handler) (call : Call) : Prop :=
  ∃ p b l t₁, handleHead x g h.arrivedAt h.parts = .ok p ∧ h.body = some b ∧
    (handleBody x g l t₁ h.parts p b).result = .ok call

/-- The handler has ended as `handle` does: with its records and its response, and with nothing on
the wire but what `handle` gives the client. -/
def Ended (x : Crates Cell) (g : Inner) (h : Handler) (v : View) (r : Response) : Prop :=
  ∃ l t₁ t₂ client e, (handle x g l h.arrivedAt t₁ t₂ h.parts h.body client).exit = some e ∧
    v.records = e.records ∧ r = e.response ∧
    ∀ s ∈ v.sent, (handle x g l h.arrivedAt t₁ t₂ h.parts h.body client).given = some s

/-- What has been done for a request, by where its handler stands. -/
def Follows (x : Crates Cell) (g : Inner) (v : View) : Prop :=
  match v.handler with
  | none => v.records = [] ∧ v.sent = []
  | some h =>
    match h.phase with
    | .readingBody p =>
      v.records = [] ∧ v.sent = [] ∧ handleHead x g h.arrivedAt h.parts = .ok p
    | .sending call out _ => v.records = [] ∧ (∀ s ∈ v.sent, s = (call, out)) ∧
        Called x g h call ∧ call.outgoing g h.parts = .ok out
    | .buffering call _ _ => v.records = [] ∧ Called x g h call ∧
        ∃ out, call.outgoing g h.parts = .ok out ∧ ∀ s ∈ v.sent, s = (call, out)
    | .responded r => Ended x g h v r
    | .dropped => v.records = []

lemma records_of_follows {v : View} {h : Handler} (hv : v.handler = some h)
    (hf : Follows x g v) (hp : ∀ r, h.phase ≠ .responded r) : v.records = [] := by
  unfold Follows at hf
  rw [hv] at hf
  obtain ⟨parts, arrivedAt, body, phase⟩ := h
  cases phase with
  | readingBody p => exact hf.1
  | sending call out handed => exact hf.1
  | buffering call status headers => exact hf.1
  | responded r => exact absurd rfl (hp r)
  | dropped => exact hf

/-- A handler that completes as `handle` does has ended. -/
lemma follows_finish {v : View} {parts : Parts} {t₀ t₁ t₂ : ℕ} {body : Option (Except Unit Bytes)}
    {client : Outgoing → Option Exchange} {e : Exit} (hr : v.records = [])
    (hexit : (handle x g l t₀ t₁ t₂ parts body client).exit = some e)
    (hgiven : ∀ s ∈ v.sent, (handle x g l t₀ t₁ t₂ parts body client).given = some s)
    {eff : Effect Cell}
    (heff : eff.handler = ⟨parts, t₀, body, .responded e.response⟩) (hrec : eff.records = e.records)
    (hsent : eff.sent = []) : Follows x g (v.extend eff) := by
  simp only [Follows, View.extend, heff]
  refine ⟨l, t₁, t₂, client, e, hexit, ?_, rfl, ?_⟩
  · rw [hr, hrec, List.nil_append]
  · rw [hsent, List.append_nil]
    exact hgiven

lemma follows_arrive {v : View} (hv : v.handler = none) (hf : Follows x g v)
    (l : RateLimiters Cell) (now : ℕ) (parts : Parts) :
    Follows x g (v.extend (arrive x g l now parts)) := by
  obtain ⟨hr, hs⟩ : v.records = [] ∧ v.sent = [] := by
    unfold Follows at hf
    rwa [hv] at hf
  unfold arrive
  rcases hhead : handleHead x g now parts with r | p
  · have hexit : (handle x g l now now now parts none fun _ => none).exit =
        some (r.exit x now parts) := by
      rw [handle_head_error hhead]
      rfl
    exact follows_finish hr hexit (by simp [hs]) rfl rfl rfl
  · simp [Follows, View.extend, Effect.quiet, hr, hs, hhead]

lemma follows_afterBody {v : View} {h : Handler} (hr : v.records = []) (hs : v.sent = [])
    (hhead : handleHead x g h.arrivedAt h.parts = .ok p) (l : RateLimiters Cell) (now : ℕ)
    (b : Except Unit Bytes) :
    Follows x g (v.extend
      (afterBody x g now { h with body := some b } p (handleBody x g l now h.parts p b))) := by
  unfold afterBody
  rcases hb : (handleBody x g l now h.parts p b).result with r | call
  · have hexit : (handle x g l h.arrivedAt now now h.parts (some b) fun _ => none).exit =
        some (r.exit x now h.parts) := by
      rw [handle_body_error hhead hb]
      rfl
    exact follows_finish hr hexit (by simp [hs]) rfl rfl rfl
  · rcases hout : call.outgoing g h.parts with e | out
    · have hexit : (handle x g l h.arrivedAt now now h.parts (some b) fun _ => none).exit =
          some (handleResult x g now h.parts call (.error e)) := by
        rw [handle_call hhead hb, callForward, hout]
        rfl
      simp only [resume, hout]
      exact follows_finish hr hexit (by simp [hs]) rfl rfl rfl
    · simp only [Follows, View.extend, resume, hout, Effect.quiet, List.append_nil]
      exact ⟨hr, by simp [hs], ⟨p, b, l, now, hhead, rfl, hb⟩, trivial⟩

/-- The result of an exchange ends the handler. -/
lemma follows_result {v : View} {h : Handler} {call : Call} {out : Outgoing} (hr : v.records = [])
    (hcalled : Called x g h call) (hout : call.outgoing g h.parts = .ok out)
    (hs : ∀ s ∈ v.sent, s = (call, out)) (l : RateLimiters Cell) (now : ℕ) (exchange : Exchange) :
    Follows x g (v.extend
      (Effect.finish l h (handleResult x g now h.parts call exchange.result))) := by
  obtain ⟨p, b, l', t₁, hhead, hbody, hb⟩ := hcalled
  have hhandle : handle x g l' h.arrivedAt t₁ now h.parts h.body (fun _ => some exchange) =
      .forwarded call out exchange (handleResult x g now h.parts call exchange.result) := by
    rw [hbody, handle_call hhead hb, callForward, hout]
  have hexit := congrArg Handled.exit hhandle
  refine follows_finish hr hexit (fun s hmem => ?_) rfl rfl rfl
  rw [hhandle, hs s hmem]
  rfl

lemma follows_advance {v : View} {h : Handler} (hv : v.handler = some h) (hf : Follows x g v)
    (l : RateLimiters Cell) (now : ℕ) (s : Signal) :
    Follows x g (v.extend (advance x g l now h s)) := by
  have hrecords := records_of_follows hv hf
  have hphase := hf
  unfold Follows at hphase
  rw [hv] at hphase
  simp only at hphase
  have hm := advance_move x g l now h s
  generalize heff : advance x g l now h s = eff at hm ⊢
  cases hm with
  | idle _ _ => rwa [View.extend_quiet hv]
  | drop =>
    rcases h.kill_cases with ⟨r, -, hk⟩ | ⟨hp, hk⟩
    · rw [hk]
      rwa [View.extend_quiet hv]
    · rw [hk]
      simpa [Follows, View.extend, Effect.quiet] using hrecords hp
  | @body p b hp =>
    rw [hp] at hphase
    obtain ⟨hr, hs, hhead⟩ := hphase
    exact follows_afterBody hr hs hhead l now b
  | @handOver call out hp =>
    rw [hp] at hphase
    obtain ⟨hr, hs, hcalled, hout⟩ := hphase
    simp only [Follows, View.extend, Effect.quiet, List.append_nil]
    refine ⟨hr, fun s hmem => ?_, hcalled, hout⟩
    rcases List.mem_append.mp hmem with hold | hnew
    · exact hs s hold
    · exact List.mem_singleton.mp hnew
  | @head call out status headers hp =>
    rw [hp] at hphase
    obtain ⟨hr, hs, hcalled, hout⟩ := hphase
    simp only [Follows, View.extend, Effect.quiet, List.append_nil]
    exact ⟨hr, hcalled, out, hout, hs⟩
  | @headFailed call out handed e hp =>
    rw [hp] at hphase
    obtain ⟨hr, hs, hcalled, hout⟩ := hphase
    exact follows_result hr hcalled hout hs l now (.unanswered e)
  | @bytes call status headers r result hp =>
    rw [hp] at hphase
    obtain ⟨hr, hcalled, out, hout, hs⟩ := hphase
    rw [← heff]
    -- the result is the one that the signal carries
    cases r with
    | error e =>
      simp only [advance, hp]
      exact follows_result hr hcalled hout hs l now (.cut status headers e)
    | ok bytes =>
      simp only [advance, hp]
      exact follows_result hr hcalled hout hs l now (.answered status headers bytes)

/-- **A handler of a run ends as `handle` does**: when it has responded, its records, its response
and what it has put on the wire are those of `handle` at some limiters, times and answer of the
client, whatever the rest of the run; and until then it has recorded nothing. -/
theorem run_handled (x : Crates Cell) (g : Inner) (budgets : RateLimit) (es : List (ℕ × Event))
    (id : ℕ) {h : Handler}
    (hh : (run (step x g) (World.start x budgets) es).handlers id = some h) :
    ((∀ r, h.phase ≠ .responded r) →
      ((run (step x g) (World.start x budgets) es).view id).records = []) ∧
    ∀ r, h.phase = .responded r →
      Ended x g h ((run (step x g) (World.start x budgets) es).view id) r := by
  have hfollows : Follows x g ((run (step x g) (World.start x budgets) es).view id) := by
    refine run_inv (I := fun w : World Cell => Follows x g (w.view id)) (fun w e hw => ?_) ?_ es
    · exact view_inv_advance (fun _ l now parts hv hf => follows_arrive hv hf l now parts)
        (fun _ _ l now s hv hf => follows_advance hv hf l now s) id w e hw
    · rw [view_start]
      exact ⟨rfl, rfl⟩
  have hview : ((run (step x g) (World.start x budgets) es).view id).handler = some h := hh
  refine ⟨fun hp => records_of_follows hview hfollows hp, fun r hr => ?_⟩
  unfold Follows at hfollows
  rw [hview] at hfollows
  simpa only [hr] using hfollows

end GatewayAuth.Handle
