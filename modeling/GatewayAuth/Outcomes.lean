import GatewayAuth.Handle

/-!
What the audit trail says of one request. A refusal is recorded and counted, except that of a
body that cannot be read; a forwarded request is recorded as allowed, and so is one that the
upstream was never sent, or whose status was lost with the rest of its answer or behind a redirect.
-/

namespace GatewayAuth.Outcomes

open GatewayAuth.Classify GatewayAuth.Authz GatewayAuth.Forwarding GatewayAuth.Ratelimit
open GatewayAuth.Audit GatewayAuth.Server GatewayAuth.Handle

variable {Cell : Type} {x : Crates Cell} {g : Inner}

/-! ### Refusals -/

def statusOf : Response → ℕ
  | .error status _ _ => status
  | .relay status _ _ => status

/-- The outcome stands for a response with this status. -/
inductive Agrees : Outcome → ℕ → Prop
  | authFailed (reason : String) : Agrees (.authFailed reason) 401
  | unclassified (reason : String) : Agrees (.rejected reason) 400
  | tooLarge (reason : String) : Agrees (.rejected reason) 413
  | denied (reason : String) : Agrees (.denied reason) 403
  | rateLimited : Agrees .rateLimited 429

def refusalCounters : List Metric := [.authFailure, .parseError, .authzDenied, .rateLimited]

/-- The record tells the refusal. -/
structure Tells (r : AuditRecord) (identified : Option Principal) (response : Response) :
    Prop where
  outcome : Agrees r.outcome (statusOf response)
  principal : ∀ p ∈ identified, r.principal = p.name

/-- One record tells the refusal, and one counter counts it. -/
structure Traced (identified : Option Principal) (e : Exit) : Prop where
  record : ∃ r, e.records = [r] ∧ Tells r identified e.response
  counter : ∃ m ∈ refusalCounters, e.metrics = [m]

/-- The principal that a refusal names. -/
def named : Refusal → Option Principal
  | .authFailed _ => none
  | .bodyTooLarge => none
  | .rejected p _ => some p
  | .denied p _ _ => some p
  | .rateLimited p _ => some p

/-- **A refusal leaves its trace, unless it is that of a body.** -/
lemma traced_exit {r : Refusal} (hr : r ≠ .bodyTooLarge) (now : ℕ) (parts : Parts) :
    Traced (named r) (r.exit x now parts) := by
  cases r with
  | authFailed e =>
    exact ⟨⟨_, rfl, .authFailed _, by simp [named]⟩, _, by simp [refusalCounters], rfl⟩
  | bodyTooLarge => exact absurd rfl hr
  | rejected p reason =>
    exact ⟨⟨_, rfl, .unclassified _, by simp [named, auditPreUpstream]⟩, _,
      by simp [refusalCounters], rfl⟩
  | denied p c d =>
    exact ⟨⟨_, rfl, .denied _, by simp [named, auditPreUpstream]⟩, _, by simp [refusalCounters],
      rfl⟩
  | rateLimited p c =>
    exact ⟨⟨_, rfl, .rateLimited, by simp [named, auditPreUpstream]⟩, _,
      by simp [refusalCounters], rfl⟩

lemma not_traced_bodyTooLarge (identified : Option Principal) (now : ℕ) (parts : Parts) :
    ¬Traced identified (Refusal.bodyTooLarge.exit x now parts) := by
  rintro ⟨⟨r, hr, -⟩, -⟩
  cases hr

/-- A body that cannot be read is refused as such, and nothing else is. -/
lemma handleBody_error {l : RateLimiters Cell} {now : ℕ} {parts : Parts} {p : Principal}
    {b : Except Unit Bytes} {r : Refusal} (h : (handleBody x g l now parts p b).result = .error r) :
    (toBytes g.bodyLimit b = none ∧ r = .bodyTooLarge) ∨
      (toBytes g.bodyLimit b ≠ none ∧ r ≠ .bodyTooLarge ∧ named r = some p) := by
  unfold handleBody screen at h
  rcases hb : toBytes g.bodyLimit b with _ | bytes
  · simp only [hb] at h
    cases h
    exact .inl ⟨rfl, rfl⟩
  · right
    simp only [hb] at h
    rcases hc : classifyRequest x parts.method (route parts.pathAndQuery).1 bytes
      g.failClosedOnParseError with reason | c
    · simp only [hc] at h
      cases h
      exact ⟨by simp, by simp, rfl⟩
    · rcases ha : authorize p c g.policy with d | required
      · simp only [hc, ha] at h
        cases h
        exact ⟨by simp, by simp, rfl⟩
      · simp only [hc, ha] at h
        rcases hl : l.check x.governor now c.scope p.name with ⟨_ | _, l'⟩
        · simp only [hl] at h
          cases h
          exact ⟨by simp, by simp, rfl⟩
        · simp only [hl] at h
          cases h

lemma handleHead_error {now : ℕ} {parts : Parts} {r : Refusal}
    (h : handleHead x g now parts = .error r) : ∃ e, r = .authFailed e := by
  unfold handleHead at h
  split at h
  · cases h
  · cases h
    exact ⟨_, rfl⟩

lemma handleBody_unreadable {b : Except Unit Bytes} (hb : toBytes g.bodyLimit b = none)
    (l : RateLimiters Cell) (now : ℕ) (parts : Parts) (p : Principal) :
    (handleBody x g l now parts p b).result = .error .bodyTooLarge := by
  unfold handleBody screen
  rw [hb]

lemma toBytes_long {limit : ℕ} {b : Bytes} (h : limit < b.length) :
    toBytes limit (.ok b) = none :=
  if_neg (by omega)

lemma callForward_not_refused {now : ℕ} {parts : Parts} {call : Call}
    {client : Outgoing → Option Exchange} {identified : Option Principal} {e : Exit} :
    callForward x g now parts call client ≠ .refused identified e := by
  unfold callForward
  rcases call.outgoing g parts with err | out
  · simp
  · simp only
    rcases client out with _ | exchange
    · simp
    · simp

/-- **Every refusal is recorded and counted once, save that of a body.** A request that is
answered without a call of `forward` leaves one record, which agrees with the response and names
the principal that was identified, and increments one of the refusal counters, if and only if it
is not an authenticated request whose body is broken or over the limit. -/
theorem refusal_traced_iff (x : Crates Cell) (g : Inner) (l : RateLimiters Cell) (t₀ t₁ t₂ : ℕ)
    (parts : Parts) (body : Option (Except Unit Bytes)) (client : Outgoing → Option Exchange) :
    (∀ identified e, handle x g l t₀ t₁ t₂ parts body client = .refused identified e →
        Traced identified e) ↔
      ¬((∃ p, handleHead x g t₀ parts = .ok p) ∧
        ∃ b, body = some b ∧ toBytes g.bodyLimit b = none) := by
  refine ⟨?_, ?_⟩
  · rintro h ⟨⟨p, hp⟩, b, rfl, hb⟩
    have hrefused : handle x g l t₀ t₁ t₂ parts (some b) client =
        .refused (some p) (Refusal.bodyTooLarge.exit x t₁ parts) :=
      handle_body_error hp (handleBody_unreadable hb l t₁ parts p)
    exact not_traced_bodyTooLarge _ t₁ parts (h _ _ hrefused)
  · intro hread identified e hrefused
    rcases hp : handleHead x g t₀ parts with r | p
    · rw [handle_head_error hp] at hrefused
      cases hrefused
      obtain ⟨err, rfl⟩ := handleHead_error hp
      exact traced_exit (r := .authFailed err) (by simp) t₀ parts
    · cases body with
      | none =>
        rw [handle_dropped hp] at hrefused
        cases hrefused
      | some b =>
        rcases hb : (handleBody x g l t₁ parts p b).result with r | call
        · rw [handle_body_error hp hb] at hrefused
          cases hrefused
          rcases handleBody_error hb with ⟨hnone, -⟩ | ⟨-, hr, hnamed⟩
          · exact absurd ⟨⟨p, hp⟩, b, rfl, hnone⟩ hread
          · rw [← hnamed]
            exact traced_exit hr t₁ parts
        · rw [handle_call hp hb] at hrefused
          exact absurd hrefused callForward_not_refused

/-- A body of one byte over the limit, from the operator. -/
theorem large_body_untraced :
    handle exampleCrates (exampleGateway true) (.new exampleCrates.governor 600 30) 0 0 0
        (exampleParts .post "/" "write-token")
        (some (.ok (List.replicate (1024 * 1024 + 1) 0))) (fun _ => none) =
      .refused (some operator) ⟨[], [], .error 413 "request body too large" false⟩ ∧
    ¬Traced (some operator) ⟨[], [], .error 413 "request body too large" false⟩ := by
  have hhead : handleHead exampleCrates (exampleGateway true) 0
      (exampleParts .post "/" "write-token") = .ok operator := rfl
  have hlong : (exampleGateway true).bodyLimit <
      (List.replicate (1024 * 1024 + 1) (0 : UInt8)).length := by
    rw [List.length_replicate]
    exact Nat.lt_succ_self _
  have hbody := toBytes_long hlong
  refine ⟨handle_body_error hhead (handleBody_unreadable hbody _ _ _ _), ?_⟩
  exact not_traced_bodyTooLarge (x := exampleCrates) _ 0 (exampleParts .post "/" "write-token")

/-! ### Forwarded requests -/

/-- What a record says of its request is so: if it was allowed, the client has been given a
request to the upstream it is routed to, and the status is that of the upstream's answer. -/
def Truthful (parts : Parts) (h : Handled) : Prop :=
  ∀ e, h.exit = some e → ∀ r ∈ e.records, r.outcome = .allowed →
    ∃ call out exchange, h = .forwarded call out exchange e ∧ (∀ m, exchange ≠ .unbuilt m) ∧
      out.target = (route parts.pathAndQuery).1 ∧ r.upstreamStatus = exchange.status

/-- The client has followed a redirect, behind the status `seen` of the routed upstream, to where
it gets no full answer, or that of another server. -/
def Strays (seen : ℕ) (own : Bool) : Exchange → Prop
  | .answered status _ _ => own = false ∧ status ≠ seen
  | .redirected status own' next => Strays (if own then status else seen) own' next
  | _ => True

/-- What `forward` returns does not say how far the exchange has got. -/
def Misread : Exchange → Prop
  | .unbuilt _ => True
  | .unanswered _ => False
  | .cut _ _ _ => True
  | .answered _ _ _ => False
  | .redirected status own next => Strays status own next

/-- A record is left of the call: it is a write, reads are audited, or it fails. -/
def Audited (g : Inner) (call : Call) (exchange : Exchange) : Prop :=
  call.classification.scope = .write ∨ g.auditReads ∨ exchange.result.toOption = none

/-- A call of `forward` that ends without having sent the request, or is recorded with another
status than that of the routed upstream. -/
def Astray (g : Inner) (parts : Parts) (call : Call) (client : Outgoing → Option Exchange) :
    Prop :=
  (∃ e, g.proxy.baseFor (route parts.pathAndQuery).1 = .error e) ∨
    ∃ out exchange, call.outgoing g parts = .ok out ∧ client out = some exchange ∧
      Misread exchange ∧ Audited g call exchange

lemma outgoing_error (parts : Parts) (call : Call) (e : ProxyError) :
    call.outgoing g parts = .error e ↔
      g.proxy.baseFor (route parts.pathAndQuery).1 = .error e := by
  unfold Call.outgoing
  rcases hb : g.proxy.baseFor (route parts.pathAndQuery).1 with err | base
  · rw [forward_error hb, Except.error.injEq, Except.error.injEq]
  · rw [forward_ok hb]
    simp

/-- The record of a refusal does not say that the request was allowed. -/
lemma exit_not_allowed (r : Refusal) (now : ℕ) (parts : Parts) :
    ∀ rec ∈ (r.exit x now parts).records, rec.outcome ≠ .allowed := by
  cases r <;> simp [Refusal.exit, auditPreUpstream]

lemma truthful_refused (identified : Option Principal) (r : Refusal) (now : ℕ) (parts : Parts) :
    Truthful parts (.refused identified (r.exit x now parts)) := by
  intro e he rec hrec hallowed
  cases he
  exact absurd hallowed (exit_not_allowed r now parts rec hrec)

/-- A call without an upstream is recorded as allowed though nothing was sent. -/
lemma not_truthful_unrouted (now : ℕ) (parts : Parts) (call : Call) (e : ProxyError) :
    ¬Truthful parts (.unrouted call (handleResult x g now parts call (.error e))) := by
  intro h
  obtain ⟨_, _, _, hforwarded, -⟩ := h _ rfl _ (List.mem_singleton_self _) rfl
  cases hforwarded

lemma truthful_dropped (parts : Parts) (given : Option (Call × Outgoing)) :
    Truthful parts (.dropped given) := by
  rintro e ⟨⟩

/-- What has strayed is returned without the last status of the routed upstream. -/
lemma strays_iff {exchange : Exchange} {seen : ℕ} {own : Bool} :
    Strays seen own exchange ↔
      exchange.result.toOption.map ProxyResponse.status ≠
        exchange.statusAfter (some seen) own := by
  induction exchange generalizing seen own with
  | redirected status own' next ih =>
    simp only [Strays, Exchange.result, Exchange.statusAfter]
    rw [ih, apply_ite some]
  | answered status headers body =>
    cases own <;> simp [Strays, Exchange.result, Exchange.statusAfter, Except.toOption]
  | cut status headers e =>
    cases own <;> simp [Strays, Exchange.result, Exchange.statusAfter, Except.toOption]
  | _ => simp [Strays, Exchange.result, Exchange.statusAfter, Except.toOption]

/-- An exchange is misread exactly when nothing was sent, or the status is not that of the routed
upstream. -/
lemma misread_iff {exchange : Exchange} :
    Misread exchange ↔ (∃ m, exchange = .unbuilt m) ∨
      exchange.result.toOption.map ProxyResponse.status ≠ exchange.status := by
  cases exchange with
  | redirected status own next =>
    simp only [Misread, strays_iff, Exchange.result, Exchange.status, Exchange.statusAfter]
    simp
  | _ => simp [Misread, Exchange.result, Exchange.status, Exchange.statusAfter, Except.toOption]

lemma exists_record {call : Call} {exchange : Exchange} (h : Audited g call exchange) (now : ℕ)
    (parts : Parts) : ∃ r, r ∈ (handleResult x g now parts call exchange.result).records := by
  unfold Audited at h
  rcases hresult : exchange.result with e | upstream
  · exact ⟨_, List.mem_singleton_self _⟩
  · have hscope : call.classification.scope = .write ∨ g.auditReads := by
      simpa [hresult, Except.toOption] using h
    simp only [handleResult, if_pos hscope]
    exact ⟨_, List.mem_singleton_self _⟩

lemma audited_of_record {call : Call} {exchange : Exchange} {now : ℕ} {parts : Parts}
    {r : AuditRecord} (h : r ∈ (handleResult x g now parts call exchange.result).records) :
    Audited g call exchange := by
  unfold Audited
  rcases hresult : exchange.result with e | upstream
  · exact .inr (.inr rfl)
  · rw [hresult] at h
    simp only [handleResult] at h
    split_ifs at h with hscope
    · exact hscope.imp_right .inl
    · exact hscope.imp_right .inl
    · cases h

/-- The record of a call that was given to the client is truthful exactly when what is returned
says how far it got. -/
lemma truthful_forwarded (now : ℕ) {parts : Parts} (call : Call) {out : Outgoing}
    (hout : out.target = (route parts.pathAndQuery).1) (exchange : Exchange) :
    Truthful parts
        (.forwarded call out exchange (handleResult x g now parts call exchange.result)) ↔
      ¬(Misread exchange ∧ Audited g call exchange) := by
  rw [misread_iff]
  refine ⟨?_, fun hread e he rec hrec _ => ?_⟩
  · rintro h ⟨hmisread, haudited⟩
    obtain ⟨rec, hrec⟩ := exists_record (x := x) haudited now parts
    obtain ⟨raw, hraw⟩ := eq_auditRecord hrec
    obtain ⟨_, _, _, hforwarded, hbuilt, -, hstatus⟩ := h _ rfl rec hrec (by rw [hraw]; rfl)
    cases hforwarded
    rcases hmisread with ⟨m, hm⟩ | hlost
    · exact hbuilt m hm
    · rw [hraw] at hstatus
      exact hlost hstatus
  · cases he
    have haudited := audited_of_record hrec
    obtain ⟨raw, rfl⟩ := eq_auditRecord hrec
    refine ⟨call, out, exchange, rfl, fun m hm => hread ⟨.inl ⟨m, hm⟩, haudited⟩, hout, ?_⟩
    by_contra hlost
    exact hread ⟨.inr hlost, haudited⟩

/-- The record of a call is truthful exactly when the call does not go astray. -/
lemma truthful_callForward (now : ℕ) (parts : Parts) (call : Call)
    (client : Outgoing → Option Exchange) :
    Truthful parts (callForward x g now parts call client) ↔ ¬Astray g parts call client := by
  unfold callForward Astray
  simp only [← outgoing_error parts call]
  rcases hout : call.outgoing g parts with err | out
  · exact iff_of_false (not_truthful_unrouted now parts call err) (by simp)
  · simp only
    rcases hexchange : client out with _ | exchange
    · exact iff_of_true (truthful_dropped parts _) (by simp [hexchange])
    · rw [truthful_forwarded now call (forward_target hout) exchange]
      simp [hexchange]

/-- **An audit record is truthful unless `forward` goes astray.** A record says that the request
was allowed only if the request was given to the client for the upstream it is routed to, and
then with the last status the upstream has answered with, if and only if the handler does not come
to a call of `forward` whose upstream is not configured, or that leaves a record when its URL cannot
be read, its answer breaks off behind its status, or a redirect is followed to where no full answer
comes from, or that of another server with another status. -/
theorem audit_truthful_iff (x : Crates Cell) (g : Inner) (l : RateLimiters Cell) (t₀ t₁ t₂ : ℕ)
    (parts : Parts) (body : Option (Except Unit Bytes)) (client : Outgoing → Option Exchange) :
    Truthful parts (handle x g l t₀ t₁ t₂ parts body client) ↔
      ¬∃ p b call, handleHead x g t₀ parts = .ok p ∧ body = some b ∧
        (handleBody x g l t₁ parts p b).result = .ok call ∧ Astray g parts call client := by
  rcases hp : handleHead x g t₀ parts with r | p
  · rw [handle_head_error hp]
    exact iff_of_true (truthful_refused _ _ _ _) (by simp)
  cases body with
  | none =>
    rw [handle_dropped hp]
    exact iff_of_true (by simp [Truthful, Handled.exit]) (by simp)
  | some b =>
    rcases hb : (handleBody x g l t₁ parts p b).result with r | call
    · rw [handle_body_error hp hb]
      refine iff_of_true (truthful_refused _ _ _ _) ?_
      rintro ⟨p', b', call, hp', hb', hcall, -⟩
      cases hp'
      cases hb'
      cases hb.symm.trans hcall
    · rw [handle_call hp hb, truthful_callForward, not_iff_not]
      refine ⟨fun h => ⟨p, b, call, rfl, rfl, hb, h⟩, ?_⟩
      rintro ⟨p', b', call', hp', hb', hcall', h⟩
      cases hp'
      cases hb'
      cases hb.symm.trans hcall'
      exact h

/-- A gateway in front of the agent alone. -/
def agentOnly : Inner :=
  { exampleGateway true with proxy := .new ⟨"http://127.0.0.1:18000", none, none⟩ }

/-- A read for the upstream there is none of, and writes whose answer breaks off, is redirected
without end, or is that of another server. -/
theorem allowed_never_sent :
    ¬Truthful (exampleParts .get "/_status/" "read-token")
      (handle exampleCrates agentOnly (.new exampleCrates.governor 600 30) 0 0 0
        (exampleParts .get "/_status/" "read-token") (some (.ok []))
        fun _ => some (.answered 200 [] [])) ∧
    ∀ exchange ∈ ([.cut 200 [] "connection reset",
        .redirected 307 true (.unanswered "too many redirects"),
        .redirected 307 false (.answered 200 [] [])] : List Exchange),
      ¬Truthful (exampleParts .post "/" "write-token")
        (handle exampleCrates agentOnly (.new exampleCrates.governor 600 30) 0 0 0
          (exampleParts .post "/" "write-token") (some (.ok (ascii (requestText setRule))))
          fun _ => some exchange) := by
  refine ⟨fun h => ?_, fun exchange hexchange h => ?_⟩
  · obtain ⟨_, _, _, hforwarded, -⟩ := h _ rfl _ (List.mem_singleton_self _) rfl
    cases hforwarded
  · simp only [List.mem_cons, List.not_mem_nil, or_false] at hexchange
    rcases hexchange with rfl | rfl | rfl <;>
    · obtain ⟨_, _, _, hforwarded, -, -, hstatus⟩ := h _ rfl _ (List.mem_singleton_self _) rfl
      cases hforwarded
      cases hstatus

end GatewayAuth.Outcomes
