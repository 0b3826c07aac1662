import Mathlib
import GatewayAuth.Outcomes

/-!
Prometheus metrics, and their accounts.

Recording helpers keep the metric names in one place. What the recorder shows agrees with the
audit trail and with the responses: a refusal is counted where it is recorded, and a request that
was let through is counted with the status its client has been answered with.
-/

namespace GatewayAuth.Metrics

open GatewayAuth.Lib.Logs GatewayAuth.Lib.Runs
open GatewayAuth.Classify GatewayAuth.Authz GatewayAuth.Forwarding GatewayAuth.Ratelimit
open GatewayAuth.Audit GatewayAuth.Server GatewayAuth.Service GatewayAuth.Outcomes

/-! ### The recorder -/

/-- The name of a metric, with its labels. -/
structure Series where
  name : String
  labels : List (String × String)
  deriving DecidableEq

def requestsTotal (scope principal : String) (status : ℕ) : Series :=
  ⟨"requests_total", [("scope", scope), ("principal", principal), ("status", toString status)]⟩

def proxyLatencySeconds (scope : String) : Series := ⟨"proxy_latency_seconds", [("scope", scope)]⟩

def authFailuresTotal : Series := ⟨"auth_failures_total", []⟩
def authzDeniedTotal : Series := ⟨"authz_denied_total", []⟩
def parseErrorsTotal : Series := ⟨"parse_errors_total", []⟩
def rateLimitedTotal : Series := ⟨"rate_limited_total", []⟩

/-- The counters, and the samples of the histograms, here in milliseconds. -/
structure Recorder where
  counters : Series → ℕ
  histograms : Series → List ℕ

def Recorder.empty : Recorder := ⟨fun _ => 0, fun _ => []⟩

def Recorder.increment (s : Series) (r : Recorder) : Recorder :=
  { r with counters := Function.update r.counters s (r.counters s + 1) }

def Recorder.sample (s : Series) (v : ℕ) (r : Recorder) : Recorder :=
  { r with histograms := Function.update r.histograms s (r.histograms s ++ [v]) }

/-- Record a proxied request and its latency. -/
def recordRequest (scope principal : String) (status latencyMs : ℕ) (r : Recorder) : Recorder :=
  (r.increment (requestsTotal scope principal status)).sample (proxyLatencySeconds scope) latencyMs

def incAuthFailure (r : Recorder) : Recorder := r.increment authFailuresTotal
def incAuthzDenied (r : Recorder) : Recorder := r.increment authzDeniedTotal
def incParseError (r : Recorder) : Recorder := r.increment parseErrorsTotal
def incRateLimited (r : Recorder) : Recorder := r.increment rateLimitedTotal

/-- The helper behind a metric of the handler. -/
def record : Metric → Recorder → Recorder
  | .authFailure => incAuthFailure
  | .authzDenied => incAuthzDenied
  | .parseError => incParseError
  | .rateLimited => incRateLimited
  | .request scope principal status latencyMs => recordRequest scope principal status latencyMs

def recorded (log : List Metric) : Recorder := log.foldl (fun r m => record m r) .empty

/-- The counter that a metric increments. -/
def counted : Metric → Series
  | .authFailure => authFailuresTotal
  | .authzDenied => authzDeniedTotal
  | .parseError => parseErrorsTotal
  | .rateLimited => rateLimitedTotal
  | .request scope principal status _ => requestsTotal scope principal status

/-- The sample that a metric adds to a series. -/
def sampled (s : Series) : Metric → Option ℕ
  | .request scope _ _ latencyMs => if proxyLatencySeconds scope = s then some latencyMs else none
  | _ => none

lemma recorded_snoc (log : List Metric) (m : Metric) :
    recorded (log ++ [m]) = record m (recorded log) := by
  simp [recorded, List.foldl_append]

lemma counters_record (m : Metric) (r : Recorder) (s : Series) :
    (record m r).counters s = r.counters s + if counted m = s then 1 else 0 := by
  have hincrement : (record m r).counters = (r.increment (counted m)).counters := by
    cases m <;> rfl
  rw [hincrement]
  by_cases hs : counted m = s
  · subst hs
    simp [Recorder.increment]
  · simp [Recorder.increment, hs, Function.update_of_ne (Ne.symm hs)]

lemma histograms_record (m : Metric) (r : Recorder) (s : Series) :
    (record m r).histograms s = r.histograms s ++ (sampled s m).toList := by
  cases m with
  | request scope principal status latencyMs =>
    by_cases hs : proxyLatencySeconds scope = s
    · subst hs
      simp [record, recordRequest, Recorder.sample, Recorder.increment, sampled]
    · simp [record, recordRequest, Recorder.sample, Recorder.increment, sampled, hs,
        Function.update_of_ne (Ne.symm hs)]
  | _ => exact (List.append_nil _).symm

/-- A counter counts the metrics that increment it. -/
lemma counters_recorded (log : List Metric) (s : Series) :
    (recorded log).counters s = log.countP fun m => counted m = s := by
  induction log using List.reverseRecOn with
  | nil => rfl
  | append_singleton log m ih =>
    rw [recorded_snoc, counters_record, ih, List.countP_append, List.countP_singleton]
    simp

/-- A histogram has the samples of the metrics, in order. -/
lemma histograms_recorded (log : List Metric) (s : Series) :
    (recorded log).histograms s = log.filterMap (sampled s) := by
  induction log using List.reverseRecOn with
  | nil => rfl
  | append_singleton log m ih =>
    rw [recorded_snoc, histograms_record, ih, List.filterMap_append]
    cases hm : sampled s m <;> simp [hm]

lemma requestsTotal_inj {scope principal scope' principal' : String} {status status' : ℕ} :
    requestsTotal scope principal status = requestsTotal scope' principal' status' ↔
      scope = scope' ∧ principal = principal' ∧ status = status' := by
  simp [requestsTotal, Nat.repr_inj]

/-! ### How a handler ends -/

variable {Cell : Type} {x : Crates Cell} {g : Inner}

/-- The handler ends like this: with a refusal, or with the result of `forward`. -/
inductive Ends (x : Crates Cell) (g : Inner) : Exit → Prop
  | refused (r : Refusal) (now : ℕ) (parts : Parts) : Ends x g (r.exit x now parts)
  | answered (now : ℕ) (parts : Parts) (call : Call) (result : Except ProxyError ProxyResponse) :
      Ends x g (handleResult x g now parts call result)

/-- The response of a handler that has answered. -/
def answer (h : Handler) : Option Response :=
  match h.phase with
  | .responded r => some r
  | _ => none

/-- A handler that is dropped has still answered what it has answered. -/
lemma answer_kill (h : Handler) : answer h.kill = answer h := by
  rcases h.kill_cases with ⟨r, -, hk⟩ | ⟨hr, hk⟩
  · rw [hk]
  · have hnone : answer h = none := by
      unfold answer
      split
      · exact absurd ‹_› (hr _)
      · rfl
    rw [hnone, hk]
    rfl

/-- What a step does for the books of its request: nothing, or all that its end does. -/
inductive Books (x : Crates Cell) (g : Inner) (before : Option Response) (eff : Effect Cell) : Prop
  | kept : eff.records = [] → eff.metrics = [] → answer eff.handler = before → Books x g before eff
  | closed (e : Exit) : Ends x g e → eff.records = e.records → eff.metrics = e.metrics →
      before = none → answer eff.handler = some e.response → Books x g before eff

lemma books_arrive (l : RateLimiters Cell) (now : ℕ) (parts : Parts) :
    Books x g none (arrive x g l now parts) := by
  unfold arrive
  rcases handleHead x g now parts with r | p
  · exact .closed _ (.refused r now parts) rfl rfl rfl rfl
  · exact .kept rfl rfl rfl

lemma books_afterBody (h : Handler) (p : Principal) (now : ℕ) (s : Screened Cell) :
    Books x g none (afterBody x g now h p s) := by
  obtain ⟨result, l, asked⟩ := s
  rcases result with r | call
  · exact .closed _ (.refused r now h.parts) rfl rfl rfl rfl
  · rcases hout : call.outgoing g h.parts with e | out
    · have heff : afterBody x g now h p ⟨.ok call, l, asked⟩ =
          { Effect.finish l h (handleResult x g now h.parts call (.error e)) with
            checks := asked.toList.map fun a => ⟨now, a.1, p.name, a.2⟩ } := by
        simp [afterBody, resume, hout]
      rw [heff]
      exact .closed _ (.answered ..) rfl rfl rfl rfl
    · have heff : afterBody x g now h p ⟨.ok call, l, asked⟩ =
          { Effect.quiet l { h with phase := .sending call out false } with
            checks := asked.toList.map fun a => ⟨now, a.1, p.name, a.2⟩ } := by
        simp [afterBody, resume, hout]
      rw [heff]
      exact .kept rfl rfl rfl

/-- **A step keeps the books**: it closes them as the handler ends, and opens them no more. -/
lemma books_move {l : RateLimiters Cell} {now : ℕ} {h : Handler} {s : Signal} {eff : Effect Cell}
    (hm : Move x g l now h s eff) : Books x g (answer h) eff := by
  cases hm with
  | idle _ _ => exact .kept rfl rfl rfl
  | drop => exact .kept rfl rfl (answer_kill h)
  | body hp =>
    have hnone : answer h = none := by simp [answer, hp]
    rw [hnone]
    exact books_afterBody ..
  | handOver hp => exact .kept rfl rfl (by simp [answer, Effect.quiet, hp])
  | head hp => exact .kept rfl rfl (by simp [answer, Effect.quiet, hp])
  | headFailed hp => exact .closed _ (.answered ..) rfl rfl (by simp [answer, hp]) rfl
  | bytes hp => exact .closed _ (.answered ..) rfl rfl (by simp [answer, hp]) rfl

/-! ### The books of a run -/

/-- The response to a request, if it has been answered. -/
def responseTo (w : World Cell) (id : ℕ) : Option Response := (w.handlers id).bind answer

/-- The books of a request are closed with its response, and empty before. -/
def Booked (x : Crates Cell) (g : Inner) (w : World Cell) (id : ℕ) : Prop :=
  match responseTo w id with
  | some r => ∃ e, Ends x g e ∧ entries w.trail id = e.records ∧ entries w.metrics id = e.metrics ∧
      r = e.response
  | none => entries w.trail id = [] ∧ entries w.metrics id = []

lemma booked_apply {w : World Cell} {id : ℕ} (hw : Booked x g w id) {i : ℕ} {eff : Effect Cell}
    (heff : i = id → Books x g (responseTo w id) eff) : Booked x g (w.apply i eff) id := by
  by_cases hi : i = id
  · subst hi
    have hresponse : responseTo (w.apply i eff) i = answer eff.handler := by
      simp [responseTo, World.apply]
    have htrail : entries (w.apply i eff).trail i = entries w.trail i ++ eff.records := by
      simp [World.apply]
    have hmetrics : entries (w.apply i eff).metrics i = entries w.metrics i ++ eff.metrics := by
      simp [World.apply]
    unfold Booked at hw ⊢
    rw [hresponse, htrail, hmetrics]
    cases heff rfl with
    | kept hr hm hbefore =>
      rw [hr, hm, hbefore, List.append_nil, List.append_nil]
      exact hw
    | closed e hends hr hm hbefore hafter =>
      rw [hbefore] at hw
      rw [hafter, hw.1, hw.2, hr, hm]
      exact ⟨e, hends, rfl, rfl, rfl⟩
  · have hne : id ≠ i := Ne.symm hi
    have hresponse : responseTo (w.apply i eff) id = responseTo w id := by
      simp [responseTo, World.apply, hne]
    unfold Booked at hw ⊢
    rw [hresponse]
    simpa [World.apply, entries_tag_of_ne hne] using hw

lemma booked_step (w : World Cell) (e : ℕ × Event) (id : ℕ) (hw : Booked x g w id) :
    Booked x g (step x g w e) id := by
  rcases step_cases (x := x) (g := g) w e with
    heq | ⟨-, heq⟩ | ⟨i, parts, -, hnone, heq⟩ | ⟨i, h, s, -, hsome, heq⟩
  · rwa [heq]
  · have hresponse : responseTo w.exit id = responseTo w id := by
      unfold responseTo World.exit
      cases hh : w.handlers id <;> simp [hh, answer_kill]
    rw [heq]
    unfold Booked at hw ⊢
    rwa [hresponse]
  · rw [heq]
    refine booked_apply hw fun hi => ?_
    subst hi
    have hbefore : responseTo w i = none := by simp [responseTo, hnone]
    rw [hbefore]
    exact books_arrive ..
  · rw [heq]
    refine booked_apply hw fun hi => ?_
    subst hi
    have hbefore : responseTo w i = answer h := by simp [responseTo, hsome]
    rw [hbefore]
    exact books_move (advance_move ..)

/-- **Books are closed once, as the handler ends.** -/
lemma booked_run (x : Crates Cell) (g : Inner) (budgets : RateLimit) (es : List (ℕ × Event))
    (id : ℕ) : Booked x g (run (step x g) (World.start x budgets) es) id :=
  run_inv (I := fun w : World Cell => Booked x g w id) (fun w e hw => booked_step w e id hw)
    (show Booked x g (World.start x budgets) id from ⟨rfl, rfl⟩) es

/-! ### The accounts -/

/-- The metric that counts a refusal with this outcome. -/
def refusalMetric : Outcome → Option Metric
  | .allowed => none
  | .authFailed _ => some .authFailure
  | .denied _ => some .authzDenied
  | .rejected _ => some .parseError
  | .rateLimited => some .rateLimited

/-- The record of a request that was let through under this scope. -/
def LetThrough (s : Scope) (r : AuditRecord) : Prop := r.outcome = .allowed ∧ r.scope = some s

instance (s : Scope) (r : AuditRecord) : Decidable (LetThrough s r) := inferInstanceAs
  (Decidable (_ ∧ _))

lemma baseScope_inj {s s' : Scope} : baseScope s = baseScope s' ↔ s = s' := by
  cases s <;> cases s' <;> simp [baseScope]

lemma counted_call_ne {m : Metric} (hm : m ∈ refusalCounters) (call : Call) (now status : ℕ) :
    counted (call.metric now status) ≠ counted m := by
  simp only [refusalCounters, List.mem_cons, List.not_mem_nil, or_false] at hm
  rcases hm with rfl | rfl | rfl | rfl <;>
    simp [Call.metric, counted, requestsTotal, authFailuresTotal, authzDeniedTotal,
      parseErrorsTotal, rateLimitedTotal]

/-- A refusal is counted where it is recorded. -/
lemma ends_refusals {e : Exit} (he : Ends x g e) {m : Metric} (hm : m ∈ refusalCounters) :
    (e.metrics.countP fun m' => counted m' = counted m) =
      e.records.countP fun r => refusalMetric r.outcome = some m := by
  cases he with
  | refused r now parts =>
    simp only [refusalCounters, List.mem_cons, List.not_mem_nil, or_false] at hm
    cases r <;> rcases hm with rfl | rfl | rfl | rfl <;>
      simp [Refusal.exit, auditPreUpstream, refusalMetric, counted, authFailuresTotal,
        authzDeniedTotal, parseErrorsTotal, rateLimitedTotal]
  | answered now parts call result =>
    have hrecords : ∀ r ∈ (handleResult x g now parts call result).records,
        ¬refusalMetric r.outcome = some m := by
      intro r hr
      obtain ⟨raw, rfl⟩ := eq_auditRecord hr
      simp [Call.auditRecord, refusalMetric]
    have hzero : ((handleResult x g now parts call result).records.countP fun r =>
        refusalMetric r.outcome = some m) = 0 := List.countP_eq_zero.mpr (by simpa using hrecords)
    rw [hzero, List.countP_eq_zero]
    cases result with
    | error err => simp [handleResult, counted_call_ne hm]
    | ok upstream => simp [handleResult, counted_call_ne hm]

/-- The record of an answered call, if its scope is one that is recorded. -/
lemma countP_answered {s : Scope} (hs : s = .write ∨ g.auditReads) (now : ℕ) (parts : Parts)
    (call : Call) (result : Except ProxyError ProxyResponse) {q : AuditRecord → Bool} {P : Prop}
    [Decidable P] (hq : ∀ raw status, q (call.auditRecord x now parts raw status) = decide P) :
    ((handleResult x g now parts call result).records.countP fun r => LetThrough s r ∧ q r) =
      if call.classification.scope = s ∧ P then 1 else 0 := by
  by_cases hscope : call.classification.scope = s
  · have hrecord : ∃ raw status, (handleResult x g now parts call result).records =
        [call.auditRecord x now parts raw status] := by
      cases result with
      | error e => exact ⟨none, none, rfl⟩
      | ok upstream => exact ⟨_, _, if_pos (hscope ▸ hs)⟩
    obtain ⟨raw, status, hrecord⟩ := hrecord
    have hlet : LetThrough s (call.auditRecord x now parts raw status) := ⟨rfl, by rw [← hscope]; rfl⟩
    rw [hrecord, List.countP_singleton]
    simp [hlet, hq, hscope]
  · rw [if_neg fun h => hscope h.1, List.countP_eq_zero]
    intro r hr
    obtain ⟨raw, rfl⟩ := eq_auditRecord hr
    simp [LetThrough, Call.auditRecord, hscope]

/-- A request that was let through and is recorded is counted with its status. -/
lemma ends_requests {e : Exit} (he : Ends x g e) {s : Scope} (hs : s = .write ∨ g.auditReads)
    (name : String) (status : ℕ) :
    (e.metrics.countP fun m => counted m = requestsTotal (baseScope s) name status) =
      e.records.countP fun r =>
        LetThrough s r ∧ decide (r.principal = name ∧ statusOf e.response = status) := by
  cases he with
  | refused r now parts =>
    cases r <;> simp [Refusal.exit, auditPreUpstream, LetThrough, counted, requestsTotal,
      authFailuresTotal, authzDeniedTotal, parseErrorsTotal, rateLimitedTotal]
  | answered now parts call result =>
    rw [countP_answered hs now parts call result (P := call.principal.name = name ∧
      statusOf (handleResult x g now parts call result).response = status) fun raw st => rfl]
    cases result <;> simp only [handleResult, Call.metric, counted, requestsTotal_inj,
      baseScope_inj, statusOf, List.countP_singleton, decide_eq_true_eq] <;>
      exact if_congr Iff.rfl rfl rfl

/-- Its latency is the sample of the histogram of its scope. -/
lemma ends_samples {e : Exit} (he : Ends x g e) {s : Scope} (hs : s = .write ∨ g.auditReads)
    (v : ℕ) :
    (e.metrics.countP fun m => sampled (proxyLatencySeconds (baseScope s)) m = some v) =
      e.records.countP fun r => LetThrough s r ∧ decide (r.latencyMs = some v) := by
  have hseries : ∀ s', proxyLatencySeconds (baseScope s') = proxyLatencySeconds (baseScope s) ↔
      s' = s := by
    intro s'
    simp [proxyLatencySeconds, baseScope_inj]
  cases he with
  | refused r now parts =>
    cases r <;> simp [Refusal.exit, auditPreUpstream, LetThrough, sampled]
  | answered now parts call result =>
    rw [countP_answered hs now parts call result (P := call.latencyMs now = v)
      fun raw st => by simp [Call.auditRecord]]
    cases result <;> simp [handleResult, Call.metric, sampled, hseries, List.countP_singleton]

/-- The refusal of a body that is too large. -/
def tooLarge : Response := .error 413 "request body too large" false

/-- Every end but the refusal of a body is counted once. -/
lemma ends_counted {e : Exit} (he : Ends x g e) :
    e.metrics.length = if e.response = tooLarge then 0 else 1 := by
  cases he with
  | refused r now parts => cases r <;> simp [Refusal.exit, tooLarge]
  | answered now parts call result => cases result <;> simp [handleResult, tooLarge]

lemma booked_cases {w : World Cell} {id : ℕ} (hw : Booked x g w id) :
    (responseTo w id = none ∧ entries w.trail id = [] ∧ entries w.metrics id = []) ∨
      ∃ e, Ends x g e ∧ responseTo w id = some e.response ∧ entries w.trail id = e.records ∧
        entries w.metrics id = e.metrics := by
  unfold Booked at hw
  rcases hr : responseTo w id with _ | r
  · rw [hr] at hw
    exact .inl ⟨rfl, hw⟩
  · rw [hr] at hw
    obtain ⟨e, he, htrail, hmetrics, rfl⟩ := hw
    exact .inr ⟨e, he, rfl, htrail, hmetrics⟩

/-- **The metrics, the audit trail and the responses agree.** In every run: each counter of
refusals counts the records of its outcome; for writes, and for reads when they are audited, the
counter of requests of a name and a status counts the records of the allowed requests of that name
whose clients have been answered with that status, and the samples of the latency histogram are
the latencies of the records; and a request is counted once if it has been answered, save with the
refusal of its body, and not at all otherwise. -/
theorem counters_reconcile (x : Crates Cell) (g : Inner) (budgets : RateLimit)
    (es : List (ℕ × Event)) :
    let w := run (step x g) (World.start x budgets) es
    let shown := recorded (w.metrics.map Prod.snd)
    (∀ m ∈ refusalCounters, shown.counters (counted m) =
      w.trail.countP fun e => refusalMetric e.2.outcome = some m) ∧
    (∀ s : Scope, s = .write ∨ g.auditReads →
      (∀ name status, shown.counters (requestsTotal (baseScope s) name status) =
        w.trail.countP fun e => LetThrough s e.2 ∧
          decide (e.2.principal = name ∧ (responseTo w e.1).map statusOf = some status)) ∧
      (shown.histograms (proxyLatencySeconds (baseScope s))).Perm
        ((w.trail.filter fun e => LetThrough s e.2).filterMap fun e => e.2.latencyMs)) ∧
    ∀ id, (entries w.metrics id).length =
      if responseTo w id = none ∨ responseTo w id = some tooLarge then 0 else 1 := by
  intro w shown
  have hbooked := fun id => booked_cases (w := w) (booked_run x g budgets es id)
  have hcount : ∀ s, shown.counters s = w.metrics.countP fun e => counted e.2 = s := by
    intro s
    rw [counters_recorded, List.countP_map]
    rfl
  refine ⟨fun m hm => ?_, fun s hs => ⟨fun name status => ?_, ?_⟩, fun id => ?_⟩
  · rw [hcount]
    refine countP_of_entries (p := fun _ m' => counted m' = counted m)
      (q := fun _ r => refusalMetric (AuditRecord.outcome r) = some m) fun id => ?_
    rcases hbooked id with ⟨-, htrail, hmetrics⟩ | ⟨e, he, -, htrail, hmetrics⟩
    · rw [htrail, hmetrics, List.countP_nil, List.countP_nil]
    · rw [htrail, hmetrics]
      exact ends_refusals he hm
  · rw [hcount]
    refine countP_of_entries
      (p := fun _ m => counted m = requestsTotal (baseScope s) name status)
      (q := fun id r => LetThrough s r ∧
        decide (r.principal = name ∧ (responseTo w id).map statusOf = some status)) fun id => ?_
    rcases hbooked id with ⟨-, htrail, hmetrics⟩ | ⟨e, he, hresponse, htrail, hmetrics⟩
    · rw [htrail, hmetrics, List.countP_nil, List.countP_nil]
    · rw [htrail, hmetrics, hresponse, ends_requests he hs]
      simp
  · refine List.perm_iff_count.mpr fun v => ?_
    have hentries :
        (w.metrics.countP fun e => sampled (proxyLatencySeconds (baseScope s)) e.2 = some v) =
          w.trail.countP fun e => LetThrough s e.2 ∧ decide (e.2.latencyMs = some v) := by
      refine countP_of_entries
        (p := fun _ m => sampled (proxyLatencySeconds (baseScope s)) m = some v)
        (q := fun _ r => LetThrough s r ∧ decide (r.latencyMs = some v)) fun id => ?_
      rcases hbooked id with ⟨-, htrail, hmetrics⟩ | ⟨e, he, -, htrail, hmetrics⟩
      · rw [htrail, hmetrics, List.countP_nil, List.countP_nil]
      · rw [htrail, hmetrics]
        exact ends_samples he hs v
    rw [histograms_recorded, List.filterMap_map, List.count_filterMap, List.count_filterMap,
      List.countP_filter]
    refine Eq.trans (List.countP_congr fun e _ => ?_) (hentries.trans
      (List.countP_congr fun e _ => ?_))
    · simp
    · simp [and_comm]
  · rcases hbooked id with ⟨hresponse, -, hmetrics⟩ | ⟨e, he, hresponse, -, hmetrics⟩
    · simp [hresponse, hmetrics]
    · rw [hmetrics, hresponse, ends_counted he]
      simp

end GatewayAuth.Metrics
