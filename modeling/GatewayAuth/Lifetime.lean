import GatewayAuth.Verification
import GatewayAuth.Outcomes
import GatewayAuth.Wire

/-!
How long a JWT opens the gateway: for one stretch of time, and always to the same principal.

Its claims do not change, so the keys and the names that it is compared with decide alike at all
times, and the two times it carries bound the stretch. What a request with the token can do in a
run depends on when it has arrived, and on nothing else in the run.
-/

namespace GatewayAuth.Lifetime

open GatewayAuth.Lib.Runs
open GatewayAuth.JsonBody GatewayAuth.Classify GatewayAuth.Authz GatewayAuth.Forwarding
open GatewayAuth.Jwt GatewayAuth.Auth GatewayAuth.Verification GatewayAuth.Audit
open GatewayAuth.Ratelimit GatewayAuth.Server GatewayAuth.Service GatewayAuth.Outcomes

/-! ### When a token is accepted -/

variable {j : Jsonwebtoken} {payload : String → Option Json}
  {signed : String → DecodingKey → List Algorithm → Prop} {b : JwtBackend}

/-- **The keys decide once and for all**: a token is accepted for its claims, if some key has
signed it, whenever the claims are valid. -/
lemma verify_eq_ok (hspec : DecodeSpec j payload signed) {now : ℕ} {token : String}
    {p : Principal} : b.verify j now token = .ok p ↔ ∃ c, payload token = some c ∧
      (∃ key ∈ b.keys, signed token key b.validation.algorithms) ∧
      validate j now b.validation c = true ∧ p = b.principalFromClaims c := by
  have hkeys : ∀ keys last, tryKeys j b now token keys last = .ok p ↔
      ∃ c, payload token = some c ∧ (∃ key ∈ keys, signed token key b.validation.algorithms) ∧
        validate j now b.validation c = true ∧ p = b.principalFromClaims c := by
    intro keys
    induction keys with
    | nil => simp [tryKeys]
    | cons key keys ih =>
      intro last
      unfold tryKeys
      rcases hd : j.decode now token key b.validation with e | c
      · have hrefused : ∀ c, payload token = some c → validate j now b.validation c = true →
            ¬signed token key b.validation.algorithms := by
          intro c hpayload hvalid hsigned
          have hok := (hspec.ok_iff now token key b.validation c).mpr ⟨hpayload, hsigned, hvalid⟩
          rw [hd] at hok
          cases hok
        simp only
        rw [ih]
        refine exists_congr fun c => ?_
        simp only [List.mem_cons, exists_eq_or_imp]
        refine ⟨?_, ?_⟩
        · rintro ⟨hpayload, hsigned, hvalid, hp⟩
          exact ⟨hpayload, .inr hsigned, hvalid, hp⟩
        · rintro ⟨hpayload, hsigned | hsigned, hvalid, hp⟩
          · exact absurd hsigned (hrefused c hpayload hvalid)
          · exact ⟨hpayload, hsigned, hvalid, hp⟩
      · obtain ⟨hpayload, hsigned, hvalid⟩ := (hspec.ok_iff now token key b.validation c).mp hd
        simp only [Except.ok.injEq]
        refine ⟨?_, ?_⟩
        · rintro rfl
          exact ⟨c, hpayload, ⟨key, List.mem_cons_self, hsigned⟩, hvalid, rfl⟩
        · rintro ⟨c', hpayload', -, -, rfl⟩
          rw [Option.some.inj (hpayload.symm.trans hpayload')]
  exact hkeys b.keys none

/-- The stretch of seconds in which the claims open the gateway, to this principal. -/
structure Stretch (j : Jsonwebtoken) (b : JwtBackend) (c : Json) (p : Principal) (lo hi : ℕ) :
    Prop where
  principal : p = b.principalFromClaims c
  opens : lo = ((c.get? "nbf").bind (numericDate j)).getD 0 - 60
  closes : ∃ e, (c.get? "exp").bind (numericDate j) = some e ∧ hi = e + 60

/-- The token opens the gateway in these seconds, to this principal; in none if it never does. -/
def Opens (j : Jsonwebtoken) (payload : String → Option Json) (b : JwtBackend) (token : String)
    (p : Principal) (lo hi : ℕ) : Prop :=
  (hi < lo ∨ ∃ c, payload token = some c ∧ Stretch j b c p lo hi) ∧
    ∀ now q, b.verify j now token = .ok q ↔ q = p ∧ lo ≤ now ∧ now ≤ hi

/-- **A token is accepted for one stretch of time.** -/
lemma exists_opens {cfg : JwtConfig} (hbuilt : BuiltFrom j cfg b)
    (hspec : DecodeSpec j payload signed) (token : String) :
    ∃ p lo hi, Opens j payload b token p lo hi := by
  obtain ⟨alg, hvalidation⟩ := hbuilt.validation
  by_cases hever : ∃ now q, b.verify j now token = .ok q
  · obtain ⟨now₀, q₀, hq₀⟩ := hever
    obtain ⟨c, hpayload, hsigned, hvalid, -⟩ := (verify_eq_ok hspec).mp hq₀
    rw [hvalidation] at hvalid
    obtain ⟨⟨e, he, -⟩, -, hnames⟩ := validate_built.mp hvalid
    refine ⟨b.principalFromClaims c, _, e + 60, .inr ⟨c, hpayload, rfl, rfl, e, he, rfl⟩,
      fun now q => ?_⟩
    rw [verify_eq_ok hspec, hvalidation]
    have htimes : validate j now (buildValidation cfg alg) c = true ↔
        ((c.get? "nbf").bind (numericDate j)).getD 0 - 60 ≤ now ∧ now ≤ e + 60 := by
      rw [validate_built]
      refine ⟨?_, ?_⟩
      · rintro ⟨⟨e', he', hle⟩, hnbf, -⟩
        cases he.symm.trans he'
        refine ⟨?_, hle⟩
        rcases hn : (c.get? "nbf").bind (numericDate j) with _ | n
        · simp
        · have hle' := hnbf n hn
          rw [Option.getD_some]
          omega
      · rintro ⟨hlo, hhi⟩
        refine ⟨⟨e, he, hhi⟩, fun n hn => ?_, hnames⟩
        rw [hn, Option.getD_some] at hlo
        omega
    refine ⟨?_, ?_⟩
    · rintro ⟨c', hpayload', -, hvalid', rfl⟩
      cases hpayload.symm.trans hpayload'
      exact ⟨rfl, htimes.mp hvalid'⟩
    · rintro ⟨rfl, hin⟩
      exact ⟨c, hpayload, hvalidation ▸ hsigned, htimes.mpr hin, rfl⟩
  · refine ⟨.anonymous, 1, 0, .inl (by omega), fun now q => iff_of_false ?_ (by omega)⟩
    exact fun hq => hever ⟨now, q, hq⟩

/-! ### What is done for a request -/

variable {Cell : Type} {x : Crates Cell} {g : Inner}

/-- The answer is not that of the gateway to a request without a valid credential. -/
def Welcome (r : Response) : Prop := ∀ message www, r ≠ .error 401 message www

/-- The handler goes on for this principal, or has ended without turning it away. -/
def Goes (p : Principal) : Phase → Prop
  | .readingBody q => q = p
  | .sending call _ _ => call.principal = p
  | .buffering call _ _ => call.principal = p
  | .responded r => Welcome r
  | .dropped => True

/-- The record is of a request of this principal. -/
def RecordOf (p : Principal) (r : AuditRecord) : Prop :=
  r.principal = p.name ∧ ∀ e, r.outcome ≠ .authFailed e

/-- All that is done for a request is in the name of this principal, and it is not turned away. -/
structure InName (p : Principal) (v : View) (h : Handler) : Prop where
  phase : Goes p h.phase
  records : ∀ r ∈ v.records, RecordOf p r
  sent : ∀ s ∈ v.sent, s.1.principal = p
  checks : ∀ c ∈ v.checks, c.name = p.name

/-- The request was answered as unauthorized, with one record and nothing else. -/
structure TurnedAway (v : View) (h : Handler) : Prop where
  phase : h.phase = .responded (.error 401 "unauthorized" true)
  records : ∃ r e, v.records = [r] ∧ r.principal = "-" ∧ r.outcome = .authFailed e
  sent : v.sent = []
  checks : v.checks = []

/-- **The head decides**: a request is turned away there, or goes on in one name. -/
def Decided (x : Crates Cell) (g : Inner) (v : View) : Prop :=
  match v.handler with
  | none => v.records = [] ∧ v.sent = [] ∧ v.checks = []
  | some h =>
    match handleHead x g h.arrivedAt h.parts with
    | .ok p => InName p v h
    | .error _ => TurnedAway v h

lemma Decided.inName {v : View} {h : Handler} {p : Principal} (hd : Decided x g v)
    (hv : v.handler = some h) (hhead : handleHead x g h.arrivedAt h.parts = .ok p) :
    InName p v h := by
  unfold Decided at hd
  simpa only [hv, hhead] using hd

lemma Decided.turnedAway {v : View} {h : Handler} {r : Refusal} (hd : Decided x g v)
    (hv : v.handler = some h) (hhead : handleHead x g h.arrivedAt h.parts = .error r) :
    TurnedAway v h := by
  unfold Decided at hd
  simpa only [hv, hhead] using hd

lemma recordOf_result {p : Principal} {call : Call} (hcall : call.principal = p) (now : ℕ)
    (parts : Parts) (result : Except ProxyError ProxyResponse) :
    ∀ r ∈ (handleResult x g now parts call result).records, RecordOf p r := by
  intro r hr
  obtain ⟨raw, rfl⟩ := eq_auditRecord hr
  refine ⟨?_, by simp [Call.auditRecord]⟩
  rw [← hcall]
  rfl

lemma recordOf_refusal {p : Principal} {r : Refusal} (hr : r = .bodyTooLarge ∨ named r = some p)
    (now : ℕ) (parts : Parts) : ∀ rec ∈ (r.exit x now parts).records, RecordOf p rec := by
  cases r <;> simp_all [Refusal.exit, named, auditPreUpstream, RecordOf]

lemma welcome_result (now : ℕ) (parts : Parts) (call : Call)
    (result : Except ProxyError ProxyResponse) :
    Welcome (handleResult x g now parts call result).response := by
  intro message www
  cases result with
  | error e => cases e <;> simp [handleResult, errorStatus]
  | ok upstream => simp [handleResult]

lemma welcome_refusal {p : Principal} {r : Refusal} (hr : r = .bodyTooLarge ∨ named r = some p)
    (now : ℕ) (parts : Parts) : Welcome (r.exit x now parts).response := by
  intro message www
  cases r <;> simp_all [Refusal.exit, named]

lemma InName.goes {p : Principal} {v : View} {h : Handler} (hin : InName p v h) {phase : Phase}
    (hp : h.phase = phase) : Goes p phase := hp ▸ hin.phase

lemma InName.extend {p : Principal} {v : View} {h : Handler} (hin : InName p v h)
    {eff : Effect Cell} (hphase : Goes p eff.handler.phase)
    (hrecords : ∀ r ∈ eff.records, RecordOf p r) (hsent : ∀ s ∈ eff.sent, s.1.principal = p)
    (hchecks : ∀ c ∈ eff.checks, c.name = p.name) : InName p (v.extend eff) eff.handler := by
  refine ⟨hphase, fun r hr => ?_, fun s hs => ?_, fun c hc => ?_⟩
  · exact (List.mem_append.mp hr).elim (hin.records r) (hrecords r)
  · exact (List.mem_append.mp hs).elim (hin.sent s) (hsent s)
  · exact (List.mem_append.mp hc).elim (hin.checks c) (hchecks c)

lemma InName.finish {p : Principal} {v : View} {h h' : Handler} (hin : InName p v h)
    (l : RateLimiters Cell) {e : Exit} (hresponse : Welcome e.response)
    (hrecords : ∀ r ∈ e.records, RecordOf p r) :
    InName p (v.extend (.finish l h' e)) (Effect.finish l h' e).handler :=
  hin.extend hresponse hrecords (by simp [Effect.finish]) (by simp [Effect.finish])

lemma InName.quiet {p : Principal} {v : View} {h h' : Handler} (hin : InName p v h)
    (l : RateLimiters Cell) (hphase : Goes p h'.phase) :
    InName p (v.extend (.quiet l h')) h' :=
  show InName p (v.extend (.quiet l h')) (Effect.quiet l h').handler from
    hin.extend hphase (by simp [Effect.quiet]) (by simp [Effect.quiet]) (by simp [Effect.quiet])

lemma checks_afterBody (now : ℕ) (h : Handler) (p : Principal) (s : Screened Cell) :
    ∀ c ∈ (afterBody x g now h p s).checks, c.name = p.name := by
  have hmap : (afterBody x g now h p s).checks =
      s.asked.toList.map fun a => ⟨now, a.1, p.name, a.2⟩ := by
    unfold afterBody
    cases s.result <;> rfl
  intro c hc
  rw [hmap] at hc
  obtain ⟨a, -, rfl⟩ := List.mem_map.mp hc
  rfl

lemma inName_body {p : Principal} {v : View} {h : Handler} (hin : InName p v h)
    (l : RateLimiters Cell) (now : ℕ) (b : Except Unit Bytes) :
    InName p (v.extend (afterBody x g now { h with body := some b } p
      (handleBody x g l now h.parts p b))) (afterBody x g now { h with body := some b } p
        (handleBody x g l now h.parts p b)).handler := by
  have hchecks := checks_afterBody (x := x) (g := g) now { h with body := some b } p
    (handleBody x g l now h.parts p b)
  rcases hb : (handleBody x g l now h.parts p b).result with r | call
  · have hr : r = .bodyTooLarge ∨ named r = some p := by
      rcases handleBody_error hb with ⟨-, htoo⟩ | ⟨-, -, hnamed⟩
      · exact .inl htoo
      · exact .inr hnamed
    refine hin.extend ?_ ?_ ?_ hchecks
    · simpa [afterBody, hb, Effect.finish, Goes] using welcome_refusal hr now h.parts
    · simpa [afterBody, hb, Effect.finish] using recordOf_refusal hr now h.parts
    · simp [afterBody, hb, Effect.finish]
  · obtain ⟨c, bytes, -, -, rfl⟩ := handleBody_ok.mp hb
    have hcall : (Call.new x now p c bytes).principal = p := rfl
    rcases hout : (Call.new x now p c bytes).outgoing g h.parts with e | out
    · refine hin.extend ?_ ?_ ?_ hchecks
      · simpa [afterBody, hb, resume, hout, Effect.finish, Goes] using
          welcome_result now h.parts _ (.error e)
      · simpa [afterBody, hb, resume, hout, Effect.finish] using
          recordOf_result hcall now h.parts (.error e)
      · simp [afterBody, hb, resume, hout, Effect.finish]
    · refine hin.extend ?_ ?_ ?_ hchecks
      · simp [afterBody, hb, resume, hout, Effect.quiet, Goes, hcall]
      · simp [afterBody, hb, resume, hout, Effect.quiet]
      · simp [afterBody, hb, resume, hout, Effect.quiet]

/-- What a move keeps of a handler that goes on. -/
lemma inName_move {p : Principal} {v : View} {h : Handler} {l : RateLimiters Cell} {now : ℕ}
    {s : Signal} {eff : Effect Cell} (hm : Move x g l now h s eff) (hin : InName p v h) :
    InName p (v.extend eff) eff.handler := by
  cases hm with
  | idle _ _ => exact hin.quiet l hin.phase
  | drop =>
    refine hin.quiet l ?_
    rcases h.kill_cases with ⟨r, -, hk⟩ | ⟨-, hk⟩
    · rw [hk]
      exact hin.phase
    · rw [hk]
      trivial
  | @body p' b hp =>
    obtain rfl : p' = p := hin.goes hp
    exact inName_body hin l now b
  | @handOver call out hp =>
    have hcall : call.principal = p := hin.goes hp
    exact hin.extend hcall (by simp [Effect.quiet]) (by simp [hcall]) (by simp [Effect.quiet])
  | @head call out status headers hp =>
    have hcall : call.principal = p := hin.goes hp
    exact hin.quiet l hcall
  | @headFailed call out handed e hp =>
    exact hin.finish l (welcome_result now h.parts call _)
      (recordOf_result (hin.goes hp) now h.parts _)
  | @bytes call status headers r result hp =>
    exact hin.finish l (welcome_result now h.parts call _)
      (recordOf_result (hin.goes hp) now h.parts _)

/-- A handler has its request and its arrival for good. -/
lemma same_request_move {l : RateLimiters Cell} {now : ℕ} {h : Handler} {s : Signal}
    {eff : Effect Cell} (hm : Move x g l now h s eff) :
    eff.handler.parts = h.parts ∧ eff.handler.arrivedAt = h.arrivedAt := by
  cases hm with
  | drop => rcases h.kill_cases with ⟨r, -, hk⟩ | ⟨-, hk⟩ <;> simp [Effect.quiet, hk]
  | @body p b hp =>
    rcases hb : (handleBody x g l now h.parts p b).result with r | call
    · simp [afterBody, hb, Effect.finish]
    · rcases hout : call.outgoing g h.parts with e | out
      · simp [afterBody, hb, resume, hout, Effect.finish]
      · simp [afterBody, hb, resume, hout, Effect.quiet]
  | _ => exact ⟨rfl, rfl⟩

lemma decided_arrive {v : View} (hv : v.handler = none) (hd : Decided x g v)
    (l : RateLimiters Cell) (now : ℕ) (parts : Parts) :
    Decided x g (v.extend (arrive x g l now parts)) := by
  unfold Decided at hd
  rw [hv] at hd
  obtain ⟨hrecords, hsent, hchecks⟩ := hd
  unfold arrive
  rcases hhead : handleHead x g now parts with r | p
  · obtain ⟨e, rfl⟩ := handleHead_error hhead
    simp only [Decided, View.extend, Effect.finish, hhead, hrecords, hsent, hchecks,
      List.nil_append]
    exact ⟨rfl, ⟨_, _, rfl, rfl, rfl⟩, rfl, rfl⟩
  · simp only [Decided, View.extend, Effect.quiet, hhead, hrecords, hsent, hchecks,
      List.append_nil]
    exact ⟨rfl, by simp, by simp, by simp⟩

lemma decided_move {v : View} {h : Handler} (hv : v.handler = some h) {l : RateLimiters Cell}
    {now : ℕ} {s : Signal} {eff : Effect Cell} (hm : Move x g l now h s eff)
    (hd : Decided x g v) : Decided x g (v.extend eff) := by
  rcases hhead : handleHead x g h.arrivedAt h.parts with r | p
  · have haway := hd.turnedAway hv hhead
    rw [Wire.quiet_of_responded hm haway.phase, View.extend_quiet hv]
    exact hd
  · have hin := inName_move hm (hd.inName hv hhead)
    obtain ⟨hparts, harrived⟩ := same_request_move hm
    unfold Decided
    simp only [View.extend, hparts, harrived, hhead]
    exact hin

lemma decided_run (x : Crates Cell) (g : Inner) (budgets : RateLimit) (es : List (ℕ × Event))
    (id : ℕ) : Decided x g ((run (step x g) (World.start x budgets) es).view id) := by
  refine run_inv (I := fun w : World Cell => Decided x g (w.view id)) (fun w e hw => ?_) ?_ es
  · exact view_inv (fun _ l now parts hv hd => decided_arrive hv hd l now parts)
      (fun _ _ _ _ _ _ hv hm hd => decided_move hv hm hd) id w e hw
  · rw [view_start]
    exact ⟨rfl, rfl, rfl⟩

/-- **A token opens the gateway for one stretch of time.** Behind a JWT backend there are, for each
token, two seconds and a principal such that in every run, whatever else happens in it, a request
with this token that arrives between the two is never turned away, in its record or its answer, and
all that is recorded, asked of the limiters and sent for it is in the name of this principal; and one that arrives before or
after is answered as unauthorized, with one record and nothing sent. The two are a minute before
`nbf` and a minute after `exp`. -/
theorem token_opens_one_stretch (x : Crates Cell) (g : Inner) (b : JwtBackend)
    (hjwt : g.authenticator = .jwt b) (cfg : JwtConfig) (hbuilt : BuiltFrom x.jwt cfg b)
    (payload : String → Option Json) (signed : String → DecodingKey → List Algorithm → Prop)
    (hspec : DecodeSpec x.jwt payload signed) (token : String) :
    ∃ p lo hi, (hi < lo ∨ ∃ c, payload token = some c ∧ Stretch x.jwt b c p lo hi) ∧
      ∀ (budgets : RateLimit) (es : List (ℕ × Event)) (id : ℕ) (h : Handler),
        (run (step x g) (World.start x budgets) es).handlers id = some h →
        extractBearer h.parts.headers = some token →
        (lo ≤ h.arrivedAt / 1000000000 ∧ h.arrivedAt / 1000000000 ≤ hi →
          InName p ((run (step x g) (World.start x budgets) es).view id) h) ∧
        (¬(lo ≤ h.arrivedAt / 1000000000 ∧ h.arrivedAt / 1000000000 ≤ hi) →
          TurnedAway ((run (step x g) (World.start x budgets) es).view id) h) := by
  obtain ⟨p, lo, hi, hends, hopens⟩ := exists_opens hbuilt hspec token
  refine ⟨p, lo, hi, hends, fun budgets es id h hh ht => ?_⟩
  have hdecided := decided_run x g budgets es id
  have hauthenticate : g.authenticator.authenticate x.jwt (h.arrivedAt / 1000000000)
      ⟨extractBearer h.parts.headers, h.parts.clientCert⟩ g.allowAnonymousRead =
      b.verify x.jwt (h.arrivedAt / 1000000000) token := by
    rw [hjwt, ht]
    unfold Authenticator.authenticate Authenticator.backend
    simp only
    split
    · next hmissing => exact absurd hmissing verify_not_missing
    · rfl
  refine ⟨fun hin => ?_, fun hout => ?_⟩
  · refine hdecided.inName hh ?_
    unfold handleHead
    rw [hauthenticate, (hopens _ p).mpr ⟨rfl, hin⟩]
  · rcases hverify : b.verify x.jwt (h.arrivedAt / 1000000000) token with e | q
    · refine hdecided.turnedAway (r := .authFailed e) hh ?_
      unfold handleHead
      rw [hauthenticate, hverify]
    · exact absurd ((hopens _ q).mp hverify).2 hout

def jwtCrates : Crates ℕ := { exampleCrates with jwt := exampleJwt }

def jwtGateway : Inner :=
  { exampleGateway true with
    authenticator := .jwt (.withKeys exampleJwtConfig [exampleKey] .hs256) }

/-- A request with a token that has expired a minute and a second ago. -/
def expiredRun : List (ℕ × Event) :=
  [(1780000061000000000, .arrive 0 (exampleParts .post "/" "header.unbound.signature"))]

theorem token_opens_one_stretch_expired : ∃ h,
    (run (step jwtCrates jwtGateway) (World.start jwtCrates .default) expiredRun).handlers 0 =
      some h ∧
    TurnedAway ((run (step jwtCrates jwtGateway) (World.start jwtCrates .default)
      expiredRun).view 0) h := by
  obtain ⟨p, lo, hi, hends, hall⟩ := token_opens_one_stretch jwtCrates jwtGateway _ rfl
    exampleJwtConfig (.inr (.inl ⟨_, _, rfl⟩)) examplePayload _
    (documented_spec examplePayload
      (fun _ key algorithms => key == exampleKey && algorithms.contains .hs256) fun _ => none)
    "header.unbound.signature"
  have hlate : ¬(lo ≤ 1780000061 ∧ 1780000061 ≤ hi) := by
    rcases hends with hnever | ⟨c, hpayload, hstretch⟩
    · omega
    · cases hpayload
      obtain ⟨e, he, rfl⟩ := hstretch.closes
      have hexp : some 1780000000 = some e := he
      cases hexp
      omega
  have hbearer : extractBearer (exampleParts .post "/" "header.unbound.signature").headers =
      some "header.unbound.signature" := by decide +kernel
  have hhandler : (arrive jwtCrates jwtGateway (World.start jwtCrates .default).limiters
      1780000061000000000 (exampleParts .post "/" "header.unbound.signature")).handler.parts =
        exampleParts .post "/" "header.unbound.signature" ∧
      (arrive jwtCrates jwtGateway (World.start jwtCrates .default).limiters
        1780000061000000000 (exampleParts .post "/" "header.unbound.signature")).handler.arrivedAt =
        1780000061000000000 := by
    unfold arrive
    split <;> exact ⟨rfl, rfl⟩
  refine ⟨_, rfl, (hall .default expiredRun 0 _ rfl ?_).2 ?_⟩
  · rw [hhandler.1, hbearer]
  · rw [hhandler.2]
    exact hlate

end GatewayAuth.Lifetime
