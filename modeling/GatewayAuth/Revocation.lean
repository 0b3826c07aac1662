import GatewayAuth.Isolation
import GatewayAuth.Lifetime

/-!
Taking tokens out of the configuration.

A gateway that has lost the entries of some tokens turns their requests away before anything is
asked or sent for them. To all other requests it is the gateway as it was, in a run in which those
with the revoked tokens had never come.
-/

namespace GatewayAuth.Revocation

open GatewayAuth.Lib.Logs GatewayAuth.Lib.Runs
open GatewayAuth.Auth GatewayAuth.Ratelimit GatewayAuth.Server GatewayAuth.Service
open GatewayAuth.Checks GatewayAuth.Isolation GatewayAuth.Lifetime

/-! ### The tokens that are left -/

/-- The entries that are left when these tokens are revoked. -/
def revoke (revoked : String → Bool) (tokens : List TokenEntry) : List TokenEntry :=
  tokens.filter fun e => !revoked e.token

variable {revoked : String → Bool} {tokens : List TokenEntry} {presented : String}

/-- A token is matched by the entries that are left as it was, unless it is revoked. -/
lemma foldl_revoke (matched : Option TokenEntry) :
    (revoke revoked tokens).foldl
        (fun matched record => if record.token == presented then some record else matched) matched =
      if revoked presented then matched else tokens.foldl
        (fun matched record => if record.token == presented then some record else matched)
        matched := by
  induction tokens generalizing matched with
  | nil => simp [revoke]
  | cons e tokens ih =>
    unfold revoke at ih ⊢
    rcases hrevoked : revoked e.token with _ | _
    · rw [List.filter_cons_of_pos (by simp [hrevoked]), List.foldl_cons, ih, List.foldl_cons]
      by_cases heq : e.token = presented
      · subst heq
        simp [hrevoked]
      · simp [heq]
    · rw [List.filter_cons_of_neg (by simp [hrevoked]), ih, List.foldl_cons]
      by_cases heq : e.token = presented
      · subst heq
        simp [hrevoked]
      · simp [heq]

lemma verify_revoke : StaticTokenBackend.verify ⟨revoke revoked tokens⟩ presented =
    if revoked presented then .error .invalidToken
    else StaticTokenBackend.verify ⟨tokens⟩ presented := by
  unfold StaticTokenBackend.verify
  simp only [foldl_revoke]
  rcases revoked presented with _ | _ <;> rfl

variable {Cell : Type} {x : Crates Cell} {g : Inner}

/-- The gateway with these tokens. -/
def withTokens (g : Inner) (tokens : List TokenEntry) : Inner :=
  { g with authenticator := .bearer ⟨tokens⟩ }

/-- The request comes with a revoked token. -/
def presents (revoked : String → Bool) (parts : Parts) : Bool :=
  (extractBearer parts.headers).any revoked

lemma handleHead_revoked {parts : Parts} (h : presents revoked parts = true) (now : ℕ) :
    handleHead x (withTokens g (revoke revoked tokens)) now parts =
      .error (.authFailed .invalidToken) := by
  unfold presents at h
  rcases ht : extractBearer parts.headers with _ | t
  · simp [ht] at h
  · have hrevoked : revoked t = true := by simpa [ht] using h
    simp [handleHead, withTokens, Authenticator.authenticate, Authenticator.backend, ht,
      verify_revoke, hrevoked]

lemma handleHead_spared {parts : Parts} (h : presents revoked parts = false) (now : ℕ) :
    handleHead x (withTokens g (revoke revoked tokens)) now parts =
      handleHead x (withTokens g tokens) now parts := by
  have hbackend : Authenticator.backend x.jwt (.bearer ⟨revoke revoked tokens⟩)
      (now / 1000000000) ⟨extractBearer parts.headers, parts.clientCert⟩ =
        Authenticator.backend x.jwt (.bearer ⟨tokens⟩) (now / 1000000000)
          ⟨extractBearer parts.headers, parts.clientCert⟩ := by
    unfold presents at h
    rcases ht : extractBearer parts.headers with _ | t
    · rfl
    · have hspared : revoked t = false := by simpa [ht] using h
      simp [Authenticator.backend, verify_revoke, hspared]
  unfold handleHead Authenticator.authenticate withTokens
  simp only [hbackend]

/-! ### One step -/

lemma arrive_spared {parts : Parts} (h : presents revoked parts = false) (l : RateLimiters Cell)
    (now : ℕ) : arrive x (withTokens g (revoke revoked tokens)) l now parts =
      arrive x (withTokens g tokens) l now parts := by
  unfold arrive
  rw [handleHead_spared h]

/-- Which requests are spared is said of their numbers. -/
def Numbered (revoked : String → Bool) (keep : ℕ → Bool) (e : ℕ × Event) : Prop :=
  ∀ id parts, e.2 = .arrive id parts → keep id = !presents revoked parts

/-- The handler has answered a request with a revoked token. -/
def Away (revoked : String → Bool) (h : Handler) : Prop :=
  presents revoked h.parts = true ∧ ∃ r, h.phase = .responded r

/-- The second state is what the first one holds of the spared requests, and all others have been
answered. -/
structure Spares (revoked : String → Bool) (keep : ℕ → Bool) (w w' : World Cell) : Prop where
  seen : Seen keep w w'
  limiters : w'.limiters = w.limiters
  away : ∀ id h, keep id = false → w.handlers id = some h → Away revoked h

variable {keep : ℕ → Bool} {w w' : World Cell}

lemma spares_apply (hs : Spares revoked keep w w') {id : ℕ} (hid : keep id = true) (eff : Effect Cell) :
    Spares revoked keep (w.apply id eff) (w'.apply id eff) := by
  refine ⟨seen_keep hs.seen hid rfl, rfl, fun id' h hid' hh => ?_⟩
  have hne : id' ≠ id := by
    rintro rfl
    rw [hid] at hid'
    cases hid'
  exact hs.away id' h hid' (by simpa [World.apply, hne] using hh)

lemma spares_step_keep (hs : Spares revoked keep w w') {e : ℕ × Event} (hnum : Numbered revoked keep e)
    (he : Event.kept keep e.2 = true) :
    Spares revoked keep (step x (withTokens g (revoke revoked tokens)) w e)
      (step x (withTokens g tokens) w' e) := by
  obtain ⟨now, e⟩ := e
  by_cases hexited : w.exited = true
  · have hexited' : w'.exited = true := hs.seen.exited.trans hexited
    simpa [step, hexited, hexited'] using hs
  have hexited' : ¬w'.exited = true := fun h => hexited (hs.seen.exited.symm.trans h)
  cases e with
  | arrive id parts =>
    have hid : keep id = true := he
    have hspared : presents revoked parts = false := by
      simpa [hid] using hnum id parts rfl
    simp only [step, hexited, hexited', hs.seen.handlers id hid, hs.limiters,
      arrive_spared hspared]
    cases w.handlers id with
    | none => exact spares_apply hs hid (arrive x (withTokens g tokens) w.limiters now parts)
    | some h => exact hs
  | signal id sig =>
    have hid : keep id = true := he
    simp only [step, hexited, hexited', hs.seen.handlers id hid, hs.limiters]
    cases w.handlers id with
    | none => exact hs
    | some h => exact spares_apply hs hid (advance x (withTokens g tokens) w.limiters now h sig)
  | exit =>
    simp only [step, hexited, hexited']
    refine ⟨⟨rfl, fun id hid => ?_, hs.seen.trail, hs.seen.metrics, hs.seen.wire, hs.seen.checks⟩,
      hs.limiters, fun id h' hid hh' => ?_⟩
    · simp [World.exit, hs.seen.handlers id hid]
    · obtain ⟨h, hh, rfl⟩ : ∃ h, w.handlers id = some h ∧ h.kill = h' := by
        simpa [World.exit] using hh'
      obtain ⟨-, r, hr⟩ := hs.away id h hid hh
      have hkill : h.kill = h := by simp [Handler.kill, hr]
      rw [hkill]
      exact hs.away id h hid hh

/-- An answered step of another request leaves what the second state holds. -/
lemma spares_drop (hs : Spares revoked keep w w') {id : ℕ} (hid : keep id = false) {eff : Effect Cell}
    (hlimiters : eff.limiters = w.limiters) (haway : Away revoked eff.handler) :
    Spares revoked keep (w.apply id eff) w' := by
  refine ⟨seen_drop hs.seen hid eff, hs.limiters.trans hlimiters.symm, fun id' h hid' hh => ?_⟩
  by_cases hne : id' = id
  · subst hne
    obtain rfl : eff.handler = h := by simpa [World.apply] using hh
    exact haway
  · exact hs.away id' h hid' (by simpa [World.apply, hne] using hh)

lemma spares_step_drop (hs : Spares revoked keep w w') {e : ℕ × Event} (hnum : Numbered revoked keep e)
    (he : Event.kept keep e.2 = false) :
    Spares revoked keep (step x (withTokens g (revoke revoked tokens)) w e) w' := by
  obtain ⟨now, e⟩ := e
  by_cases hexited : w.exited = true
  · simpa [step, hexited] using hs
  cases e with
  | arrive id parts =>
    have hid : keep id = false := he
    have hrevoked : presents revoked parts = true := by
      simpa [hid] using hnum id parts rfl
    rcases hh : w.handlers id with _ | h
    · have haway : Away revoked
          (arrive x (withTokens g (revoke revoked tokens)) w.limiters now parts).handler := by
        rw [arrive, handleHead_revoked hrevoked]
        exact ⟨hrevoked, _, rfl⟩
      simpa [step, hexited, hh] using spares_drop hs hid (arrive_consult w.limiters now parts).1 haway
    · simpa [step, hexited, hh] using hs
  | signal id sig =>
    have hid : keep id = false := he
    rcases hh : w.handlers id with _ | h
    · simpa [step, hexited, hh] using hs
    · obtain ⟨hpresents, r, hr⟩ := hs.away id h hid hh
      have hquiet := Wire.quiet_of_responded
        (advance_move x (withTokens g (revoke revoked tokens)) w.limiters now h sig) hr
      have hdropped : Spares revoked keep (w.apply id (.quiet w.limiters h)) w' :=
        spares_drop hs hid rfl ⟨hpresents, r, hr⟩
      simpa [step, hexited, hh, hquiet] using hdropped
  | exit => cases he

/-- **A revoked token is as good as one that never comes.** In every run of a gateway from which
the entries of some tokens are taken, each request with such a token is answered as unauthorized,
with one record and nothing asked or sent; and each other request has the handler, the records, the
counts, the requests to the upstreams and the answers of the limiters that it would have with all
entries in place, had those requests never come. -/
theorem revoked_as_if_absent (x : Crates Cell) (g : Inner) (budgets : RateLimit)
    (tokens : List TokenEntry) (revoked : String → Bool) (keep : ℕ → Bool)
    (es : List (ℕ × Event)) (hkeep : ∀ e ∈ es, Numbered revoked keep e) :
    Seen keep
      (run (step x (withTokens g (revoke revoked tokens))) (World.start x budgets) es)
      (run (step x (withTokens g tokens)) (World.start x budgets)
        (es.filter fun e => Event.kept keep e.2)) ∧
    ∀ id h, keep id = false →
      (run (step x (withTokens g (revoke revoked tokens))) (World.start x budgets) es).handlers id =
        some h →
      TurnedAway ((run (step x (withTokens g (revoke revoked tokens))) (World.start x budgets)
        es).view id) h := by
  have hspares : Spares revoked keep
      (run (step x (withTokens g (revoke revoked tokens))) (World.start x budgets) es)
      (run (step x (withTokens g tokens)) (World.start x budgets)
        (es.filter fun e => Event.kept keep e.2)) := by
    refine run_filter_of (R := Spares revoked keep) (P := Numbered revoked keep)
      (fun _ _ e hnum he hs => spares_step_keep (e := e) hs hnum he)
      (fun _ _ e hnum he hs => spares_step_drop (e := e) hs hnum he) ?_ hkeep
    exact ⟨⟨rfl, fun _ _ => rfl, rfl, rfl, rfl, rfl⟩, rfl, fun _ _ _ hh => by cases hh⟩
  refine ⟨hspares.seen, fun id h hid hh => ?_⟩
  obtain ⟨hpresents, -⟩ := hspares.away id h hid hh
  have hdecided := decided_run x (withTokens g (revoke revoked tokens)) budgets es id
  exact hdecided.turnedAway hh (handleHead_revoked hpresents h.arrivedAt)

theorem revoked_as_if_absent_read : ∃ h,
    (run (step exampleCrates (withTokens (exampleGateway true)
      (revoke (fun t => t == "read-token") exampleTokens))) (World.start exampleCrates .default)
        twoTokens).handlers 1 = some h ∧
    h.phase = .responded (.error 401 "unauthorized" true) ∧
    (run (step exampleCrates (withTokens (exampleGateway true) exampleTokens))
        (World.start exampleCrates .default) [(0, .arrive 0 (exampleParts .post "/" "write-token")),
          (3, .signal 0 (.body (.ok (ascii (requestText setRule))))), (5, .signal 0 .handOver)]).wire =
      only (fun id => id == 0) (run (step exampleCrates (withTokens (exampleGateway true)
        (revoke (fun t => t == "read-token") exampleTokens))) (World.start exampleCrates .default)
          twoTokens).wire := by
  have hwrite : presents (fun t => t == "read-token") (exampleParts .post "/" "write-token") =
      false := by decide +kernel
  have hread : presents (fun t => t == "read-token") (exampleParts .get "/" "read-token") =
      true := by decide +kernel
  obtain ⟨hseen, haway⟩ := revoked_as_if_absent exampleCrates (exampleGateway true) .default
    exampleTokens (fun t => t == "read-token") (fun id => id == 0) twoTokens (by
      simp [twoTokens, Numbered, hwrite, hread])
  have hturned := haway 1 _ rfl rfl
  exact ⟨_, rfl, hturned.phase, hseen.wire⟩

end GatewayAuth.Revocation
