import Mathlib.Logic.Equiv.Basic
import GatewayAuth.Checks

/-!
What the gateway shows of a credential: the principal it stands for, and nothing else.

The handler reads the `authorization` header to authenticate, and drops it before it forwards. So a
run shows no token, neither in the trail nor in the metrics, on the wire or in a response: with
every token replaced by another, in the configuration and in the requests, it is the same run.
-/

namespace GatewayAuth.Confidential

open GatewayAuth.Lib.Runs
open GatewayAuth.Classify GatewayAuth.Authz GatewayAuth.Forwarding
open GatewayAuth.Auth GatewayAuth.Ratelimit GatewayAuth.Server
open GatewayAuth.Service

variable {Cell : Type} {x : Crates Cell} {g : Inner} {a a' : Authenticator}

/-! ### Requests alike but for their credential -/

/-- The headers of a request, its credential apart. -/
def uncredentialed (headers : HeaderMap) : HeaderMap :=
  headers.filter fun h => h.1 != "authorization"

/-- Two requests differ in what they carry as `authorization`, if at all. -/
structure AlikeBut (parts parts' : Parts) : Prop where
  method : parts'.method = parts.method
  pathAndQuery : parts'.pathAndQuery = parts.pathAndQuery
  headers : uncredentialed parts'.headers = uncredentialed parts.headers
  peerIp : parts'.peerIp = parts.peerIp
  clientCert : parts'.clientCert = parts.clientCert

/-- No credential is forwarded. -/
lemma filterForwardHeaders_uncredentialed (headers : HeaderMap) :
    filterForwardHeaders (uncredentialed headers) = filterForwardHeaders headers := by
  unfold filterForwardHeaders uncredentialed
  rw [List.filter_filter]
  refine List.filter_congr fun h _ => ?_
  rcases hauth : h.1 == "authorization" with _ | _ <;> simp [bne, hauth]

variable {parts parts' : Parts}

lemma AlikeBut.forwarded (h : AlikeBut parts parts') :
    filterForwardHeaders parts'.headers = filterForwardHeaders parts.headers := by
  rw [← filterForwardHeaders_uncredentialed, h.headers, filterForwardHeaders_uncredentialed]

lemma AlikeBut.outgoing (h : AlikeBut parts parts') (call : Call) :
    call.outgoing { g with authenticator := a' } parts' =
      call.outgoing { g with authenticator := a } parts := by
  unfold Call.outgoing Proxy.forward
  rw [h.method, h.pathAndQuery, h.forwarded]

lemma AlikeBut.screen (h : AlikeBut parts parts') (p : Principal) (body : Except Unit Bytes) :
    screen x { g with authenticator := a' } parts' p body =
      screen x { g with authenticator := a } parts p body := by
  unfold Server.screen
  rw [h.method, h.pathAndQuery]

lemma AlikeBut.handleBody (h : AlikeBut parts parts') (l : RateLimiters Cell) (now : ℕ)
    (p : Principal) (body : Except Unit Bytes) :
    handleBody x { g with authenticator := a' } l now parts' p body =
      handleBody x { g with authenticator := a } l now parts p body := by
  unfold Server.handleBody
  rw [h.screen]

lemma AlikeBut.exit (h : AlikeBut parts parts') (now : ℕ) (r : Refusal) :
    r.exit x now parts' = r.exit x now parts := by
  cases r <;> simp [Refusal.exit, auditPreUpstream, h.peerIp]

lemma AlikeBut.handleResult (h : AlikeBut parts parts') (now : ℕ) (call : Call)
    (result : Except ProxyError ProxyResponse) :
    handleResult x { g with authenticator := a' } now parts' call result =
      handleResult x { g with authenticator := a } now parts call result := by
  cases result <;> simp [Server.handleResult, Call.auditRecord, h.peerIp]

/-! ### One step -/

/-- Two handlers stand at the same place, with requests alike but for their credential. -/
structure Hidden (h h' : Handler) : Prop where
  parts : AlikeBut h.parts h'.parts
  same : h' = { h with parts := h'.parts }

/-- Two steps show the same. -/
structure ShowsSame (eff eff' : Effect Cell) : Prop where
  handler : Hidden eff.handler eff'.handler
  same : eff' = { eff with handler := eff'.handler }

lemma showsSame_quiet {h h' : Handler} (hh : Hidden h h') (l : RateLimiters Cell) :
    ShowsSame (Effect.quiet l h) (Effect.quiet l h') := ⟨hh, rfl⟩

lemma hidden_phase {h h' : Handler} (hh : Hidden h h') (phase : Phase) :
    Hidden { h with phase := phase } { h' with phase := phase } := by
  refine ⟨hh.parts, ?_⟩
  rw [hh.same]

lemma hidden_body {h h' : Handler} (hh : Hidden h h') (b : Option (Except Unit Bytes)) :
    Hidden { h with body := b } { h' with body := b } := by
  refine ⟨hh.parts, ?_⟩
  rw [hh.same]

lemma showsSame_finish {h h' : Handler} (hh : Hidden h h') (l : RateLimiters Cell) (e : Exit) :
    ShowsSame (Effect.finish l h e) (Effect.finish l h' e) := ⟨hidden_phase hh _, rfl⟩

lemma showsSame_checks {eff eff' : Effect Cell} (h : ShowsSame eff eff') (checks : List Check) :
    ShowsSame { eff with checks := checks } { eff' with checks := checks } := by
  refine ⟨h.handler, ?_⟩
  rw [h.same]

lemma showsSame_afterBody {h h' : Handler} (hh : Hidden h h') (now : ℕ) (p : Principal)
    (s : Screened Cell) :
    ShowsSame (afterBody x { g with authenticator := a } now h p s)
      (afterBody x { g with authenticator := a' } now h' p s) := by
  obtain ⟨result, l, asked⟩ := s
  rcases result with r | call
  · refine showsSame_checks ?_ _
    rw [hh.parts.exit]
    exact showsSame_finish hh l _
  · refine showsSame_checks ?_ _
    unfold resume
    rw [hh.parts.outgoing (a := a)]
    rcases call.outgoing { g with authenticator := a } h.parts with e | out
    · simp only
      rw [hh.parts.handleResult (a := a)]
      exact showsSame_finish hh l _
    · exact showsSame_quiet (hidden_phase hh _) l

lemma hidden_kill {h h' : Handler} (hh : Hidden h h') : Hidden h.kill h'.kill := by
  have hphase : h'.phase = h.phase := by rw [hh.same]
  unfold Handler.kill
  rw [hphase]
  split
  · exact hh
  · exact hidden_phase hh _

/-- **A step shows nothing of a credential.** -/
lemma showsSame_advance {h h' : Handler} (hh : Hidden h h') (l : RateLimiters Cell) (now : ℕ)
    (s : Signal) :
    ShowsSame (advance x { g with authenticator := a } l now h s)
      (advance x { g with authenticator := a' } l now h' s) := by
  have hphase : h'.phase = h.phase := by rw [hh.same]
  cases s with
  | drop => exact showsSame_quiet (hidden_kill hh) l
  | body b =>
    unfold advance
    rw [hphase]
    rcases hp : h.phase with p | _ | _ | _ | _
    · simp only
      rw [hh.parts.handleBody (a := a)]
      exact showsSame_afterBody (hidden_body hh _) now p _
    all_goals exact showsSame_quiet hh l
  | handOver =>
    unfold advance
    rw [hphase]
    rcases hp : h.phase with _ | ⟨call, out, _ | _⟩ | _ | _ | _
    case sending.false =>
      have hsent := hidden_phase hh (.sending call out true)
      exact ⟨hsent, rfl⟩
    all_goals exact showsSame_quiet hh l
  | head r =>
    rcases r with e | ⟨status, headers⟩
    · unfold advance
      rw [hphase]
      rcases hp : h.phase with _ | ⟨call, out, handed⟩ | _ | _ | _
      case sending =>
        simp only
        rw [hh.parts.handleResult (a := a)]
        exact showsSame_finish hh l _
      all_goals exact showsSame_quiet hh l
    · unfold advance
      rw [hphase]
      rcases hp : h.phase with _ | ⟨call, out, _ | _⟩ | _ | _ | _
      case sending.true => exact showsSame_quiet (hidden_phase hh _) l
      all_goals exact showsSame_quiet hh l
  | bytes r =>
    rcases r with e | body
    all_goals
      unfold advance
      rw [hphase]
      rcases hp : h.phase with _ | _ | ⟨call, status, headers⟩ | _ | _
      case buffering =>
        simp only
        rw [hh.parts.handleResult (a := a)]
        exact showsSame_finish hh l _
      all_goals exact showsSame_quiet hh l

/-! ### Two runs -/

/-- Two states show the same. -/
structure Unseen (w w' : World Cell) : Prop where
  same : w' = { w with handlers := w'.handlers }
  handlers : ∀ id, Option.Rel Hidden (w.handlers id) (w'.handlers id)

lemma unseen_apply {w w' : World Cell} (hw : Unseen w w') (id : ℕ) {eff eff' : Effect Cell}
    (heff : ShowsSame eff eff') : Unseen (w.apply id eff) (w'.apply id eff') := by
  refine ⟨?_, fun id' => ?_⟩
  · rw [heff.same, hw.same]
    rfl
  · by_cases hne : id' = id
    · subst hne
      simpa [World.apply] using heff.handler
    · simpa [World.apply, hne] using hw.handlers id'

lemma unseen_exit {w w' : World Cell} (hw : Unseen w w') : Unseen w.exit w'.exit := by
  refine ⟨?_, fun id => ?_⟩
  · rw [hw.same]
    rfl
  · have hid := hw.handlers id
    show Option.Rel Hidden ((w.handlers id).map Handler.kill) ((w'.handlers id).map Handler.kill)
    generalize w.handlers id = o at hid
    generalize w'.handlers id = o' at hid
    cases hid with
    | none => exact .none
    | some hh => exact .some (hidden_kill hh)

/-- Two events are the same, or arrivals of requests alike but for a credential, each of which
stands for the same. -/
inductive SameFor (x : Crates Cell) (g : Inner) (a a' : Authenticator) :
    ℕ × Event → ℕ × Event → Prop
  | arrive {now id : ℕ} {parts parts' : Parts} : AlikeBut parts parts' →
      handleHead x { g with authenticator := a' } now parts' =
        handleHead x { g with authenticator := a } now parts →
      SameFor x g a a' (now, .arrive id parts) (now, .arrive id parts')
  | signal {now id : ℕ} {s : Signal} : SameFor x g a a' (now, .signal id s) (now, .signal id s)
  | exit {now : ℕ} : SameFor x g a a' (now, .exit) (now, .exit)

lemma showsSame_arrive (h : AlikeBut parts parts') {now : ℕ}
    (hhead : handleHead x { g with authenticator := a' } now parts' =
      handleHead x { g with authenticator := a } now parts) (l : RateLimiters Cell) :
    ShowsSame (arrive x { g with authenticator := a } l now parts)
      (arrive x { g with authenticator := a' } l now parts') := by
  unfold arrive
  rw [hhead]
  rcases handleHead x { g with authenticator := a } now parts with r | p
  · simp only
    rw [h.exit]
    exact showsSame_finish ⟨h, rfl⟩ l _
  · exact showsSame_quiet ⟨h, rfl⟩ l

lemma unseen_step {w w' : World Cell} (hw : Unseen w w') {e e' : ℕ × Event}
    (he : SameFor x g a a' e e') :
    Unseen (step x { g with authenticator := a } w e)
      (step x { g with authenticator := a' } w' e') := by
  have hexited : w'.exited = w.exited := by rw [hw.same]
  have hlimiters : w'.limiters = w.limiters := by rw [hw.same]
  by_cases hx : w.exited = true
  · have hx' : w'.exited = true := hexited.trans hx
    simpa [step, hx, hx'] using hw
  have hx' : ¬w'.exited = true := fun h => hx (hexited.symm.trans h)
  cases he with
  | exit => simpa [step, hx, hx'] using unseen_exit hw
  | @arrive now id parts parts' halike hhead =>
    have hid := hw.handlers id
    rcases hh : w.handlers id with _ | h <;> rcases hh' : w'.handlers id with _ | h' <;>
      rw [hh, hh'] at hid
    · simp only [step, hx, hx', hh, hh', hlimiters]
      exact unseen_apply hw id (showsSame_arrive halike hhead _)
    · cases hid
    · cases hid
    · simpa [step, hx, hx', hh, hh'] using hw
  | @signal now id s =>
    have hid := hw.handlers id
    rcases hh : w.handlers id with _ | h <;> rcases hh' : w'.handlers id with _ | h' <;>
      rw [hh, hh'] at hid
    · simpa [step, hx, hx', hh, hh'] using hw
    · cases hid
    · cases hid
    · cases hid with
      | some hhidden =>
        simp only [step, hx, hx', hh, hh', hlimiters]
        exact unseen_apply hw id (showsSame_advance hhidden _ now s)

lemma unseen_run (budgets : RateLimit) {es es' : List (ℕ × Event)}
    (hes : List.Forall₂ (SameFor x g a a') es es') :
    Unseen (run (step x { g with authenticator := a }) (World.start x budgets) es)
      (run (step x { g with authenticator := a' }) (World.start x budgets) es') :=
  run_forall₂ (R := Unseen) (Q := SameFor x g a a') (fun _ _ _ _ he hw => unseen_step hw he)
    ⟨rfl, fun _ => .none⟩ hes

/-! ### Static tokens -/

def renameToken (σ : String → String) (entry : TokenEntry) : TokenEntry :=
  { entry with token := σ entry.token }

/-- The backend tells tokens apart, and nothing else of them. -/
lemma verify_rename {σ : String → String} (hσ : Function.Injective σ) (tokens : List TokenEntry)
    (presented : String) :
    StaticTokenBackend.verify ⟨tokens.map (renameToken σ)⟩ (σ presented) =
      StaticTokenBackend.verify ⟨tokens⟩ presented := by
  -- The match so far is the same entry, renamed.
  have hfold : ∀ matched : Option TokenEntry,
      (tokens.map (renameToken σ)).foldl
          (fun matched record => if record.token == σ presented then some record else matched)
          (matched.map (renameToken σ)) =
        (tokens.foldl
          (fun matched record => if record.token == presented then some record else matched)
          matched).map (renameToken σ) := by
    induction tokens with
    | nil => exact fun _ => rfl
    | cons entry tokens ih =>
      intro matched
      rw [List.map_cons, List.foldl_cons, List.foldl_cons, ← ih]
      by_cases heq : entry.token = presented
      · simp [renameToken, heq]
      · have hne : σ entry.token ≠ σ presented := fun h => heq (hσ h)
        simp [renameToken, heq, hne]
  unfold StaticTokenBackend.verify
  have hstart := hfold none
  rw [Option.map_none] at hstart
  simp only [hstart]
  cases tokens.foldl (fun matched record =>
    if record.token == presented then some record else matched) none <;> rfl

lemma handleHead_rename {σ : String → String} (hσ : Function.Injective σ)
    (tokens : List TokenEntry)
    (hbearer : extractBearer parts'.headers = (extractBearer parts.headers).map σ) (now : ℕ) :
    handleHead x { g with authenticator := .bearer ⟨tokens.map (renameToken σ)⟩ } now parts' =
      handleHead x { g with authenticator := .bearer ⟨tokens⟩ } now parts := by
  have hbackend : Authenticator.backend x.jwt (.bearer ⟨tokens.map (renameToken σ)⟩)
      (now / 1000000000) ⟨extractBearer parts'.headers, parts'.clientCert⟩ =
        Authenticator.backend x.jwt (.bearer ⟨tokens⟩) (now / 1000000000)
          ⟨extractBearer parts.headers, parts.clientCert⟩ := by
    rw [hbearer]
    cases extractBearer parts.headers with
    | none => rfl
    | some t => exact verify_rename hσ tokens t
  unfold handleHead Authenticator.authenticate
  simp only [hbackend]

/-- The second event is the first one, with the token of a request renamed. -/
inductive Renames (σ : String → String) : ℕ × Event → ℕ × Event → Prop
  | arrive {now id : ℕ} {parts parts' : Parts} : AlikeBut parts parts' →
      extractBearer parts'.headers = (extractBearer parts.headers).map σ →
      Renames σ (now, .arrive id parts) (now, .arrive id parts')
  | signal (now id : ℕ) (s : Signal) : Renames σ (now, .signal id s) (now, .signal id s)
  | exit (now : ℕ) : Renames σ (now, .exit) (now, .exit)

/-- **No token shows.** If every token is replaced by another, different ones by different ones, in
the configuration and in the requests, then every run is the same in all it shows: the audit
records, the metrics, the requests to the upstreams, the questions to the limiters and their
answers, and what each client is answered. -/
theorem tokens_unseen (x : Crates Cell) (g : Inner) (budgets : RateLimit)
    (tokens : List TokenEntry) (σ : String → String) (hσ : Function.Injective σ)
    (es es' : List (ℕ × Event)) (hes : List.Forall₂ (Renames σ) es es') :
    let w := run (step x { g with authenticator := .bearer ⟨tokens⟩ }) (World.start x budgets) es
    let w' := run (step x { g with authenticator := .bearer ⟨tokens.map (renameToken σ)⟩ })
      (World.start x budgets) es'
    w'.trail = w.trail ∧ w'.metrics = w.metrics ∧ w'.wire = w.wire ∧ w'.checks = w.checks ∧
      ∀ id, (w'.handlers id).map Handler.phase = (w.handlers id).map Handler.phase := by
  intro w w'
  have hsame : List.Forall₂ (SameFor x g (.bearer ⟨tokens⟩)
      (.bearer ⟨tokens.map (renameToken σ)⟩)) es es' := by
    refine hes.imp fun e e' he => ?_
    cases he with
    | arrive halike hbearer => exact .arrive halike (handleHead_rename hσ tokens hbearer _)
    | signal => exact .signal
    | exit => exact .exit
  have hunseen : Unseen w w' := unseen_run budgets hsame
  refine ⟨?_, ?_, ?_, ?_, fun id => ?_⟩
  · rw [hunseen.same]
  · rw [hunseen.same]
  · rw [hunseen.same]
  · rw [hunseen.same]
  · have hid := hunseen.handlers id
    generalize w.handlers id = o at hid
    generalize w'.handlers id = o' at hid
    cases hid with
    | none => rfl
    | some hh => rw [hh.same]; rfl

/-- The tokens of the example, one of them replaced. -/
def otherTokens : List TokenEntry :=
  exampleTokens.map (renameToken (Equiv.swap "write-token" "s3cret"))

/-- A mutation with a token. -/
def mutationWith (token : String) : List (ℕ × Event) :=
  [(0, .arrive 0 (exampleParts .post "/" token)),
    (1, .signal 0 (.body (.ok (ascii (requestText setRule)))))]

theorem tokens_unseen_swap :
    (run (step exampleCrates { exampleGateway true with authenticator := .bearer ⟨otherTokens⟩ })
      (World.start exampleCrates .default) (mutationWith "s3cret")).checks =
    (run (step exampleCrates { exampleGateway true with authenticator := .bearer ⟨exampleTokens⟩ })
      (World.start exampleCrates .default) (mutationWith "write-token")).checks :=
  (tokens_unseen exampleCrates (exampleGateway true) .default exampleTokens
    (Equiv.swap "write-token" "s3cret") (Equiv.injective _) (mutationWith "write-token")
    (mutationWith "s3cret") (.cons (.arrive ⟨rfl, rfl, by decide, rfl, rfl⟩ (by decide))
      (.cons (.signal 1 0 _) .nil))).2.2.2.1

end GatewayAuth.Confidential
