import GatewayAuth.Identity
import GatewayAuth.Process
import GatewayAuth.Trail
import GatewayAuth.Wire

/-!
What the gateway does for a connection: nothing in another's name, and nothing once it has ended.
-/

namespace GatewayAuth.Process

open GatewayAuth.Lib.Logs GatewayAuth.Lib.Runs
open GatewayAuth.Classify GatewayAuth.Authz GatewayAuth.Forwarding GatewayAuth.Auth
open GatewayAuth.Ratelimit GatewayAuth.Server GatewayAuth.Service
open GatewayAuth.Listener GatewayAuth.Trail GatewayAuth.Wire

variable {Cell : Type} {x : Crates Cell} {g : Inner}

/-! ### Whose handlers live -/

/-- Nothing happens to a handler that is gone. -/
lemma quiet_of_gone {l : RateLimiters Cell} {now : ℕ} {h : Handler} {s : Signal}
    {eff : Effect Cell} (hm : Move x g l now h s eff) (hg : Gone h) : eff = .quiet l h := by
  rcases hg with ⟨r, hr⟩ | hdropped
  · exact quiet_of_responded hm hr
  · exact quiet_of_dropped hm hdropped

lemma gone_kill (h : Handler) : Gone h.kill := by
  rcases h.kill_cases with ⟨r, hr, hk⟩ | ⟨-, hk⟩
  · rw [hk]
    exact .inl ⟨r, hr⟩
  · rw [hk]
    exact .inr rfl

lemma kill_of_gone {h : Handler} (hg : Gone h) : h.kill = h := by
  rcases h.kill_cases with ⟨r, -, hk⟩ | ⟨hnot, hk⟩
  · exact hk
  · rcases hg with ⟨r, hr⟩ | hdropped
    · exact absurd hr (hnot r)
    · rw [hk, ← hdropped]

lemma parts_kill (h : Handler) : h.kill.parts = h.parts := by
  rcases h.kill_cases with ⟨r, -, hk⟩ | ⟨-, hk⟩ <;> rw [hk]

lemma parts_arrive (l : RateLimiters Cell) (now : ℕ) (parts : Parts) :
    (arrive x g l now parts).handler.parts = parts := by
  unfold arrive
  rcases handleHead x g now parts with r | p <;> rfl

/-- The handlers that a step leaves: those there were, with their requests, of which the gone ones
do not change; and the one that arrives. -/
lemma handlers_step (w : World Cell) (s : ℕ × Service.Event) {id : ℕ} {h' : Handler}
    (hh' : (Service.step x g w s).handlers id = some h') :
    (∃ h, w.handlers id = some h ∧ h'.parts = h.parts ∧ (Gone h → h' = h)) ∨
      s.2 = .arrive id h'.parts := by
  rcases step_cases (x := x) (g := g) w s with
    heq | ⟨-, heq⟩ | ⟨i, parts, hs, -, heq⟩ | ⟨i, h, sig, hs, hsome, heq⟩
  · rw [heq] at hh'
    exact .inl ⟨h', hh', rfl, fun _ => rfl⟩
  · rw [heq] at hh'
    obtain ⟨h, hh, rfl⟩ := Option.map_eq_some_iff.mp hh'
    exact .inl ⟨h, hh, parts_kill h, kill_of_gone⟩
  · rw [heq] at hh'
    by_cases hid : id = i
    · subst hid
      have hhandler : (arrive x g w.limiters s.1 parts).handler = h' := by
        simpa [World.apply] using hh'
      exact .inr (by rw [hs, ← hhandler, parts_arrive])
    · have hsame : w.handlers id = some h' := by simpa [World.apply, hid] using hh'
      exact .inl ⟨h', hsame, rfl, fun _ => rfl⟩
  · rw [heq] at hh'
    by_cases hid : id = i
    · subst hid
      have hm := advance_move x g w.limiters s.1 h sig
      have hhandler : (advance x g w.limiters s.1 h sig).handler = h' := by
        simpa [World.apply] using hh'
      refine .inl ⟨h, hsome, ?_, fun hg => ?_⟩
      · have hfront := Checks.front_move hm
        rw [hhandler] at hfront
        have hparts := congrArg Checks.Front.parts hfront
        cases sig <;> exact hparts
      · rw [quiet_of_gone hm hg] at hhandler
        exact hhandler.symm
    · have hsame : w.handlers id = some h' := by simpa [World.apply, hid] using hh'
      exact .inl ⟨h', hsame, rfl, fun _ => rfl⟩

lemma handlers_run (w : World Cell) (ss : List (ℕ × Service.Event)) {id : ℕ} {h' : Handler}
    (hh' : (run (Service.step x g) w ss).handlers id = some h') :
    (∃ h, w.handlers id = some h ∧ h'.parts = h.parts ∧ (Gone h → h' = h)) ∨
      ∃ t, (t, .arrive id h'.parts) ∈ ss := by
  induction ss generalizing w with
  | nil => exact .inl ⟨h', hh', rfl, fun _ => rfl⟩
  | cons s ss ih =>
    rcases ih _ hh' with ⟨h, hh, hparts, hgone⟩ | ⟨t, hmem⟩
    · rcases handlers_step w s hh with ⟨h₀, hh₀, hparts₀, hgone₀⟩ | harrive
      · refine .inl ⟨h₀, hh₀, hparts.trans hparts₀, fun hg => ?_⟩
        have hsame := hgone₀ hg
        rw [hgone (hsame ▸ hg), hsame]
      · exact .inr ⟨s.1, List.mem_cons.mpr (.inl (by rw [hparts, ← harrive]))⟩
    · exact .inr ⟨t, List.mem_cons_of_mem _ hmem⟩

/-- A connection that ends drops its handlers. -/
lemma gone_of_drops {w : World Cell} (hexited : ¬w.exited = true) (now : ℕ) {ids : List ℕ} {id : ℕ}
    (hid : id ∈ ids) {h' : Handler}
    (hh' : (run (Service.step x g) w
      (ids.map fun i => (now, Service.Event.signal i .drop))).handlers id = some h') : Gone h' := by
  induction ids generalizing w with
  | nil => cases hid
  | cons i ids ih =>
    rw [List.map_cons, run_cons] at hh'
    have hrunning : ¬(Service.step x g w (now, .signal i .drop)).exited = true := by
      rw [Checks.exited_step]
      simpa using hexited
    by_cases hmem : id ∈ ids
    · exact ih hrunning hmem hh'
    · obtain rfl : id = i := by simpa [hmem] using hid
      rcases handlers_run _ _ hh' with ⟨h, hh, -, hgone⟩ | ⟨t, ht⟩
      · have hdropped : Gone h := by
          rcases hbefore : w.handlers id with _ | h₀
          · simp [Service.step, hexited, hbefore] at hh
          · have hkill : h = h₀.kill := by
              simpa [Service.step, hexited, hbefore, World.apply, advance, Effect.quiet]
                using hh.symm
            rw [hkill]
            exact gone_kill h₀
        rw [hgone hdropped]
        exact hdropped
      · simp at ht

/-- Every handler is that of a request that is not a probe, and while it lives, the task that
serves it does. -/
def Attended (w : Gateway Cell) : Prop :=
  ∀ id h, w.world.handlers id = some h → ∃ r, w.requests[id]? = some r ∧ h.parts = r.parts ∧
    buildRouter r.parts.method r.parts.pathAndQuery = none ∧
    (r.version = .http1 → ¬Gone h → ∃ task clientCert, w.serve.tasks[r.task]? = some task ∧
      task.phase = .serving clientCert)

/-- What the arrival of a handler comes from. -/
lemma handled_arrive {w : Gateway Cell} {e : Event} {id : ℕ} {parts : Parts}
    (h : Service.Event.arrive id parts ∈ w.handled e) :
    id = w.requests.length ∧ ∃ r, w.received e = some r ∧ r.parts = parts ∧
      buildRouter r.parts.method r.parts.pathAndQuery = none := by
  cases e with
  | request k version method pathAndQuery headers =>
    unfold Gateway.handled at h
    simp only at h
    split at h
    · next r hr =>
      split at h
      · next hrouter =>
        cases List.mem_singleton.mp h
        exact ⟨rfl, r, hr, rfl, hrouter⟩
      · cases h
    · cases h
  | exit => cases hresult : w.serve.result <;> simp [Gateway.handled, hresult] at h
  | _ => simp [Gateway.handled] at h

lemma attended_step (w : Gateway Cell) (e : ℕ × Event) (hw : Attended w) :
    Attended (step x g w e) := by
  by_cases hexited : w.world.exited = true
  · have hsame : step x g w e = w := by simp [step, hexited]
    rwa [hsame]
  have ht : Taken x g w e (step x g w e) := taken_step hexited e
  intro id h' hh'
  rw [ht.world] at hh'
  rcases handlers_run _ _ hh' with ⟨h, hh, hparts, hgone⟩ | ⟨t, harrive⟩
  · obtain ⟨r, hr, hsame, hrouter, hserved⟩ := hw id h hh
    have hr' : (step x g w e).requests[id]? = some r := by
      rw [ht.requests, List.getElem?_append_left (List.getElem?_eq_some_iff.mp hr).1, hr]
    refine ⟨r, hr', hparts.trans hsame, hrouter, fun hversion hlive => ?_⟩
    have hlive' : ¬Gone h := fun hg => hlive (hgone hg ▸ hg)
    obtain ⟨task, clientCert, htask, hserving⟩ := hserved hversion hlive'
    obtain ⟨task', htask', hcases⟩ := gateway_task (x := x) (g := g) w e htask
    rcases hcases with rfl | ⟨hbefore, -⟩ | ⟨-, result, he⟩
    · exact ⟨task', clientCert, htask', hserving⟩
    · rw [hbefore] at hserving
      cases hserving
    · -- the end of the connection drops the handler
      have hdrops : (w.handled e.2).map (fun s => (e.1, s)) =
          (w.requestsOf r.task).map fun i => (e.1, Service.Event.signal i .drop) := by
        rw [he]
        simp [Gateway.handled]
      have hid : id ∈ w.requestsOf r.task := by
        obtain ⟨hlt, hget⟩ := List.getElem?_eq_some_iff.mp hr
        simp [Gateway.requestsOf, hlt, hget, hversion]
      rw [hdrops] at hh'
      exact absurd (gone_of_drops hexited e.1 hid hh') hlive
  · obtain ⟨s, hs, heq⟩ := List.mem_map.mp harrive
    cases heq
    obtain ⟨rfl, r, hr, hparts, hrouter⟩ := handled_arrive hs
    obtain ⟨he, ⟨task, htask, hserving⟩, -⟩ := received_eq_some hr
    have hr' : (step x g w e).requests[w.requests.length]? = some r := by
      rw [ht.requests, hr]
      simp
    refine ⟨r, hr', hparts.symm, hrouter, fun _ _ => ⟨task, _, ?_, hserving⟩⟩
    rw [ht.serve, he]
    simpa [Event.listener] using htask

lemma attended_run (x : Crates Cell) (g : Inner) (budgets : RateLimit) (es : List (ℕ × Event)) :
    Attended (run (step x g) (.start x budgets) es) :=
  run_inv (I := Attended) attended_step (fun id h hh => by cases hh) es

/-! ### What is recorded and sent, and for whom -/

/-- Every record of a request has the address of its peer. -/
def Addressed (v : View) : Prop :=
  ∀ r ∈ v.records, ∃ h, v.handler = some h ∧ r.sourceIp = some h.parts.peerIp

lemma addressed_exit (r : Refusal) (now : ℕ) (parts : Parts) :
    ∀ rec ∈ (r.exit x now parts).records, rec.sourceIp = some parts.peerIp := by
  cases r <;> simp [Refusal.exit, auditPreUpstream]

lemma addressed_result (now : ℕ) (parts : Parts) (call : Call)
    (result : Except ProxyError ProxyResponse) :
    ∀ rec ∈ (handleResult x g now parts call result).records,
      rec.sourceIp = some parts.peerIp := by
  intro rec hrec
  obtain ⟨raw, rfl⟩ := eq_auditRecord hrec
  rfl

lemma addressed_afterBody (now : ℕ) (h : Handler) (p : Principal) (s : Screened Cell) :
    ∀ rec ∈ (afterBody x g now h p s).records, rec.sourceIp = some h.parts.peerIp := by
  obtain ⟨result, l, asked⟩ := s
  rcases result with r | call
  · exact addressed_exit r now h.parts
  · rcases hout : call.outgoing g h.parts with e | out
    · simp only [afterBody, resume, hout]
      exact addressed_result now h.parts call _
    · simp [afterBody, resume, hout, Effect.quiet]

lemma addressed_run (x : Crates Cell) (g : Inner) (budgets : RateLimit)
    (es : List (ℕ × Service.Event)) (id : ℕ) :
    Addressed ((run (Service.step x g) (World.start x budgets) es).view id) := by
  refine run_inv (I := fun w : World Cell => Addressed (w.view id)) (fun w e hw => ?_) ?_ es
  · refine view_inv (fun v l now parts hv ha rec hrec => ?_)
      (fun v h l now s eff hh hm ha rec hrec => ?_) id w e hw
    · rcases List.mem_append.mp hrec with hold | hnew
      · obtain ⟨h, hh, -⟩ := ha rec hold
        rw [hv] at hh
        cases hh
      · refine ⟨_, rfl, ?_⟩
        rw [parts_arrive]
        unfold arrive at hnew
        rcases hhead : handleHead x g now parts with r | p
        · rw [hhead] at hnew
          exact addressed_exit r now parts rec hnew
        · rw [hhead] at hnew
          cases hnew
    · have hparts : eff.handler.parts = h.parts := by
        have hfront := congrArg Checks.Front.parts (Checks.front_move hm)
        cases s <;> exact hfront
      refine ⟨_, rfl, ?_⟩
      rw [hparts]
      rcases List.mem_append.mp hrec with hold | hnew
      · obtain ⟨h', hh', hip⟩ := ha rec hold
        cases hh.symm.trans hh'
        exact hip
      · cases hm with
        | idle _ _ => cases hnew
        | drop => cases hnew
        | @body p b hp => exact addressed_afterBody now { h with body := some b } _ _ rec hnew
        | handOver hp => cases hnew
        | head hp => cases hnew
        | headFailed hp => exact addressed_result now _ _ _ rec hnew
        | bytes hp => exact addressed_result now _ _ _ rec hnew
  · rw [view_start]
    simp [Addressed]

/-! ### What is handed over, and for which request -/

lemma requests_run (w : Gateway Cell) (es : List (ℕ × Event)) :
    w.requests <+: (run (step x g) w es).requests := by
  refine run_inv (I := fun w' : Gateway Cell => w.requests <+: w'.requests)
    (fun w' e h => ?_) List.prefix_rfl es
  by_cases hexited : w'.world.exited = true
  · simpa [step, hexited] using h
  · rw [(taken_step (x := x) (g := g) hexited e).requests]
    exact h.trans (List.prefix_append _ _)

/-- What only a handler's own events are. -/
def Own (s : Service.Event) : Prop := s ≠ .exit ∧ ∀ id, s ≠ .signal id .drop

lemma own_signal {id : ℕ} {s : Signal} (hs : s ≠ .drop) : Own (.signal id s) := by
  refine ⟨by simp, fun id' hdrop => hs ?_⟩
  cases hdrop
  rfl

/-- Such an event is all that the handlers see of one of the gateway. -/
lemma handled_own {w : Gateway Cell} {e : Event} {s : Service.Event} (h : s ∈ w.handled e)
    (hs : Own s) : w.handled e = [s] := by
  cases e with
  | request k version method pathAndQuery headers =>
    unfold Gateway.handled at h ⊢
    simp only at h ⊢
    split at h
    · split at h
      · rw [List.mem_singleton.mp h]
      · cases h
    · cases h
  | signal id sig =>
    rw [List.mem_singleton.mp h]
    rfl
  | closed k result =>
    obtain ⟨id, -, rfl⟩ := List.mem_map.mp h
    exact absurd rfl (hs.2 id)
  | exit =>
    cases hresult : w.serve.result with
    | none => simp [Gateway.handled, hresult] at h
    | some r => exact absurd (by simpa [Gateway.handled, hresult] using h) hs.1
  | _ => cases h

lemma handled_signal {w : Gateway Cell} {e : Event} {id : ℕ} {s : Signal}
    (h : Service.Event.signal id s ∈ w.handled e) (hs : s ≠ .drop) : e = .signal id s := by
  cases e with
  | signal id' s' =>
    cases List.mem_singleton.mp h
    rfl
  | request k version method pathAndQuery headers =>
    unfold Gateway.handled at h
    simp only at h
    split at h
    · split at h <;> simp at h
    · cases h
  | closed k result =>
    obtain ⟨id', -, hdrop⟩ := List.mem_map.mp h
    cases hdrop
    exact absurd rfl hs
  | exit => cases hresult : w.serve.result <;> simp [Gateway.handled, hresult] at h
  | _ => cases h

/-- What the handlers see comes from the first event of the run, or from the rest of it. -/
lemma seen_cons {w : Gateway Cell} {e : ℕ × Event} {es : List (ℕ × Event)}
    {a : ℕ × Service.Event} {l : List (ℕ × Service.Event)} (ha : Own a.2)
    (h : (a :: l).Sublist (seen x g w (e :: es))) :
    (a :: l).Sublist (seen x g (step x g w e) es) ∨
      (¬w.world.exited = true ∧ a.1 = e.1 ∧ a.2 ∈ w.handled e.2 ∧
        l.Sublist (seen x g (step x g w e) es)) := by
  unfold seen at h
  by_cases hexited : w.world.exited = true
  · left
    simpa [hexited] using h
  · rw [if_neg hexited] at h
    obtain ⟨l₁, l₂, hl, h₁, h₂⟩ := List.sublist_append_iff.mp h
    cases l₁ with
    | nil =>
      obtain rfl : a :: l = l₂ := hl
      exact .inl h₂
    | cons b l₁ =>
      obtain ⟨rfl, rfl⟩ := List.cons.inj hl
      obtain ⟨s, hs, rfl⟩ := List.mem_map.mp (h₁.subset List.mem_cons_self)
      have hlength := h₁.length_le
      rw [handled_own hs ha] at hlength
      obtain rfl : l₁ = [] := by simpa using hlength
      exact .inr ⟨hexited, rfl, hs, h₂⟩

lemma signals_of_seen {w : Gateway Cell} {es : List (ℕ × Event)} {id : ℕ}
    {signals : List (ℕ × Signal)} (hsignals : ∀ s ∈ signals, s.2 ≠ .drop)
    (h : (signals.map fun s => (s.1, Service.Event.signal id s.2)).Sublist (seen x g w es)) :
    (signals.map fun s => (s.1, Event.signal id s.2)).Sublist es := by
  induction es generalizing w signals with
  | nil =>
    obtain rfl : signals = [] := by simpa [seen] using h
    exact List.Sublist.refl _
  | cons e es ih =>
    cases signals with
    | nil => exact List.nil_sublist _
    | cons s signals =>
      obtain ⟨hs, hrest⟩ := List.forall_mem_cons.mp hsignals
      rcases seen_cons (own_signal hs) h with hlater | ⟨-, htime, hmem, hlater⟩
      · exact (ih hsignals hlater).cons e
      · have he : (s.1, Event.signal id s.2) = e := Prod.ext htime (handled_signal hmem hs).symm
        rw [List.map_cons, he]
        exact (ih hrest hlater).cons_cons e

/-- **The arrival of a handler is that of its request**, which the gateway reads at that time. -/
lemma arrived_of_seen {w : Gateway Cell} {es : List (ℕ × Event)} {id t₀ : ℕ} {parts : Parts}
    {signals : List (ℕ × Signal)} (hsignals : ∀ s ∈ signals, s.2 ≠ .drop)
    (h : ((t₀, .arrive id parts) :: signals.map fun s => (s.1, Service.Event.signal id s.2)).Sublist
      (seen x g w es)) :
    ∃ past e later r, es = past ++ (t₀, e) :: later ∧
      (run (step x g) w past).received e = some r ∧ r.parts = parts ∧
      buildRouter parts.method parts.pathAndQuery = none ∧
      (run (step x g) w es).requests[id]? = some r ∧
      (signals.map fun s => (s.1, Event.signal id s.2)).Sublist later := by
  induction es generalizing w with
  | nil => simp [seen] at h
  | cons e es ih =>
    rcases seen_cons ⟨by simp, by simp⟩ h with hlater | ⟨hexited, htime, hmem, hlater⟩
    · obtain ⟨past, e', later, r, rfl, hreceived, hparts, hrouter, hr, hsub⟩ := ih hlater
      exact ⟨e :: past, e', later, r, rfl, hreceived, hparts, hrouter, hr, hsub⟩
    · obtain ⟨rfl, r, hr, rfl, hrouter⟩ := handled_arrive hmem
      refine ⟨[], e.2, es, r, ?_, hr, rfl, hrouter, ?_, signals_of_seen hsignals hlater⟩
      · obtain rfl : t₀ = e.1 := htime
        rfl
      · have hrequests : (step x g w e).requests = w.requests ++ [r] := by
          rw [(taken_step hexited e).requests, hr]
          rfl
        obtain ⟨more, hmore⟩ := requests_run (x := x) (g := g) (step x g w e) es
        rw [run_cons, ← hmore, hrequests]
        simp

/-- The connection of the request was accepted, has presented this chain in its handshake, and
brought the request at `t₀`, as number `id`; then the body of the call came, and the call was
handed to the HTTP client. -/
structure Brought (fromDer : FromDer) (es : List (ℕ × Event)) (id t₀ : ℕ) (r : Request)
    (chain : Option (List Bytes)) (call : Call) : Prop where
  identity : r.parts.clientCert = chain.bind (extractIdentity fromDer)
  events : ∃ tcp peer t₁ t₂ t₃, r.parts.peerIp = peer.ip ∧
    (es.filterMap fun e => e.2.peer)[r.task]? = some peer ∧
    List.Sublist [(t₁, Event.accepted tcp peer), (t₂, .handshake r.task (.ok chain)),
      (t₀, .request r.task r.version r.parts.method r.parts.pathAndQuery r.parts.headers),
      (call.started, .signal id (.body (.ok call.body))), (t₃, .signal id .handOver)] es

/-- **What is handed over goes back to one request**, to its connection and to every check of
it. -/
lemma brought_of_wire (x : Crates Cell) (g : Inner) (budgets : RateLimit)
    (es : List (ℕ × Event)) {id : ℕ} {call : Call} {out : Outgoing}
    (hmem : (id, call, out) ∈ (run (step x g) (.start x budgets) es).world.wire) :
    ∃ r t₀ chain, (run (step x g) (.start x budgets) es).requests[id]? = some r ∧
      buildRouter r.parts.method r.parts.pathAndQuery = none ∧
      Brought x.fromDer es id t₀ r chain call ∧
      Sent x g t₀ r.parts
        (entries (run (step x g) (.start x budgets) es).world.checks id) call out := by
  have hworld : (run (step x g) (.start x budgets) es).world = run (Service.step x g)
      (World.start x budgets) (seen x g (.start x budgets) es) := world_run _ es
  rw [hworld] at hmem ⊢
  obtain ⟨t₀, parts, hpassed, later, hlater, hsub⟩ :=
    (sent_once x g budgets _ id).2 call out (mem_entries.mpr hmem)
  obtain ⟨⟨t₃, s⟩, rfl, hs⟩ := List.map_eq_singleton_iff.mp hlater
  obtain rfl : s = .signal id .handOver := hs
  obtain ⟨past, e, rest, r, hes, hreceived, rfl, hrouter, hr, hsignals⟩ :=
    @arrived_of_seen _ _ _ _ _ _ _ _ [(call.started, .body (.ok call.body)), (t₃, .handOver)]
      (by simp) hsub
  refine ⟨r, t₀, ?_⟩
  -- the connection had been established when the request was read
  have hknown := known_run x g budgets past
  obtain ⟨rfl, ⟨task, htask, hserving⟩, peer, hpeer, hip⟩ := received_eq_some hreceived
  obtain ⟨peer', hpeer', hest⟩ := hknown.serving _ task _ htask hserving
  cases hpeer.symm.trans hpeer'
  obtain ⟨tcp, t₁, t₂, chain, hcert, hshaken⟩ := hest.shaken
  refine ⟨chain, hr, hrouter, ⟨hcert, tcp, peer, t₁, t₂, t₃, hip, ?_, ?_⟩, hpassed.sent⟩
  · rw [hes, List.filterMap_append]
    exact getElem?_more hest.nth _
  · rw [hes]
    exact hshaken.append (hsignals.cons_cons _)

lemma came_of_mem (x : Crates Cell) (g : Inner) (budgets : RateLimit) {es : List (ℕ × Event)}
    {id : ℕ} {r : Request} (hr : (run (step x g) (.start x budgets) es).requests[id]? = some r) :
    Came x.fromDer es r :=
  (known_run x g budgets es).requests r (List.mem_of_getElem? hr)

/-- The handlers of a gateway go through a run of the service, each for a request it has read. -/
lemma gateway_handler (x : Crates Cell) (g : Inner) (budgets : RateLimit) (es : List (ℕ × Event))
    {id : ℕ} {h : Handler}
    (hh : (run (step x g) (.start x budgets) es).world.handlers id = some h) :
    ∃ r, (run (step x g) (.start x budgets) es).requests[id]? = some r ∧ h.parts = r.parts ∧
      buildRouter r.parts.method r.parts.pathAndQuery = none ∧ Came x.fromDer es r := by
  obtain ⟨r, hr, hparts, hrouter, -⟩ := attended_run x g budgets es id h hh
  exact ⟨r, hr, hparts, hrouter, came_of_mem x g budgets hr⟩

/-- **Everything is done in the name of the connection that asked for it.** In every run of the
gateway, each request to an upstream was made of a request that is not a probe and was read from a
connection after its handshake, with the address of the peer that was accepted and the identity of
the certificates it has presented, and has passed every check with these; each record is of such a
request too and has the address of its connection; and all requests of one connection have one
identity. -/
theorem bound_to_connection (x : Crates Cell) (g : Inner) (budgets : RateLimit)
    (es : List (ℕ × Event)) :
    let w := run (step x g) (.start x budgets) es
    (∀ id call out, (id, call, out) ∈ w.world.wire → ∃ r t₀, w.requests[id]? = some r ∧
      buildRouter r.parts.method r.parts.pathAndQuery = none ∧ Came x.fromDer es r ∧
      Sent x g t₀ r.parts (entries w.world.checks id) call out) ∧
    (∀ id rec, (id, rec) ∈ w.world.trail → ∃ r, w.requests[id]? = some r ∧
      buildRouter r.parts.method r.parts.pathAndQuery = none ∧ Came x.fromDer es r ∧
      rec.sourceIp = some r.parts.peerIp) ∧
    ∀ r ∈ w.requests, ∀ r' ∈ w.requests, r.task = r'.task →
      r.parts.clientCert = r'.parts.clientCert := by
  intro w
  have hworld : w.world = run (Service.step x g) (World.start x budgets)
      (seen x g (.start x budgets) es) := world_run _ es
  refine ⟨fun id call out hmem => ?_, fun id rec hmem => ?_, (known_run x g budgets es).same⟩
  · obtain ⟨r, t₀, chain, hr, hrouter, -, hsent⟩ := brought_of_wire x g budgets es hmem
    exact ⟨r, t₀, hr, hrouter, came_of_mem x g budgets hr, hsent⟩
  · have haddressed := addressed_run x g budgets (seen x g (.start x budgets) es) id
    rw [← hworld] at haddressed
    obtain ⟨h, hh, hip⟩ := haddressed rec (mem_entries.mpr hmem)
    obtain ⟨r, hr, hparts, hrouter, hcame⟩ := gateway_handler x g budgets es hh
    exact ⟨r, hr, hrouter, hcame, hparts ▸ hip⟩

/-- The certificate backend identifies by the certificate of the connection. -/
lemma named_of_sent {b : MtlsBackend} (hmtls : g.authenticator = .mtls b)
    (hanonymous : g.allowAnonymousRead = false) {t₀ : ℕ} {parts : Parts} {checks : List Check}
    {call : Call} {out : Outgoing} (hsent : Sent x g t₀ parts checks call out) :
    ∃ cert, parts.clientCert = some cert ∧
      Identity.MappingNames b.mappings cert call.principal := by
  have hok : (Authenticator.mtls b).authenticate x.jwt (t₀ / 1000000000)
      ⟨extractBearer parts.headers, parts.clientCert⟩ false = .ok call.principal := by
    have hhead := hsent.authenticated
    unfold handleHead at hhead
    rw [hmtls, hanonymous] at hhead
    split at hhead
    · next hauth => rw [hauth, Except.ok.inj hhead]
    · cases hhead
  rcases Identity.mtls_ok.mp hok with hnamed | ⟨-, habsurd, -⟩
  · exact hnamed
  · cases habsurd

/-- **Behind mTLS every request to an upstream has a certificate behind it.** If the gateway
authenticates by certificates and lets nobody in without, then each call that is handed over is
that of a request of the run, which has passed every check and was read from a connection whose
peer has presented a chain in its handshake, the leaf of which has the subject of a configured
mapping; and the call is in the name of the principal of this mapping. -/
theorem certificate_behind_call (x : Crates Cell) (g : Inner) (b : MtlsBackend)
    (hmtls : g.authenticator = .mtls b) (hanonymous : g.allowAnonymousRead = false)
    (budgets : RateLimit) (es : List (ℕ × Event)) {id : ℕ} {call : Call} {out : Outgoing}
    (hmem : (id, call, out) ∈ (run (step x g) (.start x budgets) es).world.wire) :
    ∃ r t₀ chain cert, (run (step x g) (.start x budgets) es).requests[id]? = some r ∧
      Came x.fromDer es r ∧ Brought x.fromDer es id t₀ r (some chain) call ∧
      Sent x g t₀ r.parts
        (entries (run (step x g) (.start x budgets) es).world.checks id) call out ∧
      extractIdentity x.fromDer chain = some cert ∧
      Identity.MappingNames b.mappings cert call.principal := by
  obtain ⟨r, t₀, presented, hr, -, hbrought, hsent⟩ := brought_of_wire x g budgets es hmem
  obtain ⟨cert, hcert, hnames⟩ := named_of_sent hmtls hanonymous hsent
  obtain ⟨chain, rfl, hextract⟩ := Option.bind_eq_some_iff.mp (hbrought.identity.symm.trans hcert)
  exact ⟨r, t₀, chain, cert, hr, came_of_mem x g budgets hr, hbrought, hsent, hextract, hnames⟩

/-- A gateway that knows one certificate, read from the bytes of its name. -/
def mtlsCrates : Crates ℕ :=
  { exampleCrates with
    fromDer := fun der => if der = ascii "operator" then some ⟨[some "operator"], none⟩ else none }

def operatorMapping : MtlsMapping := ⟨"operator", "operator", ["read", "write"]⟩

def mtlsGateway : Inner :=
  { exampleGateway true with
    authenticator := Authenticator.mtls (MtlsBackend.mk [operatorMapping]) }

/-- A mutation over a connection with a certificate. -/
def certifiedRun : List (ℕ × Event) :=
  [(0, .accepted 7 (.v4 "10.0.0.5" 40001)), (1, .handshake 0 (.ok (some [ascii "operator"]))),
    (2, .request 0 .http1 .post "/" []), (3, .signal 0 (.body (.ok (ascii (requestText setRule))))),
    (4, .signal 0 .handOver)]

lemma chain_of_certifiedRun {fromDer : FromDer} {id t₀ : ℕ} {r : Request} {chain : List Bytes}
    {call : Call} (h : Brought fromDer certifiedRun id t₀ r (some chain) call) :
    chain = [ascii "operator"] := by
  obtain ⟨tcp, peer, t₁, t₂, t₃, -, -, hsub⟩ := h.events
  have hmem : (t₂, Event.handshake r.task (.ok (some chain))) ∈ certifiedRun :=
    hsub.subset (by simp)
  have hevent : t₂ = 1 ∧ r.task = 0 ∧ chain = [ascii "operator"] := by
    simpa [certifiedRun] using hmem
  exact hevent.2.2

theorem certificate_behind_call_operator : ∃ r t₀ call out cert,
    (run (step mtlsCrates mtlsGateway) (.start mtlsCrates .default)
      certifiedRun).requests[0]? = some r ∧
    Brought mtlsCrates.fromDer certifiedRun 0 t₀ r (some [ascii "operator"]) call ∧
    Sent mtlsCrates mtlsGateway t₀ r.parts
      (entries (run (step mtlsCrates mtlsGateway) (.start mtlsCrates .default)
        certifiedRun).world.checks 0) call out ∧
    Identity.MappingNames [operatorMapping] cert call.principal := by
  have hwire : (run (step mtlsCrates mtlsGateway) (.start mtlsCrates .default)
      certifiedRun).world.wire.map Prod.fst = [0] := by decide +kernel
  obtain ⟨⟨id, call, out⟩, hmem, hid⟩ := List.mem_map.mp (hwire ▸ List.mem_singleton_self 0)
  obtain rfl : id = 0 := hid
  obtain ⟨r, t₀, chain, cert, hr, -, hbrought, hsent, -, hnames⟩ :=
    certificate_behind_call mtlsCrates mtlsGateway ⟨[operatorMapping]⟩ rfl rfl .default
      certifiedRun hmem
  obtain rfl : chain = [ascii "operator"] := chain_of_certifiedRun hbrought
  exact ⟨r, t₀, call, out, cert, hr, hbrought, hsent, hnames⟩

/-! ### What a connection leaves behind -/

/-- The connection of a task has ended. -/
def Ended (w : Gateway Cell) (k : ℕ) : Prop := ∃ t, w.serve.tasks[k]? = some t ∧ t.phase = .ended

lemma view_step_gone {w : World Cell} {id : ℕ} {h : Handler} (hh : w.handlers id = some h)
    (hg : Gone h) (s : ℕ × Service.Event) :
    (Service.step x g w s).view id = w.view id := by
  rcases view_step_some (x := x) (g := g) hh s with heq | ⟨sig, -, -, heq⟩
  · exact heq
  · rw [heq, quiet_of_gone (advance_move x g w.limiters s.1 h sig) hg]
    exact View.extend_quiet (v := w.view id) hh _

lemma view_run_gone {w : World Cell} {id : ℕ} {h : Handler} (hh : w.handlers id = some h)
    (hg : Gone h) (ss : List (ℕ × Service.Event)) :
    (run (Service.step x g) w ss).view id = w.view id := by
  refine run_inv (I := fun w' : World Cell => w'.view id = w.view id) (fun w' s heq => ?_) rfl ss
  have hh' : w'.handlers id = some h := (congrArg View.handler heq).trans hh
  rw [view_step_gone hh' hg, heq]

lemma view_run_absent {w : World Cell} {id : ℕ} (hh : w.handlers id = none)
    {ss : List (ℕ × Service.Event)} (hss : ∀ t parts, (t, .arrive id parts) ∉ ss) :
    (run (Service.step x g) w ss).view id = w.view id := by
  induction ss generalizing w with
  | nil => rfl
  | cons s ss ih =>
    have hstep : (Service.step x g w s).view id = w.view id := by
      rcases view_step_absent (x := x) (g := g) hh s with heq | ⟨parts, hs, -⟩
      · exact heq
      · exact absurd (List.mem_cons.mpr (.inl (by rw [← hs]))) (hss s.1 parts)
    have hh' : (Service.step x g w s).handlers id = none :=
      (congrArg View.handler hstep).trans hh
    rw [run_cons, ih hh' fun t parts hmem => hss t parts (List.mem_cons_of_mem _ hmem), hstep]

/-- A request that is there, and whose handler is gone or never was, is not touched by a step. -/
lemma view_step_settled {w : Gateway Cell} {id : ℕ} (hid : id < w.requests.length)
    (hsettled : ∀ h, w.world.handlers id = some h → Gone h) (e : ℕ × Event) :
    (step x g w e).world.view id = w.world.view id := by
  by_cases hexited : w.world.exited = true
  · simp [step, hexited]
  · rw [(taken_step (x := x) (g := g) hexited e).world]
    rcases hh : w.world.handlers id with _ | h
    · refine view_run_absent hh fun t parts hmem => ?_
      obtain ⟨s, hs, heq⟩ := List.mem_map.mp hmem
      cases heq
      obtain ⟨hlength, -⟩ := handled_arrive hs
      omega
    · exact view_run_gone hh (hsettled h hh) _

lemma length_requests_step (w : Gateway Cell) (e : ℕ × Event) :
    w.requests.length ≤ (step x g w e).requests.length := by
  by_cases hexited : w.world.exited = true
  · simp [step, hexited]
  · rw [(taken_step (x := x) (g := g) hexited e).requests, List.length_append]
    omega

/-- **A connection that has ended leaves nothing behind.** In every run, once the connection of a
request over HTTP/1 has ended, nothing more happens for the request, whatever comes later: no
record, no question to the limiters, no request to an upstream and no response. -/
theorem ended_connection_quiet (x : Crates Cell) (g : Inner) (budgets : RateLimit)
    (past later : List (ℕ × Event)) {id : ℕ} {r : Request}
    (hr : (run (step x g) (.start x budgets) past).requests[id]? = some r)
    (hversion : r.version = .http1)
    (hended : Ended (run (step x g) (.start x budgets) past) r.task) :
    (run (step x g) (.start x budgets) (past ++ later)).world.view id =
      (run (step x g) (.start x budgets) past).world.view id := by
  have hrun : run (step x g) (.start x budgets) (past ++ later) =
      run (step x g) (run (step x g) (.start x budgets) past) later := by
    simp [run]
  have hsettled : ∀ h, (run (step x g) (.start x budgets) past).world.handlers id = some h →
      Gone h := by
    intro h hh
    obtain ⟨r', hr', -, -, hserved⟩ := attended_run x g budgets past id h hh
    cases hr.symm.trans hr'
    by_contra hlive
    obtain ⟨task, clientCert, htask, hserving⟩ := hserved hversion hlive
    obtain ⟨t, ht, hphase⟩ := hended
    cases htask.symm.trans ht
    rw [hphase] at hserving
    cases hserving
  have hid := (List.getElem?_eq_some_iff.mp hr).1
  rw [hrun]
  -- the request stays where it is, with a handler that is gone
  have hinv : id < (run (step x g) (run (step x g) (.start x budgets) past) later).requests.length ∧
      (run (step x g) (run (step x g) (.start x budgets) past) later).world.view id =
        (run (step x g) (.start x budgets) past).world.view id := by
    refine run_inv (I := fun w : Gateway Cell => id < w.requests.length ∧
      w.world.view id = (run (step x g) (.start x budgets) past).world.view id)
      (fun w e hw => ?_) ⟨hid, rfl⟩ later
    obtain ⟨hlt, hview⟩ := hw
    have hhandlers : w.world.handlers id =
        (run (step x g) (.start x budgets) past).world.handlers id := congrArg View.handler hview
    refine ⟨lt_of_lt_of_le hlt (length_requests_step w e), ?_⟩
    rw [view_step_settled hlt (fun h hh => hsettled h (hhandlers ▸ hh)) e, hview]
  exact hinv.2

/-- The connection ends before the upstream has answered. -/
def abandonedRun : List (ℕ × Event) := certifiedRun ++ [(5, .closed 0 (.ok ()))]

theorem ended_connection_quiet_operator :
    (run (step mtlsCrates mtlsGateway) (.start mtlsCrates .default)
      (abandonedRun ++ [(6, .signal 0 (.head (.ok (200, []))))])).world.view 0 =
    (run (step mtlsCrates mtlsGateway) (.start mtlsCrates .default) abandonedRun).world.view 0 := by
  have hrequests : (run (step mtlsCrates mtlsGateway) (.start mtlsCrates .default)
      abandonedRun).requests.map (fun r => (r.task, r.version)) = [(0, .http1)] := by
    decide +kernel
  have hphases : (run (step mtlsCrates mtlsGateway) (.start mtlsCrates .default)
      abandonedRun).serve.tasks.map Task.phase = [.ended] := by decide +kernel
  obtain ⟨r, hr, htask⟩ := List.map_eq_singleton_iff.mp hrequests
  obtain ⟨t, ht, hphase⟩ := List.map_eq_singleton_iff.mp hphases
  obtain ⟨htask, hversion⟩ := Prod.mk.inj htask
  refine ended_connection_quiet mtlsCrates mtlsGateway .default abandonedRun
    [(6, .signal 0 (.head (.ok (200, []))))] (r := r) (by rw [hr]; rfl) hversion ?_
  rw [htask]
  exact ⟨t, by rw [ht]; rfl, hphase⟩

end GatewayAuth.Process
