import GatewayAuth.Checks

/-!
What one client request becomes on its way through a run: at most one request handed to the HTTP
client, made of what was received, and at most one response, made of what that client returns.

A handler remembers where it stands, and what it remembers is traced back to the events that it
has been given, in the order in which they came.
-/

namespace GatewayAuth.Wire

open GatewayAuth.Lib.Logs GatewayAuth.Lib.Runs
open GatewayAuth.Classify GatewayAuth.Authz GatewayAuth.Forwarding GatewayAuth.Ratelimit
open GatewayAuth.Server GatewayAuth.Service GatewayAuth.Checks

variable {Cell : Type} {x : Crates Cell} {g : Inner}

/-! ### One request and the events so far -/

lemma view_step_absent {w : World Cell} {id : ℕ} (hh : w.handlers id = none) (e : ℕ × Event) :
    (step x g w e).view id = w.view id ∨ ∃ parts, e.2 = .arrive id parts ∧
      (step x g w e).view id = (w.view id).extend (arrive x g w.limiters e.1 parts) := by
  obtain ⟨now, e⟩ := e
  unfold step
  by_cases hexited : w.exited = true
  · simp [hexited]
  simp only [hexited]
  cases e with
  | arrive id' parts =>
    by_cases hid : id' = id
    · subst hid
      exact .inr ⟨parts, rfl, by simp [hh, view_apply_self]⟩
    · left
      rcases hh' : w.handlers id' with _ | h'
      · simp [hh', view_apply_of_ne w (Ne.symm hid)]
      · simp [hh']
  | signal id' s =>
    left
    rcases hh' : w.handlers id' with _ | h'
    · simp [hh']
    · have hne : id ≠ id' := by
        rintro rfl
        rw [hh] at hh'
        cases hh'
      simp [hh', view_apply_of_ne w hne]
  | exit =>
    left
    simp [World.view, World.exit, hh]

/-- What an event is to a request: nothing, its arrival, or a signal to its handler. -/
lemma view_step (w : World Cell) (e : ℕ × Event) (id : ℕ) :
    (step x g w e).view id = w.view id ∨
      (∃ parts, e.2 = .arrive id parts ∧ w.handlers id = none ∧
        (step x g w e).view id = (w.view id).extend (arrive x g w.limiters e.1 parts)) ∨
      ∃ h s, w.handlers id = some h ∧ e.2.signalTo id = some s ∧
        (step x g w e).view id = (w.view id).extend (advance x g w.limiters e.1 h s) := by
  rcases hh : w.handlers id with _ | h
  · rcases view_step_absent (x := x) (g := g) hh e with heq | ⟨parts, he, heq⟩
    · exact .inl heq
    · exact .inr (.inl ⟨parts, he, rfl, heq⟩)
  · rcases view_step_some (x := x) (g := g) hh e with heq | ⟨s, -, hs, heq⟩
    · exact .inl heq
    · exact .inr (.inr ⟨h, s, rfl, hs, heq⟩)

/-- **The invariant rule for one request and the events so far.** -/
lemma view_inv_of_past {I : List (ℕ × Event) → View → Prop} {id : ℕ}
    (hstart : I [] ⟨none, [], [], []⟩) (hmore : ∀ past e v, I past v → I (past ++ [e]) v)
    (harrive : ∀ past v (l : RateLimiters Cell) now parts, v.handler = none → I past v →
      I (past ++ [(now, .arrive id parts)]) (v.extend (arrive x g l now parts)))
    (hsignal : ∀ past v h (l : RateLimiters Cell) now e s, v.handler = some h →
      Event.signalTo id e = some s → I past v →
      I (past ++ [(now, e)]) (v.extend (advance x g l now h s)))
    (budgets : RateLimit) (es : List (ℕ × Event)) :
    I es ((run (step x g) (World.start x budgets) es).view id) := by
  refine run_inv_of_past (P := fun _ _ => True)
    (I := fun past (w : World Cell) => I past (w.view id)) ?_ (fun past w e _ h => ?_) es
    fun _ _ _ => trivial
  · rw [view_start]
    exact hstart
  · obtain ⟨now, e⟩ := e
    rcases view_step (x := x) (g := g) w (now, e) id with
      heq | ⟨parts, rfl, hnone, heq⟩ | ⟨hd, s, hsome, hs, heq⟩
    · rw [heq]
      exact hmore past (now, e) _ h
    · rw [heq]
      exact harrive past _ _ now parts hnone h
    · rw [heq]
      exact hsignal past _ hd _ now e s hsome hs h

/-! ### How a call of `forward` comes about -/

/-- A request that arrived at `t₀` has come to this call of `forward`, with the limiters asked for
it. -/
structure Passed (x : Crates Cell) (g : Inner) (t₀ : ℕ) (parts : Parts) (checks : List Check)
    (call : Call) (out : Outgoing) : Prop where
  authenticated : handleHead x g t₀ parts = .ok call.principal
  screened : screen x g parts call.principal (.ok call.body) = .ok (call.classification, call.body)
  asked : checks = [⟨call.started, call.classification.scope, call.principal.name, true⟩]
  outgoing : call.outgoing g parts = .ok out

/-- The events so far have led the request to the call, and these signals have come after it. -/
def Led (past : List (ℕ × Event)) (id t₀ : ℕ) (parts : Parts) (call : Call)
    (signals : List Signal) : Prop :=
  ∃ later, later.map Prod.snd = signals.map (Event.signal id) ∧
    ((t₀, .arrive id parts) :: (call.started, .signal id (.body (.ok call.body))) ::
      later).Sublist past

variable {past : List (ℕ × Event)} {id t₀ : ℕ} {parts : Parts} {call : Call} {out : Outgoing}

lemma Led.more {signals : List Signal} (hled : Led past id t₀ parts call signals)
    (e : ℕ × Event) : Led (past ++ [e]) id t₀ parts call signals := by
  obtain ⟨later, hmap, hsub⟩ := hled
  exact ⟨later, hmap, hsub.trans (List.sublist_append_left past [e])⟩

lemma Led.snoc {signals : List Signal} (hled : Led past id t₀ parts call signals) (now : ℕ)
    (s : Signal) :
    Led (past ++ [(now, .signal id s)]) id t₀ parts call (signals ++ [s]) := by
  obtain ⟨later, hmap, hsub⟩ := hled
  refine ⟨later ++ [(now, .signal id s)], by simp [hmap], ?_⟩
  simpa using hsub.append (List.Sublist.refl [(now, Event.signal id s)])

lemma Led.init {signals : List Signal} {s : Signal}
    (hled : Led past id t₀ parts call (signals ++ [s])) : Led past id t₀ parts call signals := by
  obtain ⟨later, hmap, hsub⟩ := hled
  rcases List.eq_nil_or_concat later with rfl | ⟨init, last, rfl⟩
  · simp at hmap
  · rw [List.concat_eq_append] at hmap hsub
    rw [List.map_append, List.map_append] at hmap
    refine ⟨init, (List.append_inj' hmap rfl).1, List.Sublist.trans ?_ hsub⟩
    exact ((List.sublist_append_left init [last]).cons_cons _).cons_cons _

/-- A signal other than being dropped is addressed to the handler. -/
lemma eq_signal {e : Event} {s : Signal} (h : e.signalTo id = some s) (hs : s ≠ .drop) :
    e = .signal id s := by
  cases e with
  | arrive id' parts => cases h
  | signal id' s' =>
    obtain ⟨rfl, rfl⟩ : id' = id ∧ s' = s := by simpa [Event.signalTo] using h
    rfl
  | exit =>
    cases h
    exact absurd rfl hs

def IsError (r : Response) : Prop := ∃ status message www, r = .error status message www

lemma isError_exit (r : Refusal) (now : ℕ) (parts : Parts) :
    IsError (r.exit x now parts).response := by
  cases r <;> exact ⟨_, _, _, rfl⟩

lemma isError_result (now : ℕ) (parts : Parts) (call : Call) (e : ProxyError) :
    IsError (handleResult x g now parts call (.error e)).response := ⟨_, _, _, rfl⟩

/-- Nothing has been handed over, or one request, for a call that was led here. -/
def Settled (x : Crates Cell) (g : Inner) (past : List (ℕ × Event)) (id t₀ : ℕ) (parts : Parts)
    (v : View) : Prop :=
  v.sent = [] ∨ ∃ call out, v.sent = [(call, out)] ∧ Passed x g t₀ parts v.checks call out ∧
    Led past id t₀ parts call [.handOver]

/-- The response is what the HTTP client has returned, headers that are not passed on apart. -/
def Relayed (past : List (ℕ × Event)) (id t₀ : ℕ) (parts : Parts)
    (sent : List (Call × Outgoing)) (r : Response) : Prop :=
  ∃ call out status headers body, sent = [(call, out)] ∧
    Led past id t₀ parts call [.handOver, .head (.ok (status, headers)), .bytes (.ok body)] ∧
    r = .relay status (filterResponseHeaders headers) body

/-- What has been asked and sent for a request, and the events behind it, by where its handler
stands. -/
def Went (x : Crates Cell) (g : Inner) (id : ℕ) (past : List (ℕ × Event)) (v : View) : Prop :=
  match v.handler with
  | none => v.sent = [] ∧ v.checks = []
  | some h =>
    match h.phase with
    | .readingBody p => v.sent = [] ∧ v.checks = [] ∧
        handleHead x g h.arrivedAt h.parts = .ok p ∧ (h.arrivedAt, .arrive id h.parts) ∈ past
    | .sending call out handed => Passed x g h.arrivedAt h.parts v.checks call out ∧
        if handed then v.sent = [(call, out)] ∧ Led past id h.arrivedAt h.parts call [.handOver]
        else v.sent = [] ∧ Led past id h.arrivedAt h.parts call []
    | .buffering call status headers => ∃ out, v.sent = [(call, out)] ∧
        Passed x g h.arrivedAt h.parts v.checks call out ∧
        Led past id h.arrivedAt h.parts call [.handOver, .head (.ok (status, headers))]
    | .responded r => Settled x g past id h.arrivedAt h.parts v ∧
        (IsError r ∨ Relayed past id h.arrivedAt h.parts v.sent r)
    | .dropped => Settled x g past id h.arrivedAt h.parts v

variable {v : View} {h : Handler}

lemma Settled.more (hs : Settled x g past id t₀ parts v) (e : ℕ × Event) :
    Settled x g (past ++ [e]) id t₀ parts v := by
  rcases hs with hnil | ⟨call, out, hsent, hpassed, hled⟩
  · exact .inl hnil
  · exact .inr ⟨call, out, hsent, hpassed, hled.more e⟩

lemma Relayed.more {sent : List (Call × Outgoing)} {r : Response}
    (hr : Relayed past id t₀ parts sent r) (e : ℕ × Event) :
    Relayed (past ++ [e]) id t₀ parts sent r := by
  obtain ⟨call, out, status, headers, body, hsent, hled, heq⟩ := hr
  exact ⟨call, out, status, headers, body, hsent, hled.more e, heq⟩

lemma went_more (hw : Went x g id past v) (e : ℕ × Event) : Went x g id (past ++ [e]) v := by
  unfold Went at hw ⊢
  rcases hv : v.handler with _ | ⟨parts, arrivedAt, body, phase⟩
  · rwa [hv] at hw
  · rw [hv] at hw
    cases phase with
    | readingBody p =>
      obtain ⟨hsent, hchecks, hhead, harrived⟩ := hw
      exact ⟨hsent, hchecks, hhead, List.mem_append_left _ harrived⟩
    | sending call out handed =>
      obtain ⟨hpassed, hw⟩ := hw
      cases handed
      · exact ⟨hpassed, hw.1, hw.2.more e⟩
      · exact ⟨hpassed, hw.1, hw.2.more e⟩
    | buffering call status headers =>
      obtain ⟨out, hsent, hpassed, hled⟩ := hw
      exact ⟨out, hsent, hpassed, hled.more e⟩
    | responded r => exact ⟨hw.1.more e, hw.2.imp_right fun hr => hr.more e⟩
    | dropped => exact hw.more e

lemma went_arrive (hv : v.handler = none) (hw : Went x g id past v) (l : RateLimiters Cell)
    (now : ℕ) (parts : Parts) :
    Went x g id (past ++ [(now, .arrive id parts)]) (v.extend (arrive x g l now parts)) := by
  obtain ⟨hsent, hchecks⟩ : v.sent = [] ∧ v.checks = [] := by
    unfold Went at hw
    rwa [hv] at hw
  unfold arrive
  rcases hhead : handleHead x g now parts with r | p
  · simp only [Went, View.extend, Effect.finish, hsent, List.append_nil]
    exact ⟨.inl rfl, .inl (isError_exit r now parts)⟩
  · simp only [Went, View.extend, Effect.quiet, hsent, hchecks, List.append_nil]
    exact ⟨trivial, trivial, hhead, by simp⟩

/-- What a body that passes leads to. -/
lemma passed_of_ok {l : RateLimiters Cell} {now : ℕ} {p : Principal} {b : Except Unit Bytes}
    (hhead : handleHead x g t₀ parts = .ok p)
    (hok : (handleBody x g l now parts p b).result = .ok call) :
    b = .ok call.body ∧ call.started = now ∧ ∀ out, call.outgoing g parts = .ok out →
      Passed x g t₀ parts ((handleBody x g l now parts p b).asked.toList.map fun a =>
        (⟨now, a.1, p.name, a.2⟩ : Check)) call out := by
  obtain ⟨c, b', hscreen, hpass, rfl⟩ := handleBody_ok.mp hok
  obtain ⟨hbytes, -, -⟩ := screen_ok.mp hscreen
  obtain ⟨rfl, -⟩ := toBytes_eq_some.mp hbytes
  refine ⟨rfl, rfl, fun out hout => ⟨hhead, hscreen, ?_, hout⟩⟩
  rw [(handleBody_consult (x := x) (g := g) l now parts p (.ok b')).2]
  simp [admits, hscreen, logged, hpass, Call.new]

lemma went_body {p : Principal} (hsent : v.sent = []) (hchecks : v.checks = [])
    (hhead : handleHead x g h.arrivedAt h.parts = .ok p)
    (harrived : (h.arrivedAt, .arrive id h.parts) ∈ past) (l : RateLimiters Cell) (now : ℕ)
    (b : Except Unit Bytes) : Went x g id (past ++ [(now, .signal id (.body b))]) (v.extend
      (afterBody x g now { h with body := some b } p (handleBody x g l now h.parts p b))) := by
  unfold afterBody
  rcases hb : (handleBody x g l now h.parts p b).result with r | call
  · simp only [Went, View.extend, Effect.finish, hsent, List.append_nil]
    exact ⟨.inl rfl, .inl (isError_exit r now _)⟩
  · obtain ⟨rfl, hstarted, hpassed⟩ := passed_of_ok hhead hb
    rcases hout : call.outgoing g h.parts with e | out
    · simp only [Went, View.extend, resume, hout, Effect.finish, hsent, List.append_nil]
      exact ⟨.inl rfl, .inl (isError_result now _ call e)⟩
    · simp only [Went, View.extend, resume, hout, Effect.quiet, hsent, hchecks, List.append_nil,
        List.nil_append]
      refine ⟨hpassed out hout, trivial, [], rfl, ?_⟩
      rw [hstarted]
      exact (List.singleton_sublist.mpr harrived).append (List.Sublist.refl _)

/-- A handler that completes leaves what it has sent. -/
lemma went_finish (hs : Settled x g past id h.arrivedAt h.parts v) (l : RateLimiters Cell)
    (e : Exit) (hr : IsError e.response ∨ Relayed past id h.arrivedAt h.parts v.sent e.response) :
    Went x g id past (v.extend (Effect.finish l h e)) := by
  simp only [Went, View.extend, Effect.finish, List.append_nil]
  refine ⟨?_, hr⟩
  rcases hs with hnil | ⟨call, out, hsent, hpassed, hled⟩
  · exact .inl hnil
  · exact .inr ⟨call, out, hsent, hpassed, hled⟩

lemma settled_of_went (hv : v.handler = some h) (hw : Went x g id past v) :
    Settled x g past id h.arrivedAt h.parts v := by
  unfold Went at hw
  rw [hv] at hw
  obtain ⟨parts, arrivedAt, body, phase⟩ := h
  cases phase with
  | readingBody p => exact .inl hw.1
  | sending call out handed =>
    cases handed
    · exact .inl hw.2.1
    · exact .inr ⟨call, out, hw.2.1, hw.1, hw.2.2⟩
  | buffering call status headers =>
    obtain ⟨out, hsent, hpassed, hled⟩ := hw
    exact .inr ⟨call, out, hsent, hpassed, hled.init⟩
  | responded r => exact hw.1
  | dropped => exact hw

/-- **Every signal takes a request on along its way.** -/
lemma went_advance (hv : v.handler = some h) (hw : Went x g id past v) (l : RateLimiters Cell)
    (now : ℕ) {e : Event} {s : Signal} (hs : e.signalTo id = some s) :
    Went x g id (past ++ [(now, e)]) (v.extend (advance x g l now h s)) := by
  have hmore := went_more hw (now, e)
  have hsettled := settled_of_went hv hmore
  have hphase := hw
  unfold Went at hphase
  rw [hv] at hphase
  simp only at hphase
  have hm := advance_move x g l now h s
  generalize heff : advance x g l now h s = eff at hm ⊢
  cases hm with
  | idle _ _ => rwa [View.extend_quiet hv]
  | drop =>
    rcases h.kill_cases with ⟨r, -, hk⟩ | ⟨-, hk⟩
    · rw [hk]
      rwa [View.extend_quiet hv]
    · rw [hk]
      simpa [Went, View.extend, Effect.quiet, Settled] using hsettled
  | @body p b hp =>
    rw [hp] at hphase
    obtain ⟨hsent, hchecks, hhead, harrived⟩ := hphase
    rw [eq_signal hs (by simp)]
    exact went_body hsent hchecks hhead harrived l now b
  | @handOver call out hp =>
    rw [hp] at hphase
    obtain ⟨hpassed, hsent, hled⟩ := hphase
    rw [eq_signal hs (by simp)]
    simp only [Went, View.extend, Effect.quiet, List.append_nil, hsent]
    exact ⟨hpassed, rfl, hled.snoc now .handOver⟩
  | @head call out status headers hp =>
    rw [hp] at hphase
    obtain ⟨hpassed, hsent, hled⟩ := hphase
    rw [eq_signal hs (by simp)]
    simp only [Went, View.extend, Effect.quiet, List.append_nil]
    exact ⟨out, hsent, hpassed, hled.snoc now _⟩
  | @headFailed call out handed err hp =>
    exact went_finish hsettled l _ (.inl (isError_result now _ call _))
  | @bytes call status headers r result hp =>
    rw [hp] at hphase
    obtain ⟨out, hsent, -, hled⟩ := hphase
    rw [← heff]
    -- the result is the one that the signal carries
    cases r with
    | error err =>
      simp only [advance, hp]
      exact went_finish hsettled l _ (.inl (isError_result now _ call _))
    | ok body =>
      simp only [advance, hp]
      rw [eq_signal hs (by simp)] at hsettled ⊢
      refine went_finish hsettled l _ (.inr ⟨call, out, status, headers, body, hsent, ?_, rfl⟩)
      exact hled.snoc now _

lemma went_run (x : Crates Cell) (g : Inner) (budgets : RateLimit) (es : List (ℕ × Event))
    (id : ℕ) : Went x g id es ((run (step x g) (World.start x budgets) es).view id) :=
  view_inv_of_past (I := Went x g id) ⟨rfl, rfl⟩ (fun _ e _ hw => went_more hw e)
    (fun _ _ l now parts hv hw => went_arrive hv hw l now parts)
    (fun _ _ _ l now _ _ hv hs hw => went_advance hv hw l now hs) budgets es

/-! ### Requests on the wire -/

/-- What is handed to the HTTP client is the request received, for the upstream of its path, with
the headers that are passed on; and its principal was found entitled to it. -/
structure Sent (x : Crates Cell) (g : Inner) (t₀ : ℕ) (parts : Parts) (checks : List Check)
    (call : Call) (out : Outgoing) : Prop where
  authenticated : handleHead x g t₀ parts = .ok call.principal
  fits : call.body.length ≤ g.bodyLimit
  classified : classifyRequest x parts.method (route parts.pathAndQuery).1 call.body
    g.failClosedOnParseError = .ok call.classification
  authorized : Authorized call.principal call.classification g.policy
  passed : checks = [⟨call.started, call.classification.scope, call.principal.name, true⟩]
  method : out.method = parts.method
  target : out.target = (route parts.pathAndQuery).1
  url : ∃ base, g.proxy.baseFor out.target = .ok base ∧
    out.url = base ++ (route parts.pathAndQuery).2
  headers : out.headers = filterForwardHeaders parts.headers
  body : out.body = call.body

lemma Passed.sent {checks : List Check} (hp : Passed x g t₀ parts checks call out) :
    Sent x g t₀ parts checks call out := by
  obtain ⟨hbytes, hclassified, hauthorized⟩ := screen_ok.mp hp.screened
  obtain ⟨-, hfits⟩ := toBytes_eq_some.mp hbytes
  have hout := hp.outgoing
  unfold Call.outgoing at hout
  rcases hbase : g.proxy.baseFor (route parts.pathAndQuery).1 with e | base
  · rw [forward_error hbase] at hout
    cases hout
  · rw [forward_ok hbase] at hout
    cases hout
    exact ⟨hp.authenticated, hfits, hclassified, hauthorized, hp.asked, rfl, rfl,
      ⟨base, hbase, rfl⟩, rfl, rfl⟩

/-- At most one request is handed over, for a call that the request was led to. -/
lemma sent_once (x : Crates Cell) (g : Inner) (budgets : RateLimit) (es : List (ℕ × Event))
    (id : ℕ) : (entries (run (step x g) (World.start x budgets) es).wire id).length ≤ 1 ∧
      ∀ call out, (call, out) ∈ entries (run (step x g) (World.start x budgets) es).wire id →
        ∃ t₀ parts, Passed x g t₀ parts
          (entries (run (step x g) (World.start x budgets) es).checks id) call out ∧
          Led es id t₀ parts call [.handOver] := by
  have hw := went_run x g budgets es id
  rcases hh : (run (step x g) (World.start x budgets) es).handlers id with _ | h
  · unfold Went at hw
    simp only [World.view, hh] at hw
    rw [hw.1]
    simp
  · rcases settled_of_went hh hw with hnil | ⟨call, out, hsent, hpassed, hled⟩
    · simp only [World.view] at hnil
      rw [hnil]
      simp
    · simp only [World.view] at hsent
      rw [hsent]
      refine ⟨le_rfl, fun call' out' hmem => ?_⟩
      cases List.mem_singleton.mp hmem
      exact ⟨h.arrivedAt, h.parts, hpassed, hled⟩

/-- **A request is handed to the HTTP client at most once, as it was received, and after every
check.** In every run, whatever the order in which requests proceed, at most one request is handed
over for each that comes in. It is made of what has arrived, in this order: the request, then its
body, and it is handed over after both; its principal, its classification and the answer of the
limiter are those of that request and that body. -/
theorem sent_once_as_received (x : Crates Cell) (g : Inner) (budgets : RateLimit)
    (es : List (ℕ × Event)) (id : ℕ) :
    (entries (run (step x g) (World.start x budgets) es).wire id).length ≤ 1 ∧
      ∀ call out, (call, out) ∈ entries (run (step x g) (World.start x budgets) es).wire id →
        ∃ t₀ parts, Led es id t₀ parts call [.handOver] ∧ Sent x g t₀ parts
          (entries (run (step x g) (World.start x budgets) es).checks id) call out := by
  obtain ⟨hlength, hsent⟩ := sent_once x g budgets es id
  refine ⟨hlength, fun call out hmem => ?_⟩
  obtain ⟨t₀, parts, hpassed, hled⟩ := hsent call out hmem
  exact ⟨t₀, parts, hled, hpassed.sent⟩

/-! ### Responses -/

/-- Nothing happens to a handler that has answered. -/
lemma quiet_of_responded {l : RateLimiters Cell} {now : ℕ} {s : Signal} {eff : Effect Cell}
    {r : Response} (hm : Move x g l now h s eff) (hr : h.phase = .responded r) :
    eff = .quiet l h := by
  have hkill : h.kill = h := by
    rcases h.kill_cases with ⟨-, -, hk⟩ | ⟨hnot, -⟩
    · exact hk
    · exact absurd hr (hnot r)
  cases hm with
  | idle _ _ => rfl
  | drop => rw [hkill]
  | body hp => cases hr.symm.trans hp
  | handOver hp => cases hr.symm.trans hp
  | head hp => cases hr.symm.trans hp
  | headFailed hp => cases hr.symm.trans hp
  | bytes hp => cases hr.symm.trans hp

/-- Nothing happens to a request that has been answered. -/
lemma view_step_responded {w : World Cell} {r : Response} (hh : w.handlers id = some h)
    (hr : h.phase = .responded r) (e : ℕ × Event) : (step x g w e).view id = w.view id := by
  rcases view_step_some (x := x) (g := g) hh e with heq | ⟨s, -, -, heq⟩
  · exact heq
  · rw [heq, quiet_of_responded (advance_move x g w.limiters e.1 h s) hr]
    exact View.extend_quiet (v := w.view id) hh _

/-- **A request is answered once, and with the answer to itself.** In every run, a request that has
been answered was answered with an error of the gateway itself, or with the status, the body and
the headers of what the HTTP client has returned for the one request it was handed for it, after it
was handed over; and whatever happens next, the answer is still that one. -/
theorem answered_once_with_own (x : Crates Cell) (g : Inner) (budgets : RateLimit)
    (es : List (ℕ × Event)) (id : ℕ) {h : Handler} {r : Response}
    (hh : (run (step x g) (World.start x budgets) es).handlers id = some h)
    (hr : h.phase = .responded r) :
    (IsError r ∨ ∃ t₀ parts, Relayed es id t₀ parts
      (entries (run (step x g) (World.start x budgets) es).wire id) r) ∧
    ∀ more, (run (step x g) (World.start x budgets) (es ++ more)).view id =
      (run (step x g) (World.start x budgets) es).view id := by
  refine ⟨?_, fun more => ?_⟩
  · have hw := went_run x g budgets es id
    unfold Went at hw
    simp only [World.view, hh, hr] at hw
    exact hw.2.imp_right fun hrelayed => ⟨h.arrivedAt, h.parts, hrelayed⟩
  · have hrun : run (step x g) (World.start x budgets) (es ++ more) =
        run (step x g) (run (step x g) (World.start x budgets) es) more := by
      simp [run]
    rw [hrun]
    refine run_inv (I := fun w : World Cell => w.view id =
      (run (step x g) (World.start x budgets) es).view id) (fun w e heq => ?_) rfl more
    have hhandler : w.handlers id = some h := (congrArg View.handler heq).trans hh
    rw [view_step_responded hhandler hr, heq]

/-- A mutation that is handed over and answered. -/
def answeredRun : List (ℕ × Event) :=
  [(0, .arrive 0 (exampleParts .post "/" "write-token")),
    (1, .signal 0 (.body (.ok (ascii (requestText setRule))))), (2, .signal 0 .handOver),
    (3, .signal 0 (.head (.ok (200, [("content-length", ascii "2"), ("x-node", ascii "a")])))),
    (4, .signal 0 (.bytes (.ok (ascii "ok"))))]

theorem answered_once_with_own_write :
    (∃ t₀ parts, Relayed answeredRun 0 t₀ parts
      (entries (run (step exampleCrates (exampleGateway true)) (World.start exampleCrates .default)
        answeredRun).wire 0) (.relay 200 [("x-node", ascii "a")] (ascii "ok"))) ∧
    ∀ more, (run (step exampleCrates (exampleGateway true)) (World.start exampleCrates .default)
        (answeredRun ++ more)).view 0 =
      (run (step exampleCrates (exampleGateway true)) (World.start exampleCrates .default)
        answeredRun).view 0 := by
  obtain ⟨hresponse, hstays⟩ := answered_once_with_own exampleCrates (exampleGateway true) .default
    answeredRun 0 (h := ⟨exampleParts .post "/" "write-token", 0,
      some (.ok (ascii (requestText setRule))),
      .responded (.relay 200 [("x-node", ascii "a")] (ascii "ok"))⟩) rfl rfl
  exact ⟨hresponse.resolve_left (by rintro ⟨_, _, _, hr⟩; cases hr), hstays⟩

end GatewayAuth.Wire
