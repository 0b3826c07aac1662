import GatewayAuth.Checks
import GatewayAuth.Listener

/-!
The whole gateway behind TLS: the listener, its connections, the router and the handlers.

`serve_connection` gives each request the address of its peer and the identity of its client
certificate, if there is one; the router answers the probes of the orchestrator itself and passes
everything else to the handler. A connection that ends takes its handlers with it.
-/

namespace GatewayAuth.Process

open GatewayAuth.Lib.Runs
open GatewayAuth.Classify GatewayAuth.Forwarding GatewayAuth.Auth
open GatewayAuth.Server GatewayAuth.Service
open GatewayAuth.Listener

/-! ### Addresses and routes -/

inductive SocketAddr
  | v4 (ip : String) (port : ℕ)
  | v6 (ip : String) (scopeId port : ℕ)
  deriving DecidableEq

def SocketAddr.ip : SocketAddr → String
  | .v4 ip _ => ip
  | .v6 ip _ _ => ip

def SocketAddr.display : SocketAddr → String
  | .v4 ip port => ip ++ ":" ++ toString port
  | .v6 ip scopeId port =>
    "[" ++ ip ++ (if scopeId = 0 then "" else "%" ++ toString scopeId) ++ "]:" ++ toString port

/-- The path of a request target, without its query. -/
def path (pathAndQuery : String) : String :=
  String.ofList (pathAndQuery.toList.takeWhile fun c => c != '?')

/-- The response to a probe: `ok`, or that the route has no such method. -/
inductive Probe
  | ok
  | methodNotAllowed
  deriving DecidableEq

def probePaths : List String := ["/healthz", "/readyz"]

/-- What the router answers itself. A route for `GET` takes `HEAD` as well. -/
def buildRouter (method : Method) (pathAndQuery : String) : Option Probe :=
  if path pathAndQuery ∈ probePaths then
    some (if method = .get ∨ method = .head then .ok else .methodNotAllowed)
  else none

/-! ### The gateway -/

/-- The protocol of a connection. Requests over HTTP/1 are served by the task of the connection;
over HTTP/2 each has a task of its own, which ends when it learns that its stream is reset. -/
inductive Version
  | http1
  | http2
  deriving DecidableEq

/-- A request that has been read from the connection of a task. -/
structure Request where
  task : ℕ
  version : Version
  parts : Parts

/-- The listener, the addresses its tasks serve, the requests they have read, in order, and the
handlers, each under the number of its request. -/
structure Gateway (Cell : Type) where
  serve : Serve
  peers : List SocketAddr
  requests : List Request
  world : World Cell

/-- What happens to the gateway: what happens to its listener, a request read from a connection,
what the environment does at an await of a handler, and the end of the process. -/
inductive Event
  | shutdown
  | accepted (tcp : ℕ) (peer : SocketAddr)
  | acceptFailed (e : String)
  | shutdownSeen
  | handshake (task : ℕ) (chain : Except String (Option (List Bytes)))
  | closed (task : ℕ) (result : Except String Unit)
  | request (task : ℕ) (version : Version) (method : Method) (pathAndQuery : String)
      (headers : HeaderMap)
  | signal (id : ℕ) (s : Signal)
  | exit

/-- What the listener sees of it. -/
def Event.listener : Event → Option Listener.Event
  | .shutdown => some .shutdown
  | .accepted tcp peer => some (.accepted ⟨tcp, peer.display⟩)
  | .acceptFailed e => some (.acceptFailed e)
  | .shutdownSeen => some .shutdownSeen
  | .handshake task chain => some (.handshake task chain)
  | .closed task result => some (.closed task result)
  | _ => none

variable {Cell : Type}

def Gateway.start (x : Crates Cell) (budgets : RateLimit) : Gateway Cell :=
  ⟨.start, [], [], .start x budgets⟩

/-- The address of a connection that is handed to a task. -/
def Gateway.handed (w : Gateway Cell) : Event → Option SocketAddr
  | .accepted _ peer =>
    match w.serve.result with
    | none => some peer
    | some _ => none
  | _ => none

/-- A request with what `serve_connection` adds to it. -/
def Gateway.received (w : Gateway Cell) : Event → Option Request
  | .request task version method pathAndQuery headers =>
    match w.serve.tasks[task]?.map Task.phase, w.peers[task]? with
    | some (.serving clientCert), some peer =>
      some ⟨task, version, method, pathAndQuery, headers, peer.ip, clientCert⟩
    | _, _ => none
  | _ => none

/-- The requests that a task serves itself. -/
def Gateway.requestsOf (w : Gateway Cell) (task : ℕ) : List ℕ :=
  (List.range w.requests.length).filter fun id =>
    w.requests[id]?.map (fun r => (r.task, r.version)) = some (task, .http1)

/-- What the handlers see of an event: the arrival of a request that is not a probe, a signal, the
end of the task that serves them, or the end of the process, which comes after `serve` has
returned. -/
def Gateway.handled (w : Gateway Cell) (e : Event) : List Service.Event :=
  match e with
  | .request .. =>
    match w.received e with
    | some request =>
      match buildRouter request.parts.method request.parts.pathAndQuery with
      | none => [.arrive w.requests.length request.parts]
      | some _ => []
    | none => []
  | .signal id s => [.signal id s]
  | .closed task _ => (w.requestsOf task).map fun id => .signal id .drop
  | .exit => if w.serve.result.isSome then [.exit] else []
  | _ => []

variable (x : Crates Cell) (g : Inner)

/-- One step of the gateway. Nothing happens after the end of the process. -/
def step (w : Gateway Cell) (e : ℕ × Event) : Gateway Cell :=
  if w.world.exited then w
  else
    { serve := (e.2.listener.map (Listener.step x.fromDer w.serve)).getD w.serve
      peers := w.peers ++ (w.handed e.2).toList
      requests := w.requests ++ (w.received e.2).toList
      world := run (Service.step x g) w.world ((w.handled e.2).map fun s => (e.1, s)) }

/-- What the handlers see of a run. -/
def seen (w : Gateway Cell) : List (ℕ × Event) → List (ℕ × Service.Event)
  | [] => []
  | e :: es => (if w.world.exited then [] else (w.handled e.2).map fun s => (e.1, s)) ++
      seen (step x g w e) es

variable {x g}

/-- **The gateway runs the service**: its handlers go through a run of the service over what they
see. -/
lemma world_run (w : Gateway Cell) (es : List (ℕ × Event)) :
    (run (step x g) w es).world = run (Service.step x g) w.world (seen x g w es) := by
  induction es generalizing w with
  | nil => rfl
  | cons e es ih =>
    rw [run_cons, ih, seen]
    unfold step
    by_cases hexited : w.world.exited = true
    · simp [hexited]
    · simp [hexited, run, List.foldl_append]

/-! ### The tasks -/

/-- What a step of the listener does to its task `k`. -/
inductive Evolves (fromDer : FromDer) (e : Listener.Event) (k : ℕ) (t : Task) : Task → Prop
  | same : Evolves fromDer e k t t
  | served (chain : Option (List Bytes)) (t' : Task) : e = .handshake k (.ok chain) →
      t.phase = .handshaking → t'.phase = .serving (chain.bind (extractIdentity fromDer)) →
      Evolves fromDer e k t t'
  | failed (t' : Task) : t.phase = .handshaking → t'.phase = .ended → Evolves fromDer e k t t'
  | closed (result : Except String Unit) (t' : Task) : e = .closed k result → t'.phase = .ended →
      Evolves fromDer e k t t'

lemma evolves_handshake {fromDer : FromDer} (k : ℕ)
    (chain : Except String (Option (List Bytes))) (t : Task) :
    Evolves fromDer (.handshake k chain) k t (t.handshake fromDer chain) := by
  obtain ⟨connection, phase⟩ := t
  rcases phase with _ | cert | _
  · rcases chain with e | certs
    · exact .failed _ rfl rfl
    · exact .served certs _ rfl rfl rfl
  · cases chain <;> exact .same
  · cases chain <;> exact .same

lemma evolves_close {fromDer : FromDer} (k : ℕ) (result : Except String Unit) (t : Task) :
    Evolves fromDer (.closed k result) k t t.close := by
  obtain ⟨connection, phase⟩ := t
  rcases phase with _ | cert | _
  · exact .same
  · exact .closed result _ rfl rfl
  · exact .same

/-- **Tasks are never lost and never start over.** -/
lemma task_step (fromDer : FromDer) (l : Serve) (e : Listener.Event) {k : ℕ} {t : Task}
    (ht : l.tasks[k]? = some t) :
    ∃ t', (Listener.step fromDer l e).tasks[k]? = some t' ∧ Evolves fromDer e k t t' := by
  cases e with
  | accepted connection =>
    cases hresult : l.result with
    | none =>
      have hk : k < l.tasks.length := (List.getElem?_eq_some_iff.mp ht).1
      exact ⟨t, by simp [Listener.step, hresult, List.getElem?_append_left hk, ht], .same⟩
    | some r => exact ⟨t, by simp [Listener.step, hresult, ht], .same⟩
  | handshake task chain =>
    by_cases hk : task = k
    · subst hk
      exact ⟨t.handshake fromDer chain, by simp [Listener.step, ht],
        evolves_handshake task chain t⟩
    · exact ⟨t, by simp [Listener.step, ht, hk], .same⟩
  | closed task result =>
    by_cases hk : task = k
    · subst hk
      exact ⟨t.close, by simp [Listener.step, ht], evolves_close task result t⟩
    · exact ⟨t, by simp [Listener.step, ht, hk], .same⟩
  | acceptFailed m => cases hresult : l.result <;> exact ⟨t, by simp [Listener.step, hresult, ht], .same⟩
  | shutdownSeen =>
    cases hresult : l.result <;> cases hs : l.shutdown <;>
      exact ⟨t, by simp [Listener.step, hresult, hs, ht], .same⟩
  | shutdown => exact ⟨t, ht, .same⟩

/-- A new task is in its handshake. -/
lemma task_step_new (fromDer : FromDer) (l : Serve) (e : Listener.Event) :
    (Listener.step fromDer l e).tasks.length = l.tasks.length ∨
      ∃ c, e = .accepted c ∧ l.result = none ∧
        (Listener.step fromDer l e).tasks = l.tasks ++ [⟨c, .handshaking⟩] := by
  cases e with
  | accepted connection =>
    cases hresult : l.result with
    | none => exact .inr ⟨connection, rfl, rfl, by simp [Listener.step, hresult]⟩
    | some r => exact .inl (by simp [Listener.step, hresult])
  | acceptFailed m => cases hresult : l.result <;> exact .inl (by simp [Listener.step, hresult])
  | shutdownSeen =>
    cases hresult : l.result <;> cases hs : l.shutdown <;>
      exact .inl (by simp [Listener.step, hresult, hs])
  | _ => exact .inl (by simp [Listener.step])

variable {fromDer : FromDer}

lemma listener_handshake {e : Event} {k : ℕ} {chain : Except String (Option (List Bytes))}
    (h : e.listener = some (.handshake k chain)) : e = .handshake k chain := by
  cases e with
  | handshake task chain' =>
    cases h
    rfl
  | _ => cases h

lemma listener_closed {e : Event} {k : ℕ} {result : Except String Unit}
    (h : e.listener = some (.closed k result)) : e = .closed k result := by
  cases e with
  | closed task result' =>
    cases h
    rfl
  | _ => cases h

/-- A task of the gateway after a step. -/
lemma gateway_task (w : Gateway Cell) (e : ℕ × Event) {k : ℕ} {t : Task}
    (ht : w.serve.tasks[k]? = some t) :
    ∃ t', (step x g w e).serve.tasks[k]? = some t' ∧ (t' = t ∨
      (t.phase = .handshaking ∧ (t'.phase = .ended ∨ ∃ chain, e.2 = .handshake k (.ok chain) ∧
        t'.phase = .serving (chain.bind (extractIdentity x.fromDer)))) ∨
      (t'.phase = .ended ∧ ∃ result, e.2 = .closed k result)) := by
  unfold step
  by_cases hexited : w.world.exited = true
  · exact ⟨t, by simp [hexited, ht], .inl rfl⟩
  · rcases hl : e.2.listener with _ | l
    · exact ⟨t, by simp [hexited, ht], .inl rfl⟩
    · obtain ⟨t', ht', hevolves⟩ := task_step x.fromDer w.serve l ht
      refine ⟨t', by simpa [hexited] using ht', ?_⟩
      cases hevolves with
      | same => exact .inl rfl
      | served chain _ hhandshake hbefore hafter =>
        subst hhandshake
        exact .inr (.inl ⟨hbefore, .inr ⟨chain, listener_handshake hl, hafter⟩⟩)
      | failed _ hbefore hended => exact .inr (.inl ⟨hbefore, .inl hended⟩)
      | closed result _ hclosed hended =>
        subst hclosed
        exact .inr (.inr ⟨hended, result, listener_closed hl⟩)

/-- The addresses go with the tasks. -/
lemma gateway_peers {w : Gateway Cell} (hw : w.peers.length = w.serve.tasks.length)
    (e : ℕ × Event) :
    (step x g w e).peers.length = (step x g w e).serve.tasks.length := by
  unfold step
  by_cases hexited : w.world.exited = true
  · simpa [hexited] using hw
  · simp only [hexited]
    obtain ⟨now, e⟩ := e
    have hnew := task_step_new x.fromDer w.serve
    cases e with
    | accepted tcp peer =>
      cases hresult : w.serve.result <;>
        simp [Event.listener, Gateway.handed, Listener.step, hresult, hw]
    | acceptFailed m =>
      cases hresult : w.serve.result <;>
        simp [Event.listener, Gateway.handed, Listener.step, hresult, hw]
    | shutdownSeen =>
      cases hresult : w.serve.result <;> cases hs : w.serve.shutdown <;>
        simp [Event.listener, Gateway.handed, Listener.step, hresult, hs, hw]
    | _ => simp [Event.listener, Gateway.handed, Listener.step, hw]

/-! ### Where a request comes from -/

def Event.peer : Event → Option SocketAddr
  | .accepted _ peer => some peer
  | _ => none

/-- The connection of task `k` was accepted from `peer` and has come through its handshake with
this identity. -/
structure Established (fromDer : FromDer) (past : List (ℕ × Event)) (k : ℕ) (peer : SocketAddr)
    (clientCert : Option ClientCert) (later : List (ℕ × Event)) : Prop where
  nth : (past.filterMap fun e => e.2.peer)[k]? = some peer
  shaken : ∃ tcp t₀ t₁ chain, clientCert = chain.bind (extractIdentity fromDer) ∧
    ((t₀, .accepted tcp peer) :: (t₁, .handshake k (.ok chain)) :: later).Sublist past

/-- The request was read from a connection that had been established. -/
def Came (fromDer : FromDer) (past : List (ℕ × Event)) (r : Request) : Prop :=
  ∃ t peer, r.parts.peerIp = peer.ip ∧ Established fromDer past r.task peer r.parts.clientCert
    [(t, .request r.task r.version r.parts.method r.parts.pathAndQuery r.parts.headers)]

variable {past : List (ℕ × Event)}

lemma getElem?_more {peers : List SocketAddr} {k : ℕ} {peer : SocketAddr}
    (h : peers[k]? = some peer) (more : List SocketAddr) : (peers ++ more)[k]? = some peer := by
  rw [List.getElem?_append_left (List.getElem?_eq_some_iff.mp h).1, h]

lemma Established.more {k : ℕ} {peer : SocketAddr} {clientCert : Option ClientCert}
    {later : List (ℕ × Event)} (h : Established fromDer past k peer clientCert later)
    (e : ℕ × Event) : Established fromDer (past ++ [e]) k peer clientCert later := by
  obtain ⟨tcp, t₀, t₁, chain, hcert, hsub⟩ := h.shaken
  refine ⟨?_, tcp, t₀, t₁, chain, hcert, hsub.trans (List.sublist_append_left past [e])⟩
  rw [List.filterMap_append]
  exact getElem?_more h.nth _

lemma Established.snoc {k : ℕ} {peer : SocketAddr} {clientCert : Option ClientCert}
    (h : Established fromDer past k peer clientCert []) (e : ℕ × Event) :
    Established fromDer (past ++ [e]) k peer clientCert [e] := by
  obtain ⟨tcp, t₀, t₁, chain, hcert, hsub⟩ := h.shaken
  exact ⟨(h.more e).nth, tcp, t₀, t₁, chain, hcert, hsub.append (List.Sublist.refl [e])⟩

/-- What the gateway holds of its connections and requests goes back to the events so far. -/
structure Known (fromDer : FromDer) (past : List (ℕ × Event)) (w : Gateway Cell) : Prop where
  exited : w.world.exited = true → w.serve.result ≠ none
  length : w.peers.length = w.serve.tasks.length
  accepted : w.serve.result = none → w.peers = past.filterMap fun e => e.2.peer
  peers : w.peers <+: past.filterMap fun e => e.2.peer
  serving : ∀ (k : ℕ) task clientCert, w.serve.tasks[k]? = some task →
    task.phase = .serving clientCert →
    ∃ peer, w.peers[k]? = some peer ∧ Established fromDer past k peer clientCert []
  requests : ∀ r ∈ w.requests, Came fromDer past r
  held : ∀ r ∈ w.requests, (∃ peer, w.peers[r.task]? = some peer ∧ r.parts.peerIp = peer.ip) ∧
    ∃ task, w.serve.tasks[r.task]? = some task ∧
      (task.phase = .serving r.parts.clientCert ∨ task.phase = .ended)
  same : ∀ r ∈ w.requests, ∀ r' ∈ w.requests, r.task = r'.task →
    r.parts.clientCert = r'.parts.clientCert

/-- A request that is received comes from a connection that is served. -/
lemma received_eq_some {w : Gateway Cell} {e : Event} {r : Request} (h : w.received e = some r) :
    e = .request r.task r.version r.parts.method r.parts.pathAndQuery r.parts.headers ∧
      (∃ task, w.serve.tasks[r.task]? = some task ∧ task.phase = .serving r.parts.clientCert) ∧
      ∃ peer, w.peers[r.task]? = some peer ∧ r.parts.peerIp = peer.ip := by
  cases e with
  | request k version method pathAndQuery headers =>
    unfold Gateway.received at h
    simp only at h
    split at h
    · next clientCert peer hphase hpeer =>
      cases h
      obtain ⟨task, htask, hserving⟩ := Option.map_eq_some_iff.mp hphase
      exact ⟨rfl, ⟨task, htask, hserving⟩, peer, hpeer, rfl⟩
    · cases h
  | _ => cases h

lemma result_step (l : Serve) (e : Listener.Event) (h : l.result ≠ none) :
    (Listener.step fromDer l e).result ≠ none := by
  obtain ⟨r, hr⟩ := Option.ne_none_iff_exists'.mp h
  cases e <;> simp [Listener.step, hr]

lemma exited_run {w : World Cell} {es : List (ℕ × Service.Event)} (hes : ∀ e ∈ es, e.2 ≠ .exit) :
    (run (Service.step x g) w es).exited = w.exited := by
  induction es generalizing w with
  | nil => rfl
  | cons e es ih =>
    have he : e.2 ≠ .exit := hes e List.mem_cons_self
    rw [run_cons, ih fun e' he' => hes e' (List.mem_cons_of_mem _ he'), Checks.exited_step]
    obtain ⟨now, e⟩ := e
    cases e <;> simp at he ⊢

lemma known_more {w : Gateway Cell} (hk : Known fromDer past w)
    (hresult : w.serve.result ≠ none) (e : ℕ × Event) : Known fromDer (past ++ [e]) w := by
  refine ⟨hk.exited, hk.length, fun h => absurd h hresult, ?_,
    fun k task cert htask hserving => ?_, fun r hr => ?_, hk.held, hk.same⟩
  · rw [List.filterMap_append]
    exact hk.peers.trans (List.prefix_append _ _)
  · obtain ⟨peer, hpeer, hest⟩ := hk.serving k task cert htask hserving
    exact ⟨peer, hpeer, hest.more e⟩
  · obtain ⟨t, peer, hip, hest⟩ := hk.requests r hr
    exact ⟨t, peer, hip, hest.more e⟩

lemma nth_of_peers {w : Gateway Cell} (hk : Known fromDer past w) {k : ℕ} {peer : SocketAddr}
    (hpeer : w.peers[k]? = some peer) : (past.filterMap fun e => e.2.peer)[k]? = some peer := by
  obtain ⟨more, hmore⟩ := hk.peers
  rw [← hmore]
  exact getElem?_more hpeer more

lemma mem_of_nth {k : ℕ} {peer : SocketAddr}
    (h : (past.filterMap fun e => e.2.peer)[k]? = some peer) :
    ∃ t tcp, (t, Event.accepted tcp peer) ∈ past := by
  obtain ⟨⟨t, e⟩, he, hpeer⟩ := List.mem_filterMap.mp (List.mem_of_getElem? h)
  cases e with
  | accepted tcp peer' =>
    cases hpeer
    exact ⟨t, tcp, he⟩
  | _ => cases hpeer

/-- A task that a step adds is in its handshake. -/
lemma gateway_task_new {w : Gateway Cell} {e : ℕ × Event} {k : ℕ} {t : Task}
    (hnone : w.serve.tasks[k]? = none) (ht : (step x g w e).serve.tasks[k]? = some t) :
    t.phase = .handshaking := by
  unfold step at ht
  by_cases hexited : w.world.exited = true
  · simp [hexited, hnone] at ht
  · rcases hl : e.2.listener with _ | l
    · simp [hexited, hl, hnone] at ht
    · have htasks : (Listener.step x.fromDer w.serve l).tasks[k]? = some t := by
        simpa [hexited, hl] using ht
      have hlong : w.serve.tasks.length ≤ k := List.getElem?_eq_none_iff.mp hnone
      have hk := (List.getElem?_eq_some_iff.mp htasks).1
      rcases task_step_new x.fromDer w.serve l with hsame | ⟨c, -, -, hnew⟩
      · omega
      · rw [hnew, List.getElem?_append_right hlong] at htasks
        have hmem := List.mem_of_getElem? htasks
        rw [List.mem_singleton.mp hmem]

lemma handled_exit {w : Gateway Cell} {e : Event} (h : Service.Event.exit ∈ w.handled e) :
    e = .exit ∧ w.serve.result ≠ none := by
  cases e with
  | exit =>
    cases hresult : w.serve.result with
    | none => simp [Gateway.handled, hresult] at h
    | some r => exact ⟨rfl, by simp⟩
  | request k version method pathAndQuery headers =>
    unfold Gateway.handled at h
    simp only at h
    split at h
    · split at h <;> simp at h
    · simp at h
  | closed k result => simp [Gateway.handled] at h
  | signal id s => simp [Gateway.handled] at h
  | _ => simp [Gateway.handled] at h

/-- A step that is taken, part by part. -/
structure Taken (x : Crates Cell) (g : Inner) (w : Gateway Cell) (e : ℕ × Event)
    (w' : Gateway Cell) : Prop where
  serve : w'.serve = (e.2.listener.map (Listener.step x.fromDer w.serve)).getD w.serve
  peers : w'.peers = w.peers ++ (w.handed e.2).toList
  requests : w'.requests = w.requests ++ (w.received e.2).toList
  world : w'.world = run (Service.step x g) w.world ((w.handled e.2).map fun s => (e.1, s))

lemma taken_step {w : Gateway Cell} (hexited : ¬w.world.exited = true) (e : ℕ × Event) :
    Taken x g w e (step x g w e) := by
  constructor <;> simp [step, hexited]

variable {w w' : Gateway Cell} {e : ℕ × Event}

lemma Taken.returned (ht : Taken x g w e w') (h : w.serve.result ≠ none) :
    w'.serve.result ≠ none := by
  rw [ht.serve]
  cases e.2.listener with
  | none => exact h
  | some l => exact result_step _ l h

/-- A loop that has not returned has handed over all that was accepted. -/
lemma Taken.accepted (ht : Taken x g w e w') (hk : Known fromDer past w)
    (hresult : w.serve.result = none) :
    w'.peers = (past ++ [e]).filterMap fun e => e.2.peer := by
  rw [ht.peers, hk.accepted hresult, List.filterMap_append]
  obtain ⟨now, e⟩ := e
  cases e <;> simp [Gateway.handed, Event.peer, hresult]

lemma Taken.known_peers (ht : Taken x g w e w') (hk : Known fromDer past w) :
    w'.peers <+: (past ++ [e]).filterMap fun e => e.2.peer := by
  by_cases hresult : w.serve.result = none
  · rw [ht.accepted hk hresult]
  · have hnone : w.handed e.2 = none := by
      obtain ⟨r, hr⟩ := Option.ne_none_iff_exists'.mp hresult
      cases he : e.2 <;> simp [Gateway.handed, hr]
    rw [ht.peers, hnone, List.filterMap_append, Option.toList_none, List.append_nil]
    exact hk.peers.trans (List.prefix_append _ _)

/-- Only the end of the process, after `serve` has returned, ends the handlers. -/
lemma Taken.exited (ht : Taken x g w e w') (hexited : ¬w.world.exited = true)
    (h : w'.world.exited = true) : w'.serve.result ≠ none := by
  by_cases hexit : Service.Event.exit ∈ w.handled e.2
  · exact ht.returned (handled_exit hexit).2
  · rw [ht.world, exited_run] at h
    · exact absurd h hexited
    · intro s hs hexit'
      obtain ⟨s', hs', rfl⟩ := List.mem_map.mp hs
      exact hexit (hexit' ▸ hs')

lemma Taken.peer (ht : Taken x g w e w') {k : ℕ} {peer : SocketAddr}
    (hpeer : w.peers[k]? = some peer) : w'.peers[k]? = some peer := by
  rw [ht.peers]
  exact getElem?_more hpeer _

/-- A connection is served with the identity of its handshake. -/
lemma known_serving (hk : Known x.fromDer past w) (ht : Taken x g w e (step x g w e)) {k : ℕ}
    {task : Task} {clientCert : Option ClientCert}
    (htask : (step x g w e).serve.tasks[k]? = some task)
    (hserving : task.phase = .serving clientCert) :
    ∃ peer, (step x g w e).peers[k]? = some peer ∧
      Established x.fromDer (past ++ [e]) k peer clientCert [] := by
  rcases hbefore : w.serve.tasks[k]? with _ | t
  · rw [gateway_task_new hbefore htask] at hserving
    cases hserving
  · obtain ⟨t', ht', hcases⟩ := gateway_task (x := x) (g := g) w e hbefore
    cases ht'.symm.trans htask
    rcases hcases with rfl | ⟨-, hended | ⟨chain, he, hafter⟩⟩ | ⟨hended, -⟩
    · obtain ⟨peer, hpeer, hest⟩ := hk.serving k _ clientCert hbefore hserving
      exact ⟨peer, ht.peer hpeer, hest.more e⟩
    · rw [hended] at hserving
      cases hserving
    · -- this is the handshake
      have hlt : k < w.peers.length := by
        rw [hk.length]
        exact (List.getElem?_eq_some_iff.mp hbefore).1
      have hpeer : w.peers[k]? = some w.peers[k] := List.getElem?_eq_getElem hlt
      obtain ⟨t, tcp, hmem⟩ := mem_of_nth (nth_of_peers hk hpeer)
      refine ⟨w.peers[k], ht.peer hpeer, ?_, tcp, t, e.1, chain, ?_, ?_⟩
      · rw [List.filterMap_append]
        exact getElem?_more (nth_of_peers hk hpeer) _
      · rw [hafter] at hserving
        cases hserving
        rfl
      · have he' : e = (e.1, .handshake k (.ok chain)) := by rw [← he]
        rw [he']
        exact (List.singleton_sublist.mpr hmem).append (List.Sublist.refl _)
    · rw [hended] at hserving
      cases hserving

/-- A request comes from a connection that is served. -/
lemma known_requests (hk : Known x.fromDer past w) (ht : Taken x g w e w') {r : Request}
    (hr : r ∈ w'.requests) : Came x.fromDer (past ++ [e]) r := by
  rw [ht.requests] at hr
  rcases List.mem_append.mp hr with hold | hnew
  · obtain ⟨t, peer, hip, hest⟩ := hk.requests r hold
    exact ⟨t, peer, hip, hest.more e⟩
  · obtain ⟨he, ⟨task, htask, hserving⟩, peer, hpeer, hip⟩ :=
      received_eq_some (Option.mem_toList.mp hnew)
    obtain ⟨peer', hpeer', hest⟩ := hk.serving _ task _ htask hserving
    cases hpeer.symm.trans hpeer'
    have he' : e = (e.1,
        .request r.task r.version r.parts.method r.parts.pathAndQuery r.parts.headers) := by
      rw [← he]
    exact ⟨e.1, peer, hip, he' ▸ hest.snoc e⟩

/-- A connection stays with the identity it has. -/
lemma known_held (hk : Known x.fromDer past w) (ht : Taken x g w e (step x g w e)) {r : Request}
    (hr : r ∈ (step x g w e).requests) :
    (∃ peer, (step x g w e).peers[r.task]? = some peer ∧ r.parts.peerIp = peer.ip) ∧
      ∃ task, (step x g w e).serve.tasks[r.task]? = some task ∧
        (task.phase = .serving r.parts.clientCert ∨ task.phase = .ended) := by
  have hbound : (∃ peer, w.peers[r.task]? = some peer ∧ r.parts.peerIp = peer.ip) ∧
      ∃ task, w.serve.tasks[r.task]? = some task ∧
        (task.phase = .serving r.parts.clientCert ∨ task.phase = .ended) := by
    rw [ht.requests] at hr
    rcases List.mem_append.mp hr with hold | hnew
    · exact hk.held r hold
    · obtain ⟨-, ⟨task, htask, hserving⟩, hpeer⟩ := received_eq_some (Option.mem_toList.mp hnew)
      exact ⟨hpeer, task, htask, .inl hserving⟩
  obtain ⟨⟨peer, hpeer, hip⟩, task, htask, hphase⟩ := hbound
  obtain ⟨task', htask', hcases⟩ := gateway_task (x := x) (g := g) w e htask
  refine ⟨⟨peer, ht.peer hpeer, hip⟩, task', htask', ?_⟩
  rcases hcases with rfl | ⟨hbefore, -⟩ | ⟨hended, -⟩
  · exact hphase
  · rw [hbefore] at hphase
    rcases hphase with h | h <;> cases h
  · exact .inr hended

/-- Whoever asks again on a connection asks with the same identity. -/
lemma known_same (hk : Known x.fromDer past w) (ht : Taken x g w e w') {r r' : Request}
    (hr : r ∈ w'.requests) (hr' : r' ∈ w'.requests) (htasks : r.task = r'.task) :
    r.parts.clientCert = r'.parts.clientCert := by
  -- a new request has the identity that its connection is served with
  have hnew : ∀ r₁ ∈ w.requests, ∀ r₂, w.received e.2 = some r₂ → r₁.task = r₂.task →
      r₁.parts.clientCert = r₂.parts.clientCert := by
    intro r₁ h₁ r₂ h₂ h₁₂
    obtain ⟨-, task, htask, hphase⟩ := hk.held r₁ h₁
    obtain ⟨-, ⟨task', htask', hserving⟩, -⟩ := received_eq_some h₂
    rw [h₁₂, htask'] at htask
    cases htask
    rw [hserving] at hphase
    rcases hphase with h | h
    · exact (Listener.Phase.serving.inj h).symm
    · cases h
  rw [ht.requests, List.mem_append, Option.mem_toList] at hr hr'
  rcases hr with hold | hreceived
  · rcases hr' with hold' | hreceived'
    · exact hk.same r hold r' hold' htasks
    · exact hnew r hold r' hreceived' htasks
  · rcases hr' with hold' | hreceived'
    · exact (hnew r' hold' r hreceived htasks.symm).symm
    · cases Option.some.inj (Option.mem_def.mp hreceived ▸ Option.mem_def.mp hreceived')
      rfl

/-- **A step keeps what the gateway holds traceable.** -/
lemma known_step (past : List (ℕ × Event)) (w : Gateway Cell) (e : ℕ × Event)
    (hk : Known x.fromDer past w) : Known x.fromDer (past ++ [e]) (step x g w e) := by
  by_cases hexited : w.world.exited = true
  · have hsame : step x g w e = w := by simp [step, hexited]
    rw [hsame]
    exact known_more hk (hk.exited hexited) e
  · have ht : Taken x g w e (step x g w e) := taken_step hexited e
    refine ⟨ht.exited hexited, gateway_peers hk.length e, fun h => ?_, ht.known_peers hk,
      fun k task cert => known_serving hk ht, fun r => known_requests hk ht,
      fun r => known_held hk ht, fun r hr r' => known_same hk ht hr⟩
    refine ht.accepted hk ?_
    by_contra hne
    exact ht.returned hne h

lemma known_run (x : Crates Cell) (g : Inner) (budgets : RateLimit) (es : List (ℕ × Event)) :
    Known x.fromDer es (run (step x g) (.start x budgets) es) := by
  refine run_inv_of_past (P := fun _ _ => True) ?_ (fun past w e _ => known_step past w e) es
    fun _ _ _ => trivial
  constructor <;> simp [Gateway.start, Serve.start, World.start]

end GatewayAuth.Process
