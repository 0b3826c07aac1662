import GatewayAuth.Lib.Runs
import GatewayAuth.Auth

/-!
The TLS listener: an accept loop that races the shutdown signal, and one task for each accepted
connection.

An error of `accept` ends the loop. An error of a task ends that task alone.
-/

namespace GatewayAuth.Listener

open GatewayAuth.Lib.Runs GatewayAuth.Classify GatewayAuth.Auth

/-! ### The loop and its tasks -/

/-- An accepted connection: the socket and the address of the peer. -/
structure Connection where
  tcp : ℕ
  peer : String
  deriving DecidableEq

/-- Where `serve_connection` stands: in the handshake, serving requests with the identity of the
client certificate, or at its end. -/
inductive Phase
  | handshaking
  | serving (clientCert : Option ClientCert)
  | ended
  deriving DecidableEq

structure Task where
  connection : Connection
  phase : Phase
  deriving DecidableEq

/-- An error with its context. -/
structure ServeError where
  context : String
  source : String
  deriving DecidableEq

/-- The shutdown future, what `serve` has returned if it has, and the tasks it has spawned. -/
structure Serve where
  shutdown : Bool
  result : Option (Except ServeError Unit)
  tasks : List Task

def Serve.start : Serve := ⟨false, none, []⟩

/-- What happens to the listener. An event that the loop sees is the branch that `select!`
takes; a task is given by its number. -/
inductive Event
  | shutdown
  | accepted (connection : Connection)
  | acceptFailed (e : String)
  | shutdownSeen
  | handshake (task : ℕ) (chain : Except String (Option (List Bytes)))
  | closed (task : ℕ) (result : Except String Unit)

variable (fromDer : FromDer)

/-- The handshake of a task has ended, with the certificate chain the peer presented. -/
def Task.handshake (chain : Except String (Option (List Bytes))) (t : Task) : Task :=
  match t.phase, chain with
  | .handshaking, .ok certs => { t with phase := .serving (certs.bind (extractIdentity fromDer)) }
  | .handshaking, .error _ => { t with phase := .ended }
  | _, _ => t

/-- The connection of a task has ended, with or without an error. -/
def Task.close (t : Task) : Task :=
  match t.phase with
  | .serving _ => { t with phase := .ended }
  | _ => t

/-- `serve` with what it has spawned. A loop that has returned sees no more events, and the
shutdown branch is there to take only when the future has completed. -/
def step (l : Serve) : Event → Serve
  | .shutdown => { l with shutdown := true }
  | .accepted connection =>
    match l.result with
    | none => { l with tasks := l.tasks ++ [⟨connection, .handshaking⟩] }
    | some _ => l
  | .acceptFailed e =>
    match l.result with
    | none => { l with result := some (.error ⟨"accepting TCP connection", e⟩) }
    | some _ => l
  | .shutdownSeen =>
    match l.result, l.shutdown with
    | none, true => { l with result := some (.ok ()) }
    | _, _ => l
  | .handshake task chain => { l with tasks := l.tasks.modify task (Task.handshake fromDer chain) }
  | .closed task _ => { l with tasks := l.tasks.modify task Task.close }

/-! ### What it should do -/

/-- The connections that have been handed to `serve_connection`, in order. -/
def Serve.handed (l : Serve) : List Connection := l.tasks.map Task.connection

def Event.connection : Event → Option Connection
  | .accepted connection => some connection
  | _ => none

/-- After any part of the run, `serve` has returned only if the shutdown future has completed, and
as long as it has not returned, the connections handed over are those accepted, each once. -/
def Outlives (es : List Event) : Prop :=
  ∀ past, past <+: es →
    ((run (step fromDer) .start past).result ≠ none → Event.shutdown ∈ past) ∧
    ((run (step fromDer) .start past).result = none →
      (run (step fromDer) .start past).handed = past.filterMap Event.connection)

/-- No accept fails before the shutdown future has completed. -/
def AcceptsUntilShutdown (es : List Event) : Prop :=
  ∀ past e, past ++ [.acceptFailed e] <+: es → Event.shutdown ∈ past

/-! ### One step -/

variable {fromDer}

/-- No handshake and no end of a connection changes what was handed over. -/
lemma map_modify {f : Task → Task} (hf : ∀ t, (f t).connection = t.connection) (i : ℕ)
    (tasks : List Task) :
    (tasks.modify i f).map Task.connection = tasks.map Task.connection := by
  induction tasks generalizing i with
  | nil => simp
  | cons t tasks ih =>
    cases i with
    | zero => simp [hf]
    | succ i => simp [ih]

lemma connection_handshake (chain : Except String (Option (List Bytes))) (t : Task) :
    (t.handshake fromDer chain).connection = t.connection := by
  unfold Task.handshake
  split <;> rfl

lemma connection_close (t : Task) : t.close.connection = t.connection := by
  unfold Task.close
  split <;> rfl

/-- Only a failure of accept, or the shutdown branch, makes `serve` return. -/
lemma result_step {l : Serve} {e : Event} (h : (step fromDer l e).result ≠ none) :
    l.result ≠ none ∨ (∃ s, e = .acceptFailed s) ∨ (e = .shutdownSeen ∧ l.shutdown = true) := by
  by_cases hreturned : l.result = none
  · cases e with
    | acceptFailed s => exact .inr (.inl ⟨s, rfl⟩)
    | shutdownSeen =>
      rcases hshutdown : l.shutdown with _ | _
      · simp [step, hreturned, hshutdown] at h
      · exact .inr (.inr ⟨rfl, rfl⟩)
    | _ => simp [step, hreturned] at h
  · exact .inl hreturned

/-- A loop that runs on has handed over what it has accepted. -/
lemma handed_step {l : Serve} {e : Event} (h : (step fromDer l e).result = none) :
    l.result = none ∧ (step fromDer l e).handed = l.handed ++ e.connection.toList := by
  rcases hresult : l.result with _ | r
  · refine ⟨rfl, ?_⟩
    unfold Serve.handed
    cases e with
    | accepted connection => simp [step, hresult, Event.connection]
    | acceptFailed s => simp [step, hresult] at h
    | shutdownSeen =>
      rcases hshutdown : l.shutdown with _ | _
      · simp [step, hresult, hshutdown, Event.connection]
      · simp [step, hresult, hshutdown] at h
    | shutdown => simp [step, Event.connection]
    | handshake task chain =>
      simp [step, Event.connection, map_modify (connection_handshake chain)]
    | closed task result => simp [step, Event.connection, map_modify connection_close]
  · cases e <;> simp [step, hresult] at h

lemma shutdown_step {l : Serve} {e : Event} :
    (step fromDer l e).shutdown = true ↔ l.shutdown = true ∨ e = .shutdown := by
  cases e with
  | accepted connection => cases hresult : l.result <;> simp [step, hresult]
  | acceptFailed s => cases hresult : l.result <;> simp [step, hresult]
  | shutdownSeen =>
    cases hresult : l.result <;> cases hshutdown : l.shutdown <;> simp [step, hresult, hshutdown]
  | _ => simp [step]

/-! ### Every run -/

/-- What holds after the events so far, none of which was an accept failing too early. -/
structure Serving (past : List Event) (l : Serve) : Prop where
  shutdown : l.shutdown = true ↔ Event.shutdown ∈ past
  returned : l.result ≠ none → Event.shutdown ∈ past
  handed : l.result = none → l.handed = past.filterMap Event.connection

lemma serving_step (past : List Event) (l : Serve) (e : Event)
    (he : (∃ s, e = .acceptFailed s) → Event.shutdown ∈ past) (h : Serving past l) :
    Serving (past ++ [e]) (step fromDer l e) := by
  refine ⟨?_, fun hresult => ?_, fun hresult => ?_⟩
  · rw [shutdown_step, h.shutdown, List.mem_append, List.mem_singleton, eq_comm (a := e)]
  · refine List.mem_append_left _ ?_
    rcases result_step hresult with hreturned | hfailed | ⟨-, hshutdown⟩
    · exact h.returned hreturned
    · exact he hfailed
    · exact h.shutdown.mp hshutdown
  · obtain ⟨hrunning, hhanded⟩ := handed_step hresult
    rw [hhanded, h.handed hrunning, List.filterMap_append]
    rfl

/-- **The listener outlives bad connections, unless one is bad too early.** Whatever the order of
events, `serve` returns only after the shutdown future has completed, with every connection
accepted until then handed over once, if and only if no accept fails before that future has
completed. -/
theorem outlives_iff (fromDer : FromDer) (es : List Event) :
    Outlives fromDer es ↔ AcceptsUntilShutdown es := by
  refine ⟨fun h past e hpast => ?_, fun h past hpast => ?_⟩
  · by_cases hresult : (run (step fromDer) .start past).result = none
    · -- the failure makes the loop return
      have hafter : (run (step fromDer) .start (past ++ [.acceptFailed e])).result ≠ none := by
        unfold run at hresult ⊢
        rw [List.foldl_append, List.foldl_cons, List.foldl_nil]
        simp [step, hresult]
      have hmem := (h _ hpast).1 hafter
      simpa using hmem
    · exact (h past ((List.prefix_append past _).trans hpast)).1 hresult
  · have hserving : Serving past (run (step fromDer) .start past) := by
      refine run_inv_of_past (P := fun past e => (∃ s, e = .acceptFailed s) →
        Event.shutdown ∈ past) ⟨by simp [Serve.start], by simp [Serve.start], fun _ => rfl⟩
        serving_step past ?_
      rintro past' e hpast' ⟨s, rfl⟩
      exact h past' s (hpast'.trans hpast)
    exact ⟨hserving.returned, hserving.handed⟩

/-- Two connections, with no file descriptor left in between. -/
def exhausted : List Event :=
  [.accepted ⟨0, "10.0.0.5:40001"⟩, .acceptFailed "Too many open files (os error 24)",
    .accepted ⟨1, "10.0.0.6:40002"⟩]

/-- The listener returns without a shutdown, and the second connection is never served. -/
theorem exhausted_ends_listener :
    (run (step fun _ => none) .start exhausted).result =
        some (.error ⟨"accepting TCP connection", "Too many open files (os error 24)"⟩) ∧
      (run (step fun _ => none) .start exhausted).handed = [⟨0, "10.0.0.5:40001"⟩] ∧
      Event.shutdown ∉ exhausted ∧ ¬Outlives (fun _ => none) exhausted := by
  have hresult : (run (step fun _ => none) .start exhausted).result =
      some (.error ⟨"accepting TCP connection", "Too many open files (os error 24)"⟩) := rfl
  have hmem : Event.shutdown ∉ exhausted := by simp [exhausted]
  refine ⟨hresult, rfl, hmem, fun h => hmem ((h exhausted List.prefix_rfl).1 ?_)⟩
  rw [hresult]
  simp

end GatewayAuth.Listener
