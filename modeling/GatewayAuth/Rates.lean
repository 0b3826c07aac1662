import GatewayAuth.Budgets
import GatewayAuth.Lib.CellRate
import GatewayAuth.Outcomes
import GatewayAuth.Wire

/-!
How much a budget lets through over time.

The limiter crate keeps one number for each scope and principal name. What it answers is a law
about all the requests of that scope and name: one more is let through exactly when every window
of time that ends with it has room for it. So over any window the requests that are given to the
HTTP client are bounded, and a client that keeps the pace is never refused, whatever the other
clients do.
-/

namespace GatewayAuth.Rates

open GatewayAuth.Lib.Logs GatewayAuth.Lib.Runs GatewayAuth.Lib.Metering GatewayAuth.Lib.CellRate
open GatewayAuth.Classify GatewayAuth.Authz GatewayAuth.Ratelimit
open GatewayAuth.Audit GatewayAuth.Server GatewayAuth.Service GatewayAuth.Checks
open GatewayAuth.Budgets GatewayAuth.Wire

variable {Cell : Type} {x : Crates Cell} {g : Inner}

/-- The limiter crate meters a key by the generic cell rate algorithm, with the burst capacity and
the period of the quota, under a quota that a per-minute budget gives. -/
def CellRateSpec (governor : Governor Cell) : Prop :=
  ∀ n quota, 1 ≤ n → n < 2 ^ 32 → quotaOf n = some quota →
    ∀ ts now, (ts ++ [now]).Pairwise (· ≤ ·) → verdict (governor quota) ts now =
      verdict (gcra quota.replenish1Per (quota.maxBurst * quota.replenish1Per)) ts now

/-- The nanoseconds in which one request of a budget is replenished. -/
def period (perMinute : ℕ) : ℕ := 60000000000 / perMinute

lemma period_pos {n : ℕ} (hn : 1 ≤ n) (hn' : n < 2 ^ 32) : 0 < period n :=
  Nat.div_pos (by omega) hn

/-! ### The answers of a budget -/

/-- The answers of the limiters to a scope and a name are those of a cell rate. -/
lemma answers_cellRate (hgov : CellRateSpec x.governor) {budgets : RateLimit} {s : Scope}
    (hn : 1 ≤ perMinute budgets s) (hn' : perMinute budgets s < 2 ^ 32) {es : List (ℕ × Event)}
    (hes : (es.map Prod.fst).Pairwise (· ≤ ·)) (name : String) :
    Answers (gcra (period (perMinute budgets s))
        (perMinute budgets s * period (perMinute budgets s)))
      (history (run (step x g) (World.start x budgets) es).checks s name) := by
  intro earlier t a hpre
  have hquota : quotaOf (perMinute budgets s) =
      some ⟨perMinute budgets s, period (perMinute budgets s)⟩ := by
    rw [quotaOf, if_neg (by omega)]
    rfl
  have hsorted : (earlier.map Prod.fst ++ [t]).Pairwise (· ≤ ·) := by
    have hall : ((history (run (step x g) (World.start x budgets) es).checks s name).map
        Prod.fst).Pairwise (· ≤ ·) := history_times s name hes
    simpa using hall.sublist (hpre.map Prod.fst).sublist
  have hanswer := (metered_run g budgets es).answered s name earlier t a hpre
  rw [budgetVerdict, hquota] at hanswer
  rw [hanswer]
  exact hgov _ _ hn hn' hquota _ _ hsorted

/-- A scope without a budget is always let through. -/
lemma unlimited_answer {budgets : RateLimit} {s : Scope} (hzero : perMinute budgets s = 0)
    {es : List (ℕ × Event)} {name : String} {earlier : List (ℕ × Bool)} {now : ℕ} {a : Bool}
    (hpre : earlier ++ [(now, a)] <+:
      history (run (step x g) (World.start x budgets) es).checks s name) : a = true := by
  have hanswer := (metered_run g budgets es).answered s name earlier now a hpre
  rwa [budgetVerdict, quotaOf, if_pos hzero] at hanswer

/-- The answer to a request of a limited scope. -/
lemma limited_answer (hgov : CellRateSpec x.governor) {budgets : RateLimit} {s : Scope}
    (hn : 1 ≤ perMinute budgets s) (hn' : perMinute budgets s < 2 ^ 32) {es : List (ℕ × Event)}
    (hes : (es.map Prod.fst).Pairwise (· ≤ ·)) {name : String} {earlier : List (ℕ × Bool)}
    {now : ℕ} {a : Bool} (hpre : earlier ++ [(now, a)] <+:
      history (run (step x g) (World.start x budgets) es).checks s name) :
    a = true ↔
      Admits (period (perMinute budgets s)) (perMinute budgets s) (passTimes earlier) now := by
  have hanswers := answers_cellRate (g := g) hgov hn hn' hes name
  have hall : ((history (run (step x g) (World.start x budgets) es).checks s name).map
      Prod.fst).Pairwise (· ≤ ·) := history_times s name hes
  have hsorted := hall.sublist (hpre.map Prod.fst).sublist
  obtain ⟨hbefore, hlast⟩ := times_snoc hsorted
  obtain ⟨hearlier, hanswer⟩ := answers_snoc (h := earlier) (e := (now, a))
    fun earlier' t a' hpre' => hanswers earlier' t a' (hpre'.trans hpre)
  simp only at hanswer
  rw [hanswer, verdict_iff (period_pos hn hn') hn hearlier hbefore hlast]

/-- **A budget is a law about windows of time.** In every run in which time does not go back, the
limiters let a request through exactly when its scope is not limited or there is room for one more:
with the requests of this scope and name that were let through in the window, it is no more than
the budget, one, and what is replenished over it, in every window that ends with it; and no more
than the budget and what is replenished since the first that was let through. -/
theorem let_through_iff_room (x : Crates Cell) (g : Inner) (hgov : CellRateSpec x.governor)
    (budgets : RateLimit) (s : Scope) (hn : perMinute budgets s < 2 ^ 32)
    (es : List (ℕ × Event)) (hes : (es.map Prod.fst).Pairwise (· ≤ ·)) (name : String)
    (earlier : List (ℕ × Bool)) (now : ℕ) (a : Bool) (hpre : earlier ++ [(now, a)] <+:
      history (run (step x g) (World.start x budgets) es).checks s name) :
    a = true ↔ perMinute budgets s = 0 ∨
      Admits (period (perMinute budgets s)) (perMinute budgets s) (passTimes earlier) now := by
  by_cases hzero : perMinute budgets s = 0
  · exact iff_of_true (unlimited_answer hzero hpre) (.inl hzero)
  · rw [limited_answer hgov (by omega) hn hes hpre, or_iff_right hzero]

/-- Two mutations of one token at two times, of which the first is sent. -/
def twoWrites (t t' : ℕ) : List (ℕ × Event) :=
  [(t, .arrive 0 (exampleParts .post "/" "write-token")),
    (t, .signal 0 (.body (.ok (ascii (requestText setRule))))), (t, .signal 0 .handOver),
    (t', .arrive 1 (exampleParts .post "/" "write-token")),
    (t', .signal 1 (.body (.ok (ascii (requestText setRule)))))]

/-- The limiters of the example are cell rates. -/
lemma cellRateSpec_gcra : CellRateSpec exampleCrates.governor := fun _ _ _ _ _ _ _ _ => rfl

theorem let_through_iff_room_spent : ¬ Admits (period 1) 1 (passTimes [(0, true)]) 1 := by
  have hiff := let_through_iff_room exampleCrates (exampleGateway true) cellRateSpec_gcra ⟨1, 600⟩
    .write (by decide) (twoWrites 0 1) (by decide) "operator" [(0, true)] 1 false
    ⟨[], by decide +kernel⟩
  exact fun hadmits => absurd (hiff.mpr (.inr hadmits)) (by decide)

/-! ### What goes out over a window of time -/

/-- The question behind a request on the wire. -/
def question (s : Call × Outgoing) : Check :=
  ⟨s.1.started, s.1.classification.scope, s.1.principal.name, true⟩

/-- **Every request on the wire has been let through**, each by an answer of its own. -/
lemma wire_subperm (x : Crates Cell) (g : Inner) (budgets : RateLimit) (es : List (ℕ × Event)) :
    ((run (step x g) (World.start x budgets) es).wire.map fun e => (e.1, question e.2)).Subperm
      (run (step x g) (World.start x budgets) es).checks := by
  refine subperm_of_entries fun id => ?_
  rw [entries_map]
  obtain ⟨hlength, hsent⟩ := sent_once x g budgets es id
  rcases hentries : entries (run (step x g) (World.start x budgets) es).wire id with _ | ⟨s, rest⟩
  · exact List.nil_subperm
  · rw [hentries] at hlength hsent
    obtain rfl : rest = [] := List.eq_nil_of_length_eq_zero (by simpa using hlength)
    obtain ⟨t₀, parts, hpassed, -⟩ := hsent s.1 s.2 List.mem_cons_self
    rw [hpassed.asked]
    exact List.Subperm.refl _

lemma countP_passTimes (log : List (ℕ × Check)) (s : Scope) (name : String) (p : ℕ → Bool) :
    (passTimes (history log s name)).countP p = log.countP fun e =>
      decide (e.2.scope = s ∧ e.2.name = name) && e.2.allowed && p e.2.time := by
  unfold passTimes history keyed
  rw [List.countP_map, List.countP_filter, List.countP_map, List.countP_filter]
  refine List.countP_congr fun e _ => ?_
  simp [and_comm, and_left_comm, and_assoc]

/-- The request went out under this scope and name, in the window of length `w` from `t`. -/
def WentOut (s : Scope) (name : String) (t w : ℕ) (e : ℕ × Call × Outgoing) : Bool :=
  decide (e.2.1.classification.scope = s ∧ e.2.1.principal.name = name) &&
    decide (t ≤ e.2.1.started ∧ e.2.1.started ≤ t + w)

/-- **What goes out is bounded over every window of time.** In every run in which time does not go
back, and for every principal name, the requests of a limited scope that are given to the HTTP
client and were let through in a window of `w` nanoseconds, wherever it opens, are no more than the
budget, one, and what is replenished over the window. -/
theorem wire_rate_bounded (x : Crates Cell) (g : Inner) (hgov : CellRateSpec x.governor)
    (budgets : RateLimit) (s : Scope) (hn : 1 ≤ perMinute budgets s)
    (hn' : perMinute budgets s < 2 ^ 32) (es : List (ℕ × Event))
    (hes : (es.map Prod.fst).Pairwise (· ≤ ·)) (name : String) (t w : ℕ) :
    (run (step x g) (World.start x budgets) es).wire.countP (WentOut s name t w) ≤
      perMinute budgets s + 1 + w / period (perMinute budgets s) := by
  have hpos := period_pos hn hn'
  have hwindow := window_le hpos hn (answers_cellRate (g := g) hgov hn hn' hes name)
    (history_times s name hes) t w
  rw [countP_passTimes] at hwindow
  have hwire : (run (step x g) (World.start x budgets) es).wire.countP (WentOut s name t w) ≤
      (run (step x g) (World.start x budgets) es).checks.countP fun e =>
        decide (e.2.scope = s ∧ e.2.name = name) && e.2.allowed &&
          decide (t ≤ e.2.time ∧ e.2.time ≤ t + w) := by
    refine le_trans (le_of_eq ?_) ((wire_subperm x g budgets es).countP_le _)
    rw [List.countP_map]
    refine List.countP_congr fun e _ => ?_
    simp [WentOut, question]
  refine hwire.trans ((Nat.le_div_iff_mul_le hpos).mpr hwindow |>.trans (le_of_eq ?_))
  rw [Nat.add_comm, Nat.add_mul_div_right _ _ hpos, Nat.add_comm]

theorem wire_rate_bounded_minute :
    (run (step exampleCrates (exampleGateway true)) (World.start exampleCrates ⟨1, 600⟩)
      (twoWrites 0 1)).wire.countP (WentOut .write "operator" 0 60000000000) ≤ 3 :=
  wire_rate_bounded exampleCrates (exampleGateway true) cellRateSpec_gcra ⟨1, 600⟩ .write
    (by decide) (by decide) (twoWrites 0 1) (by decide) "operator" 0 60000000000

/-! ### Clients that keep the pace -/

/-- The record says that its request was limited, and the limiters have refused one like it. -/
def Limited (checks : List Check) (r : AuditRecord) : Prop :=
  ∃ c ∈ checks, c.allowed = false ∧ r.scope = some c.scope ∧ r.principal = c.name

def LimitedOnly (v : View) : Prop :=
  ∀ r ∈ v.records, r.outcome = .rateLimited → Limited v.checks r

lemma limitedOnly_extend {v : View} {eff : Effect Cell} (hv : LimitedOnly v)
    (heff : ∀ r ∈ eff.records, r.outcome = .rateLimited → Limited eff.checks r) :
    LimitedOnly (v.extend eff) := by
  intro r hr hlimited
  rcases List.mem_append.mp hr with hold | hnew
  · obtain ⟨c, hc, hrefused⟩ := hv r hold hlimited
    exact ⟨c, List.mem_append_left _ hc, hrefused⟩
  · obtain ⟨c, hc, hrefused⟩ := heff r hnew hlimited
    exact ⟨c, List.mem_append_right _ hc, hrefused⟩

lemma limited_afterBody {l : RateLimiters Cell} {now : ℕ} {h : Handler} {p : Principal}
    {b : Except Unit Bytes} :
    ∀ r ∈ (afterBody x g now { h with body := some b } p
        (handleBody x g l now h.parts p b)).records, r.outcome = .rateLimited →
      Limited (afterBody x g now { h with body := some b } p
        (handleBody x g l now h.parts p b)).checks r := by
  intro r hr hlimited
  rcases hs : screen x g h.parts p b with refusal | ⟨c, bytes⟩
  · -- refused before the limiters are asked
    simp only [handleBody, hs, afterBody, Effect.finish] at hr
    unfold screen at hs
    split at hs
    · cases hs
      cases hr
    · split at hs
      · cases hs
        cases List.mem_singleton.mp hr
        cases hlimited
      · split at hs
        · cases hs
          cases List.mem_singleton.mp hr
          cases hlimited
        · cases hs
  · rcases hl : l.check x.governor now c.scope p.name with ⟨_ | _, l'⟩
    · simp only [handleBody, hs, hl, afterBody, Effect.finish, Refusal.exit] at hr
      cases List.mem_singleton.mp hr
      exact ⟨⟨now, c.scope, p.name, false⟩, by simp [handleBody, hs, hl, afterBody], rfl, rfl, rfl⟩
    · simp only [handleBody, hs, hl, afterBody, resume] at hr
      rcases hout : (Call.new x now p c bytes).outgoing g h.parts with e | out
      · simp only [hout, Effect.finish] at hr
        obtain ⟨raw, rfl⟩ := eq_auditRecord hr
        cases hlimited
      · simp only [hout, Effect.quiet] at hr
        cases hr

lemma limitedOnly_run (x : Crates Cell) (g : Inner) (budgets : RateLimit)
    (es : List (ℕ × Event)) (id : ℕ) :
    LimitedOnly ((run (step x g) (World.start x budgets) es).view id) := by
  refine run_inv (I := fun w : World Cell => LimitedOnly (w.view id)) (fun w e hw => ?_) ?_ es
  · refine view_inv (fun v l now parts _ hv => limitedOnly_extend hv ?_)
      (fun v h l now s eff hh hm hv => ?_) id w e hw
    · unfold arrive
      rcases hhead : handleHead x g now parts with refusal | p
      · intro r hr hlimited
        obtain ⟨e, rfl⟩ := Outcomes.handleHead_error hhead
        cases List.mem_singleton.mp hr
        cases hlimited
      · simp [Effect.quiet]
    · have hresult : ∀ call result, ∀ r ∈ (handleResult x g now h.parts call result).records,
          r.outcome = .rateLimited → Limited [] r := by
        intro call result r hr hlimited
        obtain ⟨raw, rfl⟩ := eq_auditRecord hr
        cases hlimited
      refine limitedOnly_extend hv ?_
      cases hm with
      | body hp => exact limited_afterBody
      | headFailed hp => exact hresult _ _
      | bytes hp => exact hresult _ _
      | _ => simp [Effect.quiet]
  · rw [view_start]
    simp [LimitedOnly]

/-- **A client that keeps the pace is never refused.** In every run in which time does not go back,
if the requests of a scope and a name that come before the limiters are a period of the budget
apart, then they are all let through, and no audit record says that one was limited, whatever the
other scopes and names ask for meanwhile. -/
theorem paced_never_limited (x : Crates Cell) (g : Inner) (hgov : CellRateSpec x.governor)
    (budgets : RateLimit) (s : Scope) (hn : perMinute budgets s < 2 ^ 32) (es : List (ℕ × Event))
    (hes : (es.map Prod.fst).Pairwise (· ≤ ·)) (name : String)
    (hpace : ((history (run (step x g) (World.start x budgets) es).checks s name).map
      Prod.fst).Pairwise fun a a' => a + period (perMinute budgets s) ≤ a') :
    (∀ e ∈ (run (step x g) (World.start x budgets) es).checks,
      e.2.scope = s → e.2.name = name → e.2.allowed = true) ∧
    ∀ e ∈ (run (step x g) (World.start x budgets) es).trail,
      e.2.scope = some s → e.2.principal = name → e.2.outcome ≠ .rateLimited := by
  have hall : ∀ e ∈ history (run (step x g) (World.start x budgets) es).checks s name,
      e.2 = true := by
    rintro ⟨t, a⟩ he
    obtain ⟨earlier, later, hsplit⟩ := List.append_of_mem he
    have hpre : earlier ++ [(t, a)] <+:
        history (run (step x g) (World.start x budgets) es).checks s name :=
      ⟨later, by simp [hsplit]⟩
    by_cases hzero : perMinute budgets s = 0
    · exact unlimited_answer hzero hpre
    · have hapart := hpace.sublist (hpre.map Prod.fst).sublist
      rw [List.map_append, List.map_singleton] at hapart
      have hpasses : (passTimes earlier ++ [t]).Sublist (earlier.map Prod.fst ++ [t]) :=
        ((List.filter_sublist).map Prod.fst).append (List.Sublist.refl [t])
      exact (limited_answer hgov (by omega) hn hes hpre).mpr
        (admits_of_apart (by omega) (hapart.sublist hpasses))
  have hchecks : ∀ e ∈ (run (step x g) (World.start x budgets) es).checks,
      e.2.scope = s → e.2.name = name → e.2.allowed = true := by
    intro e he hs hname
    exact hall (e.2.time, e.2.allowed) (List.mem_map.mpr ⟨e, by simp [keyed, he, hs, hname], rfl⟩)
  refine ⟨hchecks, fun e he hs hname hlimited => ?_⟩
  obtain ⟨id, r⟩ := e
  obtain ⟨c, hc, hrefused, hscope, hprincipal⟩ :=
    limitedOnly_run x g budgets es id r (mem_entries.mpr he) hlimited
  have hallowed := hchecks (id, c) (mem_entries.mp hc) (by simpa using hscope.symm.trans hs)
    (hprincipal.symm.trans hname)
  rw [hrefused] at hallowed
  cases hallowed

theorem paced_never_limited_minute :
    (run (step exampleCrates (exampleGateway true)) (World.start exampleCrates ⟨1, 600⟩)
        (twoWrites 0 60000000000)).checks.length = 2 ∧
      ¬∃ e ∈ (run (step exampleCrates (exampleGateway true)) (World.start exampleCrates ⟨1, 600⟩)
          (twoWrites 0 60000000000)).trail,
        e.2.scope = some .write ∧ e.2.principal = "operator" ∧ e.2.outcome = .rateLimited := by
  refine ⟨by decide +kernel, ?_⟩
  rintro ⟨e, he, hs, hname, hlimited⟩
  exact (paced_never_limited exampleCrates (exampleGateway true) cellRateSpec_gcra ⟨1, 600⟩ .write
    (by decide) (twoWrites 0 60000000000) (by decide) "operator" (by decide +kernel)).2 e he hs
    hname hlimited

end GatewayAuth.Rates
