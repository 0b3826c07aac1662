import GatewayAuth.Lib.Url
import GatewayAuth.Service

/-!
Which upstream a request goes to, and the URL it is sent to.

A prefix is stripped from the text before the query is split off, so it is recognized as a
segment only when a slash or nothing comes after it.
-/

namespace GatewayAuth.Routing

open GatewayAuth.Lib.Url GatewayAuth.JsonBody GatewayAuth.Classify GatewayAuth.Authz
open GatewayAuth.Text GatewayAuth.Forwarding GatewayAuth.Ratelimit GatewayAuth.Server
open GatewayAuth.Service

/-! ### Prefixes -/

lemma stripPrefix_toList {s pre t : String} :
    stripPrefix s pre = some t ↔ s.toList = pre.toList ++ t.toList := by
  rw [stripPrefix_eq_some, ← String.toList_inj, String.toList_append]

/-- A prefix is a segment when nothing or a slash comes after it. -/
lemma stripPrefixSegment_eq_some {path pre rest : String} :
    stripPrefixSegment path pre = some rest ↔ (path = pre ∧ rest = "/") ∨
      ∃ t, path.toList = pre.toList ++ '/' :: t ∧ rest.toList = '/' :: t := by
  unfold stripPrefixSegment
  rcases hs : stripPrefix path pre with _ | r
  · refine iff_of_false (by simp) ?_
    have hno : ∀ t, path.toList ≠ pre.toList ++ t := by
      intro t ht
      have hsome : stripPrefix path pre = some (.ofList t) ↔ _ := stripPrefix_toList
      rw [String.toList_ofList] at hsome
      cases hs.symm.trans (hsome.mpr ht)
    rintro (⟨rfl, -⟩ | ⟨t, ht, -⟩)
    · exact hno [] (by simp)
    · exact hno _ ht
  · have hr := stripPrefix_toList.mp hs
    simp only
    split_ifs with hempty hslash
    · subst hempty
      have hpath : path = pre := String.toList_injective (by simpa using hr)
      subst hpath
      refine ⟨fun h => .inl ⟨rfl, (Option.some.inj h).symm⟩, ?_⟩
      rintro (⟨-, rfl⟩ | ⟨t, ht, -⟩)
      · rfl
      · simp at ht
    · obtain ⟨t, ht⟩ : ∃ t, r.toList = '/' :: t := by
        cases hl : r.toList with
        | nil => simp [hl] at hslash
        | cons c t =>
          rw [hl] at hslash
          cases hslash
          exact ⟨t, rfl⟩
      rw [ht] at hr
      refine ⟨fun h => .inr ⟨t, hr, ?_⟩, ?_⟩
      · rw [← Option.some.inj h, ht]
      · rintro (⟨rfl, -⟩ | ⟨t', ht', hrest⟩)
        · simp at hr
        · have hsame : t = t' := by simpa using hr.symm.trans ht'
          rw [← hsame, ← ht] at hrest
          rw [String.toList_injective hrest]
    · refine iff_of_false (by simp) ?_
      rintro (⟨rfl, -⟩ | ⟨t, ht, -⟩)
      · exact hempty (String.toList_injective (by simpa using hr))
      · have htail : r.toList = '/' :: t := by simpa using hr.symm.trans ht
        exact hslash (by rw [htail]; rfl)

/-! ### Segments -/

/-- The first segment of a path that begins with a slash. -/
def firstSegment (path : String) : String :=
  .ofList ((path.toList.drop 1).takeWhile fun c => c != '/')

/-- The upstream that the first segment of a path stands for. -/
def segmentTarget (path : String) : UpstreamTarget :=
  if firstSegment path = "_admin" then .graphNodeAdmin
  else if firstSegment path = "_status" then .graphNodeStatus
  else .agentManagement

lemma takeWhile_eq_iff {seg l : List Char} (hseg : '/' ∉ seg) :
    l.takeWhile (fun c => c != '/') = seg ↔ l = seg ∨ ∃ t, l = seg ++ '/' :: t := by
  have hall : ∀ c ∈ seg, (c != '/') = true := by
    intro c hc
    have hne : c ≠ '/' := fun h => hseg (h ▸ hc)
    simpa using hne
  refine ⟨fun h => ?_, ?_⟩
  · have hsplit := List.takeWhile_append_dropWhile (p := fun c => c != '/') (l := l)
    rw [h] at hsplit
    cases hd : l.dropWhile (fun c => c != '/') with
    | nil =>
      rw [hd, List.append_nil] at hsplit
      exact .inl hsplit.symm
    | cons c t =>
      have hc : c = '/' := by
        have hnot := List.head_dropWhile_not (fun c => c != '/') (l := l) (by simp [hd])
        simpa [hd] using hnot
      subst hc
      rw [hd] at hsplit
      exact .inr ⟨t, hsplit.symm⟩
  · rintro (rfl | ⟨t, rfl⟩)
    · exact List.takeWhile_eq_self_iff.mpr hall
    · rw [List.takeWhile_append_of_pos hall]
      simp

/-- A prefix that is one segment is stripped exactly from the paths that begin with it. -/
lemma stripPrefixSegment_isSome {path : String} (hpath : path.toList.head? = some '/')
    {pre seg : String} (hpre : pre.toList = '/' :: seg.toList) (hseg : '/' ∉ seg.toList) :
    (∃ rest, stripPrefixSegment path pre = some rest) ↔ firstSegment path = seg := by
  obtain ⟨l, hl⟩ : ∃ l, path.toList = '/' :: l := by
    cases h : path.toList with
    | nil => simp [h] at hpath
    | cons c l =>
      rw [h] at hpath
      cases hpath
      exact ⟨l, rfl⟩
  have hfirst : firstSegment path = seg ↔ l.takeWhile (fun c => c != '/') = seg.toList := by
    rw [firstSegment, hl, ← String.toList_inj, String.toList_ofList]
    rfl
  rw [hfirst, takeWhile_eq_iff hseg]
  have hwhole : path = pre ↔ l = seg.toList := by
    rw [← String.toList_inj, hl, hpre, List.cons.injEq]
    simp
  have hmore : ∀ t, path.toList = pre.toList ++ '/' :: t ↔ l = seg.toList ++ '/' :: t := by
    intro t
    rw [hl, hpre, List.cons_append, List.cons.injEq]
    simp
  refine ⟨?_, ?_⟩
  · rintro ⟨rest, hrest⟩
    rcases stripPrefixSegment_eq_some.mp hrest with ⟨h, -⟩ | ⟨t, h, -⟩
    · exact .inl (hwhole.mp h)
    · exact .inr ⟨t, (hmore t).mp h⟩
  · rintro (h | ⟨t, h⟩)
    · exact ⟨"/", stripPrefixSegment_eq_some.mpr (.inl ⟨hwhole.mpr h, rfl⟩)⟩
    · exact ⟨.ofList ('/' :: t), stripPrefixSegment_eq_some.mpr
        (.inr ⟨t, (hmore t).mpr h, String.toList_ofList⟩)⟩

/-- **A path is routed by its first segment.** -/
lemma route_target {path : String} (hpath : path.toList.head? = some '/') :
    (route path).1 = segmentTarget path := by
  have hadmin : (∃ rest, stripPrefixSegment path adminPrefix = some rest) ↔
      firstSegment path = "_admin" := stripPrefixSegment_isSome hpath rfl (by decide)
  have hstatus : (∃ rest, stripPrefixSegment path statusPrefix = some rest) ↔
      firstSegment path = "_status" := stripPrefixSegment_isSome hpath rfl (by decide)
  unfold route segmentTarget
  rcases ha : stripPrefixSegment path adminPrefix with _ | rest
  · have hne : firstSegment path ≠ "_admin" := by
      intro h
      obtain ⟨rest, hrest⟩ := hadmin.mpr h
      cases ha.symm.trans hrest
    rw [if_neg hne]
    rcases hs : stripPrefixSegment path statusPrefix with _ | rest
    · have hne' : firstSegment path ≠ "_status" := by
        intro h
        obtain ⟨rest, hrest⟩ := hstatus.mpr h
        cases hs.symm.trans hrest
      rw [if_neg hne']
    · rw [if_pos (hstatus.mp ⟨rest, hs⟩)]
  · rw [if_pos (hadmin.mp ⟨rest, ha⟩)]

/-! ### The query -/

/-- With a query behind it, a path that is no more than the prefix does not have it as a segment. -/
lemma stripPrefixSegment_query {p pre : String} (q : String) (hpre : '?' ∉ pre.toList) :
    stripPrefixSegment (p ++ "?" ++ q) pre =
      if p = pre then none else (stripPrefixSegment p pre).map fun rest => rest ++ "?" ++ q := by
  have htext : (p ++ "?" ++ q).toList = p.toList ++ '?' :: q.toList := by
    simp [String.toList_append]
  have hmore : ∀ t, (p ++ "?" ++ q).toList = pre.toList ++ '/' :: t ↔
      ∃ t', p.toList = pre.toList ++ '/' :: t' ∧ t = t' ++ '?' :: q.toList := by
    intro t
    rw [htext]
    refine ⟨fun h => ?_, ?_⟩
    · have h' : p.toList ++ '?' :: q.toList = (pre.toList ++ ['/']) ++ t := by simpa using h
      rcases List.append_eq_append_iff.mp h' with ⟨k, hk, ht⟩ | ⟨k, hk, ht⟩
      · cases k with
        | nil =>
          rw [List.append_nil] at hk
          exact ⟨[], hk.symm, by simpa using ht.symm⟩
        | cons c k =>
          rw [List.cons_append, List.cons.injEq] at ht
          have hmem : '?' ∈ pre.toList ++ ['/'] := by
            rw [hk, ← ht.1]
            simp
          rcases List.mem_append.mp hmem with hm | hm
          · exact absurd hm hpre
          · simp at hm
      · exact ⟨k, by simpa using hk, ht⟩
    · rintro ⟨t', hp', rfl⟩
      simp [hp']
  have hwhole : p ++ "?" ++ q ≠ pre := by
    intro h
    refine hpre ?_
    rw [← h, htext]
    simp
  refine Option.ext fun rest => ?_
  rw [stripPrefixSegment_eq_some]
  split_ifs with heq
  · subst heq
    refine iff_of_false ?_ (by simp)
    rintro (⟨h, -⟩ | ⟨t, h, -⟩)
    · exact hwhole h
    · obtain ⟨t', ht', -⟩ := (hmore t).mp h
      simp at ht'
  · rw [Option.map_eq_some_iff]
    refine ⟨?_, ?_⟩
    · rintro (⟨h, -⟩ | ⟨t, h, hrest⟩)
      · exact absurd h hwhole
      · obtain ⟨t', hp', rfl⟩ := (hmore t).mp h
        refine ⟨.ofList ('/' :: t'), stripPrefixSegment_eq_some.mpr
          (.inr ⟨t', hp', String.toList_ofList⟩), String.toList_injective ?_⟩
        simp [String.toList_append, hrest]
    · rintro ⟨rest', hrest', rfl⟩
      rcases stripPrefixSegment_eq_some.mp hrest' with ⟨h, -⟩ | ⟨t, h, hrest⟩
      · exact absurd h heq
      · exact .inr ⟨_, (hmore _).mpr ⟨t, h, rfl⟩, by simp [String.toList_append, hrest]⟩

/-- **A query is kept and does not change the route, except behind a bare prefix.** For any path
and query, the target is that of the path, which is the one its first segment stands for, and the
query is behind the forwarded path, if and only if the path is neither of the two prefixes. -/
theorem route_query_iff (p q : String) (hp : p.toList.head? = some '/') :
    ((route (p ++ "?" ++ q)).1 = (route p).1 ∧ (route p).1 = segmentTarget p ∧
        (route (p ++ "?" ++ q)).2 = (route p).2 ++ "?" ++ q) ↔
      p ≠ adminPrefix ∧ p ≠ statusPrefix := by
  have hadmin : stripPrefixSegment (p ++ "?" ++ q) adminPrefix = _ :=
    stripPrefixSegment_query q (by decide)
  have hstatus : stripPrefixSegment (p ++ "?" ++ q) statusPrefix = _ :=
    stripPrefixSegment_query q (by decide)
  have hmanagement : stripPrefixSegment (p ++ "?" ++ q) adminPrefix = none →
      stripPrefixSegment (p ++ "?" ++ q) statusPrefix = none →
      (route (p ++ "?" ++ q)).1 = .agentManagement := by
    intro ha hs
    unfold route
    rw [ha, hs]
  refine ⟨?_, ?_⟩
  · rintro ⟨htarget, -, -⟩
    refine ⟨?_, ?_⟩
    · rintro rfl
      have hnone : stripPrefixSegment adminPrefix statusPrefix = none := by decide
      rw [hmanagement hadmin (by rw [hstatus, hnone]; rfl)] at htarget
      cases htarget
    · rintro rfl
      have hnone : stripPrefixSegment statusPrefix adminPrefix = none := by decide
      rw [hmanagement (by rw [hadmin, hnone]; rfl) hstatus] at htarget
      cases htarget
  · rintro ⟨ha, hs⟩
    rw [if_neg ha] at hadmin
    rw [if_neg hs] at hstatus
    have hroute : route (p ++ "?" ++ q) = ((route p).1, (route p).2 ++ "?" ++ q) := by
      unfold route
      rw [hadmin, hstatus]
      rcases stripPrefixSegment p adminPrefix with _ | rest
      · rcases stripPrefixSegment p statusPrefix with _ | rest
        · rfl
        · rfl
      · rfl
    rw [hroute]
    exact ⟨rfl, route_target hp, rfl⟩

theorem route_query_iff_graphql :
    ((route ("/graphql" ++ "?" ++ "x=1")).1 = (route "/graphql").1 ∧
        (route "/graphql").1 = segmentTarget "/graphql" ∧
        (route ("/graphql" ++ "?" ++ "x=1")).2 = (route "/graphql").2 ++ "?" ++ "x=1") ↔
      "/graphql" ≠ adminPrefix ∧ "/graphql" ≠ statusPrefix :=
  route_query_iff "/graphql" "x=1" (by decide)

/-- The admin route with a query goes to the management upstream. -/
theorem query_hides_admin_route :
    (route "/_admin").1 = .graphNodeAdmin ∧ firstSegment "/_admin" = "_admin" ∧
      route ("/_admin" ++ "?" ++ "x=1") = (.agentManagement, "/_admin?x=1") ∧
      ¬((route ("/_admin" ++ "?" ++ "x=1")).1 = (route "/_admin").1) := by
  decide

/-! ### The URL of an upstream -/

/-- The base URL configured for a target. -/
def configured (upstream : Upstream) : UpstreamTarget → Option String
  | .agentManagement => some upstream.agentManagement
  | .graphNodeAdmin => upstream.graphNodeAdmin
  | .graphNodeStatus => upstream.graphNodeStatus

lemma baseFor_configured {upstream : Upstream} {t : UpstreamTarget} {b : String}
    (h : configured upstream t = some b) :
    (Proxy.new upstream).baseFor t = .ok (trimTrailingSlash b) := by
  cases t with
  | agentManagement =>
    cases h
    rfl
  | graphNodeAdmin =>
    have h' : upstream.graphNodeAdmin = some b := h
    simp [Proxy.baseFor, Proxy.new, h']
  | graphNodeStatus =>
    have h' : upstream.graphNodeStatus = some b := h
    simp [Proxy.baseFor, Proxy.new, h']

lemma baseFor_unconfigured {upstream : Upstream} {t : UpstreamTarget}
    (h : configured upstream t = none) :
    (Proxy.new upstream).baseFor t = .error (.noUpstream t) := by
  cases t with
  | agentManagement => cases h
  | graphNodeAdmin =>
    have h' : upstream.graphNodeAdmin = none := h
    simp [Proxy.baseFor, Proxy.new, h']
  | graphNodeStatus =>
    have h' : upstream.graphNodeStatus = none := h
    simp [Proxy.baseFor, Proxy.new, h']

/-- One trailing slash is trimmed, and nothing else. -/
lemma trimTrailingSlash_base (u : Base) {b : String} (hb : b.toList = u.text) :
    (trimTrailingSlash b).toList = u.site ++ u.path ++ List.replicate (u.slashes - 1) '/' := by
  unfold trimTrailingSlash stripSuffix
  cases hn : u.slashes with
  | zero =>
    have htext : b.toList = u.site ++ u.path := by
      rw [hb, Base.text, hn, List.replicate_zero, List.append_nil]
    have hno : ¬"/".toList <:+ b.toList := by
      rintro ⟨k, hk⟩
      have hlast := u.last_ne '/'
      rw [← htext, ← hk] at hlast
      simp at hlast
    rw [if_neg hno]
    simpa using htext
  | succ n =>
    have htext : b.toList = (u.site ++ u.path ++ List.replicate n '/') ++ "/".toList := by
      rw [hb, Base.text, hn, List.replicate_succ']
      simp
    rw [if_pos ⟨_, htext.symm⟩, Option.getD_some, String.toList_ofList, htext,
      List.length_append, Nat.add_sub_cancel, List.take_left]
    rfl

/-- Every route leads to a path that begins with a slash. -/
lemma route_path_head {path : String} (hpath : path.toList.head? = some '/') :
    (route path).2.toList.head? = some '/' := by
  have hstripped : ∀ pre rest, stripPrefixSegment path pre = some rest →
      rest.toList.head? = some '/' := by
    intro pre rest h
    rcases stripPrefixSegment_eq_some.mp h with ⟨-, rfl⟩ | ⟨t, -, ht⟩
    · rfl
    · rw [ht]
      rfl
  unfold route
  rcases ha : stripPrefixSegment path adminPrefix with _ | rest
  · rcases hs : stripPrefixSegment path statusPrefix with _ | rest
    · exact hpath
    · exact hstripped _ _ hs
  · exact hstripped _ _ ha

variable {Cell : Type} {x : Crates Cell} {g : Inner}

/-- **A request is sent to the upstream it was classified for.** When the request target begins
with a slash, the request that `forward` hands to the client goes to the target that the
classification was made for, at a URL with the scheme and the authority of the base configured for
that target, and behind them the path of the base without its trailing slashes and something that
begins with a slash; and when there is no such base, nothing is sent. -/
theorem forwarded_url_on_upstream (x : Crates Cell) (g : Inner) (upstream : Upstream)
    (hproxy : g.proxy = .new upstream) (l : RateLimiters Cell) (now : ℕ) (parts : Server.Parts)
    (htarget : parts.pathAndQuery.toList.head? = some '/') (p : Principal)
    (body : Except Unit Bytes) (call : Call)
    (hcall : (handleBody x g l now parts p body).result = .ok call) :
    (∀ b scheme authority path, configured upstream (route parts.pathAndQuery).1 = some b →
      IsBase b.toList scheme authority path →
      ∃ out path' n s, call.outgoing g parts = .ok out ∧
        classifyRequest x parts.method out.target call.body g.failClosedOnParseError =
          .ok call.classification ∧
        out.target = (route parts.pathAndQuery).1 ∧ path = path' ++ List.replicate n '/' ∧
        s.head? = some '/' ∧ split out.url.toList = some ⟨scheme, authority, path' ++ s⟩) ∧
    (configured upstream (route parts.pathAndQuery).1 = none →
      call.outgoing g parts = .error (.noUpstream (route parts.pathAndQuery).1) ∧
        ∀ l' now' (h : Handler), h.parts = parts → ∃ r,
          (resume x g l' now' h call).handler.phase = .responded r ∧
            (resume x g l' now' h call).sent = []) := by
  obtain ⟨c, b₀, hscreen, -, rfl⟩ := handleBody_ok.mp hcall
  obtain ⟨-, hclass, -⟩ := screen_ok.mp hscreen
  refine ⟨fun b scheme authority path hb hbase => ?_, fun hnone => ?_⟩
  · obtain ⟨u, hu, rfl, rfl, hpath⟩ := exists_base hbase
    have hout : (Call.new x now p c b₀).outgoing g parts = .ok ⟨(route parts.pathAndQuery).1,
        parts.method, trimTrailingSlash b ++ (route parts.pathAndQuery).2,
        filterForwardHeaders parts.headers, b₀⟩ := by
      rw [Call.outgoing, hproxy]
      exact forward_ok (baseFor_configured hb) _ _ _
    have hhead : (List.replicate (u.slashes - 1) '/' ++
        (route parts.pathAndQuery).2.toList).head? = some '/' := by
      cases u.slashes - 1 with
      | zero => simpa using route_path_head htarget
      | succ n => rfl
    refine ⟨_, u.path, u.slashes, _, hout, hclass, rfl, hpath, hhead, ?_⟩
    rw [String.toList_append, trimTrailingSlash_base u hu.symm, List.append_assoc]
    exact split_base u hhead
  · have hout : (Call.new x now p c b₀).outgoing g parts =
        .error (.noUpstream (route parts.pathAndQuery).1) := by
      rw [Call.outgoing, hproxy]
      exact forward_error (baseFor_unconfigured hnone) _ _ _
    refine ⟨hout, ?_⟩
    rintro l' now' h rfl
    unfold resume
    rw [hout]
    exact ⟨_, rfl, rfl⟩

theorem forwarded_url_on_upstream_setRule :
    ∃ out path' n s, (Call.new exampleCrates 0 operator
        ⟨[⟨none, .mutation, ["setIndexingRule"]⟩], .write⟩
        (ascii (requestText setRule))).outgoing (exampleGateway true)
        (exampleParts .post "/@evil" "write-token") = .ok out ∧
      classifyRequest exampleCrates .post out.target (ascii (requestText setRule)) true =
        .ok ⟨[⟨none, .mutation, ["setIndexingRule"]⟩], .write⟩ ∧
      out.target = .agentManagement ∧ [] = path' ++ List.replicate n '/' ∧ s.head? = some '/' ∧
      split out.url.toList = some ⟨"http".toList, "127.0.0.1:18000".toList, path' ++ s⟩ :=
  (forwarded_url_on_upstream exampleCrates (exampleGateway true) _ rfl
    (.new exampleCrates.governor 600 30) 0 (exampleParts .post "/@evil" "write-token") (by decide)
    operator (.ok (ascii (requestText setRule))) _ rfl).1 "http://127.0.0.1:18000" _ _ _ rfl
    ⟨rfl, by simp, by simp [isDelimiter], by simp, by simp⟩

end GatewayAuth.Routing
