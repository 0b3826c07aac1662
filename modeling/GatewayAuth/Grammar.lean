import GatewayAuth.MethodGate

/-!
Which bodies are accepted: the request objects and the batches of them that are documented, and
besides these the requests that are given as an array, by the positions of the fields.
-/

namespace GatewayAuth.Grammar

open GatewayAuth.JsonBody GatewayAuth.Classify GatewayAuth.Operations GatewayAuth.Server
open GatewayAuth.MethodGate

/-! ### The documented grammar -/

/-- The values of the members with one of these keys. -/
def valuesOf (keys : List String) (members : List (String × Json)) : List Json :=
  (members.filter fun m => decide (m.1 ∈ keys)).map Prod.snd

/-- An object with one string member `query`, and at most one operation name, a string or
null. -/
def RequestObject (v : Json) (query : String) : Prop :=
  ∃ members, v = .obj members ∧ valuesOf ["query"] members = [.str query] ∧
    (valuesOf ["operationName", "operation_name"] members = [] ∨
      valuesOf ["operationName", "operation_name"] members = [.null] ∨
      ∃ n, valuesOf ["operationName", "operation_name"] members = [.str n])

/-- The fields of a request in their order, without their names. -/
def RequestArray (v : Json) (query : String) : Prop :=
  v = .arr [.str query] ∨ v = .arr [.str query, .null] ∨ ∃ n, v = .arr [.str query, .str n]

def Parses (x : Readers) (query : String) : Prop := ∃ doc, x.parseQuery query = .ok doc

/-- A request in either form, whose query parses. -/
def Request (x : Readers) (v : Json) : Prop :=
  ∃ query, (RequestObject v query ∨ RequestArray v query) ∧ Parses x query

/-- A request object, or an array of at least one of them, the queries of which parse. -/
def Documented (x : Readers) (v : Json) : Prop :=
  (∃ query, RequestObject v query ∧ Parses x query) ∨
    ∃ items, v = .arr items ∧ items ≠ [] ∧
      ∀ item ∈ items, ∃ query, RequestObject item query ∧ Parses x query

/-- A request array, or an array of request objects and request arrays with one of the latter,
the queries of which parse. -/
def Positional (x : Readers) (v : Json) : Prop :=
  (∃ query, RequestArray v query ∧ Parses x query) ∨
    ∃ items, v = .arr items ∧ (∀ item ∈ items, Request x item) ∧
      ∃ item ∈ items, ∃ query, RequestArray item query

/-! ### What reads as one request -/

/-- One field of the visitor: filled by the first value, refused a second. -/
def fillField {α : Type} (decode : Json → Option α) (field : Option α) (v : Json) :
    Option (Option α) :=
  match field with
  | some _ => none
  | none => (decode v).map some

lemma fillField_some {α : Type} {decode : Json → Option α} {a : α} {vs : List Json}
    {field : Option α} :
    vs.foldlM (fillField decode) (some a) = some field ↔ vs = [] ∧ field = some a := by
  cases vs with
  | nil => simp [eq_comm]
  | cons v vs =>
    refine iff_of_false ?_ (by simp)
    rw [List.foldlM_cons]
    simp [fillField]

/-- **A field is filled once or not at all.** -/
lemma fillField_none {α : Type} {decode : Json → Option α} {vs : List Json} {field : Option α} :
    vs.foldlM (fillField decode) none = some field ↔ (vs = [] ∧ field = none) ∨
      ∃ v a, vs = [v] ∧ decode v = some a ∧ field = some a := by
  cases vs with
  | nil => simp [eq_comm]
  | cons v vs =>
    have hstep : (v :: vs).foldlM (fillField decode) none =
        (decode v).bind fun a => vs.foldlM (fillField decode) (some a) := by
      have hfirst : fillField decode none v = (decode v).map some := rfl
      rw [List.foldlM_cons, hfirst]
      cases decode v with
      | none => rfl
      | some a => rfl
    rw [hstep, Option.bind_eq_some_iff]
    simp only [fillField_some]
    refine ⟨?_, ?_⟩
    · rintro ⟨a, ha, rfl, rfl⟩
      exact .inr ⟨v, a, rfl, ha, rfl⟩
    · rintro (⟨h, -⟩ | ⟨v', a, h, ha, rfl⟩)
      · cases h
      · cases h
        exact ⟨a, ha, rfl, rfl⟩

lemma valuesOf_cons (keys : List String) (m : String × Json) (members : List (String × Json)) :
    valuesOf keys (m :: members) =
      if m.1 ∈ keys then m.2 :: valuesOf keys members else valuesOf keys members := by
  unfold valuesOf
  split_ifs with h
  · rw [List.filter_cons_of_pos (by simpa using h), List.map_cons]
  · rw [List.filter_cons_of_neg (by simpa using h)]

/-- **The fields of a map are filled each from the values of its own keys.** -/
lemma foldlM_visitMember {members : List (String × Json)} {fs fs' : Fields} :
    members.foldlM visitMember fs = some fs' ↔
      (valuesOf ["query"] members).foldlM (fillField Json.asStr) fs.1 = some fs'.1 ∧
        (valuesOf ["operationName", "operation_name"] members).foldlM
          (fillField Json.asOptStr) fs.2 = some fs'.2 := by
  induction members generalizing fs with
  | nil =>
    obtain ⟨q, n⟩ := fs
    obtain ⟨q', n'⟩ := fs'
    simp [valuesOf]
  | cons m members ih =>
    rw [List.foldlM_cons, valuesOf_cons, valuesOf_cons]
    by_cases hquery : m.1 = "query"
    · have hstep : visitMember fs m =
          (fillField Json.asStr fs.1 m.2).map fun q => (q, fs.2) := by
        unfold visitMember fillField
        rw [if_pos hquery]
        rcases fs.1 with _ | q
        · simp only [Option.map_map]
          rfl
        · rfl
      rw [hstep, if_pos (by simp [hquery]), if_neg (by simp [hquery]), List.foldlM_cons]
      rcases fillField Json.asStr fs.1 m.2 with _ | q
      · simp
      · exact ih
    by_cases hname : m.1 = "operationName" ∨ m.1 = "operation_name"
    · have hstep : visitMember fs m =
          (fillField Json.asOptStr fs.2 m.2).map fun n => (fs.1, n) := by
        unfold visitMember fillField
        rw [if_neg hquery, if_pos hname]
        rcases fs.2 with _ | n
        · simp only [Option.map_map]
          rfl
        · rfl
      rw [hstep, if_neg (by simpa using hquery), if_pos (by simpa using hname), List.foldlM_cons]
      rcases fillField Json.asOptStr fs.2 m.2 with _ | n
      · simp
      · exact ih
    · have hstep : visitMember fs m = some fs := by
        unfold visitMember
        rw [if_neg hquery, if_neg hname]
      rw [hstep, if_neg (by simpa using hquery), if_neg (by simpa using hname)]
      exact ih

lemma asStr_eq_some {v : Json} {s : String} : v.asStr = some s ↔ v = .str s := by
  cases v <;> simp [Json.asStr]

lemma asOptStr_isSome {v : Json} :
    (∃ o, v.asOptStr = some o) ↔ v = .null ∨ ∃ n, v = .str n := by
  cases v <;> simp [Json.asOptStr]

lemma visitMap_ok {members : List (String × Json)} {r : GraphQLRequest} :
    visitMap members = some r ↔
      ∃ name, members.foldlM visitMember ((none, none) : Fields) = some (some r.query, name) ∧
        r.operationName = name.getD none := by
  unfold visitMap
  refine ⟨fun h => ?_, ?_⟩
  · obtain ⟨⟨q, name⟩, hfs, h⟩ := Option.bind_eq_some_iff.mp h
    obtain ⟨query, hq, h⟩ := Option.bind_eq_some_iff.mp h
    cases h
    simp only at hq
    subst hq
    exact ⟨name, hfs, rfl⟩
  · rintro ⟨name, hfs, hname⟩
    rw [hfs]
    obtain ⟨query, operationName⟩ := r
    simp only at hname
    subst hname
    rfl

/-- **A map reads as a request when it is a request object.** -/
lemma visitMap_query {members : List (String × Json)} {query : String} :
    (∃ r, visitMap members = some r ∧ r.query = query) ↔
      RequestObject (.obj members) query := by
  have hfields : (∃ r, visitMap members = some r ∧ r.query = query) ↔
      ∃ name, members.foldlM visitMember ((none, none) : Fields) = some (some query, name) := by
    refine ⟨?_, ?_⟩
    · rintro ⟨r, hr, rfl⟩
      obtain ⟨name, hfs, -⟩ := visitMap_ok.mp hr
      exact ⟨name, hfs⟩
    · rintro ⟨name, hfs⟩
      exact ⟨⟨query, name.getD none⟩, visitMap_ok.mpr ⟨name, hfs, rfl⟩, rfl⟩
  rw [hfields]
  simp only [foldlM_visitMember, fillField_none]
  refine ⟨?_, ?_⟩
  · rintro ⟨name, hquery, hname⟩
    refine ⟨members, rfl, ?_, ?_⟩
    · rcases hquery with ⟨-, h⟩ | ⟨v, a, hvalues, ha, h⟩
      · cases h
      · cases h
        rw [hvalues, asStr_eq_some.mp ha]
    · rcases hname with ⟨hnone, -⟩ | ⟨v, a, hvalues, ha, -⟩
      · exact .inl hnone
      · rcases asOptStr_isSome.mp ⟨a, ha⟩ with rfl | ⟨n, rfl⟩
        · exact .inr (.inl hvalues)
        · exact .inr (.inr ⟨n, hvalues⟩)
  · rintro ⟨members', hmembers, hquery, hname⟩
    cases hmembers
    rcases hname with hnone | hnull | ⟨n, hstr⟩
    · exact ⟨none, .inr ⟨_, query, hquery, rfl, rfl⟩, .inl ⟨hnone, rfl⟩⟩
    · exact ⟨some none, .inr ⟨_, query, hquery, rfl, rfl⟩, .inr ⟨_, _, hnull, rfl, rfl⟩⟩
    · exact ⟨some (some n), .inr ⟨_, query, hquery, rfl, rfl⟩, .inr ⟨_, _, hstr, rfl, rfl⟩⟩

/-- **An array reads as a request when it is a request array.** -/
lemma visitSeq_query {items : List Json} {query : String} :
    (∃ r, visitSeq items = some r ∧ r.query = query) ↔ RequestArray (.arr items) query := by
  unfold RequestArray
  rcases items with _ | ⟨q, _ | ⟨n, _ | ⟨w, ws⟩⟩⟩
  · simp [visitSeq]
  · cases q with
    | str s => simp [visitSeq, Json.asStr]
    | _ => simp [visitSeq, Json.asStr]
  · cases q with
    | str s =>
      cases n with
      | null => simp [visitSeq, Json.asStr, Json.asOptStr]
      | str t => simp [visitSeq, Json.asStr, Json.asOptStr]
      | _ => simp [visitSeq, Json.asStr, Json.asOptStr]
    | _ => simp [visitSeq, Json.asStr]
  · simp [visitSeq]

lemma deserialize_query {v : Json} {query : String} :
    (∃ r, GraphQLRequest.deserialize v = some r ∧ r.query = query) ↔
      RequestObject v query ∨ RequestArray v query := by
  cases v with
  | obj members =>
    have harray : ¬RequestArray (.obj members) query := by simp [RequestArray]
    rw [or_iff_left harray]
    exact visitMap_query
  | arr items =>
    have hobject : ¬RequestObject (.arr items) query := by simp [RequestObject]
    rw [or_iff_right hobject]
    exact visitSeq_query
  | _ => simp [GraphQLRequest.deserialize, RequestObject, RequestArray]

/-! ### What is accepted -/

variable {x : Readers}

lemma not_requestArray {v : Json} {query query' : String} (h : RequestObject v query) :
    ¬RequestArray v query' := by
  obtain ⟨members, rfl, -⟩ := h
  simp [RequestArray]

lemma not_request_str {s : String} : ¬Request x (.str s) := by
  simp [Request, RequestObject, RequestArray]

lemma str_mem_of_requestArray {items : List Json} {query : String}
    (h : RequestArray (.arr items) query) : .str query ∈ items := by
  rcases h with h | h | ⟨n, h⟩
  · cases h
    exact List.mem_cons_self
  · cases h
    exact List.mem_cons_self
  · cases h
    exact List.mem_cons_self

lemma elements_request {v : Json} (h : Request x v) : elements v = [v] := by
  obtain ⟨query, hform, -⟩ := h
  obtain ⟨r, hr, -⟩ := deserialize_query.mpr hform
  unfold elements
  rw [hr]

/-- An array of requests is not itself a request. -/
lemma elements_arr {items : List Json} (h : ∀ item ∈ items, Request x item) :
    elements (.arr items) = items := by
  unfold elements
  rcases hr : GraphQLRequest.deserialize (.arr items) with _ | r
  · rfl
  · rcases deserialize_query.mp ⟨r, hr, rfl⟩ with hobject | harray
    · obtain ⟨members, hmembers, -⟩ := hobject
      cases hmembers
    · exact absurd (h _ (str_mem_of_requestArray harray)) not_request_str

lemma readable_iff {v : Json} : Readable x v ↔ ∀ e ∈ elements v, Request x e := by
  unfold Readable
  refine forall₂_congr fun e _ => ⟨?_, ?_⟩
  · rintro ⟨r, doc, hr, hdoc⟩
    exact ⟨r.query, deserialize_query.mp ⟨r, hr, rfl⟩, doc, hdoc⟩
  · rintro ⟨query, hform, doc, hdoc⟩
    obtain ⟨r, hr, rfl⟩ := deserialize_query.mpr hform
    exact ⟨r, doc, hr, hdoc⟩

lemma classify_iff {body : Bytes} {v : Json} (hv : x.fromSlice body = .ok v) :
    (∃ c, classify x body = .ok c) ↔ elements v ≠ [] ∧ ∀ e ∈ elements v, Request x e := by
  by_cases hne : elements v = []
  · refine iff_of_false ?_ fun h => h.1 hne
    rintro ⟨c, hc⟩
    obtain ⟨raw, -, hraw, hrequests, -⟩ := classify_ok_of_read hv hc
    have hreads := deserialize_requests hraw
    rw [hne] at hreads
    exact hrequests (List.forall₂_nil_left_iff.mp hreads)
  · rw [classify_iff_readable hv hne, readable_iff]
    exact ⟨fun h => ⟨hne, h⟩, fun h => h.2⟩

/-- **What is accepted is what is documented, and the positional forms.** -/
lemma accepted_iff {v : Json} : (elements v ≠ [] ∧ ∀ e ∈ elements v, Request x e) ↔
    Documented x v ∨ Positional x v := by
  refine ⟨?_, ?_⟩
  · rintro ⟨hne, h⟩
    by_cases hself : Request x v
    · obtain ⟨query, hobject | harray, hparses⟩ := hself
      · exact .inl (.inl ⟨query, hobject, hparses⟩)
      · exact .inr (.inl ⟨query, harray, hparses⟩)
    · -- not a request itself, so its elements are those of an array
      obtain ⟨items, rfl, hitems⟩ : ∃ items, v = .arr items ∧ elements v = items := by
        have hnot : elements v ≠ [v] := by
          intro heq
          exact hself (h v (by rw [heq]; exact List.mem_cons_self))
        unfold elements at hnot ⊢
        rcases hr : GraphQLRequest.deserialize v with _ | r
        · cases v with
          | arr items => exact ⟨items, rfl, rfl⟩
          | _ => simp [hr] at hnot
        · simp [hr] at hnot
      rw [hitems] at hne h
      by_cases harray : ∃ item ∈ items, ∃ query, RequestArray item query
      · exact .inr (.inr ⟨items, rfl, h, harray⟩)
      · refine .inl (.inr ⟨items, rfl, hne, fun item hitem => ?_⟩)
        obtain ⟨query, hobject | hform, hparses⟩ := h item hitem
        · exact ⟨query, hobject, hparses⟩
        · exact absurd ⟨item, hitem, query, hform⟩ harray
  · have hone : Request x v → elements v ≠ [] ∧ ∀ e ∈ elements v, Request x e := by
      intro hself
      rw [elements_request hself]
      exact ⟨by simp, fun e he => List.mem_singleton.mp he ▸ hself⟩
    have hall : ∀ items, v = .arr items → items ≠ [] → (∀ item ∈ items, Request x item) →
        elements v ≠ [] ∧ ∀ e ∈ elements v, Request x e := by
      rintro items rfl hne h
      rw [elements_arr h]
      exact ⟨hne, h⟩
    rintro ((⟨query, hobject, hparses⟩ | ⟨items, hv, hne, h⟩) |
      (⟨query, harray, hparses⟩ | ⟨items, hv, h, item, hitem, -⟩))
    · exact hone ⟨query, .inl hobject, hparses⟩
    · refine hall items hv hne fun item hitem => ?_
      obtain ⟨query, hobject, hparses⟩ := h item hitem
      exact ⟨query, .inl hobject, hparses⟩
    · exact hone ⟨query, .inr harray, hparses⟩
    · exact hall items hv (List.ne_nil_of_mem hitem) h

/-- No body is documented and positional. -/
lemma not_positional {v : Json} (h : Documented x v) : ¬Positional x v := by
  rcases h with ⟨query, hobject, -⟩ | ⟨items, rfl, -, h⟩
  · rintro (⟨query', harray, -⟩ | ⟨items, rfl, -⟩)
    · exact not_requestArray hobject harray
    · obtain ⟨members, hmembers, -⟩ := hobject
      cases hmembers
  · rintro (⟨query, harray, -⟩ | ⟨items', hitems, -, item, hitem, query', harray⟩)
    · obtain ⟨query', hobject, hparses⟩ := h _ (str_mem_of_requestArray harray)
      exact not_request_str ⟨query', .inl hobject, hparses⟩
    · cases hitems
      obtain ⟨query, hobject, -⟩ := h item hitem
      exact not_requestArray hobject harray

/-- What is accepted is not nested too deep, and is documented or positional. -/
lemma classify_iff_grammar {body : Bytes} {v : Json} (hb : TextOf x body v) :
    (∃ c, classify x body = .ok c) ↔
      v.depth ≤ recursionLimit ∧ (Documented x v ∨ Positional x v) := by
  by_cases hdepth : v.depth ≤ recursionLimit
  · rw [classify_iff (hb.read hdepth), accepted_iff, and_iff_right hdepth]
  · refine iff_of_false ?_ fun h => hdepth h.1
    rintro ⟨c, hc⟩
    obtain ⟨v', raw, opss, hv', -⟩ := classify_ok.mp hc
    exact hdepth (hb.read_iff.mp hv').2

/-- **The documented grammar is the one accepted, the positional forms and the limit of the JSON
reader apart.** Whether a body is accepted agrees with whether it is a request object, or a batch
of request objects, with queries that parse, if and only if it is nested within the limit and is
not a request array, nor a batch with a request array among its requests, with queries that parse;
or it is nested deeper, and is no such object or batch of objects. -/
theorem grammar_exact_iff (x : Readers) (body : Bytes) (v : Json) (hb : TextOf x body v) :
    ((∃ c, classify x body = .ok c) ↔ Documented x v) ↔
      (v.depth ≤ recursionLimit ∧ ¬Positional x v) ∨
        (recursionLimit < v.depth ∧ ¬Documented x v) := by
  rw [classify_iff_grammar hb]
  by_cases hdepth : v.depth ≤ recursionLimit
  · have hshallow : ¬(recursionLimit < v.depth ∧ ¬Documented x v) := fun h => by omega
    rw [and_iff_right hdepth, and_iff_right hdepth, or_iff_left hshallow]
    refine ⟨fun h hpositional => ?_, fun h => ?_⟩
    · exact not_positional (h.mp (.inr hpositional)) hpositional
    · rw [or_iff_left h]
  · have hdeep : recursionLimit < v.depth := by omega
    simp [hdepth, hdeep]

theorem grammar_exact_iff_object :
    (∃ c, classify exampleReaders (ascii (requestText setRule)) = .ok c) ↔
      Documented exampleReaders (requestJson setRule) := by
  refine (grammar_exact_iff exampleReaders (ascii (requestText setRule)) (requestJson setRule)
    (textOf_read (by simp [exampleReaders]) (by decide))).mpr (.inl ⟨by decide, ?_⟩)
  rintro (⟨query, harray, -⟩ | ⟨items, hitems, -⟩)
  · simp [RequestArray, requestJson] at harray
  · cases hitems

/-- The text of a request array with a query and nothing else. -/
def arrayText (query : String) : String := "[\"" ++ query ++ "\"]"

def arrayReaders : Readers where
  fromSlice b :=
    if b = ascii (arrayText setRule) then .ok (.arr [.str setRule])
    else .error "expected value at line 1 column 1"
  parseQuery := exampleReaders.parseQuery

/-- An array of one string is accepted. -/
theorem array_of_string_accepted :
    arrayReaders.fromSlice (ascii (arrayText setRule)) = .ok (.arr [.str setRule]) ∧
      (∃ c, classify arrayReaders (ascii (arrayText setRule)) = .ok c) ∧
      ¬Documented arrayReaders (.arr [.str setRule]) := by
  have hv : arrayReaders.fromSlice (ascii (arrayText setRule)) = .ok (.arr [.str setRule]) :=
    by simp [arrayReaders]
  have hpositional : Positional arrayReaders (.arr [.str setRule]) :=
    .inl ⟨setRule, .inl rfl, ⟨.single setRuleOperation, ∅⟩,
      by simp [arrayReaders, exampleReaders]⟩
  refine ⟨hv, (classify_iff hv).mpr (accepted_iff.mpr (.inr hpositional)), fun hdocumented => ?_⟩
  exact not_positional hdocumented hpositional

end GatewayAuth.Grammar
