import GatewayAuth.Server

/-!
Which headers are passed on, in either direction. The filters go by fixed lists of names, so a
header that a `Connection` header names for this hop is passed on with the rest.
-/

namespace GatewayAuth.Headers

open GatewayAuth.Classify GatewayAuth.Forwarding GatewayAuth.Server

/-- The values of a name, in order. -/
def values (headers : HeaderMap) (name : String) : List Bytes :=
  (headers.filter fun h => h.1 == name).map Prod.snd

/-! ### Connection options -/

/-- Space and tab. -/
def isBlank (b : UInt8) : Bool := b == 32 || b == 9

def toLower (b : UInt8) : UInt8 := if 65 ≤ b && b ≤ 90 then b + 32 else b

/-- The options of a `Connection` value, in lower case: what stands between its commas, without
the blanks around it. -/
def connectionOptions (value : Bytes) : List Bytes :=
  (value.splitOnP fun b => b == 44).map fun option =>
    ((option.dropWhile isBlank).rdropWhile isBlank).map toLower

/-- Some `Connection` header names the header as one for this hop alone. -/
def ConnectionNames (headers : HeaderMap) (name : String) : Prop :=
  ∃ value ∈ values headers "connection", ascii name ∈ connectionOptions value

/-! ### Filters -/

/-- The headers that are for one hop by what they are. -/
def forOneHop : List String :=
  ["connection", "keep-alive", "proxy-authenticate", "proxy-authorization", "te", "trailer",
    "transfer-encoding", "upgrade"]

/-- The headers that go no further: those for one hop, those of the list, and those that a
`Connection` header names. -/
def Dropped (own : List String) (headers : HeaderMap) (name : String) : Prop :=
  name ∈ forOneHop ∨ name ∈ own ∨ ConnectionNames headers name

/-- What is passed on: nothing of a dropped name, and every other name with its values in
order. -/
def EndToEnd (own : List String) (headers out : HeaderMap) : Prop :=
  ∀ name, (Dropped own headers name → values out name = []) ∧
    (¬Dropped own headers name → values out name = values headers name)

/-- Every header there is that a `Connection` header names is dropped by its name anyway. -/
def NamesKnown (own : List String) (headers : HeaderMap) : Prop :=
  ∀ name, ConnectionNames headers name → values headers name ≠ [] →
    name ∈ forOneHop ∨ name ∈ own

lemma isHopByHop_iff {name : String} : isHopByHop name = true ↔ name ∈ forOneHop :=
  List.contains_iff_mem

/-- The filter of a list of names, which both directions are. -/
def dropNames (own : List String) (headers : HeaderMap) : HeaderMap :=
  headers.filter fun h => !(isHopByHop h.1 || own.contains h.1)

lemma filterForwardHeaders_eq (headers : HeaderMap) :
    filterForwardHeaders headers = dropNames ["host", "authorization"] headers := by
  unfold filterForwardHeaders dropNames
  refine List.filter_congr fun h _ => ?_
  simp [Bool.or_assoc, beq_eq_decide]

lemma filterResponseHeaders_eq (headers : HeaderMap) :
    filterResponseHeaders headers = dropNames ["content-length"] headers := by
  unfold filterResponseHeaders dropNames
  refine List.filter_congr fun h _ => ?_
  simp [beq_eq_decide]

lemma values_dropNames (own : List String) (headers : HeaderMap) (name : String) :
    values (dropNames own headers) name =
      if name ∈ forOneHop ∨ name ∈ own then [] else values headers name := by
  unfold values dropNames
  rw [List.filter_filter]
  simp only [← isHopByHop_iff]
  split_ifs with h
  · have hnone : (headers.filter fun a =>
        a.1 == name && !(isHopByHop a.1 || own.contains a.1)) = [] := by
      refine List.filter_eq_nil_iff.mpr fun a _ => ?_
      intro ha
      simp only [Bool.and_eq_true, beq_iff_eq, Bool.not_eq_true', Bool.or_eq_false_iff] at ha
      obtain ⟨rfl, hhop, hown⟩ := ha
      rcases h with h | h
      · rw [h] at hhop
        cases hhop
      · simp [h] at hown
    rw [hnone]
    rfl
  · congr 1
    refine List.filter_congr fun a _ => ?_
    by_cases ha : a.1 = name
    · rw [not_or] at h
      simp [ha, h.1, h.2]
    · simp [ha]

/-- **A filter by names keeps exactly the end-to-end headers when it knows the names that are
given for this hop.** -/
lemma endToEnd_dropNames (own : List String) (headers : HeaderMap) :
    EndToEnd own headers (dropNames own headers) ↔ NamesKnown own headers := by
  refine ⟨fun h name hnames hpresent => ?_, fun hknown name => ⟨fun hdropped => ?_, fun hkept => ?_⟩⟩
  · by_contra hunknown
    have hnone := (h name).1 (.inr (.inr hnames))
    rw [values_dropNames, if_neg hunknown] at hnone
    exact hpresent hnone
  · rw [values_dropNames]
    split_ifs with hfixed
    · rfl
    · by_contra hpresent
      rcases hdropped with hhop | hown | hnames
      · exact hfixed (.inl hhop)
      · exact hfixed (.inr hown)
      · exact hfixed (hknown name hnames hpresent)
  · rw [values_dropNames, if_neg]
    rintro (hhop | hown)
    · exact hkept (.inl hhop)
    · exact hkept (.inr (.inl hown))

/-- **The header filters are right as long as `Connection` names no header of its own.** In either
direction what is passed on is every end-to-end header with its values in order, and nothing
else, if and only if each header there is that a `Connection` value names is one of the names
that are always dropped. -/
theorem header_filters_iff (headers : HeaderMap) :
    (EndToEnd ["host", "authorization"] headers (filterForwardHeaders headers) ↔
      NamesKnown ["host", "authorization"] headers) ∧
    (EndToEnd ["content-length"] headers (filterResponseHeaders headers) ↔
      NamesKnown ["content-length"] headers) := by
  rw [filterForwardHeaders_eq, filterResponseHeaders_eq]
  exact ⟨endToEnd_dropNames _ _, endToEnd_dropNames _ _⟩

def exampleHeaders : HeaderMap :=
  [("connection", ascii "close, X-Internal"), ("x-internal", ascii "secret"),
    ("content-type", ascii "application/json")]

/-- A header for this hop alone is passed on, both ways. -/
theorem connection_header_passed_on :
    ConnectionNames exampleHeaders "x-internal" ∧
      values (filterForwardHeaders exampleHeaders) "x-internal" = [ascii "secret"] ∧
      values (filterResponseHeaders exampleHeaders) "x-internal" = [ascii "secret"] ∧
      ¬EndToEnd ["host", "authorization"] exampleHeaders (filterForwardHeaders exampleHeaders) ∧
      ¬EndToEnd ["content-length"] exampleHeaders (filterResponseHeaders exampleHeaders) := by
  have hnames : ConnectionNames exampleHeaders "x-internal" := by
    refine ⟨ascii "close, X-Internal", ?_, ?_⟩
    · decide
    · decide
  have hforward : values (filterForwardHeaders exampleHeaders) "x-internal" =
      [ascii "secret"] := by decide
  have hresponse : values (filterResponseHeaders exampleHeaders) "x-internal" =
      [ascii "secret"] := by decide
  refine ⟨hnames, hforward, hresponse, fun h => ?_, fun h => ?_⟩
  · have hnone := (h "x-internal").1 (.inr (.inr hnames))
    rw [hforward] at hnone
    cases hnone
  · have hnone := (h "x-internal").1 (.inr (.inr hnames))
    rw [hresponse] at hnone
    cases hnone

end GatewayAuth.Headers
