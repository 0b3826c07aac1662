import Mathlib.Data.Int.Notation
import Mathlib.Data.List.Forall2

/-!
JSON values as `serde` buffers them, and the two derived deserializers of a request body.

An object is its members in the order of the text, a repeated key included: a derived struct
deserializer sees every member and refuses a field given twice.
-/

namespace GatewayAuth.JsonBody

/-- A JSON number as it is kept after reading: an unsigned or a negative integer, or the bits
of a double. -/
inductive Number
  | posInt (n : ℕ)
  | negInt (n : ℤ)
  | float (bits : UInt64)
  deriving DecidableEq

inductive Json
  | null
  | bool (b : Bool)
  | num (n : Number)
  | str (s : String)
  | arr (items : List Json)
  | obj (members : List (String × Json))

mutual

/-- How deep arrays and objects are nested. -/
def Json.depth : Json → ℕ
  | .arr items => itemsDepth items + 1
  | .obj members => membersDepth members + 1
  | _ => 0

def itemsDepth : List Json → ℕ
  | [] => 0
  | v :: vs => max v.depth (itemsDepth vs)

def membersDepth : List (String × Json) → ℕ
  | [] => 0
  | (_, v) :: ms => max v.depth (membersDepth ms)

end

/-- The text of a string value. -/
def Json.asStr : Json → Option String
  | .str s => some s
  | _ => none

/-- The value of a key in a map: of a repeated key the last, as insertion leaves it. -/
def lookup (key : String) (members : List (String × Json)) : Option Json :=
  (members.reverse.find? (fun m => m.1 == key)).map Prod.snd

/-- The value of a key, of an object only. -/
def Json.get? (v : Json) (key : String) : Option Json :=
  match v with
  | .obj members => lookup key members
  | _ => none

/-! ### A request and a body -/

/-- A single GraphQL-over-HTTP request payload. -/
structure GraphQLRequest where
  query : String
  operationName : Option String
  deriving DecidableEq

/-- A field of type `Option<String>`: a string, or null for none. -/
def Json.asOptStr : Json → Option (Option String)
  | .null => some none
  | .str s => some (some s)
  | _ => none

/-- The fields met so far while a map is visited. -/
abbrev Fields := Option String × Option (Option String)

/-- One member of the map. A field given twice is an error, under either spelling of
`operationName`; an unknown member is ignored. -/
def visitMember (fs : Fields) (m : String × Json) : Option Fields :=
  if m.1 = "query" then
    match fs.1 with
    | some _ => none
    | none => m.2.asStr.map fun s => (some s, fs.2)
  else if m.1 = "operationName" ∨ m.1 = "operation_name" then
    match fs.2 with
    | some _ => none
    | none => m.2.asOptStr.map fun o => (fs.1, some o)
  else some fs

def visitMap (members : List (String × Json)) : Option GraphQLRequest := do
  let fs ← members.foldlM visitMember ((none, none) : Fields)
  let query ← fs.1
  return ⟨query, fs.2.getD none⟩

/-- The fields by position, the last defaulted. -/
def visitSeq : List Json → Option GraphQLRequest
  | [q] => do return ⟨← q.asStr, none⟩
  | [q, n] => do return ⟨← q.asStr, ← n.asOptStr⟩
  | _ => none

def GraphQLRequest.deserialize : Json → Option GraphQLRequest
  | .obj members => visitMap members
  | .arr items => visitSeq items
  | _ => none

/-- The body may be a single request object or a JSON array of them (batching). -/
inductive RawBody
  | single (r : GraphQLRequest)
  | batch (rs : List GraphQLRequest)
  deriving DecidableEq

/-- The variants of an untagged enum are tried in order. -/
def RawBody.deserialize (v : Json) : Option RawBody :=
  match GraphQLRequest.deserialize v with
  | some r => some (.single r)
  | none =>
    match v with
    | .arr items => (items.mapM GraphQLRequest.deserialize).map .batch
    | _ => none

def RawBody.requests : RawBody → List GraphQLRequest
  | .single r => [r]
  | .batch rs => rs

/-- The JSON values a body presents as requests: the body itself when it reads as one
request, else the items of the array. -/
def elements (v : Json) : List Json :=
  match GraphQLRequest.deserialize v with
  | some _ => [v]
  | none =>
    match v with
    | .arr items => items
    | _ => [v]

lemma mapM_eq_some {α β : Type*} {f : α → Option β} {l : List α} {bs : List β} :
    l.mapM f = some bs ↔ List.Forall₂ (fun a b => f a = some b) l bs := by
  induction l generalizing bs with
  | nil => simp [eq_comm]
  | cons a l ih =>
    rw [List.mapM_cons, List.forall₂_cons_left_iff]
    refine ⟨?_, ?_⟩
    · intro h
      obtain ⟨b, hb, h⟩ := Option.bind_eq_some_iff.mp h
      obtain ⟨cs, hcs, h⟩ := Option.bind_eq_some_iff.mp h
      exact ⟨b, cs, hb, ih.mp hcs, by simpa using h.symm⟩
    · rintro ⟨b, cs, hb, hcs, rfl⟩
      simp [hb, ih.mpr hcs]

lemma exists_mem_of_forall₂ {α β : Type*} {R : α → β → Prop} {l : List α} {u : List β}
    (h : List.Forall₂ R l u) {a : α} (ha : a ∈ l) : ∃ b ∈ u, R a b := by
  induction h with
  | nil => cases ha
  | cons hab _ ih =>
    rcases List.mem_cons.mp ha with rfl | ha
    · exact ⟨_, List.mem_cons_self, hab⟩
    · obtain ⟨b, hb, hr⟩ := ih ha
      exact ⟨b, List.mem_cons_of_mem _ hb, hr⟩

lemma forall₂_of_forall_exists {α β : Type*} {R : α → β → Prop} {l : List α}
    (h : ∀ a ∈ l, ∃ b, R a b) : ∃ u, List.Forall₂ R l u := by
  induction l with
  | nil => exact ⟨[], .nil⟩
  | cons a l ih =>
    obtain ⟨b, hb⟩ := h a List.mem_cons_self
    obtain ⟨u, hu⟩ := ih fun a ha => h a (List.mem_cons_of_mem _ ha)
    exact ⟨b :: u, .cons hb hu⟩

/-- An array of objects is not one request by position. -/
lemma deserialize_objects {vs : List Json} (hobj : ∀ v ∈ vs, ∃ members, v = .obj members) :
    GraphQLRequest.deserialize (.arr vs) = none := by
  cases vs with
  | nil => rfl
  | cons v vs =>
    obtain ⟨members, rfl⟩ := hobj v List.mem_cons_self
    rcases vs with _ | ⟨w, _ | ⟨_, _⟩⟩ <;> rfl

/-- **A body reads exactly when all its elements do**, and its requests are theirs. -/
lemma deserialize_requests {v : Json} {raw : RawBody} (h : RawBody.deserialize v = some raw) :
    List.Forall₂ (fun e r => GraphQLRequest.deserialize e = some r) (elements v)
      raw.requests := by
  unfold RawBody.deserialize at h
  unfold elements
  rcases hs : GraphQLRequest.deserialize v with _ | r
  · rw [hs] at h
    cases v with
    | arr items =>
      obtain ⟨rs, hrs, rfl⟩ := Option.map_eq_some_iff.mp h
      exact mapM_eq_some.mp hrs
    | _ => simp at h
  · rw [hs] at h
    simp only [Option.some.injEq] at h
    subst h
    simpa [RawBody.requests] using hs

lemma deserialize_of_elements {v : Json} (hne : elements v ≠ [])
    (h : ∀ e ∈ elements v, ∃ r, GraphQLRequest.deserialize e = some r) :
    ∃ raw, RawBody.deserialize v = some raw ∧ raw.requests ≠ [] := by
  unfold RawBody.deserialize
  unfold elements at h hne
  rcases hs : GraphQLRequest.deserialize v with _ | r
  · rw [hs] at h hne
    cases v with
    | arr items =>
      obtain ⟨rs, hrs⟩ := forall₂_of_forall_exists h
      refine ⟨.batch rs, by simp [mapM_eq_some.mpr hrs], ?_⟩
      rintro rfl
      cases hrs
      exact hne rfl
    | _ =>
      obtain ⟨r, hr⟩ := h _ (List.mem_singleton_self _)
      rw [hs] at hr
      cases hr
  · exact ⟨.single r, rfl, by simp [RawBody.requests]⟩

end GatewayAuth.JsonBody
