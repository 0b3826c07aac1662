import Mathlib.Data.List.ReduceOption
import GatewayAuth.MethodGate

/-!
The fingerprint of the variables in the audit trail.

A batch is hashed as the list of the variables that are there, so which of the requests they are
for does not show.
-/

namespace GatewayAuth.Fingerprint

open GatewayAuth.JsonBody GatewayAuth.Classify GatewayAuth.Authz GatewayAuth.Audit
open GatewayAuth.Server GatewayAuth.MethodGate

/-! ### Values -/

/-- Add a member where its key belongs, unless the key is there. -/
def insertAbsent (key : String) (v : Json) : List (String × Json) → List (String × Json)
  | [] => [(key, v)]
  | m :: ms =>
    if key < m.1 then (key, v) :: m :: ms
    else if key = m.1 then m :: ms
    else m :: insertAbsent key v ms

mutual

/-- The value as it is kept: the members of an object in the order of their keys, and of a
repeated key the last. -/
def value : Json → Json
  | .arr items => .arr (values items)
  | .obj members => .obj (valueMembers members)
  | v => v

def values : List Json → List Json
  | [] => []
  | v :: vs => value v :: values vs

def valueMembers : List (String × Json) → List (String × Json)
  | [] => []
  | (key, v) :: ms => insertAbsent key (value v) (valueMembers ms)

end

lemma values_eq_map (vs : List Json) : values vs = vs.map value := by
  induction vs with
  | nil => rfl
  | cons v vs ih => rw [values, ih, List.map_cons]

lemma lookup_cons (key : String) (m : String × Json) (ms : List (String × Json)) :
    lookup key (m :: ms) = (lookup key ms).or (if m.1 = key then some m.2 else none) := by
  unfold lookup
  rw [List.reverse_cons, List.find?_append, Option.map_or]
  congr 1
  by_cases h : m.1 = key
  · simp [h]
  · simp [h]

lemma lookup_insertAbsent (key k : String) (v : Json) (ms : List (String × Json)) :
    lookup key (insertAbsent k v ms) =
      (lookup key ms).or (if k = key then some v else none) := by
  induction ms with
  | nil => rw [insertAbsent, lookup_cons]
  | cons m ms ih =>
    by_cases hlt : k < m.1
    · rw [insertAbsent, if_pos hlt, lookup_cons]
    by_cases heq : k = m.1
    · -- the key is there already, and nothing changes
      rw [insertAbsent, if_neg hlt, if_pos heq, lookup_cons, Option.or_assoc, heq]
      by_cases hkey : m.1 = key
      · rw [if_pos hkey, if_pos hkey, Option.some_or]
      · rw [if_neg hkey, if_neg hkey, Option.none_or, Option.or_none]
    · rw [insertAbsent, if_neg hlt, if_neg heq, lookup_cons, ih, lookup_cons, Option.or_assoc,
        Option.or_assoc]
      congr 1
      by_cases hkey : m.1 = key
      · have hk : k ≠ key := fun hk => heq (hk.trans hkey.symm)
        rw [if_neg hk, Option.none_or, Option.or_none]
      · rw [if_neg hkey, Option.none_or, Option.or_none]

lemma lookup_valueMembers (key : String) (ms : List (String × Json)) :
    lookup key (valueMembers ms) = (lookup key ms).map value := by
  induction ms with
  | nil => rfl
  | cons m ms ih =>
    obtain ⟨k, v⟩ := m
    rw [valueMembers, lookup_insertAbsent, ih, lookup_cons, Option.map_or]
    congr 1
    by_cases h : k = key
    · rw [if_pos h, if_pos h, Option.map_some]
    · rw [if_neg h, if_neg h, Option.map_none]

/-- **The value of a key is kept.** -/
lemma get?_value (v : Json) (key : String) : (value v).get? key = (v.get? key).map value := by
  cases v with
  | obj members => exact lookup_valueMembers key members
  | _ => rfl

/-! ### What is hashed -/

variable (toVec : Json → Except String Bytes)

/-- The bytes that are hashed: the JSON text of the value, or nothing if it has none. -/
def hashedBytes (vars : Json) : Bytes :=
  match toVec (value vars) with
  | .ok bytes => bytes
  | .error _ => []

/-- The fingerprint of request variables, `digest` being SHA-256 in hexadecimal. -/
def hashVariables (digest : Bytes → String) (vars : Json) : String :=
  digest (hashedBytes toVec vars)

/-- The bytes that are hashed for a body, if it has variables. -/
def fedBytes (x : Readers) (body : Bytes) : Option Bytes :=
  (extractVariables x body).map (hashedBytes toVec)

/-- The text of these two values tells them apart. -/
def TellsApart (a b : Json) : Prop := hashedBytes toVec a = hashedBytes toVec b → value a = value b

/-- The fingerprint of a call is that of the bytes. -/
lemma variablesHash_eq {Cell : Type} {x : Crates Cell} {digest : Bytes → String}
    (hx : x.hashVariables = hashVariables toVec digest) (now : ℕ) (p : Principal)
    (c : Classification) (body : Bytes) :
    (Call.new x now p c body).variablesHash = (fedBytes toVec x.readers body).map digest := by
  unfold Call.new fedBytes
  rw [hx, Option.map_map]
  rfl

/-! ### Variables by position -/

/-- The variables of each request of the body, in order. -/
def variablesAt (v : Json) : List (Option Json) :=
  match value v with
  | .arr items => items.map fun item => item.get? "variables"
  | w => [w.get? "variables"]

/-- Both bodies are a single object, or both are an array of the same length. -/
def SameForm (v v' : Json) : Prop :=
  (∃ members members', v = .obj members ∧ v' = .obj members') ∨
    ∃ items items', v = .arr items ∧ v' = .arr items' ∧ items.length = items'.length

/-- The variables that are there, in order, are the same. -/
def SameVariables (v v' : Json) : Prop :=
  (variablesAt v).reduceOption = (variablesAt v').reduceOption

/-- The requests that have variables are the same. -/
def SamePositions (v v' : Json) : Prop :=
  (variablesAt v).map Option.isSome = (variablesAt v').map Option.isSome

lemma variablesAt_obj (members : List (String × Json)) :
    variablesAt (.obj members) = [(lookup "variables" members).map value] := by
  have hget := get?_value (.obj members) "variables"
  rw [value] at hget
  unfold variablesAt
  rw [value]
  exact congrArg (fun o => [o]) hget

lemma variablesAt_arr (items : List Json) : variablesAt (.arr items) =
    items.map fun item => (item.get? "variables").map value := by
  unfold variablesAt
  simp only [value, values_eq_map, List.map_map]
  exact List.map_congr_left fun item _ => get?_value item "variables"

lemma reduceOption_variablesAt (items : List Json) : (variablesAt (.arr items)).reduceOption =
    (items.filterMap fun item => item.get? "variables").map value := by
  rw [variablesAt_arr, List.reduceOption, List.filterMap_map, List.map_filterMap]
  rfl

/-- Two lists with the same entries at the same places are the same. -/
lemma eq_of_reduceOption {α : Type} {l l' : List (Option α)}
    (hentries : l.reduceOption = l'.reduceOption)
    (hplaces : l.map Option.isSome = l'.map Option.isSome) : l = l' := by
  induction l generalizing l' with
  | nil =>
    cases l' with
    | nil => rfl
    | cons o' l' => cases hplaces
  | cons o l ih =>
    cases l' with
    | nil => cases hplaces
    | cons o' l' =>
      rw [List.map_cons, List.map_cons, List.cons.injEq] at hplaces
      obtain ⟨hplace, hplaces⟩ := hplaces
      cases o with
      | none =>
        cases o' with
        | none =>
          rw [List.reduceOption_cons_of_none, List.reduceOption_cons_of_none] at hentries
          have htail := ih hentries hplaces
          rw [htail]
        | some b => cases hplace
      | some a =>
        cases o' with
        | none => cases hplace
        | some b =>
          rw [List.reduceOption_cons_of_some, List.reduceOption_cons_of_some,
            List.cons.injEq] at hentries
          have htail := ih hentries.2 hplaces
          rw [hentries.1, htail]

/-! ### What equal fingerprints say -/

variable {toVec} {x : Readers} {body body' : Bytes}

lemma extractVariables_obj {members : List (String × Json)}
    (hv : x.fromSlice body = .ok (.obj members)) :
    extractVariables x body = lookup "variables" members := by
  unfold extractVariables
  rw [hv]

lemma extractVariables_arr {items : List Json} (hv : x.fromSlice body = .ok (.arr items)) :
    extractVariables x body =
      if (items.filterMap fun item => item.get? "variables").isEmpty then none
      else some (.arr (items.filterMap fun item => item.get? "variables")) := by
  unfold extractVariables
  rw [hv]

/-- Values that are told apart are the same when their texts are. -/
lemma map_hashedBytes {o o' : Option Json} (h : ∀ a ∈ o, ∀ b ∈ o', TellsApart toVec a b) :
    o.map (hashedBytes toVec) = o'.map (hashedBytes toVec) ↔ o.map value = o'.map value := by
  cases o with
  | none => cases o' <;> simp
  | some a =>
    cases o' with
    | none => simp
    | some b =>
      simp only [Option.map_some, Option.some.injEq]
      refine ⟨h a rfl b rfl, fun heq => ?_⟩
      unfold hashedBytes
      rw [heq]

/-- **The bytes that are hashed say which variables there are, in order.** -/
lemma fedBytes_eq_iff {v v' : Json} (hv : x.fromSlice body = .ok v)
    (hv' : x.fromSlice body' = .ok v') (hform : SameForm v v')
    (hser : ∀ a ∈ extractVariables x body, ∀ b ∈ extractVariables x body', TellsApart toVec a b) :
    fedBytes toVec x body = fedBytes toVec x body' ↔ SameVariables v v' := by
  unfold fedBytes SameVariables
  rw [map_hashedBytes hser]
  rcases hform with ⟨members, members', rfl, rfl⟩ | ⟨items, items', rfl, rfl, -⟩
  · rw [extractVariables_obj hv, extractVariables_obj hv', variablesAt_obj, variablesAt_obj,
      List.reduceOption_singleton, List.reduceOption_singleton]
    generalize (lookup "variables" members).map value = o
    generalize (lookup "variables" members').map value = o'
    cases o <;> cases o' <;> simp
  · rw [extractVariables_arr hv, extractVariables_arr hv', reduceOption_variablesAt,
      reduceOption_variablesAt]
    generalize items.filterMap (fun item => item.get? "variables") = vars
    generalize items'.filterMap (fun item => item.get? "variables") = vars'
    cases vars with
    | nil => cases vars' <;> simp
    | cons a vars =>
      cases vars' with
      | nil => simp
      | cons b vars' => simp [value, values_eq_map]

/-- **The fingerprint identifies the variables of each request, but for where they stand.** Equal
bytes, or none for both, mean the same variables at every position of two bodies of the same form,
if and only if the two do not have the same variables in the same order on different requests. -/
theorem fingerprint_identifies_iff (x : Readers) (toVec : Json → Except String Bytes)
    (body body' : Bytes) (v v' : Json) (hv : x.fromSlice body = .ok v)
    (hv' : x.fromSlice body' = .ok v') (hform : SameForm v v')
    (hser : ∀ a ∈ extractVariables x body, ∀ b ∈ extractVariables x body', TellsApart toVec a b) :
    (fedBytes toVec x body = fedBytes toVec x body' → variablesAt v = variablesAt v') ↔
      ¬(SameVariables v v' ∧ ¬SamePositions v v') := by
  rw [fedBytes_eq_iff hv hv' hform hser, not_and_not_right]
  refine forall_congr' fun hsame => ⟨fun heq => ?_, fun hpositions => ?_⟩
  · unfold SamePositions
    rw [heq]
  · exact eq_of_reduceOption hsame hpositions

/-! ### An example: two requests, one with variables -/

/-- The text of a request with one variable. -/
def variablesText (n : ℕ) (query : String) : String :=
  "\x7b\"variables\":\x7b\"n\":" ++ toString n ++ "\x7d,\"query\":\"" ++ query ++ "\"\x7d"

def variablesJson (n : ℕ) (query : String) : Json :=
  .obj [("variables", .obj [("n", .num (.posInt n))]), ("query", .str query)]

/-- Two requests, the first with the variable. -/
def firstText (n : ℕ) : String :=
  "[" ++ variablesText n setRule ++ "," ++ requestText setRule ++ "]"

/-- Two requests, the second with the variable. -/
def secondText (n : ℕ) : String :=
  "[" ++ requestText setRule ++ "," ++ variablesText n setRule ++ "]"

def firstJson (n : ℕ) : Json := .arr [variablesJson n setRule, requestJson setRule]

def secondJson (n : ℕ) : Json := .arr [requestJson setRule, variablesJson n setRule]

/-- The text of an object of one number, alone or as the one item of an array. -/
def exampleToVec : Json → Except String Bytes
  | .obj [(key, .num (.posInt n))] => .ok (ascii ("\x7b\"" ++ key ++ "\":" ++ toString n ++ "\x7d"))
  | .arr [.obj [(key, .num (.posInt n))]] =>
    .ok (ascii ("[\x7b\"" ++ key ++ "\":" ++ toString n ++ "\x7d]"))
  | _ => .error "another value"

/-- Readers of two texts. -/
def pairReaders (b b' : Bytes) (v v' : Json) : Readers where
  fromSlice text :=
    if text = b then .ok v
    else if text = b' then .ok v'
    else .error "expected value at line 1 column 1"
  parseQuery := exampleReaders.parseQuery

lemma fromSlice_fst (b b' : Bytes) (v v' : Json) : (pairReaders b b' v v').fromSlice b = .ok v :=
  if_pos rfl

lemma fromSlice_snd {b b' : Bytes} (hne : b' ≠ b) (v v' : Json) :
    (pairReaders b b' v v').fromSlice b' = .ok v' := (if_neg hne).trans (if_pos rfl)

def objectReaders : Readers :=
  pairReaders (ascii (variablesText 1 setRule)) (ascii (variablesText 2 setRule))
    (variablesJson 1 setRule) (variablesJson 2 setRule)

def batchReaders : Readers :=
  pairReaders (ascii (firstText 1)) (ascii (secondText 1)) (firstJson 1) (secondJson 1)

lemma fromSlice_object2 : objectReaders.fromSlice (ascii (variablesText 2 setRule)) =
    .ok (variablesJson 2 setRule) := fromSlice_snd (by decide +kernel) _ _

lemma fromSlice_second :
    batchReaders.fromSlice (ascii (secondText 1)) = .ok (secondJson 1) :=
  fromSlice_snd (by decide +kernel) _ _

theorem fingerprint_identifies_iff_object :
    (fedBytes exampleToVec objectReaders (ascii (variablesText 1 setRule)) =
        fedBytes exampleToVec objectReaders (ascii (variablesText 2 setRule)) →
      variablesAt (variablesJson 1 setRule) = variablesAt (variablesJson 2 setRule)) ↔
    ¬(SameVariables (variablesJson 1 setRule) (variablesJson 2 setRule) ∧
      ¬SamePositions (variablesJson 1 setRule) (variablesJson 2 setRule)) := by
  have hv : objectReaders.fromSlice (ascii (variablesText 1 setRule)) =
      .ok (variablesJson 1 setRule) := fromSlice_fst _ _ _ _
  refine fingerprint_identifies_iff objectReaders exampleToVec (ascii (variablesText 1 setRule))
    (ascii (variablesText 2 setRule)) (variablesJson 1 setRule) (variablesJson 2 setRule) hv
    fromSlice_object2 (.inl ⟨_, _, rfl, rfl⟩) fun a ha b hb heq => ?_
  rw [extractVariables_obj hv] at ha
  rw [extractVariables_obj fromSlice_object2] at hb
  cases ha
  cases hb
  exact absurd heq (by decide)

/-- The same variables for the first request and for the second have the same fingerprint. -/
theorem fingerprint_of_either_request :
    (∃ c, classify batchReaders (ascii (firstText 1)) = .ok c) ∧
      (∃ c, classify batchReaders (ascii (secondText 1)) = .ok c) ∧
      SameForm (firstJson 1) (secondJson 1) ∧
      fedBytes exampleToVec batchReaders (ascii (firstText 1)) =
        fedBytes exampleToVec batchReaders (ascii (secondText 1)) ∧
      variablesAt (firstJson 1) ≠ variablesAt (secondJson 1) := by
  have hv : batchReaders.fromSlice (ascii (firstText 1)) = .ok (firstJson 1) :=
    fromSlice_fst _ _ _ _
  have hparse : batchReaders.parseQuery setRule = .ok ⟨.single setRuleOperation, ∅⟩ := by
    simp [batchReaders, pairReaders, exampleReaders]
  have hread : ∀ e, e = variablesJson 1 setRule ∨ e = requestJson setRule →
      ∃ r doc, GraphQLRequest.deserialize e = some r ∧
        batchReaders.parseQuery r.query = .ok doc := by
    rintro e (rfl | rfl)
    · exact ⟨⟨setRule, none⟩, _, rfl, hparse⟩
    · exact ⟨⟨setRule, none⟩, _, rfl, hparse⟩
  refine ⟨?_, ?_, .inr ⟨_, _, rfl, rfl, rfl⟩, ?_, ?_⟩
  · refine (classify_iff_readable hv (List.cons_ne_nil _ _)).mpr fun e he => hread e ?_
    exact (List.mem_cons.mp he).imp_right List.mem_singleton.mp
  · refine (classify_iff_readable fromSlice_second (List.cons_ne_nil _ _)).mpr fun e he =>
      hread e ?_
    exact ((List.mem_cons.mp he).imp_right List.mem_singleton.mp).symm
  · unfold fedBytes
    rw [extractVariables_arr hv, extractVariables_arr fromSlice_second]
    rfl
  · unfold firstJson secondJson
    rw [variablesAt_arr, variablesAt_arr]
    intro h
    cases h

end GatewayAuth.Fingerprint
