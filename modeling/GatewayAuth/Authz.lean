import Mathlib.Data.Finset.Insert
import Mathlib.Data.String.Basic
import GatewayAuth.Lib.Sorted
import GatewayAuth.Classify

/-!
Authorization: does this principal's scopes cover the classified operation?

The base requirement comes from the classification, and a matching policy override adds the
scopes it names.
-/

namespace GatewayAuth.Authz

open GatewayAuth.Lib.Sorted GatewayAuth.Classify

/-- An authenticated caller and the scopes it has been granted. -/
structure Principal where
  name : String
  scopes : Finset String
  deriving DecidableEq

def Principal.new (name : String) (scopes : List String) : Principal := ⟨name, scopes.toFinset⟩

/-- The read-only anonymous principal. -/
def Principal.anonymous : Principal := .new "anonymous" ["read"]

/-- `write` implies `read`; any other scope is matched exactly. -/
def Principal.satisfies (p : Principal) (required : String) : Bool :=
  if required ∈ p.scopes then true else required == "read" && decide ("write" ∈ p.scopes)

/-- A single override: raise the scopes required to invoke a top-level field or a named
operation. -/
structure Override where
  field : Option String
  operation : Option String
  requireScopes : List String

structure Policy where
  failClosedOnParseError : Bool
  overrides : List Override

def Policy.default : Policy := ⟨true, []⟩

/-- A denied authorization decision. -/
structure Denied where
  required : List String
  missing : List String
  deriving DecidableEq

def Denied.message (d : Denied) : String :=
  "insufficient scope: missing [" ++ ", ".intercalate d.missing ++ "] (required [" ++
    ", ".intercalate d.required ++ "])"

def baseScope : Scope → String
  | .read => "read"
  | .write => "write"

/-- An override matches an operation when every constraint it sets holds; one with neither
constraint matches nothing. -/
def overrideMatches (ov : Override) (op : OperationInfo) : Bool :=
  if ov.field.isNone && ov.operation.isNone then false
  else
    let field_ok :=
      match ov.field with
      | some f => op.topLevelFields.any fun sel => sel == f
      | none => true
    let op_ok :=
      match ov.operation with
      | some o => op.name == some o
      | none => true
    field_ok && op_ok

/-- The scopes a request requires, in order: that of the classification, then for every
operation those of every override that matches it. -/
def requiredScopes (c : Classification) (policy : Policy) : SortedSet String :=
  c.operations.foldl
    (fun required op =>
      policy.overrides.foldl
        (fun required ov =>
          if overrideMatches ov op then required.extend ov.requireScopes else required)
        required)
    (SortedSet.empty.insert (baseScope c.scope))

def authorize (p : Principal) (c : Classification) (policy : Policy) :
    Except Denied (List String) :=
  let required := (requiredScopes c policy).toList
  let missing := required.filter fun scope => !p.satisfies scope
  if missing.isEmpty then .ok required else .error ⟨required, missing⟩

/-! ### What is required -/

lemma mem_foldl_overrides {op : OperationInfo} {s : String} (ovs : List Override)
    (required : SortedSet String) :
    s ∈ (ovs.foldl (fun required ov =>
        if overrideMatches ov op then required.extend ov.requireScopes else required)
        required).toList ↔
      s ∈ required.toList ∨ ∃ ov ∈ ovs, overrideMatches ov op = true ∧ s ∈ ov.requireScopes := by
  induction ovs generalizing required with
  | nil => simp
  | cons ov ovs ih =>
    rw [List.foldl_cons, ih]
    by_cases h : overrideMatches ov op = true
    · simp only [h, if_true, SortedSet.mem_extend, List.mem_cons, exists_eq_or_imp, true_and]
      tauto
    · simp [h]

/-- The scope is required of the operation: by an override that matches it. -/
def Demands (policy : Policy) (op : OperationInfo) (s : String) : Prop :=
  ∃ ov ∈ policy.overrides, overrideMatches ov op = true ∧ s ∈ ov.requireScopes

lemma mem_requiredScopes {c : Classification} {policy : Policy} {s : String} :
    s ∈ (requiredScopes c policy).toList ↔
      s = baseScope c.scope ∨ ∃ op ∈ c.operations, Demands policy op s := by
  have key : ∀ (ops : List OperationInfo) (required : SortedSet String),
      s ∈ (ops.foldl (fun required op => policy.overrides.foldl (fun required ov =>
          if overrideMatches ov op then required.extend ov.requireScopes else required)
          required) required).toList ↔
        s ∈ required.toList ∨ ∃ op ∈ ops, Demands policy op s := by
    intro ops
    induction ops with
    | nil => simp
    | cons op ops ih =>
      intro required
      rw [List.foldl_cons, ih, mem_foldl_overrides]
      simp only [List.mem_cons, exists_eq_or_imp]
      exact or_assoc
  rw [requiredScopes, key]
  simp

/-- The request is authorized. -/
def Authorized (p : Principal) (c : Classification) (policy : Policy) : Prop :=
  ∃ required, authorize p c policy = .ok required

/-- **A request is authorized exactly when everything required is satisfied.** -/
lemma authorized_iff {p : Principal} {c : Classification} {policy : Policy} :
    Authorized p c policy ↔ p.satisfies (baseScope c.scope) = true ∧
      ∀ op ∈ c.operations, ∀ s, Demands policy op s → p.satisfies s = true := by
  have h : Authorized p c policy ↔
      ∀ s ∈ (requiredScopes c policy).toList, p.satisfies s = true := by
    unfold Authorized authorize
    simp only [List.isEmpty_iff, List.filter_eq_nil_iff, Bool.not_eq_true', Bool.not_eq_false]
    split_ifs with h
    · exact iff_of_true ⟨_, rfl⟩ h
    · exact iff_of_false (by rintro ⟨_, h'⟩; cases h') h
  rw [h]
  refine ⟨?_, ?_⟩
  · intro h
    exact ⟨h _ (mem_requiredScopes.mpr (.inl rfl)),
      fun op hop s hs => h s (mem_requiredScopes.mpr (.inr ⟨op, hop, hs⟩))⟩
  · rintro ⟨hb, ho⟩ s hs
    rcases mem_requiredScopes.mp hs with rfl | ⟨op, hop, hd⟩
    · exact hb
    · exact ho op hop s hd

/-! ### Scopes held -/

/-- The fine-grained rule: `write` satisfies `read`. -/
lemma satisfies_read_of_write {p : Principal} (h : p.satisfies "write" = true) :
    p.satisfies "read" = true := by
  have hw : "write" ∈ p.scopes := by
    unfold Principal.satisfies at h
    split_ifs at h with hm
    · exact hm
    · simp at h
  unfold Principal.satisfies
  split_ifs
  · rfl
  · simp [hw]

/-- A satisfied base scope satisfies every scope below it. -/
lemma satisfies_baseScope_mono {p : Principal} {s t : Scope} (hst : s ≤ t)
    (h : p.satisfies (baseScope t) = true) : p.satisfies (baseScope s) = true := by
  cases s <;> cases t
  · exact h
  · exact satisfies_read_of_write h
  · exact absurd hst (by decide)
  · exact h

lemma satisfies_reader {name : String} {s : String} :
    (Principal.new name ["read"]).satisfies s = true ↔ s = "read" := by
  simp [Principal.satisfies, Principal.new]

lemma overrideMatches_iff {ov : Override} {op : OperationInfo} :
    overrideMatches ov op = true ↔ (ov.field.isSome ∨ ov.operation.isSome) ∧
      (∀ f, ov.field = some f → f ∈ op.topLevelFields) ∧
      (∀ o, ov.operation = some o → op.name = some o) := by
  obtain ⟨field, operation, scopes⟩ := ov
  cases field <;> cases operation <;> simp [overrideMatches]

end GatewayAuth.Authz
