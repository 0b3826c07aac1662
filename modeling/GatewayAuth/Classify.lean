import Mathlib.Algebra.GroupWithZero.Nat
import Mathlib.Order.Lattice
import Mathlib.Order.Basic
import GatewayAuth.Document
import GatewayAuth.JsonBody

/-!
GraphQL operation classification.

Whether a request is a read or a write is decided from the structure of the document alone.
An operation whose root type is a mutation is a write, and a body takes the highest scope of
the operations that could execute.
-/

namespace GatewayAuth.Classify

open GatewayAuth.Document GatewayAuth.JsonBody

abbrev Bytes := List UInt8

/-- The parsers the gateway calls: JSON text to a buffered value, and GraphQL text to a
document. A failure carries its message. Of a text that goes on behind its value, `leading` is the
value. -/
structure Readers where
  fromSlice : Bytes → Except String Json
  parseQuery : String → Except String ExecutableDocument
  leading : Bytes → Option Json := fun _ => none

/-- How deep arrays and objects may be nested for the JSON reader. -/
def recursionLimit : ℕ := 127

/-- The text is one of this value: it is read as the value, or refused because the value is nested
too deep. -/
structure TextOf (x : Readers) (body : Bytes) (v : Json) : Prop where
  read : v.depth ≤ recursionLimit → x.fromSlice body = .ok v
  refused : recursionLimit < v.depth → ∃ e, x.fromSlice body = .error e

lemma TextOf.read_iff {x : Readers} {body : Bytes} {v v' : Json} (h : TextOf x body v) :
    x.fromSlice body = .ok v' ↔ v' = v ∧ v.depth ≤ recursionLimit := by
  by_cases hdepth : v.depth ≤ recursionLimit
  · rw [h.read hdepth, Except.ok.injEq, and_iff_left hdepth, eq_comm]
  · obtain ⟨e, he⟩ := h.refused (by omega)
    simp [he, hdepth]

lemma textOf_read {x : Readers} {body : Bytes} {v : Json} (hv : x.fromSlice body = .ok v)
    (hdepth : v.depth ≤ recursionLimit) : TextOf x body v :=
  ⟨fun _ => hv, fun hlt => absurd hdepth (by omega)⟩

/-- The permission tier an operation demands. `write` strictly outranks `read`. -/
inductive Scope
  | read
  | write
  deriving DecidableEq

def Scope.rank : Scope → ℕ
  | .read => 0
  | .write => 1

instance : LinearOrder Scope :=
  LinearOrder.lift' Scope.rank fun a b h => by cases a <;> cases b <;> simp_all [Scope.rank]

/-- The GraphQL root operation kind, retained for audit records. -/
inductive OperationKind
  | query
  | mutation
  | subscription
  deriving DecidableEq

def OperationKind.ofType : OperationType → OperationKind
  | .query => .query
  | .mutation => .mutation
  | .subscription => .subscription

/-- The scope this operation kind demands. -/
def OperationKind.scope : OperationKind → Scope
  | .mutation => .write
  | .query | .subscription => .read

/-- One classified operation from the request document. -/
structure OperationInfo where
  name : Option String
  kind : OperationKind
  topLevelFields : List String
  deriving DecidableEq

def OperationInfo.scope (o : OperationInfo) : Scope := o.kind.scope

/-- The result of classifying a (possibly batched) request body. -/
structure Classification where
  operations : List OperationInfo
  scope : Scope
  deriving DecidableEq

/-- Why a body could not be classified. -/
inductive ClassifyError
  | invalidJson (e : String)
  | empty
  | graphqlParse (e : String)
  deriving DecidableEq

def ClassifyError.message : ClassifyError → String
  | .invalidJson e => "request body is not valid JSON: " ++ e
  | .empty => "request contains no GraphQL operation"
  | .graphqlParse e => "GraphQL document failed to parse: " ++ e

/-! ### The fields at the root of an operation -/

/-- The fields collected and the fragments visited. -/
structure Walk where
  out : List String
  visited : List String
  deriving DecidableEq

def Walk.push (w : Walk) (name : String) : Walk :=
  if name ∈ w.out then w else { w with out := w.out ++ [name] }

def Walk.visit (w : Walk) (name : String) : Walk := { w with visited := name :: w.visited }

/-- One selection, `descend` being the nested call. A fragment is entered the first time its
name is met, also an undefined one, which adds nothing. -/
def walkItem (fragments : Fragments) (descend : SelectionSet → Walk → Option Walk) (w : Walk) :
    Selection → Option Walk
  | .field _ name _ => some (w.push name)
  | .fragmentSpread name =>
    if name ∈ w.visited then some w
    else
      match fragments.lookup name with
      | some frag => descend frag.selectionSet (w.visit name)
      | none => some (w.visit name)
  | .inlineFragment s => descend s w

/-- The walk over a selection set with at most `k` nested calls; `none` when it needs
more. -/
def collectTopFieldsWithin (fragments : Fragments) : ℕ → SelectionSet → Walk → Option Walk
  | 0, _, _ => none
  | k + 1, set, w => set.foldlM (walkItem fragments (collectTopFieldsWithin fragments k)) w

mutual

/-- The nested calls a selection needs for its inline fragments. -/
def itemDepth : Selection → ℕ
  | .field _ _ _ => 0
  | .fragmentSpread _ => 0
  | .inlineFragment s => setDepth s

/-- The nested calls a selection set needs, its fragment spreads left out. -/
def setDepth : List Selection → ℕ
  | [] => 1
  | item :: set => max (itemDepth item + 1) (setDepth set)

end

/-- Nested calls enough for the walk: each fragment is entered at most once. -/
def callLimit (fragments : Fragments) (set : SelectionSet) : ℕ :=
  setDepth set + (fragments.entries.map fun e => setDepth e.2.selectionSet).sum

def collectTopFields (fragments : Fragments) (set : SelectionSet) : List String :=
  match collectTopFieldsWithin fragments (callLimit fragments set) set ⟨[], []⟩ with
  | some w => w.out
  | none => []

/-! ### Classification of a body -/

/-- The operations the request selects: all of them without an operation name. -/
def matched (doc : ExecutableDocument) (selected : Option String) :
    List (Option String × OperationDefinition) :=
  doc.operations.iter.filter fun op =>
    match selected with
    | some sel => op.1 == some sel
    | none => true

/-- The operations that could execute. If `operationName` names one, only it runs; if it
names one that is absent, all of them count. -/
def toClassify (doc : ExecutableDocument) (selected : Option String) :
    List (Option String × OperationDefinition) :=
  if (matched doc selected).isEmpty then doc.operations.iter else matched doc selected

def operationInfo (doc : ExecutableDocument) (op : Option String × OperationDefinition) :
    OperationInfo where
  name := op.1
  kind := .ofType op.2.ty
  topLevelFields := collectTopFields doc.fragments op.2.selectionSet

variable (x : Readers)

/-- The operations of one request. -/
def classifyRequestOperations (req : GraphQLRequest) :
    Except ClassifyError (List OperationInfo) :=
  match x.parseQuery req.query with
  | .error e => .error (.graphqlParse e)
  | .ok doc =>
    let ops := toClassify doc req.operationName
    if ops.isEmpty then .error .empty else .ok (ops.map (operationInfo doc))

/-- The operations of the requests, in order, up to the first failure. -/
def collectOperations : List GraphQLRequest → Except ClassifyError (List OperationInfo)
  | [] => .ok []
  | req :: reqs =>
    match classifyRequestOperations x req with
    | .error e => .error e
    | .ok ops =>
      match collectOperations reqs with
      | .error e => .error e
      | .ok rest => .ok (ops ++ rest)

/-- The highest scope present. -/
def maxScope (ops : List OperationInfo) : Scope := ((ops.map OperationInfo.scope).max?).getD .read

def noVariant : String := "data did not match any variant of untagged enum RawBody"

/-- The error of a body that is not read. Its value is tried as a request before what is behind
it. -/
def readError (body : Bytes) (e : String) : String :=
  match x.leading body with
  | some v => if (RawBody.deserialize v).isNone then noVariant else e
  | none => e

/-- Classify a raw request body into its effective scope and per-operation detail. -/
def classify (body : Bytes) : Except ClassifyError Classification :=
  match x.fromSlice body with
  | .error e => .error (.invalidJson (readError x body e))
  | .ok v =>
    match RawBody.deserialize v with
    | none => .error (.invalidJson noVariant)
    | some raw =>
      if raw.requests.isEmpty then .error .empty
      else
        match collectOperations x raw.requests with
        | .error e => .error e
        | .ok operations =>
          if operations.isEmpty then .error .empty
          else .ok ⟨operations, maxScope operations⟩

end GatewayAuth.Classify
