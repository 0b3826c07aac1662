import Mathlib.Data.List.AList

/-!
Parsed GraphQL documents, as far as the gateway reads them.

Named operations and fragments are maps. A map is an association list without a repeated
key, in the order in which iteration presents it.
-/

namespace GatewayAuth.Document

/-- A selection. The selection set of a field is kept though no one descends into it. -/
inductive Selection
  | field (responseAlias : Option String) (name : String) (selectionSet : List Selection)
  | fragmentSpread (fragmentName : String)
  | inlineFragment (selectionSet : List Selection)

abbrev SelectionSet := List Selection

inductive OperationType
  | query
  | mutation
  | subscription
  deriving DecidableEq

structure OperationDefinition where
  ty : OperationType
  selectionSet : SelectionSet

structure FragmentDefinition where
  selectionSet : SelectionSet

abbrev Fragments := AList fun _ : String => FragmentDefinition

/-- One anonymous operation, or named ones. The parser refuses a document without an
operation. -/
inductive DocumentOperations
  | single (op : OperationDefinition)
  | multiple (ops : AList fun _ : String => OperationDefinition) (some_op : ops.entries ≠ [])

structure ExecutableDocument where
  operations : DocumentOperations
  fragments : Fragments

def DocumentOperations.iter : DocumentOperations → List (Option String × OperationDefinition)
  | .single op => [(none, op)]
  | .multiple ops _ => ops.entries.map fun e => (some e.1, e.2)

lemma DocumentOperations.iter_ne_nil (ops : DocumentOperations) : ops.iter ≠ [] := by
  cases ops with
  | single op => simp [iter]
  | multiple ops h => simpa [iter] using h

/-! ### What an operation selects at its root -/

/-- `n` is the name of a field selected at the root of `set`: directly, or through inline
fragments and defined fragment spreads at any depth. -/
inductive RootField (fragments : Fragments) : SelectionSet → String → Prop
  | field {set : SelectionSet} {a : Option String} {n : String} {s : SelectionSet} :
      Selection.field a n s ∈ set → RootField fragments set n
  | inlineFragment {set s : SelectionSet} {n : String} :
      Selection.inlineFragment s ∈ set → RootField fragments s n → RootField fragments set n
  | fragmentSpread {set : SelectionSet} {f n : String} {frag : FragmentDefinition} :
      Selection.fragmentSpread f ∈ set → fragments.lookup f = some frag →
      RootField fragments frag.selectionSet n → RootField fragments set n

lemma RootField.mono {fragments : Fragments} {set set' : SelectionSet} (h : set ⊆ set') {n : String}
    (hn : RootField fragments set n) : RootField fragments set' n := by
  cases hn with
  | field hm => exact .field (h hm)
  | inlineFragment hm hr => exact .inlineFragment (h hm) hr
  | fragmentSpread hm hl hr => exact .fragmentSpread (h hm) hl hr

/-! ### The operation a server executes -/

/-- The operation selected by the GraphQL specification: without a name the only operation
of the document, with a name the operation of that name. -/
def getOperation (ops : DocumentOperations) (operationName : Option String) :
    Option (Option String × OperationDefinition) :=
  match operationName with
  | none =>
    match ops.iter with
    | [op] => some op
    | _ => none
  | some n => ops.iter.find? fun op => op.1 == some n

lemma getOperation_mem {ops : DocumentOperations} {n : Option String}
    {op : Option String × OperationDefinition} (h : getOperation ops n = some op) :
    op ∈ ops.iter := by
  cases n with
  | none =>
    simp only [getOperation] at h
    split at h
    · next o ho => cases h; simp [ho]
    · cases h
  | some n => exact List.mem_of_find?_eq_some h

lemma getOperation_some {ops : DocumentOperations} {n : String}
    {op : Option String × OperationDefinition} (h : getOperation ops (some n) = some op) :
    op.1 = some n := by
  simpa [getOperation] using List.find?_some h

lemma getOperation_none {ops : DocumentOperations} {op : Option String × OperationDefinition}
    (h : getOperation ops none = some op) : ops.iter = [op] := by
  simp only [getOperation] at h
  split at h
  · next o ho => cases h; exact ho
  · cases h

end GatewayAuth.Document
