import GatewayAuth.Classify

/-!
Audit records: who did what, to which operation, with what outcome, and how the upstream
responded.
-/

namespace GatewayAuth.Audit

open GatewayAuth.JsonBody GatewayAuth.Classify

/-- The outcome of a request, as seen by the audit trail. -/
inductive Outcome
  | allowed
  | authFailed (reason : String)
  | denied (reason : String)
  | rejected (reason : String)
  | rateLimited
  deriving DecidableEq

/-- One audit record. -/
structure AuditRecord where
  timestamp : String
  principal : String
  sourceIp : Option String
  scope : Option Scope
  operationName : Option String
  operationKinds : List OperationKind
  topLevelFields : List String
  variablesHash : Option String
  rawVariables : Option Json
  outcome : Outcome
  upstreamStatus : Option ℕ
  latencyMs : Option ℕ

/-- The first operation of a classification that has a name. -/
def firstOpName (c : Classification) : Option String := c.operations.findSome? OperationInfo.name

def topFields (c : Classification) : List String := c.operations.flatMap OperationInfo.topLevelFields

def operationKinds (c : Classification) : List OperationKind := c.operations.map OperationInfo.kind

/-- Pull request variables for audit fingerprinting, from a single request or a batch. -/
def extractVariables (x : Readers) (body : Bytes) : Option Json :=
  match x.fromSlice body with
  | .ok (.obj members) => lookup "variables" members
  | .ok (.arr items) =>
    let vars := items.filterMap fun item => item.get? "variables"
    if vars.isEmpty then none else some (.arr vars)
  | _ => none

end GatewayAuth.Audit
