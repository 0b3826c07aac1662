import GatewayAuth.Lib.Lines
import GatewayAuth.Lib.Runs
import GatewayAuth.Lib.Utf8
import GatewayAuth.Audit
import GatewayAuth.Jwt

/-!
The audit file: one line for each record, appended under a lock.

A write that fails on the way leaves what it has written, and the next record is written right
after it.
-/

namespace GatewayAuth.AuditFile

open GatewayAuth.Lib.Lines GatewayAuth.Lib.Runs GatewayAuth.Lib.Utf8
open GatewayAuth.JsonBody GatewayAuth.Classify GatewayAuth.Jwt GatewayAuth.Audit

/-! ### The line of a record -/

def scopeName : Scope → String
  | .read => "read"
  | .write => "write"

def kindName : OperationKind → String
  | .query => "query"
  | .mutation => "mutation"
  | .subscription => "subscription"

def Outcome.members : Outcome → List (String × Json)
  | .allowed => [("outcome", .str "allowed")]
  | .authFailed reason => [("outcome", .str "auth_failed"), ("reason", .str reason)]
  | .denied reason => [("outcome", .str "denied"), ("reason", .str reason)]
  | .rejected reason => [("outcome", .str "rejected"), ("reason", .str reason)]
  | .rateLimited => [("outcome", .str "rate_limited")]

/-- An optional field, left out when absent. -/
def optMember (key : String) (v : Option Json) : List (String × Json) :=
  v.toList.map fun v => (key, v)

/-- A list field, left out when empty. -/
def listMember (key : String) (vs : List String) : List (String × Json) :=
  if vs.isEmpty then [] else [(key, .arr (vs.map .str))]

/-- The members of a record in order, those of the outcome among them. -/
def recordJson (r : AuditRecord) : Json :=
  .obj ([("timestamp", .str r.timestamp), ("principal", .str r.principal)] ++
    optMember "source_ip" (r.sourceIp.map .str) ++
    optMember "scope" (r.scope.map fun s => .str (scopeName s)) ++
    optMember "operation_name" (r.operationName.map .str) ++
    listMember "operation_kinds" (r.operationKinds.map kindName) ++
    listMember "top_level_fields" r.topLevelFields ++
    optMember "variables_hash" (r.variablesHash.map .str) ++
    optMember "variables" r.rawVariables ++
    Outcome.members r.outcome ++
    optMember "upstream_status" (r.upstreamStatus.map fun n => .num (.posInt n)) ++
    optMember "latency_ms" (r.latencyMs.map fun n => .num (.posInt n)))

variable (toText : Json → Except String String)

/-- Serialise to a single-line JSON string, `toText` being the JSON writer. -/
def toJsonLine (r : AuditRecord) : String :=
  match toText (recordJson r) with
  | .ok line => line
  | .error _ => "\x7b\"audit\":\"serialize_error\"\x7d"

/-! ### Writing -/

def newline : UInt8 := 10

/-- What a call of `write` does with the bytes it is given: it takes some of them, or is
interrupted before it has taken any, or takes some and reports an error. -/
inductive WriteCall
  | wrote (n : ℕ)
  | interrupted
  | failed (n : ℕ) (e : String)

/-- The bytes that have been appended, the calls that are left, and the result. -/
structure Written where
  bytes : Bytes
  calls : List WriteCall
  result : Except String Unit

/-- Write again what is left until nothing is, or a call fails or takes nothing. A call beyond the
list takes all it is given. -/
def writeAll : List WriteCall → Bytes → Written
  | calls, [] => ⟨[], calls, .ok ()⟩
  | [], buf => ⟨buf, [], .ok ()⟩
  | .interrupted :: calls, buf => writeAll calls buf
  | .wrote 0 :: calls, _ => ⟨[], calls, .error "failed to write whole buffer"⟩
  | .wrote (n + 1) :: calls, buf =>
    let w := writeAll calls (buf.drop (n + 1))
    { w with bytes := buf.take (n + 1) ++ w.bytes }
  | .failed n e :: calls, buf => ⟨buf.take n, calls, .error e⟩

/-- The text is written, and then the newline. -/
def writeln (calls : List WriteCall) (text : Bytes) : Written :=
  let w := writeAll calls text
  match w.result with
  | .error _ => w
  | .ok _ =>
    let w' := writeAll w.calls [newline]
    { w' with bytes := w.bytes ++ w'.bytes }

/-- A call of `emit`: the record, and how the calls of `write` go that it makes. -/
structure Emission where
  record : AuditRecord
  calls : List WriteCall

def Emission.text (e : Emission) : Bytes := asBytes (toJsonLine toText e.record)

def Emission.written (e : Emission) : Written := writeln e.calls (e.text toText)

/-- The error that is logged, if the record could not be written. -/
def Emission.logged (e : Emission) : Option String :=
  match (e.written toText).result with
  | .ok _ => none
  | .error err => some err

def Emission.Succeeds (e : Emission) : Prop := e.logged toText = none

/-- The file after the emission: it is in append mode, and locked meanwhile. -/
def emit (file : Bytes) (e : Emission) : Bytes := file ++ (e.written toText).bytes

/-- The file after emissions of any threads, in the order in which they had the lock. -/
abbrev fileAfter (initial : Bytes) (es : List Emission) : Bytes := run (emit toText) initial es

/-- The text of every value is one line. -/
def SingleLine : Prop := ∀ v line, toText v = .ok line → newline ∉ asBytes line

/-! ### One emission -/

lemma writeAll_ok {calls : List WriteCall} {buf : Bytes}
    (h : (writeAll calls buf).result = .ok ()) : (writeAll calls buf).bytes = buf := by
  fun_induction writeAll calls buf with
  | case1 calls => rfl
  | case2 buf => rfl
  | case3 buf calls hbuf ih => exact ih h
  | case4 buf calls hbuf => cases h
  | case5 buf n calls hbuf w ih =>
    simp only [w] at ih ⊢
    rw [ih h, List.take_append_drop]
  | case6 buf n e calls hbuf => cases h

/-- **An emission that reports no error has appended its line.** -/
lemma written_ok {toText : Json → Except String String} {e : Emission} (h : e.Succeeds toText) :
    (e.written toText).bytes = e.text toText ++ [newline] := by
  have hresult : (e.written toText).result = .ok () := by
    unfold Emission.Succeeds Emission.logged at h
    rcases hw : (e.written toText).result with err | u
    · rw [hw] at h
      cases h
    · rfl
  unfold Emission.written writeln at hresult ⊢
  simp only at hresult ⊢
  rcases htext : (writeAll e.calls (e.text toText)).result with err | u
  · simp only [htext] at hresult
    cases hresult
  · simp only [htext] at hresult ⊢
    rw [writeAll_ok htext, writeAll_ok hresult]

/-- With nothing in the way, a record is written. -/
lemma succeeds_nil (toText : Json → Except String String) (r : AuditRecord) :
    (⟨r, []⟩ : Emission).Succeeds toText := by
  have hall : ∀ buf, writeAll [] buf = ⟨buf, [], .ok ()⟩ := by
    intro buf
    cases buf <;> rfl
  simp [Emission.Succeeds, Emission.logged, Emission.written, writeln, hall]

variable {toText} {initial : Bytes} {es past rest : List Emission} {e : Emission}

/-- A text of ASCII characters other than the newline is one line. -/
lemma newline_notMem {s : String} (h : (s.toList.all fun c =>
    decide (c.toNat < 128) && c.toNat.toUInt8 != newline) = true) : newline ∉ asBytes s := by
  have hchars : ∀ c ∈ s.toList, c.toNat < 128 ∧ c.toNat.toUInt8 ≠ newline := by
    intro c hc
    simpa using List.all_eq_true.mp h c hc
  rw [asBytes, toUTF8_ascii fun c hc => (hchars c hc).1]
  intro hmem
  obtain ⟨c, hc, heq⟩ := List.mem_map.mp hmem
  exact (hchars c hc).2 heq

lemma text_plain (hline : SingleLine toText) (e : Emission) : newline ∉ e.text toText := by
  unfold Emission.text toJsonLine
  rcases htext : toText (recordJson e.record) with err | line
  · have hfallback : newline ∉ asBytes "\x7b\"audit\":\"serialize_error\"\x7d" :=
      newline_notMem (by decide)
    exact hfallback
  · exact hline _ _ htext

/-! ### Every run -/

/-- The bytes that these emissions append, one piece for each. -/
def pieces (toText : Json → Except String String) (es : List Emission) : List Bytes :=
  es.map fun e => (e.written toText).bytes

lemma fileAfter_eq (initial : Bytes) (es : List Emission) :
    fileAfter toText initial es = initial ++ (pieces toText es).flatten := by
  induction es generalizing initial with
  | nil => simp [pieces]
  | cons e es ih =>
    rw [fileAfter, run_cons, ← fileAfter, ih, emit, List.append_assoc]
    rfl

/-- Every emission that reports no error has its line in the file: the lines are those that were
there before it, then the text of its record, then those of the emissions after it. -/
def Intact (toText : Json → Except String String) (initial : Bytes) (es : List Emission) : Prop :=
  ∀ past e rest, es = past ++ e :: rest → e.Succeeds toText →
    lines newline (fileAfter toText initial es) =
      lines newline (fileAfter toText initial past) ++
        e.text toText :: lines newline (pieces toText rest).flatten

/-- The last that was left in the file, on opening or by an emission, is part of a line. -/
def Torn (toText : Json → Except String String) (initial : Bytes) (past : List Emission) : Prop :=
  ∃ before piece after, initial :: pieces toText past = before ++ piece :: after ∧
    piece ≠ [] ∧ piece.getLast? ≠ some newline ∧ ∀ p ∈ after, p = []

lemma torn_iff : Torn toText initial past ↔
    leftover newline (fileAfter toText initial past) ≠ [] := by
  have hflatten : fileAfter toText initial past = (initial :: pieces toText past).flatten := by
    rw [fileAfter_eq, List.flatten_cons]
  rw [hflatten, leftover_flatten_ne_nil]
  unfold Torn
  simp only [ne_eq, leftover_eq_nil_iff, not_or, and_assoc]

/-- The file at the end, around an emission that reports no error. -/
lemma lines_around (hline : SingleLine toText) (hes : es = past ++ e :: rest)
    (he : e.Succeeds toText) : lines newline (fileAfter toText initial es) =
      lines newline (fileAfter toText initial past) ++
        (leftover newline (fileAfter toText initial past) ++ e.text toText) ::
          lines newline (pieces toText rest).flatten := by
  have hfile : fileAfter toText initial es = fileAfter toText initial past ++ e.text toText ++
      newline :: (pieces toText rest).flatten := by
    rw [fileAfter_eq, fileAfter_eq, hes, pieces, List.map_append, List.map_cons, written_ok he]
    simp [pieces]
  rw [hfile, lines_append_line (text_plain hline e)]

/-- Its line is in its place when nothing was torn before it. -/
lemma line_iff (hline : SingleLine toText) (hes : es = past ++ e :: rest)
    (he : e.Succeeds toText) :
    lines newline (fileAfter toText initial es) =
        lines newline (fileAfter toText initial past) ++
          e.text toText :: lines newline (pieces toText rest).flatten ↔
      ¬Torn toText initial past := by
  rw [lines_around hline hes he, torn_iff, not_not, List.append_cancel_left_eq, List.cons.injEq,
    and_iff_left rfl]
  exact List.append_left_eq_self

/-- The texts of the records that were reported written, in order. -/
def succeeded (toText : Json → Except String String) (es : List Emission) : List Bytes :=
  (es.filter fun e => (e.logged toText).isNone).map (Emission.text toText)

lemma succeeded_sublist (hline : SingleLine toText) (h : ∀ past e rest, es = past ++ e :: rest →
    e.Succeeds toText → ¬Torn toText initial past) :
    (succeeded toText es).Sublist (lines newline (fileAfter toText initial es)) := by
  induction es using List.reverseRecOn with
  | nil => exact List.nil_sublist _
  | append_singleton past e ih =>
    have hpast := ih fun past' e' rest hes => h past' e' (rest ++ [e]) (by simp [hes])
    unfold succeeded at hpast ⊢
    rw [List.filter_append, List.map_append]
    by_cases he : e.Succeeds toText
    · rw [(line_iff hline rfl he).mpr (h past e [] rfl he),
        List.filter_cons_of_pos (by simpa [Emission.Succeeds] using he)]
      exact hpast.append (List.Sublist.refl _)
    · rw [List.filter_cons_of_neg (by simpa [Emission.Succeeds] using he)]
      have hfile : fileAfter toText initial (past ++ [e]) =
          fileAfter toText initial past ++ (e.written toText).bytes := by
        rw [fileAfter_eq, fileAfter_eq, pieces, List.map_append]
        simp [pieces]
      rw [hfile, List.filter_nil, List.map_nil, List.append_nil]
      exact hpast.trans (lines_append _ _).sublist

/-- **The records are intact as long as nothing is torn before one.** In every run, each emission
that reports no error has its line in the file, at its place, if and only if none of them comes
when the last that was left in the file is part of a line; and then the records that were reported
written are among the lines in the order in which they were emitted. -/
theorem intact_iff (toText : Json → Except String String) (hline : SingleLine toText)
    (initial : Bytes) (es : List Emission) :
    (Intact toText initial es ↔
      ∀ past e rest, es = past ++ e :: rest → e.Succeeds toText → ¬Torn toText initial past) ∧
    (Intact toText initial es →
      (succeeded toText es).Sublist (lines newline (fileAfter toText initial es))) := by
  have hiff : Intact toText initial es ↔ ∀ past e rest, es = past ++ e :: rest →
      e.Succeeds toText → ¬Torn toText initial past := by
    unfold Intact
    refine forall_congr' fun past => forall_congr' fun e => forall_congr' fun rest =>
      forall_congr' fun hes => forall_congr' fun he => line_iff hline hes he
  exact ⟨hiff, fun h => succeeded_sublist hline (hiff.mp h)⟩

/-! ### An example: one record, written twice -/

def exampleRecord : AuditRecord where
  timestamp := "2026-06-01T12:00:00+00:00"
  principal := "-"
  sourceIp := none
  scope := none
  operationName := none
  operationKinds := []
  topLevelFields := []
  variablesHash := none
  rawVariables := none
  outcome := .allowed
  upstreamStatus := none
  latencyMs := none

def exampleLine : String :=
  "\x7b\"timestamp\":\"2026-06-01T12:00:00+00:00\",\"principal\":\"-\",\"outcome\":\"allowed\"\x7d"

/-- The writer, for this record alone. -/
def exampleText (_ : Json) : Except String String := .ok exampleLine

lemma singleLine_example : SingleLine exampleText := by
  intro v line h
  cases h
  exact newline_notMem (by decide +kernel)

/-- The disk is full before the first byte of the record. -/
def refused : Emission := ⟨exampleRecord, [.failed 0 "No space left on device (os error 28)"]⟩

lemma written_refused : ¬refused.Succeeds exampleText ∧
    (refused.written exampleText).bytes = [] := by
  have hfailed : ∀ buf : Bytes, buf ≠ [] → ∀ e,
      writeln [.failed 0 e] buf = ⟨[], [], .error e⟩ := by
    intro buf hbuf e
    cases buf with
    | nil => exact absurd rfl hbuf
    | cons b buf => rfl
  have hne : asBytes exampleLine ≠ [] := toUTF8_ne_nil (by decide +kernel)
  have hwritten : refused.written exampleText =
      ⟨[], [], .error "No space left on device (os error 28)"⟩ := hfailed _ hne _
  refine ⟨?_, by rw [hwritten]⟩
  simp [Emission.Succeeds, Emission.logged, hwritten]

/-- When there is space again, the record that is reported written is the line of the file. -/
theorem intact_iff_written :
    ¬refused.Succeeds exampleText ∧ (⟨exampleRecord, []⟩ : Emission).Succeeds exampleText ∧
      lines newline (fileAfter exampleText [] [refused, ⟨exampleRecord, []⟩]) =
        [asBytes exampleLine] := by
  obtain ⟨hrefused, hnothing⟩ := written_refused
  have he := succeeds_nil exampleText exampleRecord
  have hempty : fileAfter exampleText [] [refused] = [] := by
    rw [fileAfter_eq]
    simp [pieces, hnothing]
  have hintact : Intact exampleText [] [refused, ⟨exampleRecord, []⟩] := by
    refine (intact_iff exampleText singleLine_example [] _).1.mpr ?_
    intro past e rest hes hsucceeds
    rw [torn_iff, not_not]
    rcases past with _ | ⟨first, _ | ⟨second, past⟩⟩
    · rfl
    · obtain ⟨rfl, -⟩ := List.cons.inj hes
      rw [hempty]
      rfl
    · simp at hes
  have hlines := hintact [refused] ⟨exampleRecord, []⟩ [] rfl he
  rw [hempty] at hlines
  exact ⟨hrefused, he, hlines⟩

/-- The disk is full after twelve bytes of the record. -/
def fullDisk : Emission :=
  ⟨exampleRecord, [.failed 12 "No space left on device (os error 28)"]⟩

lemma written_fullDisk : asBytes exampleLine ≠ [] ∧
    (fullDisk.written exampleText).bytes = (asBytes exampleLine).take 12 := by
  have hne : asBytes exampleLine ≠ [] := toUTF8_ne_nil (by decide +kernel)
  have hfailed : ∀ buf : Bytes, buf ≠ [] →
      ∀ e, (writeln [.failed 12 e] buf).bytes = buf.take 12 := by
    intro buf hbuf e
    cases buf with
    | nil => exact absurd rfl hbuf
    | cons b buf => rfl
  exact ⟨hne, hfailed _ hne _⟩

lemma torn_fullDisk : Torn exampleText [] [fullDisk] := by
  obtain ⟨hne, hbytes⟩ := written_fullDisk
  refine ⟨[[]], (asBytes exampleLine).take 12, [], by simp [pieces, hbytes], ?_, ?_, by simp⟩
  · simpa using hne
  · intro hlast
    have hmem := List.take_subset _ _ (List.mem_of_getLast? hlast)
    exact singleLine_example .null exampleLine rfl hmem

/-- When there is space again, the record that is reported written is not a line of the file. -/
theorem torn_record_spoils :
    (⟨exampleRecord, []⟩ : Emission).Succeeds exampleText ∧
      asBytes exampleLine ∉
        lines newline (fileAfter exampleText [] [fullDisk, ⟨exampleRecord, []⟩]) ∧
      ¬Intact exampleText [] [fullDisk, ⟨exampleRecord, []⟩] := by
  have he := succeeds_nil exampleText exampleRecord
  have hplain : newline ∉ fileAfter exampleText [] [fullDisk] := by
    rw [fileAfter_eq, pieces, List.map_singleton, List.flatten_singleton, List.nil_append,
      written_fullDisk.2]
    exact fun h => singleLine_example .null exampleLine rfl (List.take_subset _ _ h)
  have hes : [fullDisk, ⟨exampleRecord, []⟩] =
      [fullDisk] ++ (⟨exampleRecord, []⟩ : Emission) :: [] := rfl
  have hlines : lines newline (fileAfter exampleText [] [fullDisk, ⟨exampleRecord, []⟩]) =
      lines newline (fileAfter exampleText [] [fullDisk]) ++
        [leftover newline (fileAfter exampleText [] [fullDisk]) ++ asBytes exampleLine] :=
    lines_around singleLine_example hes he
  refine ⟨he, fun hmem => ?_, fun h => ?_⟩
  · rw [hlines, lines_eq_nil hplain] at hmem
    have hline := List.mem_singleton.mp hmem
    exact torn_iff.mp torn_fullDisk (List.append_left_eq_self.mp hline.symm)
  · exact (line_iff singleLine_example hes he).mp (h _ _ _ hes he) torn_fullDisk

end GatewayAuth.AuditFile
