import GatewayAuth.AuditFile
import GatewayAuth.Fingerprint

/-!
What the audit file tells: a record is known from its line, and the records from the file.

The fields of a record have names of their own, so none can stand for another, and a line holds
no newline, so no text that a client chooses can end a record or begin one.
-/

namespace GatewayAuth.AuditText

open GatewayAuth.Lib.Lines GatewayAuth.Lib.Utf8
open GatewayAuth.JsonBody GatewayAuth.Classify GatewayAuth.Jwt GatewayAuth.Audit
open GatewayAuth.AuditFile GatewayAuth.Fingerprint

/-! ### A record from its members -/

lemma lookup_append (key : String) (ms ms' : List (String × Json)) :
    lookup key (ms ++ ms') = (lookup key ms').or (lookup key ms) := by
  induction ms with
  | nil => simp [lookup]
  | cons m ms ih => rw [List.cons_append, lookup_cons, lookup_cons, ih, Option.or_assoc]

lemma lookup_optMember (key name : String) (o : Option Json) :
    lookup key (optMember name o) = if name = key then o else none := by
  cases o with
  | none => simp [optMember, lookup]
  | some v => simp [optMember, lookup]

/-- The list that a field holds, none when it is empty. -/
def listValue (vs : List String) : Option Json :=
  if vs.isEmpty then none else some (.arr (vs.map .str))

lemma lookup_listMember (key name : String) (vs : List String) :
    lookup key (listMember name vs) = if name = key then listValue vs else none := by
  cases vs with
  | nil => simp [listMember, listValue, lookup]
  | cons v vs => simp [listMember, listValue, lookup]

/-- The name of an outcome, and its reason. -/
def outcomeName : Outcome → String
  | .allowed => "allowed"
  | .authFailed _ => "auth_failed"
  | .denied _ => "denied"
  | .rejected _ => "rejected"
  | .rateLimited => "rate_limited"

def reason : Outcome → Option String
  | .authFailed r | .denied r | .rejected r => some r
  | _ => none

lemma lookup_outcome (key : String) (o : Outcome) : lookup key (Outcome.members o) =
    if key = "outcome" then some (.str (outcomeName o))
    else if key = "reason" then (reason o).map .str else none := by
  cases o <;> simp only [Outcome.members, lookup_cons, outcomeName, reason] <;>
    by_cases h : key = "outcome" <;> by_cases h' : key = "reason" <;>
    simp_all [lookup, eq_comm]

/-- **Every field of a record is a member of its own.** -/
lemma get?_recordJson (r : AuditRecord) :
    (recordJson r).get? "timestamp" = some (.str r.timestamp) ∧
    (recordJson r).get? "principal" = some (.str r.principal) ∧
    (recordJson r).get? "source_ip" = r.sourceIp.map .str ∧
    (recordJson r).get? "scope" = r.scope.map (fun s => .str (scopeName s)) ∧
    (recordJson r).get? "operation_name" = r.operationName.map .str ∧
    (recordJson r).get? "operation_kinds" = listValue (r.operationKinds.map kindName) ∧
    (recordJson r).get? "top_level_fields" = listValue r.topLevelFields ∧
    (recordJson r).get? "variables_hash" = r.variablesHash.map .str ∧
    (recordJson r).get? "variables" = r.rawVariables ∧
    (recordJson r).get? "outcome" = some (.str (outcomeName r.outcome)) ∧
    (recordJson r).get? "reason" = (reason r.outcome).map .str ∧
    (recordJson r).get? "upstream_status" =
      r.upstreamStatus.map (fun n => .num (.posInt n)) ∧
    (recordJson r).get? "latency_ms" = r.latencyMs.map (fun n => .num (.posInt n)) := by
  have hget : ∀ key, (recordJson r).get? key = lookup key _ := fun _ => rfl
  simp only [hget, lookup_append, lookup_optMember, lookup_listMember, lookup_outcome, lookup_cons]
  simp [lookup]

lemma map_str_injective {o o' : Option String} (h : o.map Json.str = o'.map .str) : o = o' :=
  Option.map_injective (fun _ _ => Json.str.inj) h

lemma map_num_injective {o o' : Option ℕ}
    (h : o.map (fun n => Json.num (.posInt n)) = o'.map fun n => .num (.posInt n)) : o = o' :=
  Option.map_injective (fun _ _ heq => Number.posInt.inj (Json.num.inj heq)) h

lemma listValue_injective {vs vs' : List String} (h : listValue vs = listValue vs') :
    vs = vs' := by
  have hmap : ∀ {l l' : List String}, l.map Json.str = l'.map .str → l = l' :=
    fun heq => List.map_injective_iff.mpr (fun _ _ => Json.str.inj) heq
  unfold listValue at h
  rcases hvs : vs.isEmpty with _ | _
  · rcases hvs' : vs'.isEmpty with _ | _
    · simp only [hvs, hvs', Bool.false_eq_true, if_false, Option.some.injEq, Json.arr.injEq] at h
      exact hmap h
    · simp [hvs, hvs'] at h
  · rcases hvs' : vs'.isEmpty with _ | _
    · simp [hvs, hvs'] at h
    · rw [List.isEmpty_iff.mp hvs, List.isEmpty_iff.mp hvs']

lemma outcome_injective {o o' : Outcome} (hname : outcomeName o = outcomeName o')
    (hreason : reason o = reason o') : o = o' := by
  cases o <;> cases o' <;> simp_all [outcomeName, reason]

lemma scopeName_injective : Function.Injective fun s => Json.str (scopeName s) := by
  intro s s' h
  cases s <;> cases s' <;> simp_all [scopeName]

lemma kindName_injective : Function.Injective kindName := by
  intro k k' h
  cases k <;> cases k' <;> simp_all [kindName]

attribute [ext] AuditRecord

/-- **No two records have the same members.** -/
lemma recordJson_injective : Function.Injective recordJson := by
  intro r r' h
  have hr := get?_recordJson r
  rw [h] at hr
  obtain ⟨htimestamp, hprincipal, hip, hscope, hop, hkinds, htop, hhash, hvariables, houtcome,
    hreason, hstatus, hlatency⟩ := hr
  obtain ⟨htimestamp', hprincipal', hip', hscope', hop', hkinds', htop', hhash', hvariables',
    houtcome', hreason', hstatus', hlatency'⟩ := get?_recordJson r'
  have htimes := Json.str.inj (Option.some.inj (htimestamp.symm.trans htimestamp'))
  have hnames := Json.str.inj (Option.some.inj (hprincipal.symm.trans hprincipal'))
  have hips := map_str_injective (hip.symm.trans hip')
  have hscopes := Option.map_injective scopeName_injective (hscope.symm.trans hscope')
  have hops := map_str_injective (hop.symm.trans hop')
  have hkind := List.map_injective_iff.mpr kindName_injective
    (listValue_injective (hkinds.symm.trans hkinds'))
  have htops := listValue_injective (htop.symm.trans htop')
  have hhashes := map_str_injective (hhash.symm.trans hhash')
  have hvars := hvariables.symm.trans hvariables'
  have hout := outcome_injective (Json.str.inj (Option.some.inj (houtcome.symm.trans houtcome')))
    (map_str_injective (hreason.symm.trans hreason'))
  have hstatuses := map_num_injective (hstatus.symm.trans hstatus')
  have hlatencies := map_num_injective (hlatency.symm.trans hlatency')
  exact AuditRecord.ext htimes hnames hips hscopes hops hkind htops hhashes hvars hout hstatuses
    hlatencies

/-! ### The records from the file -/

lemma asBytes_injective : Function.Injective asBytes := by
  intro s s' h
  have hdata : ∀ bs : ByteArray, bs.toList = bs.data.toList := by
    intro bs
    rw [ByteArray.toList, toList_loop]
    simp
  unfold asBytes at h
  rw [hdata, hdata] at h
  exact String.toByteArray_inj.mp (ByteArray.ext (Array.toList_inj.mp h))

variable {toText : Json → Except String String}

/-- The writer never gives two values one text, and its texts are lines. -/
structure TextSpec (toText : Json → Except String String) : Prop where
  injective : ∀ v v' line, toText v = .ok line → toText v' = .ok line → v = v'
  singleLine : SingleLine toText

/-- The record was serialised, and written without an error. -/
def WrittenOut (toText : Json → Except String String) (e : Emission) : Prop :=
  (∃ line, toText (recordJson e.record) = .ok line) ∧ e.Succeeds toText

lemma text_injective (hspec : TextSpec toText) {e e' : Emission} (he : WrittenOut toText e)
    (he' : WrittenOut toText e') (h : e.text toText = e'.text toText) : e.record = e'.record := by
  obtain ⟨⟨line, hline⟩, -⟩ := he
  obtain ⟨⟨line', hline'⟩, -⟩ := he'
  have heq : line = line' := by
    have htext := asBytes_injective h
    simpa only [toJsonLine, hline, hline'] using htext
  subst heq
  exact recordJson_injective (hspec.injective _ _ line hline hline')

lemma lines_pieces (hspec : TextSpec toText) {es : List Emission}
    (hes : ∀ e ∈ es, WrittenOut toText e) :
    lines newline (pieces toText es).flatten = es.map (Emission.text toText) := by
  induction es with
  | nil => rfl
  | cons e es ih =>
    have hrest := ih fun e' he' => hes e' (List.mem_cons_of_mem e he')
    have hpiece := written_ok (hes e List.mem_cons_self).2
    rw [List.map_cons, ← hrest, ← lines_of_plain (text_plain hspec.singleLine e)]
    simp [pieces, hpiece]

lemma records_of_texts (hspec : TextSpec toText) {es es' : List Emission}
    (hes : ∀ e ∈ es, WrittenOut toText e) (hes' : ∀ e ∈ es', WrittenOut toText e)
    (h : es.map (Emission.text toText) = es'.map (Emission.text toText)) :
    es.map Emission.record = es'.map Emission.record := by
  induction es generalizing es' with
  | nil => rw [List.map_eq_nil_iff.mp h.symm]
  | cons e es ih =>
    cases es' with
    | nil => cases h
    | cons e' es' =>
      obtain ⟨hhead, htail⟩ := List.cons.inj h
      have hrecord := text_injective hspec (hes e List.mem_cons_self)
        (hes' e' List.mem_cons_self) hhead
      have hrest := ih (fun d hd => hes d (List.mem_cons_of_mem e hd))
        (fun d hd => hes' d (List.mem_cons_of_mem e' hd)) htail
      rw [List.map_cons, List.map_cons, hrecord, hrest]

/-- **The file tells what has been recorded.** Whatever the records hold, two runs of the sink that
find the same file, write every record without an error and leave the same file have written the
same records in the same order. -/
theorem file_tells_records (toText : Json → Except String String) (hspec : TextSpec toText)
    (initial : Bytes) (es es' : List Emission) (hes : ∀ e ∈ es, WrittenOut toText e)
    (hes' : ∀ e ∈ es', WrittenOut toText e)
    (hfile : fileAfter toText initial es = fileAfter toText initial es') :
    es.map Emission.record = es'.map Emission.record := by
  rw [fileAfter_eq, fileAfter_eq, List.append_cancel_left_eq] at hfile
  have htexts := congrArg (lines newline) hfile
  rw [lines_pieces hspec hes, lines_pieces hspec hes'] at htexts
  exact records_of_texts hspec hes hes' htexts

/-- A record of a name. -/
def recordFor (name : String) : AuditRecord := { exampleRecord with principal := name }

def lineFor (name : String) : String :=
  "\x7b\"timestamp\":\"2026-06-01T12:00:00+00:00\",\"principal\":\"" ++ name ++
    "\",\"outcome\":\"allowed\"\x7d"

/-- The writer, on the records of two names. -/
def twoText : Json → Except String String
  | .obj [("timestamp", .str "2026-06-01T12:00:00+00:00"), ("principal", .str "alice"),
      ("outcome", .str "allowed")] => .ok (lineFor "alice")
  | .obj [("timestamp", .str "2026-06-01T12:00:00+00:00"), ("principal", .str "bob"),
      ("outcome", .str "allowed")] => .ok (lineFor "bob")
  | _ => .error "not one of the two"

lemma twoText_spec : TextSpec twoText := by
  have hne : lineFor "alice" ≠ lineFor "bob" := by decide +kernel
  refine ⟨fun v v' line hv hv' => ?_, fun v line hv => ?_⟩
  · unfold twoText at hv hv'
    split at hv <;> split at hv' <;> simp_all
  · unfold twoText at hv
    split at hv
    · cases hv
      exact newline_notMem (by decide +kernel)
    · cases hv
      exact newline_notMem (by decide +kernel)
    · cases hv

/-- Two records, the first of which is written after an interruption. -/
def interruptedTwice : List Emission :=
  [⟨recordFor "alice", [.interrupted]⟩, ⟨recordFor "bob", []⟩]

def uninterrupted : List Emission := [⟨recordFor "alice", []⟩, ⟨recordFor "bob", []⟩]

lemma succeeds_interrupted (r : AuditRecord) : (⟨r, [.interrupted]⟩ : Emission).Succeeds toText := by
  have hall : ∀ buf, (writeln [.interrupted] buf).result = .ok () := by
    intro buf
    rcases buf with _ | ⟨b, buf⟩ <;> rfl
  simp [Emission.Succeeds, Emission.logged, Emission.written, hall]

theorem file_tells_records_interrupted :
    interruptedTwice.map Emission.record = uninterrupted.map Emission.record := by
  have hline : ∀ name ∈ ["alice", "bob"], ∃ line,
      twoText (recordJson (recordFor name)) = .ok line := by
    intro name hname
    rcases List.mem_pair.mp hname with rfl | rfl
    · exact ⟨lineFor "alice", rfl⟩
    · exact ⟨lineFor "bob", rfl⟩
  have hwritten : ∀ e ∈ interruptedTwice, WrittenOut twoText e := by
    intro e he
    rcases List.mem_pair.mp he with rfl | rfl
    · exact ⟨hline "alice" (by simp), succeeds_interrupted _⟩
    · exact ⟨hline "bob" (by simp), succeeds_nil _ _⟩
  have hwritten' : ∀ e ∈ uninterrupted, WrittenOut twoText e := by
    intro e he
    rcases List.mem_pair.mp he with rfl | rfl
    · exact ⟨hline "alice" (by simp), succeeds_nil _ _⟩
    · exact ⟨hline "bob" (by simp), succeeds_nil _ _⟩
  refine file_tells_records twoText twoText_spec [] interruptedTwice uninterrupted hwritten
    hwritten' ?_
  rw [fileAfter_eq, fileAfter_eq]
  simp [pieces, interruptedTwice, uninterrupted, written_ok (succeeds_interrupted _),
    written_ok (succeeds_nil _ _), Emission.text]

end GatewayAuth.AuditText
