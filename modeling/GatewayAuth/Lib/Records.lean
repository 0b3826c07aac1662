import Mathlib.Data.List.Nodup

/-!
Records in a tree of values: named members, or values in the order of the fields.

A record has fields, some of which it must have. Whether a list of members, or of values, is such
a record is settled field by field, by looking each of them up.
-/

namespace GatewayAuth.Lib.Records

variable {V : Type*}

structure RecordField (V : Type*) where
  name : String
  required : Bool
  shape : V → Prop

def names (fields : List (RecordField V)) : List String := fields.map RecordField.name

/-- No member but of these fields, none twice, and none of the required ones missing. -/
structure IsTable (fields : List (RecordField V)) (ms : List (String × V)) : Prop where
  once : (ms.map Prod.fst).Nodup
  known : ∀ m ∈ ms, ∃ f ∈ fields, f.name = m.1 ∧ f.shape m.2
  complete : ∀ f ∈ fields, f.required = true → f.name ∈ ms.map Prod.fst

/-- Each field has its value at its place, if the list goes so far. -/
def IsListing (fields : List (RecordField V)) (items : List V) : Prop :=
  ∀ (i : ℕ) f, fields[i]? = some f →
    match items[i]? with
    | some v => f.shape v
    | none => f.required = false

/-- What is found for the field is of its shape; only a field that is not required may be
missing. -/
def RecordField.Fits (f : RecordField V) (ms : List (String × V)) : Prop :=
  match List.lookup f.name ms with
  | some v => f.shape v
  | none => f.required = false

variable {fields : List (RecordField V)} {ms : List (String × V)} {items : List V}

lemma lookup_eq_none {name : String} : List.lookup name ms = none ↔ name ∉ ms.map Prod.fst := by
  rw [List.lookup_eq_none_iff, List.mem_map, not_exists]
  refine forall_congr' fun m => ?_
  rw [not_and, bne_iff_ne, ne_comm]

lemma lookup_of_mem (honce : (ms.map Prod.fst).Nodup) {m : String × V} (hm : m ∈ ms) :
    List.lookup m.1 ms = some m.2 := by
  obtain ⟨before, after, rfl⟩ := List.append_of_mem hm
  refine List.lookup_eq_some_iff.mpr ⟨before, after, rfl, fun m' hm' => ?_⟩
  rw [List.map_append, List.map_cons, List.nodup_middle, List.nodup_cons] at honce
  rw [bne_iff_ne]
  exact fun heq => honce.1 (List.mem_append_left _ (heq ▸ List.mem_map_of_mem hm'))

lemma mem_of_lookup {name : String} {v : V} (h : List.lookup name ms = some v) :
    (name, v) ∈ ms := by
  obtain ⟨before, after, rfl, -⟩ := List.lookup_eq_some_iff.mp h
  exact List.mem_append_right before List.mem_cons_self

lemma eq_of_name (hnames : (names fields).Nodup) {f f' : RecordField V} (hf : f ∈ fields)
    (hf' : f' ∈ fields) (h : f.name = f'.name) : f = f' :=
  List.inj_on_of_nodup_map hnames hf hf' h

/-- **A table is a record when each of its fields fits.** -/
lemma isTable_iff (hnames : (names fields).Nodup) :
    IsTable fields ms ↔ ((ms.map Prod.fst).Nodup ∧ ∀ m ∈ ms, m.1 ∈ names fields) ∧
      ∀ f ∈ fields, f.Fits ms := by
  refine ⟨fun h => ⟨⟨h.once, fun m hm => ?_⟩, fun f hf => ?_⟩, fun ⟨⟨honce, hknown⟩, hfits⟩ =>
    ⟨honce, fun m hm => ?_, fun f hf hrequired => ?_⟩⟩
  · obtain ⟨f, hf, hname, -⟩ := h.known m hm
    exact hname ▸ List.mem_map_of_mem hf
  · unfold RecordField.Fits
    rcases hlookup : List.lookup f.name ms with _ | v
    · simpa using fun hrequired => lookup_eq_none.mp hlookup (h.complete f hf hrequired)
    · obtain ⟨f', hf', hname, hshape⟩ := h.known _ (mem_of_lookup hlookup)
      exact eq_of_name hnames hf' hf hname ▸ hshape
  · obtain ⟨f, hf, hname⟩ := List.mem_map.mp (hknown m hm)
    have hfit := hfits f hf
    unfold RecordField.Fits at hfit
    rw [hname, lookup_of_mem honce hm] at hfit
    exact ⟨f, hf, hname, hfit⟩
  · by_contra hmissing
    have hfit := hfits f hf
    unfold RecordField.Fits at hfit
    rw [lookup_eq_none.mpr hmissing] at hfit
    exact absurd (hfit.symm.trans hrequired) (by decide)

/-- In a list in the order of the fields, each is found at its place. -/
lemma lookup_zip (hnames : (names fields).Nodup) {i : ℕ} {f : RecordField V}
    (hf : fields[i]? = some f) : List.lookup f.name ((names fields).zip items) = items[i]? := by
  induction fields generalizing items i with
  | nil => cases hf
  | cons f' fields ih =>
    obtain ⟨hfresh, hnames⟩ := List.nodup_cons.mp hnames
    cases items with
    | nil => simp
    | cons v items =>
      cases i with
      | zero =>
        obtain rfl : f' = f := by simpa using hf
        simp [names]
      | succ i =>
        have hf' : fields[i]? = some f := by simpa using hf
        have hne : f.name ≠ f'.name := fun heq =>
          hfresh (heq ▸ List.mem_map_of_mem (List.mem_of_getElem? hf'))
        have hrest : List.lookup f.name ((names fields).zip items) = items[i]? := ih hnames hf'
        simpa [names, List.lookup_cons, beq_false_of_ne hne] using hrest

/-- **A list is a record when each of its fields fits.** -/
lemma isListing_iff (hnames : (names fields).Nodup) :
    IsListing fields items ↔ ∀ f ∈ fields, f.Fits ((names fields).zip items) := by
  refine ⟨fun h f hf => ?_, fun h i f hf => ?_⟩
  · obtain ⟨i, hi⟩ := List.mem_iff_getElem?.mp hf
    unfold RecordField.Fits
    rw [lookup_zip hnames hi]
    exact h i f hi
  · have hfit := h f (List.mem_of_getElem? hf)
    unfold RecordField.Fits at hfit
    rwa [lookup_zip hnames hf] at hfit

end GatewayAuth.Lib.Records
