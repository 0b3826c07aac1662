import Mathlib.Data.List.DropRight
import Mathlib.Data.String.Basic

/-!
The string functions of the standard library the gateway uses, on the characters of the
string.
-/

namespace GatewayAuth.Text

/-- Unicode white space. -/
def isWhitespace (c : Char) : Bool :=
  let n := c.toNat
  (9 ≤ n && n ≤ 13) || n == 0x20 || n == 0x85 || n == 0xA0 || n == 0x1680 ||
    (0x2000 ≤ n && n ≤ 0x200A) || n == 0x2028 || n == 0x2029 || n == 0x202F || n == 0x205F ||
    n == 0x3000

/-- The string after `pre`, when it begins with it. -/
def stripPrefix (s pre : String) : Option String :=
  if pre.toList <+: s.toList then some (String.ofList (s.toList.drop pre.toList.length)) else none

/-- The string before `suf`, when it ends with it. -/
def stripSuffix (s suf : String) : Option String :=
  if suf.toList <:+ s.toList then
    some (String.ofList (s.toList.take (s.toList.length - suf.toList.length)))
  else none

def trim (s : String) : String :=
  String.ofList ((s.toList.dropWhile isWhitespace).rdropWhile isWhitespace)

def splitWhitespace (s : String) : List String :=
  ((s.toList.splitOnP isWhitespace).filter fun l => !l.isEmpty).map String.ofList

lemma stripPrefix_eq_some {s pre rest : String} :
    stripPrefix s pre = some rest ↔ s = pre ++ rest := by
  unfold stripPrefix
  rw [Option.ite_none_right_eq_some]
  refine ⟨?_, ?_⟩
  · rintro ⟨⟨l, hl⟩, h⟩
    cases h
    rw [← hl, List.drop_left, ← String.toList_inj, String.toList_append, String.toList_ofList, hl]
  · rintro rfl
    simp

lemma stripPrefix_eq_none {s pre : String} :
    stripPrefix s pre = none ↔ ∀ rest, s ≠ pre ++ rest := by
  rw [Option.eq_none_iff_forall_ne_some]
  exact forall_congr' fun rest => not_congr stripPrefix_eq_some

end GatewayAuth.Text
