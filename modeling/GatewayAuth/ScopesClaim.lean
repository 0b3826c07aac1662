import GatewayAuth.Lib.Words
import GatewayAuth.Jwt

/-!
The scopes a token claims, as an array of strings or as one string of words. Both encodings of a
list of scopes are read as that list, and a principal has no scope that its claim does not spell
out.
-/

namespace GatewayAuth.ScopesClaim

open GatewayAuth.Lib.Words GatewayAuth.JsonBody GatewayAuth.Authz GatewayAuth.Text GatewayAuth.Jwt

/-- A scope that can be one word of a string. -/
def Plain (scope : String) : Prop := IsWord isWhitespace scope.toList

/-- The text is these scopes in order, separated by white space and perhaps surrounded by it. -/
def Spells (text : String) (scopes : List String) : Prop :=
  ∃ lead body trail, Blank isWhitespace lead ∧
    Joined isWhitespace (scopes.map String.toList) body ∧ Blank isWhitespace trail ∧
    text = String.ofList (lead ++ body ++ trail)

lemma splitWhitespace_eq (s : String) :
    splitWhitespace s = (words isWhitespace s.toList).map String.ofList := rfl

/-- **Scopes spelled out are read back.** -/
lemma splitWhitespace_spells {text : String} {scopes : List String} (h : Spells text scopes)
    (hplain : ∀ s ∈ scopes, Plain s) : splitWhitespace text = scopes := by
  obtain ⟨lead, body, trail, hlead, hbody, htrail, rfl⟩ := h
  have hwords : ∀ w ∈ scopes.map String.toList, IsWord isWhitespace w := by
    intro w hw
    obtain ⟨s, hs, rfl⟩ := List.mem_map.mp hw
    exact hplain s hs
  rw [splitWhitespace_eq, String.toList_ofList, words_spaced hwords hbody hlead htrail,
    List.map_map]
  simp [Function.comp_def]

lemma mem_splitWhitespace {text s : String} :
    s ∈ splitWhitespace text ↔ MaximalRun isWhitespace text.toList s.toList := by
  rw [splitWhitespace_eq, List.mem_map, ← mem_words_iff]
  refine ⟨?_, fun h => ⟨s.toList, h, String.ofList_toList⟩⟩
  rintro ⟨w, hw, rfl⟩
  rwa [String.toList_ofList]

lemma extractScopes_arr {claims : Json} {claim : String} {items : List Json}
    (h : claims.get? claim = some (.arr items)) :
    extractScopes claims claim = items.filterMap Json.asStr := by
  unfold extractScopes
  rw [h]

lemma extractScopes_str {claims : Json} {claim text : String}
    (h : claims.get? claim = some (.str text)) :
    extractScopes claims claim = splitWhitespace text := by
  unfold extractScopes
  rw [h]

lemma asStr_eq_some {v : Json} {s : String} : v.asStr = some s ↔ v = .str s := by
  cases v <;> simp [Json.asStr]

/-- The claim spells out the scope: as a string of its array, or as a word of its string. -/
def Names (value : Json) (s : String) : Prop :=
  (∃ items, value = .arr items ∧ Json.str s ∈ items) ∨
    ∃ text, value = .str text ∧ MaximalRun isWhitespace text.toList s.toList

/-- **What is read from a claim is what it names.** -/
lemma mem_extractScopes {claims : Json} {claim s : String} :
    s ∈ extractScopes claims claim ↔ ∃ value, claims.get? claim = some value ∧ Names value s := by
  rcases hv : claims.get? claim with _ | value
  · simp [extractScopes, hv]
  · simp only [Option.some.injEq, exists_eq_left']
    cases value with
    | arr items =>
      rw [extractScopes_arr hv, List.mem_filterMap]
      simp [Names, asStr_eq_some]
    | str text =>
      rw [extractScopes_str hv, mem_splitWhitespace]
      simp [Names]
    | _ => simp [extractScopes, hv, Names]

/-- **The two encodings of a scopes claim agree and grant nothing extra.** A list of plain scopes is
read the same from an array of its strings and from any text that spells them out; and every scope
of a principal is named by its claim. -/
theorem scopes_encodings_agree (claim : String) :
    (∀ scopes : List String, (∀ s ∈ scopes, Plain s) →
      (∀ claims : Json, claims.get? claim = some (.arr (scopes.map .str)) →
        extractScopes claims claim = scopes) ∧
      ∀ (claims : Json) (text : String), Spells text scopes →
        claims.get? claim = some (.str text) → extractScopes claims claim = scopes) ∧
    ∀ (b : JwtBackend) (claims : Json), b.scopesClaim = claim → ∀ s,
      s ∈ (b.principalFromClaims claims).scopes ↔
        ∃ value, claims.get? claim = some value ∧ Names value s := by
  refine ⟨fun scopes hplain => ⟨fun claims h => ?_, fun claims text htext h => ?_⟩, ?_⟩
  · rw [extractScopes_arr h, List.filterMap_map]
    exact List.filterMap_some
  · rw [extractScopes_str h, splitWhitespace_spells htext hplain]
  · rintro b claims rfl s
    unfold JwtBackend.principalFromClaims Principal.new
    rw [List.mem_toFinset, mem_extractScopes]

/-- A string of three scopes, with a tab and a line break. -/
example : extractScopes (.obj [("scope", .str " read\twrite \nactions:execute")]) "scope" =
    ["read", "write", "actions:execute"] := by decide

end GatewayAuth.ScopesClaim
