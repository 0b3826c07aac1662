import Mathlib.Data.List.DropRight
import Mathlib.Tactic.ByContra

/-!
The outermost parts of a hierarchical URL, `scheme://authority` and what comes after it, and
base URLs to which a path is appended.

The authority ends at the first slash, question mark or hash. What follows it begins with one
of these, so appending to it never moves the end of the authority.
-/

namespace GatewayAuth.Lib.Url

/-- The characters at which an authority ends. -/
def isDelimiter (c : Char) : Bool := c == '/' || c == '?' || c == '#'

structure Parts where
  scheme : List Char
  authority : List Char
  rest : List Char
  deriving DecidableEq

def split (url : List Char) : Option Parts :=
  match url.dropWhile fun c => c != ':' with
  | ':' :: '/' :: '/' :: tail =>
    some ⟨url.takeWhile fun c => c != ':', tail.takeWhile fun c => !isDelimiter c,
      tail.dropWhile fun c => !isDelimiter c⟩
  | _ => none

/-- **The parts of a URL put together from its parts.** -/
lemma split_append {scheme authority rest : List Char} (hs : ':' ∉ scheme)
    (ha : ∀ c ∈ authority, isDelimiter c = false) (hr : ∀ c ∈ rest.head?, isDelimiter c = true) :
    split (scheme ++ "://".toList ++ authority ++ rest) = some ⟨scheme, authority, rest⟩ := by
  have hscheme : ∀ c ∈ scheme, (c != ':') = true := by
    intro c hc
    have hne : c ≠ ':' := fun h => hs (h ▸ hc)
    simpa using hne
  have hauthority : ∀ c ∈ authority, (!isDelimiter c) = true := by
    intro c hc
    simp [ha c hc]
  have hrest : rest.takeWhile (fun c => !isDelimiter c) = [] ∧
      rest.dropWhile (fun c => !isDelimiter c) = rest := by
    cases rest with
    | nil => exact ⟨rfl, rfl⟩
    | cons c rest => simp [hr c rfl]
  have htext : scheme ++ "://".toList ++ authority ++ rest =
      scheme ++ ':' :: '/' :: '/' :: (authority ++ rest) := by simp
  rw [htext]
  unfold split
  rw [List.dropWhile_append_of_pos hscheme, List.takeWhile_append_of_pos hscheme]
  simp [List.takeWhile_append_of_pos hauthority, List.dropWhile_append_of_pos hauthority, hrest]

/-! ### Base URLs -/

/-- A URL of the form `scheme://authority[/path]`, the slashes it ends in counted apart. -/
structure Base where
  scheme : List Char
  authority : List Char
  path : List Char
  slashes : ℕ
  scheme_ok : ':' ∉ scheme
  authority_ok : ∀ c ∈ authority, isDelimiter c = false
  authority_ne : authority ≠ []
  path_head : ∀ c ∈ path.head?, c = '/'
  path_last : ∀ c ∈ path.getLast?, c ≠ '/'

def Base.site (u : Base) : List Char := u.scheme ++ "://".toList ++ u.authority

def Base.text (u : Base) : List Char := u.site ++ u.path ++ List.replicate u.slashes '/'

/-- The URL is `scheme://authority[/path]`. -/
structure IsBase (url scheme authority path : List Char) : Prop where
  text : url = scheme ++ "://".toList ++ authority ++ path
  scheme_ok : ':' ∉ scheme
  authority_ok : ∀ c ∈ authority, isDelimiter c = false
  authority_ne : authority ≠ []
  path_head : ∀ c ∈ path.head?, c = '/'

/-- Every URL of that form is a base. -/
lemma exists_base {url scheme authority path : List Char} (h : IsBase url scheme authority path) :
    ∃ u : Base, u.text = url ∧ u.scheme = scheme ∧ u.authority = authority ∧
      path = u.path ++ List.replicate u.slashes '/' := by
  have hsplit := List.rdropWhile_append_rtakeWhile (p := fun c => c == '/') (l := path)
  have hslashes : path.rtakeWhile (fun c => c == '/') =
      List.replicate (path.rtakeWhile fun c => c == '/').length '/' := by
    refine List.eq_replicate_iff.mpr ⟨rfl, fun c hc => ?_⟩
    simpa using List.mem_rtakeWhile_imp hc
  have hhead : ∀ c ∈ (path.rdropWhile fun c => c == '/').head?, c = '/' := by
    intro c hc
    refine h.path_head c ?_
    obtain ⟨t, ht⟩ := List.rdropWhile_prefix (p := fun c => c == '/') (l := path)
    rw [← ht, List.head?_append, Option.mem_def.mp hc]
    rfl
  have hlast : ∀ c ∈ (path.rdropWhile fun c => c == '/').getLast?, c ≠ '/' := by
    intro c hc
    have hnil : path.rdropWhile (fun c => c == '/') ≠ [] := by
      intro hnil
      simp [hnil] at hc
    have hnot := List.rdropWhile_last_not (fun c => c == '/') path hnil
    rw [List.getLast?_eq_some_getLast hnil, Option.mem_some_iff] at hc
    rw [hc] at hnot
    simpa using hnot
  refine ⟨⟨scheme, authority, path.rdropWhile fun c => c == '/',
    (path.rtakeWhile fun c => c == '/').length, h.scheme_ok, h.authority_ok, h.authority_ne, hhead,
    hlast⟩, ?_, rfl, rfl, ?_⟩
  · rw [Base.text, Base.site, ← hslashes, List.append_assoc, hsplit]
    exact h.text.symm
  · rw [← hslashes, hsplit]

/-- The last character of a base without trailing slashes is not a slash. -/
lemma Base.last_ne (u : Base) : ∀ c ∈ (u.site ++ u.path).getLast?, c ≠ '/' := by
  intro c hc
  rw [List.getLast?_append] at hc
  rcases hlast : u.path.getLast? with _ | d
  · rw [hlast, Option.none_or, Base.site, List.getLast?_append] at hc
    rw [List.getLast?_eq_some_getLast u.authority_ne, Option.some_or] at hc
    cases hc
    intro hslash
    have hdelim := u.authority_ok _ (List.getLast_mem u.authority_ne)
    rw [hslash] at hdelim
    simp [isDelimiter] at hdelim
  · rw [hlast, Option.some_or] at hc
    cases hc
    exact u.path_last _ hlast

/-- **Appending to a base stays on its site.** -/
lemma split_base (u : Base) {s : List Char} (hs : s.head? = some '/') :
    split (u.site ++ u.path ++ s) = some ⟨u.scheme, u.authority, u.path ++ s⟩ := by
  rw [Base.site, List.append_assoc _ u.path]
  refine split_append u.scheme_ok u.authority_ok fun c hc => ?_
  rw [List.head?_append, hs] at hc
  rcases hp : u.path.head? with _ | d
  · rw [hp] at hc
    cases hc
    rfl
  · rw [hp] at hc
    cases hc
    rw [u.path_head _ hp]
    rfl

end GatewayAuth.Lib.Url
