import TtyGateway.Trailing

namespace TtyGateway

def endsWith (s suffix : String) : Prop := suffix.toList <:+ s.toList

instance (s suffix : String) : Decidable (endsWith s suffix) :=
  inferInstanceAs (Decidable (suffix.toList <:+ s.toList))

/-- `strip_suffix`, keeping the string where it does not apply. -/
def stripSuffix (s suffix : String) : String :=
  String.ofList (Trailing.strip suffix.toList s.toList)

/-- `while s.ends_with(c) { s.pop(); }` -/
def popWhile (s : String) (c : Char) : String := String.ofList (Trailing.trim c s.toList)

/-- The path of the legacy webhook, which the base URL is derived from. -/
def authorizePath : String := "/v1/authorize"

structure HttpAuthHook where
  base : String
  key : Option String
  deriving DecidableEq

def HttpAuthHook.new (base : String) (key : Option String) : HttpAuthHook :=
  ⟨popWhile (stripSuffix base authorizePath) '/', key⟩

def HttpAuthHook.url (hook : HttpAuthHook) (path : String) : String := hook.base ++ path

def HttpAuthHook.endpoints (hook : HttpAuthHook) : List String :=
  [authorizePath, "/v1/sessions/open", "/v1/sessions/close", "/v1/usage"].map hook.url

def slashes (n : ℕ) : String := String.ofList (List.replicate n '/')

def storedBase (s : String) : String := (HttpAuthHook.new s none).base

/-- What is stored for `s` is in normal form, and stored for its other spellings, too. -/
structure SpelledAlike (s : String) : Prop where
  slash : ¬endsWith (storedBase s) "/"
  route : ¬endsWith (storedBase s) authorizePath
  again : storedBase (storedBase s) = storedBase s
  slashed : ∀ n, storedBase (s ++ slashes n) = storedBase s
  routed : storedBase (s ++ authorizePath) = storedBase s
  both : ∀ n, storedBase (s ++ authorizePath ++ slashes n) = storedBase s

theorem storedBase_toList (s : String) :
    (storedBase s).toList = Trailing.normalize authorizePath.toList '/' s.toList := by
  simp [storedBase, HttpAuthHook.new, popWhile, stripSuffix, Trailing.normalize]

theorem storedBase_eq_iff {s t : String} : storedBase s = storedBase t ↔
    Trailing.normalize authorizePath.toList '/' s.toList =
      Trailing.normalize authorizePath.toList '/' t.toList := by
  rw [← storedBase_toList, ← storedBase_toList, String.toList_inj]

theorem slashes_toList (n : ℕ) : (slashes n).toList = List.replicate n '/' := by
  simp [slashes]

theorem authorizePath_ne_nil : authorizePath.toList ≠ [] := by decide

theorem authorizePath_clean : ¬['/'] <:+ authorizePath.toList := by decide

/-- No URL has all its spellings stored alike: with a slash behind it, `/v1/authorize` is kept. The
slash itself always goes, and the other spellings agree unless the URL ends in `/v1/authorize`. -/
theorem base_spellings (s : String) : ¬SpelledAlike s ∧ ¬endsWith (storedBase s) "/" ∧
    (storedBase (storedBase s) = storedBase s ↔ ¬endsWith (storedBase s) authorizePath) ∧
    ((∀ n, storedBase (s ++ slashes n) = storedBase s) ∧
      storedBase (s ++ authorizePath) = storedBase s ↔ ¬endsWith s authorizePath) ∧
    ∀ n, 0 < n → storedBase (s ++ authorizePath ++ slashes n) = s ++ authorizePath := by
  have hslash : ¬endsWith (storedBase s) "/" := by
    rw [endsWith, storedBase_toList]
    exact Trailing.not_suffix_normalize
  have hagain : storedBase (storedBase s) = storedBase s ↔
      ¬endsWith (storedBase s) authorizePath := by
    rw [endsWith, ← String.toList_inj, storedBase_toList, storedBase_toList]
    exact Trailing.normalize_normalize authorizePath_ne_nil
  have hsame : (∀ n, storedBase (s ++ slashes n) = storedBase s) ∧
      storedBase (s ++ authorizePath) = storedBase s ↔ ¬endsWith s authorizePath := by
    simp only [storedBase_eq_iff, String.toList_append, slashes_toList, endsWith]
    exact Trailing.normalize_same authorizePath_ne_nil authorizePath_clean
  have hkept : ∀ n, 0 < n →
      storedBase (s ++ authorizePath ++ slashes n) = s ++ authorizePath := by
    intro n hn
    rw [← String.toList_inj, storedBase_toList]
    simp only [String.toList_append, slashes_toList]
    exact Trailing.normalize_append_suffix_replicate authorizePath_ne_nil authorizePath_clean hn
  refine ⟨fun h => h.route ?_, hslash, hagain, hsame, hkept⟩
  rw [← h.both 1, hkept 1 Nat.one_pos, endsWith, String.toList_append]
  exact List.suffix_append _ _

/-- The legacy webhook URL with a slash at its end. -/
theorem base_keeps_route : ¬SpelledAlike "http://cp:8080" ∧
    (HttpAuthHook.new "http://cp:8080" none).endpoints.head? =
      some "http://cp:8080/v1/authorize" ∧
    (HttpAuthHook.new "http://cp:8080/v1/authorize/" none).endpoints.head? =
      some "http://cp:8080/v1/authorize/v1/authorize" := by
  refine ⟨fun h => ?_, by decide +kernel, by decide +kernel⟩
  exact absurd (h.both 1) (by decide +kernel)

end TtyGateway
