import FocalDesk.Capability.Narrowing

/-! The intersection of two policies against the calls that both authorize. -/
namespace FocalDesk
open Library

variable {urls : UrlParser} {policy ceiling : CapabilityPolicy} {tool key kind path text : String}
  {arguments v : Value} {left right : Option (List String)}

/-- Every origin that both lists grant stands in both under one spelling. -/
def OriginsAgree (urls : UrlParser) : Option (List String) → Option (List String) → Prop
  | some left, some right => ∀ url parsed, urls.parse url = .ok parsed →
      (∃ origin ∈ left, trimSlashes origin = parsed.origin) →
        (∃ origin ∈ right, trimSlashes origin = parsed.origin) →
          ∃ origin ∈ left, origin ∈ right ∧ trimSlashes origin = parsed.origin
  | _, _ => True

/-! Value lists. -/

theorem authorizeValue_intersectValues :
    authorizeValue (intersectValues left right) v kind = .ok () ↔
      authorizeValue left v kind = .ok () ∧ authorizeValue right v kind = .ok () := by
  cases left with
  | none => exact ⟨fun h => ⟨rfl, h⟩, fun h => h.2⟩
  | some left =>
    cases right with
    | none => exact ⟨fun h => ⟨h, rfl⟩, fun h => h.1⟩
    | some right =>
      simp only [intersectValues, intersectScopes, authorizeValue_some, List.mem_filter,
        decide_eq_true_eq]
      constructor
      · rintro ⟨text, ⟨hl, hr⟩, hv⟩
        exact ⟨⟨text, hl, hv⟩, ⟨text, hr, hv⟩⟩
      · rintro ⟨⟨text, hl, rfl⟩, ⟨_, hr, heq⟩⟩
        cases heq
        exact ⟨text, ⟨hl, hr⟩, rfl⟩

/-! Filesystem roots: two roots above one path lie on one chain. -/

theorem narrowerRoot_above {l r root : String} (h : narrowerRoot l r = some root) :
    pathStartsWith path root ↔ pathStartsWith path l ∧ pathStartsWith path r := by
  unfold narrowerRoot at h
  split at h
  case isTrue hlr =>
    cases h
    exact ⟨fun h => ⟨h, pathStartsWith_trans h hlr⟩, fun h => h.1⟩
  case isFalse =>
    split at h
    case isTrue hrl =>
      cases h
      exact ⟨fun h => ⟨pathStartsWith_trans h hrl, h⟩, fun h => h.2⟩
    case isFalse => cases h

theorem exists_narrowerRoot {l r : String} (hl : pathStartsWith path l) (hr : pathStartsWith path r)
    : ∃ root, narrowerRoot l r = some root := by
  have hc := List.prefix_or_prefix_of_prefix (pathStartsWith_iff.mp hl) (pathStartsWith_iff.mp hr)
  rcases hc with h | h
  · by_cases hlr : pathStartsWith l r
    · exact ⟨l, by simp [narrowerRoot, hlr]⟩
    · exact ⟨r, by simp [narrowerRoot, hlr, pathStartsWith_iff.mpr h]⟩
  · exact ⟨l, by simp [narrowerRoot, pathStartsWith_iff.mpr h]⟩

theorem authorizePath_intersectPaths :
    authorizePath (intersectPaths left right) path = .ok () ↔
      authorizePath left path = .ok () ∧ authorizePath right path = .ok () := by
  cases left with
  | none => exact ⟨fun h => ⟨rfl, h⟩, fun h => h.2⟩
  | some left =>
    cases right with
    | none => exact ⟨fun h => ⟨h, rfl⟩, fun h => h.1⟩
    | some right =>
      have hc : (∃ root ∈ (intersectPaths (some left) (some right)).getD [],
          pathStartsWith path root) ↔ _ := intersectPaths_covers
      have hs : intersectPaths (some left) (some right) =
          some ((intersectPaths (some left) (some right)).getD []) := rfl
      rw [hs, authorizePath_some, authorizePath_some, authorizePath_some, hc]
      constructor
      · rintro ⟨hn, l, hl, r, hr, root, hro, hp⟩
        obtain ⟨ha, hab⟩ := (narrowerRoot_above hro).mp hp
        exact ⟨⟨hn, l, hl, ha⟩, ⟨hn, r, hr, hab⟩⟩
      · rintro ⟨⟨hn, l, hl, ha⟩, ⟨-, r, hr, hab⟩⟩
        obtain ⟨root, hro⟩ := exists_narrowerRoot ha hab
        exact ⟨hn, l, hl, r, hr, root, hro, (narrowerRoot_above hro).mpr ⟨ha, hab⟩⟩

/-! Network origins. -/

theorem authorizeOrigin_of_intersectValues
    (h : authorizeOrigin urls (intersectValues left right) text = .ok ()) :
    authorizeOrigin urls left text = .ok () ∧ authorizeOrigin urls right text = .ok () := by
  cases left with
  | none => exact ⟨rfl, h⟩
  | some left =>
    cases right with
    | none => exact ⟨h, rfl⟩
    | some right =>
      obtain ⟨parsed, hp, origin, hm, heq⟩ := authorizeOrigin_some.mp h
      obtain ⟨hl, hr⟩ : origin ∈ left ∧ origin ∈ right := by simpa using hm
      exact ⟨authorizeOrigin_some.mpr ⟨parsed, hp, origin, hl, heq⟩,
        authorizeOrigin_some.mpr ⟨parsed, hp, origin, hr, heq⟩⟩

/-- The intersection keeps the URLs that both lists grant when their spellings agree. -/
theorem authorizeOrigin_intersectValues_iff :
    (∀ text, authorizeOrigin urls (intersectValues left right) text = .ok () ↔
      authorizeOrigin urls left text = .ok () ∧ authorizeOrigin urls right text = .ok ()) ↔
      OriginsAgree urls left right := by
  cases left with
  | none => exact ⟨fun _ => trivial, fun _ _ => ⟨fun h => ⟨rfl, h⟩, fun h => h.2⟩⟩
  | some left =>
    cases right with
    | none => exact ⟨fun _ => trivial, fun _ _ => ⟨fun h => ⟨h, rfl⟩, fun h => h.1⟩⟩
    | some right =>
      constructor
      · intro h url parsed hp hle hri
        have hb := (h url).mpr ⟨authorizeOrigin_some.mpr ⟨parsed, hp, hle⟩,
          authorizeOrigin_some.mpr ⟨parsed, hp, hri⟩⟩
        obtain ⟨parsed', hp', origin, hm, heq⟩ := authorizeOrigin_some.mp hb
        obtain rfl : parsed = parsed' := Except.ok.inj (hp.symm.trans hp')
        obtain ⟨hl, hr⟩ : origin ∈ left ∧ origin ∈ right := by simpa using hm
        exact ⟨origin, hl, hr, heq⟩
      · intro ha text
        refine ⟨authorizeOrigin_of_intersectValues, ?_⟩
        rintro ⟨hl, hr⟩
        obtain ⟨parsed, hp, hle⟩ := authorizeOrigin_some.mp hl
        obtain ⟨parsed', hp', hri⟩ := authorizeOrigin_some.mp hr
        obtain rfl : parsed = parsed' := Except.ok.inj (hp.symm.trans hp')
        obtain ⟨origin, hm, hm', heq⟩ := ha text parsed hp hle hri
        exact authorizeOrigin_some.mpr ⟨parsed, hp, origin, by simp [hm, hm'], heq⟩

/-! Whole policies. -/

theorem authorizeText_and {check check₁ check₂ : String → Except String Unit}
    (h : ∀ text, check text = .ok () ↔ check₁ text = .ok () ∧ check₂ text = .ok ()) :
    authorizeText check v = .ok () ↔
      authorizeText check₁ v = .ok () ∧ authorizeText check₂ v = .ok () := by
  unfold authorizeText
  cases v.asStr with
  | none => simp
  | some text => exact h text

/-- One argument, when the origins of the two policies agree. -/
theorem authorizeArgument_intersect
    (ha : OriginsAgree urls policy.networkOrigins ceiling.networkOrigins) :
    (policy.intersect ceiling).authorizeArgument urls key v = .ok () ↔
      policy.authorizeArgument urls key v = .ok () ∧
        ceiling.authorizeArgument urls key v = .ok () := by
  have ho := (authorizeOrigin_intersectValues_iff).mpr ha
  unfold CapabilityPolicy.authorizeArgument
  split
  case h_4 | h_5 => exact authorizeText_and ho
  case h_1 | h_2 | h_3 => exact authorizeText_and fun _ => authorizePath_intersectPaths
  case h_14 => simp
  all_goals exact authorizeValue_intersectValues

/-- The intersection of two policies authorizes the calls that both authorize, exactly when
no origin is spelled with a trailing slash in one and without it in the other. -/
theorem authorize_intersect_iff (urls : UrlParser) (policy ceiling : CapabilityPolicy) :
    (∀ tool arguments, (policy.intersect ceiling).authorize urls tool arguments = .ok () ↔
      policy.authorize urls tool arguments = .ok () ∧
        ceiling.authorize urls tool arguments = .ok ()) ↔
      OriginsAgree urls policy.networkOrigins ceiling.networkOrigins := by
  constructor
  · intro h
    apply (authorizeOrigin_intersectValues_iff).mp
    intro text
    have hca := h "" (.object [("url", .string text)])
    have hl : visited (.string text) = [] := by simp [visited]
    rwa [authorize_single hl, authorize_single hl, authorize_single hl] at hca
  · intro ha tool arguments
    rw [authorize_eq_ok, authorize_eq_ok, authorize_eq_ok]
    constructor
    · intro h
      exact ⟨fun mem hm => ((authorizeArgument_intersect ha).mp (h mem hm)).1,
        fun mem hm => ((authorizeArgument_intersect ha).mp (h mem hm)).2⟩
    · rintro ⟨hp, hc⟩ mem hm
      exact (authorizeArgument_intersect ha).mpr ⟨hp mem hm, hc mem hm⟩

/-- A parser that knows one origin, with and without its slash. -/
def exampleUrls : UrlParser where
  parse text :=
    if text = "https://example.com" ∨ text = "https://example.com/" then
      .ok { scheme := "https", hostStr := some "example.com", path := "/", query := none,
            fragment := none, origin := "https://example.com" }
    else .error "relative URL without a base"
  parse_empty := ⟨_, rfl⟩

def originPolicy (origin : String) : CapabilityPolicy :=
  { CapabilityPolicy.default with networkOrigins := some [origin] }

/-- Two valid policies grant one origin, and their intersection does not. -/
theorem intersection_drops_shared_origin :
    (originPolicy "https://example.com").validate exampleUrls = .ok () ∧
    (originPolicy "https://example.com/").validate exampleUrls = .ok () ∧
    ∃ arguments,
      (originPolicy "https://example.com").authorize exampleUrls "fetch" arguments = .ok () ∧
      (originPolicy "https://example.com/").authorize exampleUrls "fetch" arguments = .ok () ∧
      ((originPolicy "https://example.com").intersect
        (originPolicy "https://example.com/")).authorize exampleUrls "fetch" arguments ≠ .ok () := by
  have hl : visited (.string "https://example.com/") = [] := by simp [visited]
  refine ⟨by decide +kernel, by decide +kernel,
    .object [("url", .string "https://example.com/")], ?_, ?_, ?_⟩
  · exact (authorize_single hl).mpr (by decide +kernel)
  · exact (authorize_single hl).mpr (by decide +kernel)
  · intro h
    have hd := (authorize_single hl).mp h
    exact absurd hd (by decide +kernel)

end FocalDesk
