import FocalDesk.Capability.Policy

/-! When a policy authorizes no more than its intersection with a ceiling. -/
namespace FocalDesk
open Library List CapabilityPolicy

variable {urls : UrlParser} {policy ceiling other : CapabilityPolicy} {tool key kind : String}
  {arguments value : Value} {left right roots : List String} {sc limit : Option (List String)}

/-- Every tool call one policy authorizes, the other authorizes. -/
def AuthorizesWithin (urls : UrlParser) (policy other : CapabilityPolicy) : Prop :=
  ∀ tool arguments, policy.authorize urls tool arguments = .ok () →
    other.authorize urls tool arguments = .ok ()

/-! Scopes that a ceiling does not narrow. -/

def ValuesWithin : Option (List String) → Option (List String) → Prop
  | _, none => True
  | none, some _ => False
  | some values, some limit => ∀ value ∈ values, value ∈ limit

def RootsWithin : Option (List String) → Option (List String) → Prop
  | _, none => True
  | none, some _ => False
  | some roots, some limit => ∀ root ∈ roots, ∃ base ∈ limit, pathStartsWith root base = true

/-- An entry that is the origin of no URL grants nothing. -/
def OriginsWithin (urls : UrlParser) : Option (List String) → Option (List String) → Prop
  | _, none => True
  | none, some _ => False
  | some origins, some limit => ∀ url parsed, urls.parse url = .ok parsed →
      (∃ origin ∈ origins, trimSlashes origin = parsed.origin) →
        ∃ origin ∈ origins, origin ∈ limit ∧ trimSlashes origin = parsed.origin

structure PolicyWithin (urls : UrlParser) (policy ceiling : CapabilityPolicy) : Prop where
  roots : RootsWithin policy.filesystemRoots ceiling.filesystemRoots
  origins : OriginsWithin urls policy.networkOrigins ceiling.networkOrigins
  applications : ValuesWithin policy.applications ceiling.applications
  workspaces : ValuesWithin policy.workspaces ceiling.workspaces
  services : ValuesWithin policy.services ceiling.services
  secretHandles : ValuesWithin policy.secretHandles ceiling.secretHandles

/-! Authorization, one member at a time. -/

theorem authorize_eq_ok : policy.authorize urls tool arguments = .ok () ↔
    ∀ mem ∈ visited arguments, policy.authorizeArgument urls mem.1 mem.2 = .ok () := by
  have hw : walkArguments (policy.authorizeArgument urls) arguments = .ok () ↔ _ :=
    walkArguments_eq_ok arguments
  rw [← hw, authorize]
  cases walkArguments (policy.authorizeArgument urls) arguments <;> simp [Except.mapError]

/-- A call with one argument that has no members of its own. -/
theorem authorize_single (h : visited value = []) :
    policy.authorize urls tool (.object [(key, value)]) = .ok () ↔
      policy.authorizeArgument urls key value = .ok () := by
  simp [authorize_eq_ok, visited, visitedMembers, h]

/-! Value lists. -/

theorem authorizeValue_some {allowed : List String} :
    authorizeValue (some allowed) value kind = .ok () ↔ ∃ text ∈ allowed, value = .string text := by
  simp only [authorizeValue, bind_eq_ok, okOr_eq_ok, bailIf_eq_ok, not_not]
  constructor
  · rintro ⟨text, ht, hm⟩
    cases value with
    | string v =>
      obtain rfl : v = text := Option.some.inj ht
      exact ⟨v, hm, rfl⟩
    | null | bool | number | array | object => cases ht
  · rintro ⟨text, hm, rfl⟩
    exact ⟨text, rfl, hm⟩

theorem authorizeValue_intersect (hw : ValuesWithin sc limit)
    (h : authorizeValue sc value kind = .ok ()) :
    authorizeValue (intersectValues sc limit) value kind = .ok () := by
  cases limit with
  | none =>
    cases sc with
    | none => exact h
    | some vs => exact h
  | some limit =>
    cases sc with
    | none => exact hw.elim
    | some vs =>
      obtain ⟨text, hm, rfl⟩ := (authorizeValue_some).mp h
      refine (authorizeValue_some).mpr ⟨text, ?_, rfl⟩
      simp [hm, hw text hm]

theorem valuesWithin_of_leaves (h : ∀ value, visited value = [] →
    authorizeValue sc value kind = .ok () →
      authorizeValue (intersectValues sc limit) value kind = .ok ()) :
    ValuesWithin sc limit := by
  cases limit with
  | none => cases sc <;> trivial
  | some limit =>
    cases sc with
    | none =>
      have hn := h .null (by simp [visited]) rfl
      obtain ⟨text, -, ht⟩ := (authorizeValue_some).mp hn
      cases ht
    | some vs =>
      intro text hm
      have hs := h (.string text) (by simp [visited]) ((authorizeValue_some).mpr ⟨text, hm, rfl⟩)
      obtain ⟨_, hb, heq⟩ := (authorizeValue_some).mp hs
      cases heq
      exact (by simpa using hb : text ∈ vs ∧ text ∈ limit).2

/-! Network origins. -/

theorem authorizeOrigin_some {origins : List String} {text : String} :
    authorizeOrigin urls (some origins) text = .ok () ↔ ∃ parsed, urls.parse text = .ok parsed ∧
      ∃ origin ∈ origins, trimSlashes origin = parsed.origin := by
  simp only [authorizeOrigin, bind_eq_ok, bailIf_eq_ok, Bool.not_eq_false, any_eq_true,
    decide_eq_true_eq]

theorem authorizeOrigin_intersect {text : String} (hw : OriginsWithin urls sc limit)
    (h : authorizeOrigin urls sc text = .ok ()) :
    authorizeOrigin urls (intersectValues sc limit) text = .ok () := by
  cases limit with
  | none =>
    cases sc with
    | none => exact h
    | some origins => exact h
  | some limit =>
    cases sc with
    | none => exact hw.elim
    | some origins =>
      obtain ⟨parsed, hp, ho⟩ := (authorizeOrigin_some).mp h
      obtain ⟨origin, hm, hl, heq⟩ := hw text parsed hp ho
      exact (authorizeOrigin_some).mpr ⟨parsed, hp, origin, by simp [hm, hl], heq⟩

theorem originsWithin_of_texts (h : ∀ text, authorizeOrigin urls sc text = .ok () →
    authorizeOrigin urls (intersectValues sc limit) text = .ok ()) :
    OriginsWithin urls sc limit := by
  cases limit with
  | none => cases sc <;> trivial
  | some limit =>
    cases sc with
    | none =>
      obtain ⟨err, he⟩ := urls.parse_empty
      obtain ⟨parsed, hp, -⟩ := (authorizeOrigin_some).mp (h "" rfl)
      rw [he] at hp
      cases hp
    | some origins =>
      intro text parsed hp hor
      have hb := h text ((authorizeOrigin_some).mpr ⟨parsed, hp, hor⟩)
      obtain ⟨parsed', hp', origin, hm, heq⟩ := (authorizeOrigin_some).mp hb
      obtain rfl : parsed = parsed' := Except.ok.inj (hp.symm.trans hp')
      obtain ⟨ho, hl⟩ : origin ∈ origins ∧ origin ∈ limit := by simpa using hm
      exact ⟨origin, ho, hl, heq⟩

/-! Filesystem roots. -/

variable {path : String}

theorem authorizePath_some : authorizePath (some roots) path = .ok () ↔
    isNormalizedPath path ∧ ∃ root ∈ roots, pathStartsWith path root := by
  simp only [authorizePath, unit_bind_eq_ok, bailIf_eq_ok, Bool.not_eq_false, any_eq_true]

/-- The set of narrowed roots covers what its members cover. -/
theorem foldl_insertRoot_covers (cands : List String) :
    (∃ root ∈ cands.foldl insertRoot roots, pathStartsWith path root) ↔
      (∃ root ∈ roots, pathStartsWith path root) ∨ ∃ root ∈ cands, pathStartsWith path root := by
  induction cands generalizing roots with
  | nil => simp
  | cons cand cands ih =>
    rw [foldl_cons, ih, insertRoot]
    split
    case isTrue ha =>
      obtain ⟨root, hr, hs⟩ := any_eq_true.mp ha
      have hc : pathStartsWith path cand = pathStartsWith path root := pathStartsWith_congr hs
      simp only [exists_mem_cons_iff]
      constructor
      · rintro (h | h)
        · exact .inl h
        · exact .inr (.inr h)
      · rintro (h | h | h)
        · exact .inl h
        · exact .inl ⟨root, hr, hc ▸ h⟩
        · exact .inr h
    case isFalse =>
      simp only [mem_append, mem_singleton, or_and_right, exists_or,
        exists_eq_left, exists_mem_cons_iff, or_assoc]

theorem intersectPaths_covers :
    (∃ root ∈ (intersectPaths (some left) (some right)).getD [], pathStartsWith path root) ↔
      ∃ l ∈ left, ∃ r ∈ right, ∃ root, narrowerRoot l r = some root ∧ pathStartsWith path root := by
  simp only [intersectPaths, Option.getD_some, mem_insertionSort, narrowedRoots,
    foldl_insertRoot_covers, mem_flatMap, mem_filterMap]
  constructor
  · rintro (⟨_, h, -⟩ | ⟨root, ⟨l, hl, r, hr, hro⟩, hp⟩)
    · cases h
    · exact ⟨l, hl, r, hr, root, hro, hp⟩
  · rintro ⟨l, hl, r, hr, root, hro, hp⟩
    exact .inr ⟨root, ⟨l, hl, r, hr, hro⟩, hp⟩

theorem authorizePath_intersect (hw : RootsWithin sc limit) (h : authorizePath sc path = .ok ()) :
    authorizePath (intersectPaths sc limit) path = .ok () := by
  cases limit with
  | none =>
    cases sc with
    | none => exact h
    | some roots => exact h
  | some limit =>
    cases sc with
    | none => exact hw.elim
    | some roots =>
      obtain ⟨hn, root, hr, hp⟩ := (authorizePath_some).mp h
      obtain ⟨base, hba, hb⟩ := hw root hr
      refine (authorizePath_some).mpr ⟨hn, ?_⟩
      exact (intersectPaths_covers).mpr ⟨root, hr, base, hba, root, by simp [narrowerRoot, hb], hp⟩

/-- A root that the ceiling does not cover is itself a path that only the policy authorizes. -/
theorem rootsWithin_of_paths (hro : validateRoots sc = .ok ())
    (h : ∀ path, authorizePath sc path = .ok () →
      authorizePath (intersectPaths sc limit) path = .ok ()) : RootsWithin sc limit := by
  cases limit with
  | none => cases sc <;> trivial
  | some limit =>
    cases sc with
    | none =>
      obtain ⟨hno, -⟩ := (authorizePath_some).mp (h "" rfl)
      cases hno
    | some roots =>
      intro root hrt
      have hno : isNormalizedPath root := by
        simp only [validateRoots, bailIf_eq_ok, not_or, not_exists, not_and,
          Bool.not_eq_false] at hro
        exact hro.2 root hrt
      have hbo := h root ((authorizePath_some).mpr ⟨hno, root, hrt, pathStartsWith_refl root⟩)
      obtain ⟨l, -, r, hr, narrowed, hn, hb⟩ :=
        (intersectPaths_covers).mp ((authorizePath_some).mp hbo).2
      unfold narrowerRoot at hn
      split at hn
      case isTrue hlr =>
        cases hn
        exact ⟨r, hr, pathStartsWith_trans hb hlr⟩
      case isFalse =>
        split at hn
        · cases hn
          exact ⟨r, hr, hb⟩
        · cases hn

/-! Whole policies. -/

theorem authorizeText_mono {check check' : String → Except String Unit}
    (h : ∀ text, check text = .ok () → check' text = .ok ())
    (hv : authorizeText check value = .ok ()) : authorizeText check' value = .ok () := by
  unfold authorizeText at hv ⊢
  cases hs : value.asStr with
  | none => rfl
  | some text =>
    rw [hs] at hv
    exact h text hv

theorem authorizesWithin_intersect (h : PolicyWithin urls policy ceiling) :
    AuthorizesWithin urls policy (policy.intersect ceiling) := by
  intro tool arguments hok
  rw [authorize_eq_ok] at hok ⊢
  intro mem hme
  have hm := hok mem hme
  unfold authorizeArgument at hm ⊢
  split at hm
  · exact authorizeText_mono (fun _ => authorizePath_intersect h.roots) hm
  · exact authorizeText_mono (fun _ => authorizePath_intersect h.roots) hm
  · exact authorizeText_mono (fun _ => authorizePath_intersect h.roots) hm
  · exact authorizeText_mono (fun _ => authorizeOrigin_intersect h.origins) hm
  · exact authorizeText_mono (fun _ => authorizeOrigin_intersect h.origins) hm
  · exact authorizeValue_intersect h.applications hm
  · exact authorizeValue_intersect h.applications hm
  · exact authorizeValue_intersect h.applications hm
  · exact authorizeValue_intersect h.workspaces hm
  · exact authorizeValue_intersect h.workspaces hm
  · exact authorizeValue_intersect h.services hm
  · exact authorizeValue_intersect h.services hm
  · exact authorizeValue_intersect h.secretHandles hm
  · assumption

/-- A valid policy authorizes no more than its intersection with a ceiling exactly when the
ceiling narrows none of its scopes. -/
theorem authorizesWithin_intersect_iff (hv : policy.validate urls = .ok ()) :
    AuthorizesWithin urls policy (policy.intersect ceiling) ↔ PolicyWithin urls policy ceiling := by
  refine ⟨fun h => ?_, authorizesWithin_intersect⟩
  have hr : validateRoots policy.filesystemRoots = .ok () := by
    simp only [validate, unit_bind_eq_ok] at hv
    exact hv.2.2.2.2.2.2.1
  have ho (key : String) (value : Value) (hl : visited value = [])
      (hok : policy.authorizeArgument urls key value = .ok ()) :
      (policy.intersect ceiling).authorizeArgument urls key value = .ok () :=
    (authorize_single hl).mp (h "" _ ((authorize_single hl).mpr hok))
  constructor
  · exact rootsWithin_of_paths hr fun path hok =>
      ho "path" (.string path) (by simp [visited]) hok
  · exact originsWithin_of_texts fun text hok =>
      ho "url" (.string text) (by simp [visited]) hok
  · exact valuesWithin_of_leaves fun value hl => ho "application" value hl
  · exact valuesWithin_of_leaves fun value hl => ho "workspace" value hl
  · exact valuesWithin_of_leaves fun value hl => ho "service" value hl
  · exact valuesWithin_of_leaves fun value hl => ho "secret_handle" value hl

end FocalDesk

/-! Which of the texts under scoped keys an authorized call may carry. -/
namespace FocalDesk
open Library

variable {urls : UrlParser} {policy : CapabilityPolicy} {tool key : String}
  {arguments value : Value}

def pathKeys : List String := ["path", "source", "destination"]

def urlKeys : List String := ["url", "origin"]

/-- The texts among the elements of an array. -/
def elementTexts : Value → List String
  | .array items => items.filterMap Value.asStr
  | _ => []

/-- A text, or the texts among the elements of an array. -/
def ownTexts (value : Value) : List String := value.asStr.toList ++ elementTexts value

/-- The texts that stand, at any depth, as the value of one of the keys or in an array there. -/
def scopedTexts (keys : List String) (arguments : Value) : List String :=
  ((visited arguments).filter fun member => member.1 ∈ keys).flatMap fun member =>
    ownTexts member.2

/-- The scoped texts that stand in an array. -/
def scopedElements (keys : List String) (arguments : Value) : List String :=
  ((visited arguments).filter fun member => member.1 ∈ keys).flatMap fun member =>
    elementTexts member.2

/-- An absolute path without parent components, below a root. -/
def PathInScope (policy : CapabilityPolicy) (path : String) : Prop :=
  ∀ roots ∈ policy.filesystemRoots,
    isNormalizedPath path = true ∧ ∃ root ∈ roots, pathStartsWith path root = true

def UrlInScope (urls : UrlParser) (policy : CapabilityPolicy) (url : String) : Prop :=
  ∀ origins ∈ policy.networkOrigins, ∃ parsed, urls.parse url = .ok parsed ∧
    ∃ origin ∈ origins, trimSlashes origin = parsed.origin

def FailsClosed (urls : UrlParser) (policy : CapabilityPolicy) (tool : String) (arguments : Value)
    : Prop :=
  policy.authorize urls tool arguments = .ok () →
    (∀ path ∈ scopedTexts pathKeys arguments, PathInScope policy path) ∧
      ∀ url ∈ scopedTexts urlKeys arguments, UrlInScope urls policy url

/-- Some argument is out of scope by itself. -/
def SomeArgumentDenied (urls : UrlParser) (policy : CapabilityPolicy) (arguments : Value) :
    Prop :=
  ∃ member ∈ visited arguments, policy.authorizeArgument urls member.1 member.2 ≠ .ok ()

def ElementsInScope (urls : UrlParser) (policy : CapabilityPolicy) (arguments : Value) : Prop :=
  (∀ path ∈ scopedElements pathKeys arguments, PathInScope policy path) ∧
    ∀ url ∈ scopedElements urlKeys arguments, UrlInScope urls policy url

theorem pathInScope_iff {path : String} :
    PathInScope policy path ↔ authorizePath policy.filesystemRoots path = .ok () := by
  cases hr : policy.filesystemRoots with
  | none => simp [PathInScope, hr, authorizePath]
  | some roots => simp [PathInScope, hr, authorizePath_some]

theorem urlInScope_iff {url : String} :
    UrlInScope urls policy url ↔ authorizeOrigin urls policy.networkOrigins url = .ok () := by
  cases ho : policy.networkOrigins with
  | none => simp [UrlInScope, ho, authorizeOrigin]
  | some origins => simp [UrlInScope, ho, authorizeOrigin_some]

variable {text : String}

theorem asStr_eq_some (h : value.asStr = some text) : value = .string text := by
  cases value with
  | string v => exact congrArg _ (Option.some.inj h)
  | null | bool | number | array | object => cases h

/-- A text is checked where it stands as the value itself. -/
theorem pathInScope_of_argument (hk : key ∈ pathKeys)
    (h : policy.authorizeArgument urls key (.string text) = .ok ()) : PathInScope policy text := by
  rw [pathInScope_iff]
  simp only [pathKeys, List.mem_cons, List.not_mem_nil, or_false] at hk
  rcases hk with rfl | rfl | rfl <;> exact h

theorem urlInScope_of_argument (hk : key ∈ urlKeys)
    (h : policy.authorizeArgument urls key (.string text) = .ok ()) :
    UrlInScope urls policy text := by
  rw [urlInScope_iff]
  simp only [urlKeys, List.mem_cons, List.not_mem_nil, or_false] at hk
  rcases hk with rfl | rfl <;> exact h

theorem mem_scopedTexts {keys : List String} : text ∈ scopedTexts keys arguments ↔
      (∃ mem ∈ visited arguments, mem.1 ∈ keys ∧ mem.2 = .string text) ∨
        text ∈ scopedElements keys arguments := by
  simp only [scopedTexts, scopedElements, List.mem_flatMap, List.mem_filter, decide_eq_true_eq,
    ownTexts, List.mem_append, Option.mem_toList]
  constructor
  · rintro ⟨mem, ⟨hm, hk⟩, ht | ht⟩
    · exact Or.inl ⟨mem, hm, hk, asStr_eq_some ht⟩
    · exact Or.inr ⟨mem, ⟨hm, hk⟩, ht⟩
  · rintro (⟨mem, hm, hk, ht⟩ | ⟨mem, hm, ht⟩)
    · exact ⟨mem, ⟨hm, hk⟩, Or.inl (by simp [ht, Value.asStr])⟩
    · exact ⟨mem, hm, Or.inr ht⟩

/-- A call fails closed exactly when some argument of it is denied by itself or every array
under a scoped key holds texts in scope only. -/
theorem failsClosed_iff (urls : UrlParser) (policy : CapabilityPolicy) (tool : String)
    (arguments : Value) :
    FailsClosed urls policy tool arguments ↔
      SomeArgumentDenied urls policy arguments ∨ ElementsInScope urls policy arguments := by
  constructor
  · intro h
    by_cases hd : SomeArgumentDenied urls policy arguments
    · exact .inl hd
    · simp only [SomeArgumentDenied, not_exists, not_and, not_not] at hd
      obtain ⟨hpa, hu⟩ := h ((authorize_eq_ok).mpr hd)
      exact .inr ⟨fun path hp => hpa path ((mem_scopedTexts).mpr (.inr hp)),
        fun url hur => hu url ((mem_scopedTexts).mpr (.inr hur))⟩
  · intro h hok
    rw [authorize_eq_ok] at hok
    rcases h with ⟨mem, hm, hd⟩ | ⟨hpa, hu⟩
    · exact absurd (hok mem hm) hd
    · constructor
      · intro path hp
        rcases (mem_scopedTexts).mp hp with ⟨mem, hm, hk, ht⟩ | hp
        · exact pathInScope_of_argument hk (ht ▸ hok mem hm)
        · exact hpa path hp
      · intro url hur
        rcases (mem_scopedTexts).mp hur with ⟨mem, hm, hk, ht⟩ | hur
        · exact urlInScope_of_argument hk (ht ▸ hok mem hm)
        · exact hu url hur

/-- A path in an array passes a policy that refuses the same path by itself. -/
theorem array_path_escapes_roots :
    ∃ policy : CapabilityPolicy, policy.filesystemRoots = some ["/safe"] ∧
      (∀ urls, policy.validate urls = .ok ()) ∧
      ∀ urls, ¬ FailsClosed urls policy "read"
        (.object [("path", .array [.string "/etc/passwd"])]) := by
  refine ⟨{ CapabilityPolicy.default with filesystemRoots := some ["/safe"] }, rfl, ?_, ?_⟩
  · intro urls
    rfl
  · intro urls h
    have hok : CapabilityPolicy.authorize urls
        { CapabilityPolicy.default with filesystemRoots := some ["/safe"] } "read"
        (.object [("path", .array [.string "/etc/passwd"])]) = .ok () := by
      rw [authorize_eq_ok]
      simp [visited, visitedMembers, visitedItems, CapabilityPolicy.authorizeArgument,
        authorizeText, Value.asStr]
    have hp := (h hok).1 "/etc/passwd" (by
      simp [scopedTexts, visited, visitedMembers, visitedItems, pathKeys, ownTexts, elementTexts,
        Value.asStr])
    obtain ⟨-, root, hr, hu⟩ := hp ["/safe"] rfl
    obtain rfl := List.mem_singleton.mp hr
    exact absurd hu (by decide +kernel)

end FocalDesk
