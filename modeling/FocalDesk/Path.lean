import FocalDesk.Text

/-! Unix paths by their components, as `std::path` reads them. -/
namespace FocalDesk

inductive Component where
  | rootDir
  | curDir
  | parentDir
  | normal (name : String)
deriving DecidableEq, Repr

/-- The text between slashes. -/
def splitSlashes : List Char → List (List Char)
  | [] => [[]]
  | c :: cs =>
    match splitSlashes cs with
    | [] => [[c]]
    | segment :: segments =>
      if c = '/' then [] :: segment :: segments else (c :: segment) :: segments

/-- Empty segments and dots between slashes name no component. -/
def segmentComponent (segment : List Char) : Option Component :=
  if segment = [] ∨ segment = ['.'] then none
  else if segment = ['.', '.'] then some .parentDir
  else some (.normal (String.ofList segment))

/-- `Path::is_absolute` on Unix. -/
def isAbsolutePath (path : String) : Bool := startsWith path "/"

/-- `Path::components`: only a leading dot of a relative path is kept. -/
def components (path : String) : List Component :=
  if isAbsolutePath path then .rootDir :: (splitSlashes path.toList).filterMap segmentComponent
  else
    match splitSlashes path.toList with
    | ['.'] :: segments => .curDir :: segments.filterMap segmentComponent
    | segments => segments.filterMap segmentComponent

/-- `Path::starts_with` compares whole components. -/
def pathStartsWith (path base : String) : Bool := (components base).isPrefixOf (components path)

/-- Paths are equal when their components are. -/
def samePath (left right : String) : Bool := components left = components right

def Component.key : Component → ℕ × String
  | .rootDir => (0, "")
  | .curDir => (1, "")
  | .parentDir => (2, "")
  | .normal name => (3, name)

def Component.le (left right : Component) : Bool :=
  left.key.1 < right.key.1 || (left.key.1 == right.key.1 && decide (left.key.2 ≤ right.key.2))

/-- The order of a `BTreeSet<PathBuf>`. -/
def componentsLe : List Component → List Component → Bool
  | [], _ => true
  | _ :: _, [] => false
  | a :: as, b :: bs => if a = b then componentsLe as bs else a.le b

def isNormalizedPath (path : String) : Bool :=
  isAbsolutePath path && !(components path).contains .parentDir

theorem pathStartsWith_iff {path base : String} :
    pathStartsWith path base ↔ components base <+: components path := by
  simp [pathStartsWith]

theorem pathStartsWith_refl (path : String) : pathStartsWith path path :=
  (pathStartsWith_iff).mpr (List.prefix_refl _)

theorem pathStartsWith_trans {path base root : String} (h : pathStartsWith path base)
    (hb : pathStartsWith base root) : pathStartsWith path root :=
  (pathStartsWith_iff).mpr (((pathStartsWith_iff).mp hb).trans ((pathStartsWith_iff).mp h))

theorem pathStartsWith_congr {path left right : String} (h : samePath left right) :
    pathStartsWith path left = pathStartsWith path right := by
  rw [samePath, decide_eq_true_eq] at h
  simp [pathStartsWith, h]

end FocalDesk
