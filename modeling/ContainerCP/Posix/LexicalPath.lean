import ContainerCP.Posix.Filesystem
import ContainerCP.Text.Lines

/-! Paths as texts, and where they lead when the dots in them are resolved without a look
at the file system. -/
namespace ContainerCP.Posix

def slash : UInt8 := ascii '/'

def here : Name := bytes "."

def parent : Name := bytes ".."

/-- What the system takes for the path: the text up to its first NUL byte. -/
def cString (text : Bytes) : Bytes := text.takeWhile (· ≠ 0)

/-- The names between the slashes, without the empty ones and the dots. -/
def pathNames (text : Bytes) : List Name :=
  (text.splitOn slash).filter fun name => name ≠ [] ∧ name ≠ here

def enter (directory : Path) (name : Name) : Path :=
  if name = parent then directory.dropLast else directory ++ [name]

/-- Where the names lead from a directory. The root is its own parent. -/
def resolveFrom (directory : Path) (names : List Name) : Path := names.foldl enter directory

/-- What a list of names comes to: some levels up, and then some names down. -/
structure Route where
  up : Nat := 0
  down : List Name := []
  deriving DecidableEq

def Route.enter (route : Route) (name : Name) : Route :=
  if name = parent then
    if route.down = [] then ⟨route.up + 1, []⟩ else ⟨route.up, route.down.dropLast⟩
  else ⟨route.up, route.down ++ [name]⟩

def Route.of (names : List Name) : Route := names.foldl Route.enter {}

def Route.apply (route : Route) (directory : Path) : Path :=
  directory.take (directory.length - route.up) ++ route.down

/-! ## The names of a text -/

theorem cString_append {front : Bytes} (h : 0 ∉ front) (text : Bytes) :
    cString (front ++ text) = front ++ cString text := by
  rw [cString, List.takeWhile_append_of_pos]
  · rfl
  · intro c hc
    exact decide_eq_true fun hZero => h (hZero ▸ hc)

theorem cString_isPrefix (text : Bytes) : cString text <+: text := List.takeWhile_prefix _

theorem pathNames_append_slash (front text : Bytes) :
    pathNames (front ++ slash :: text) = pathNames front ++ pathNames text := by
  rw [pathNames, List.splitOn_append_cons_self, List.filter_append]
  rfl

theorem parent_notMem_pathNames {text : Bytes} (h : ¬parent <:+: text) : parent ∉ pathNames text := by
  intro hMem
  exact h (isInfix_of_mem_splitOn (List.mem_of_mem_filter hMem))

/-! ## Where the names lead -/

theorem resolveFrom_append (directory : Path) (front names : List Name) :
    resolveFrom directory (front ++ names) = resolveFrom (resolveFrom directory front) names :=
  List.foldl_append

theorem Route.apply_enter (route : Route) (directory : Path) (name : Name) :
    (route.enter name).apply directory = Posix.enter (route.apply directory) name := by
  rw [Route.enter, Posix.enter]
  split
  · split
    · next hDown =>
      simp only [Route.apply, hDown, List.append_nil]
      rw [List.dropLast_eq_take, List.take_take, List.length_take]
      congr 1
      omega
    · next hDown => simp only [Route.apply, List.dropLast_append_of_ne_nil hDown]
  · simp only [Route.apply, List.append_assoc]

/-- The route does not depend on the directory in which it starts. -/
theorem resolveFrom_eq_apply (directory : Path) (names : List Name) :
    resolveFrom directory names = (Route.of names).apply directory := by
  have hFold : ∀ route : Route,
      resolveFrom (route.apply directory) names = (names.foldl Route.enter route).apply directory := by
    induction names with
    | nil => exact fun _ => rfl
    | cons name rest ih =>
        intro route
        rw [List.foldl_cons, ← ih (route.enter name), Route.apply_enter]
        rfl
  have hStart : ({} : Route).apply directory = directory := by simp [Route.apply]
  rw [Route.of, ← hFold, hStart]

/-- A path leads back into its directory if it comes down again by the names by which it
went up. -/
theorem isPrefix_resolveFrom (directory : Path) (names : List Name) :
    directory <+: resolveFrom directory names ↔
      directory.drop (directory.length - (Route.of names).up) <+: (Route.of names).down := by
  rw [resolveFrom_eq_apply, Route.apply]
  conv_lhs => lhs; rw [← List.take_append_drop (directory.length - (Route.of names).up) directory]
  exact List.prefix_append_right_inj _

theorem Route.of_up_of_parent_notMem {names : List Name} (h : parent ∉ names) : (Route.of names).up = 0 := by
  have hFold : ∀ route : Route, (names.foldl Route.enter route).up = route.up := by
    induction names with
    | nil => exact fun _ => rfl
    | cons name rest ih =>
        intro route
        have hName : name ≠ parent := fun hEq => h (hEq ▸ List.mem_cons_self)
        rw [List.foldl_cons, ih (fun hMem => h (List.mem_cons_of_mem _ hMem)), Route.enter, if_neg hName]
  exact hFold {}

/-- Without a step to the parent a path stays in its directory. -/
theorem isPrefix_resolveFrom_of_parent_notMem {names : List Name} (h : parent ∉ names) (directory : Path) :
    directory <+: resolveFrom directory names := by
  rw [isPrefix_resolveFrom, Route.of_up_of_parent_notMem h]
  simp

end ContainerCP.Posix
