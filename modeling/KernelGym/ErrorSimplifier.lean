import KernelGym.Library.Deletion
import Mathlib.Data.List.DropRight
import Mathlib.Data.List.Sort

/-! `simplify_error_message`: every configured root that is followed by a path separator is cut out of a
message, the longest root first and the source root last. -/

namespace KernelGym

open Library

abbrev Text := List Char

def isSeparator (c : Char) : Bool := c = '/' || c = '\\'

/-- `prefix.rstrip("/\\")` -/
def normalizedPrefix (path : Text) : Text := path.rdropWhile isSeparator

/-- `_remove_path_prefix` -/
def removePathPrefix (errorMessage path : Text) : Text :=
  if normalizedPrefix path = [] then errorMessage
  else deleteWord isSeparator (normalizedPrefix path) errorMessage

/-- What the deployment configures: `sys.prefix`, `sys.base_prefix`, `sysconfig.get_path` of the two names and
the root of the sources. -/
structure Deployment where
  sysPrefix : Text
  basePrefix : Text
  purelib : Option Text
  platlib : Option Text
  sourceRoot : Text

/-- An order in which a `set` is iterated. -/
structure SetIteration where
  order : List Text → List Text
  perm : ∀ paths, (order paths).Perm paths

/-- `prefixes` -/
def Deployment.prefixes (d : Deployment) (workDir : Option Text) : List Text :=
  (workDir.toList ++ (if d.sysPrefix ≠ d.basePrefix then [d.sysPrefix] else []) ++
    (d.purelib.toList ++ d.platlib.toList).filter (· ≠ [])).dedup.filter (· ≠ d.sourceRoot)

/-- `sorted(prefixes, key=len, reverse=True)` -/
def SetIteration.sorted (it : SetIteration) (paths : List Text) : List Text :=
  (it.order paths).mergeSort fun a b => b.length ≤ a.length

/-- `simplify_error_message` -/
def simplifyErrorMessage (it : SetIteration) (d : Deployment) (workDir : Option Text) (enabled : Bool)
    (errorMessage : Text) : Text :=
  if !enabled ∨ errorMessage = [] then errorMessage
  else
    removePathPrefix ((it.sorted (d.prefixes workDir)).foldl removePathPrefix errorMessage) d.sourceRoot

/-- The roots that are looked for. -/
def Deployment.roots (d : Deployment) (workDir : Option Text) : List Text :=
  ((d.prefixes workDir ++ [d.sourceRoot]).map normalizedPrefix).filter (· ≠ [])

section

variable {it : SetIteration} {d : Deployment} {workDir : Option Text} {message : Text}

/-- The roots in the order of the passes. -/
def passes (it : SetIteration) (d : Deployment) (workDir : Option Text) : List Text :=
  ((it.sorted (d.prefixes workDir) ++ [d.sourceRoot]).map normalizedPrefix).filter (· ≠ [])

theorem mem_passes {root : Text} : root ∈ passes it d workDir ↔ root ∈ d.roots workDir := by
  have hsorted : ∀ path, path ∈ it.sorted (d.prefixes workDir) ↔ path ∈ d.prefixes workDir := by
    intro path
    rw [SetIteration.sorted, List.mem_mergeSort, (it.perm _).mem_iff]
  simp only [passes, Deployment.roots, List.mem_filter, List.mem_map, List.mem_append, hsorted]

theorem root_ne_nil {root : Text} (h : root ∈ d.roots workDir) : root ≠ [] := by
  simpa using (List.mem_filter.1 h).2

theorem foldl_removePathPrefix (paths : List Text) (message : Text) :
    paths.foldl removePathPrefix message =
      ((paths.map normalizedPrefix).filter (· ≠ [])).foldl (fun t w => deleteWord isSeparator w t) message := by
  induction paths generalizing message with
  | nil => rfl
  | cons path paths ih =>
      rw [List.foldl_cons, ih, List.map_cons]
      by_cases hpath : normalizedPrefix path = []
      · rw [removePathPrefix, if_pos hpath, List.filter_cons_of_neg (by simpa using hpath)]
      · rw [removePathPrefix, if_neg hpath, List.filter_cons_of_pos (by simpa using hpath), List.foldl_cons]

/-- The message goes through one pass for each root. -/
theorem simplifyErrorMessage_eq_foldl : simplifyErrorMessage it d workDir true message =
    (passes it d workDir).foldl (fun t w => deleteWord isSeparator w t) message := by
  have hempty : ([] : Text) = (passes it d workDir).foldl (fun t w => deleteWord isSeparator w t) [] :=
    (List.sublist_nil.1 (foldl_deleteWord_sublist _)).symm
  unfold simplifyErrorMessage
  by_cases hmessage : message = []
  · rw [if_pos (.inr hmessage), hmessage]
    exact hempty
  · rw [if_neg (by simpa using hmessage), passes, ← foldl_removePathPrefix, List.foldl_append]
    rfl

/-- **Simplifying a message in which no root directly follows a character of a root leaves no root followed by
a separator, so that simplifying it again changes nothing.** Roots are found wherever they start; nothing is
added to the message, and one without roots is kept. -/
theorem simplifyErrorMessage_complete (it : SetIteration) (d : Deployment) (workDir : Option Text)
    (message : Text) (hseparated : Separated isSeparator (d.roots workDir) message) :
    (∀ root ∈ d.roots workDir, ¬Occurs isSeparator root (simplifyErrorMessage it d workDir true message)) ∧
      simplifyErrorMessage it d workDir true (simplifyErrorMessage it d workDir true message) =
        simplifyErrorMessage it d workDir true message ∧
      (simplifyErrorMessage it d workDir true message).Sublist message ∧
      ((∀ root ∈ d.roots workDir, ¬Occurs isSeparator root message) →
        simplifyErrorMessage it d workDir true message = message) := by
  have hgone : ∀ root ∈ d.roots workDir,
      ¬Occurs isSeparator root (simplifyErrorMessage it d workDir true message) := by
    intro root hroot
    rw [simplifyErrorMessage_eq_foldl]
    exact not_occurs_foldl _ (fun w hw => mem_passes.1 hw) (fun w hw => root_ne_nil hw) hseparated root
      (mem_passes.2 hroot)
  have hkept : ∀ text, (∀ root ∈ d.roots workDir, ¬Occurs isSeparator root text) →
      simplifyErrorMessage it d workDir true text = text := by
    intro text htext
    rw [simplifyErrorMessage_eq_foldl]
    exact foldl_deleteWord_eq_self _ fun root hroot => htext root (mem_passes.1 hroot)
  refine ⟨hgone, hkept _ hgone, ?_, hkept message⟩
  rw [simplifyErrorMessage_eq_foldl]
  exact foldl_deleteWord_sublist _

/-- A deployment with no other root than that of the sources. -/
def sourceOnly (sourceRoot : Text) : Deployment := ⟨"/usr".toList, "/usr".toList, none, none, sourceRoot⟩

def insertionOrder : SetIteration := ⟨id, fun _ => .refl _⟩

theorem simplifyErrorMessage_complete_include :
    Separated isSeparator ((sourceOnly "/r".toList).roots none) "-I/r/x".toList ∧
      ¬Occurs isSeparator "/r".toList
        (simplifyErrorMessage insertionOrder (sourceOnly "/r".toList) none true "-I/r/x".toList) :=
  have hseparated : Separated isSeparator ((sourceOnly "/r".toList).roots none) "-I/r/x".toList := by
    decide +kernel
  ⟨hseparated, (simplifyErrorMessage_complete insertionOrder (sourceOnly "/r".toList) none "-I/r/x".toList
    hseparated).1 "/r".toList (by decide +kernel)⟩

/-- The pieces around an occurrence can make a new one, also at the start of the message, and a root is cut
out of the middle of a longer path. -/
theorem simplify_leaves_root :
    simplifyErrorMessage insertionOrder (sourceOnly "/r".toList) none true "//r/r/x".toList =
        "/r/x".toList ∧
      starts isSeparator "/r".toList "/r/x".toList ∧
      simplifyErrorMessage insertionOrder (sourceOnly "/r".toList) none true "/r/x".toList = "x".toList ∧
      simplifyErrorMessage insertionOrder (sourceOnly "/r".toList) none true "/data/r/x".toList =
        "/datax".toList := by
  decide +kernel

end

end KernelGym
