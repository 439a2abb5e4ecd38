import KitMuduo.HttpMessage
import KitMuduo.LexicalPath
import KitMuduo.SeparatedPieces

/-!
# The servlet for static files

`StaticFileServlet::handle` cuts a file name out of the request path and opens
it under `web/`, in a directory named after its suffix.  The name has no slash
left, but it may be empty, a dot or a pair of dots, and then the file that is
opened is no file below `web/`.
-/

namespace KitMuduo

open LexicalPath

namespace StaticFileServlet

def slash : UInt8 := 47

def dot : UInt8 := 46

/-- `str.find_last_of(c)`; `none` is `npos`. -/
def find_last_of (str : Bytes) (c : UInt8) : Option Nat :=
  (str.reverse.findIdx? fun other => other = c).map fun back =>
    str.length - 1 - back

/-- `str.substr(str.find_last_of(c) + 1)`.  `npos + 1` is 0. -/
def substrBehindLast (str : Bytes) (c : UInt8) : Bytes :=
  match find_last_of str c with
  | none => str
  | some pos => str.drop (pos + 1)

def fileName (path : Bytes) : Bytes :=
  substrBehindLast path slash

def suffixType (path : Bytes) : Bytes :=
  substrBehindLast (fileName path) dot

def GetStaticType (suffixType : Bytes) : ContentType :=
  if suffixType = ascii "html" then .kHtml
  else if suffixType = ascii "jpg" ∨ suffixType = ascii "jpeg" then
    .kImageJpgType
  else if suffixType = ascii "css" then .kCss
  else if suffixType = ascii "js" then .kJavaScript
  else .kJsonType

def targetPath (path : Bytes) : Bytes :=
  ascii "web/" ++ suffixType path ++ ascii "/" ++ fileName path

/-- The name under which `std::fstream` opens the file. -/
def openedName (path : Bytes) : Bytes :=
  cStr (targetPath path)

def k500InternalServerError : Int := 500

/-- `handle`; `files` says what a file that can be opened contains.  A directory
can be opened too, and has no length there: it is not among the files. -/
def handle (files : Bytes → Option Bytes) (req : HttpRequest)
    (resp : HttpResponse) : HttpResponse :=
  let resp := { resp with version := .kHttp11, stateCode := StateCode.k200Ok }
  let resp := { resp with body :=
    resp.body.setContentType (GetStaticType (suffixType req.path)) }
  match files (openedName req.path) with
  | none => { resp with stateCode := k500InternalServerError }
  | some data => { resp with body := resp.body.appendData data }

theorem find_last_of_none {str : Bytes} {c : UInt8} (absent : c ∉ str) :
    find_last_of str c = none := by
  rw [find_last_of, Option.map_eq_none_iff, List.findIdx?_eq_none_iff]
  intro other member
  rw [List.mem_reverse] at member
  exact decide_eq_false fun same => absent (same ▸ member)

theorem find_last_of_append {front back : Bytes} {c : UInt8}
    (free : c ∉ back) :
    find_last_of (front ++ c :: back) c = some front.length := by
  have skipped : back.reverse.findIdx? (fun other => other = c) = none := by
    have absent := find_last_of_none free
    rwa [find_last_of, Option.map_eq_none_iff] at absent
  have found : (front ++ c :: back).reverse.findIdx?
      (fun other => other = c) = some back.length := by
    rw [List.reverse_append, List.reverse_cons, List.append_assoc,
      List.findIdx?_append, skipped]
    simp [List.findIdx?_cons]
  rw [find_last_of, found, Option.map_some, List.length_append,
    List.length_cons]
  congr 1
  omega

theorem substrBehindLast_none {str : Bytes} {c : UInt8} (absent : c ∉ str) :
    substrBehindLast str c = str := by
  rw [substrBehindLast, find_last_of_none absent]

theorem substrBehindLast_append {front back : Bytes} {c : UInt8}
    (free : c ∉ back) : substrBehindLast (front ++ c :: back) c = back := by
  have length : (front ++ [c]).length = front.length + 1 := by simp
  rw [substrBehindLast, find_last_of_append free, List.append_cons]
  simp only
  rw [← length, List.drop_left]

/-- The last part has the character no more and ends the string. -/
theorem substrBehindLast_spec (str : Bytes) (c : UInt8) :
    c ∉ substrBehindLast str c ∧ substrBehindLast str c <:+ str := by
  by_cases here : c ∈ str
  · obtain ⟨back, front, split, free⟩ := List.eq_append_cons_of_mem
      (List.mem_reverse.mpr here)
    have reversed : str = front.reverse ++ c :: back.reverse := by
      rw [← List.reverse_reverse str, split]
      simp
    have free : c ∉ back.reverse := fun member =>
      free (List.mem_reverse.mp member)
    rw [reversed, substrBehindLast_append free]
    exact ⟨free, (List.suffix_cons c _).trans (List.suffix_append _ _)⟩
  · rw [substrBehindLast_none here]
    exact ⟨here, List.suffix_rfl⟩

theorem slash_notMem_fileName (path : Bytes) : slash ∉ fileName path :=
  (substrBehindLast_spec path slash).1

theorem dot_notMem_suffixType (path : Bytes) : dot ∉ suffixType path :=
  (substrBehindLast_spec (fileName path) dot).1

theorem slash_notMem_suffixType (path : Bytes) : slash ∉ suffixType path :=
  fun member => slash_notMem_fileName path
    ((substrBehindLast_spec (fileName path) dot).2.subset member)

/-- The file that `handle` opens is something inside `web`. -/
def Confined (path : Bytes) : Prop :=
  StrictlyBelow slash dot (ascii "web") (openedName path)

theorem web_isName : IsName dot (ascii "web") where
  some := by decide
  notHere := by decide
  notUp := by decide

theorem openedName_eq (path : Bytes) : openedName path =
    ascii "web" ++ slash ::
      cStr (suffixType path ++ slash :: fileName path) := by
  have web : targetPath path = ascii "web/" ++
      (suffixType path ++ slash :: fileName path) := by
    rw [targetPath, List.append_assoc, List.append_assoc]
    rfl
  rw [openedName, web, cStr_append (by decide)]
  rfl

theorem openedName_of_nul {path : Bytes} (nul : 0 ∈ suffixType path) :
    openedName path = ascii "web" ++ slash :: cStr (suffixType path) := by
  rw [openedName_eq, cStr_append_of_nul nul]

theorem openedName_of_noNul {path : Bytes} (noNul : 0 ∉ suffixType path) :
    openedName path = ascii "web" ++ slash ::
      (suffixType path ++ slash :: cStr (fileName path)) := by
  rw [openedName_eq, cStr_append noNul]
  rfl

/-- A relative name under `web`: what is behind the slash decides. -/
theorem strictlyBelow_web_iff (rest : Bytes) :
    StrictlyBelow slash dot (ascii "web") (ascii "web" ++ slash :: rest) ↔
      ∃ name names,
        ((rest.splitOn slash).foldl (enter dot false) [ascii "web"]).reverse =
          ascii "web" :: name :: names := by
  have relative : isAbsolute slash (ascii "web" ++ slash :: rest) = false := rfl
  have pieces : (ascii "web" ++ slash :: rest).splitOn slash =
      ascii "web" :: rest.splitOn slash :=
    List.splitOn_append_cons_self_of_not_mem (by decide) _
  rw [strictlyBelow_iff web_isName, normalise, relative, pieces,
    List.foldl_cons, enter_name web_isName]
  simp only [true_and]

/-- A piece without a dot is a name unless it is empty. -/
theorem isName_of_dotless {piece : Bytes} (noDot : dot ∉ piece)
    (some : piece ≠ []) : IsName dot piece where
  some := some
  notHere := fun here => noDot (by simp [here])
  notUp := fun up => noDot (by simp [up])

/-- One piece without a dot behind the slash. -/
theorem strictlyBelow_dotless_iff {piece : Bytes} (noSlash : slash ∉ piece)
    (noDot : dot ∉ piece) :
    StrictlyBelow slash dot (ascii "web") (ascii "web" ++ slash :: piece) ↔
      piece ≠ [] := by
  rw [strictlyBelow_web_iff, List.splitOn_eq_singleton noSlash]
  by_cases empty : piece = []
  · subst empty
    simp
  · simp [enter_name (isName_of_dotless noDot empty), empty]

/-- A directory without a dot, which may be empty, and a piece behind it. -/
theorem strictlyBelow_pair_iff {directory piece : Bytes}
    (noSlash : slash ∉ directory) (noDot : dot ∉ directory)
    (noSlashBehind : slash ∉ piece) :
    StrictlyBelow slash dot (ascii "web")
        (ascii "web" ++ slash :: (directory ++ slash :: piece)) ↔
      piece ≠ [dot, dot] ∧
        (directory = [] → piece ≠ [] ∧ piece ≠ [dot]) := by
  rw [strictlyBelow_web_iff,
    List.splitOn_append_cons_self_of_not_mem noSlash,
    List.splitOn_eq_singleton noSlashBehind, List.foldl_cons, List.foldl_cons,
    List.foldl_nil]
  have cases_piece : piece = [] ∨ piece = [dot] ∨ piece = [dot, dot] ∨
      IsName dot piece := by
    by_contra others
    push Not at others
    exact others.2.2.2 ⟨others.1, others.2.1, others.2.2.1⟩
  by_cases empty : directory = []
  · subst empty
    rw [enter_nil]
    rcases cases_piece with rfl | rfl | rfl | isName
    · simp
    · simp
    · simp [enter_up web_isName]
    · simp [enter_name isName, isName.some, isName.notHere, isName.notUp]
  · have entered := isName_of_dotless noDot empty
    rw [enter_name entered]
    rcases cases_piece with rfl | rfl | rfl | isName
    · simp [empty]
    · simp [empty]
    · simp [enter_up entered]
    · simp [enter_name isName, isName.notUp, empty]

/-- The name that is opened is one: neither empty nor made of dots only.  Where
a NUL ends it early, what stands in front of the NUL counts. -/
def NamesFile (path : Bytes) : Prop :=
  if 0 ∈ suffixType path then
    (suffixType path).head? ≠ some 0
  else
    cStr (fileName path) ≠ [dot, dot] ∧
      (suffixType path = [] →
        cStr (fileName path) ≠ [] ∧ cStr (fileName path) ≠ [dot])

theorem cStr_eq_nil_iff {str : Bytes} (some : str ≠ []) :
    cStr str = [] ↔ str.head? = Option.some 0 := by
  cases str with
  | nil => exact absurd rfl some
  | cons c str =>
      rw [cStr, List.takeWhile_cons, List.head?_cons, Option.some.injEq]
      by_cases nul : c = 0
      · simp [nul]
      · simp [nul]

/-- The file that `handle` opens lies inside `web` exactly if it has a name. -/
theorem confined_iff (path : Bytes) : Confined path ↔ NamesFile path := by
  have noDot := dot_notMem_suffixType path
  have noSlash := slash_notMem_suffixType path
  unfold Confined NamesFile
  by_cases nul : 0 ∈ suffixType path
  · have visibleSlash : slash ∉ cStr (suffixType path) :=
      fun member => noSlash (cStr_subset _ member)
    have visibleDot : dot ∉ cStr (suffixType path) :=
      fun member => noDot (cStr_subset _ member)
    rw [openedName_of_nul nul, if_pos nul,
      strictlyBelow_dotless_iff visibleSlash visibleDot, ne_eq,
      cStr_eq_nil_iff (List.ne_nil_of_mem nul)]
  · have visibleSlash : slash ∉ cStr (fileName path) :=
      fun member => slash_notMem_fileName path (cStr_subset _ member)
    rw [openedName_of_noNul nul, if_neg nul,
      strictlyBelow_pair_iff noSlash noDot visibleSlash]

/-- Without a NUL in the file name only three names lead out of `web`. -/
theorem namesFile_iff_of_noNul {path : Bytes} (noNul : 0 ∉ fileName path) :
    NamesFile path ↔ fileName path ≠ [] ∧ fileName path ≠ [dot] ∧
      fileName path ≠ [dot, dot] := by
  have noNulBehind : 0 ∉ suffixType path := fun member =>
    noNul ((substrBehindLast_spec (fileName path) dot).2.subset member)
  have whole : cStr (fileName path) = fileName path := cStr_of_not_mem noNul
  have noSuffix (name : Bytes) (suffixless : substrBehindLast name dot = [])
      (is : fileName path = name) : suffixType path = [] := by
    rw [suffixType, is, suffixless]
  rw [NamesFile, if_neg noNulBehind, whole]
  constructor
  · rintro ⟨notUp, named⟩
    refine ⟨fun empty => ?_, fun here => ?_, notUp⟩
    · exact (named (noSuffix [] (by decide) empty)).1 empty
    · exact (named (noSuffix [dot] (by decide) here)).2 here
  · rintro ⟨some, notHere, notUp⟩
    exact ⟨notUp, fun _ => ⟨some, notHere⟩⟩

/-- A request for `/..` opens the working directory of the server. -/
theorem not_confined_parent :
    openedName (ascii "/..") = ascii "web//.." ∧
      normalise slash dot (openedName (ascii "/..")) = [] ∧
      ¬ Confined (ascii "/..") := by
  have opened : openedName (ascii "/..") = ascii "web//.." := by decide
  have working : normalise slash dot (openedName (ascii "/..")) = [] := by
    rw [opened]
    decide
  refine ⟨opened, working, fun confined => ?_⟩
  obtain ⟨name, names, inside, _⟩ := confined.inside
  rw [working] at inside
  cases inside

end StaticFileServlet

end KitMuduo
