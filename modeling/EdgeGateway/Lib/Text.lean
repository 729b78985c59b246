-- Text and paths, as the standard library of Rust reads them: white space,
-- words, decimal numbers, and the parts of a path.
import Mathlib.Data.List.DropRight
import EdgeGateway.Lib.TopicFilter

namespace EdgeGateway.Lib

/-! ## Words -/

/-- The characters with the property `White_Space` of Unicode. -/
def isWhitespace (c : Char) : Bool :=
  let n := c.toNat
  (0x9 ≤ n && n ≤ 0xD) || n == 0x20 || n == 0x85 || n == 0xA0 || n == 0x1680 ||
    (0x2000 ≤ n && n ≤ 0x200A) || n == 0x2028 || n == 0x2029 || n == 0x202F || n == 0x205F ||
    n == 0x3000

def trim (text : String) : String :=
  String.ofList ((text.toList.dropWhile isWhitespace).rdropWhile isWhitespace)

def splitWhitespace (text : String) : List String :=
  ((text.toList.splitOnP isWhitespace).filter (fun word => !word.isEmpty)).map String.ofList

theorem splitOnP_eq_nil {p : Char → Bool} {cs : List Char}
    (h : (cs.splitOnP p).filter (fun word => !word.isEmpty) = []) : ∀ c ∈ cs, p c = true := by
  induction cs with
  | nil => simp
  | cons c cs ih =>
    rw [List.splitOnP_cons_eq_if_modifyHead] at h
    split at h
    · rename_i hc
      intro c' hc'
      rcases List.mem_cons.mp hc' with rfl | hc'
      · exact hc
      · exact ih (by simpa using h) c' hc'
    · obtain ⟨word, words, hsplit⟩ := List.exists_cons_of_ne_nil (List.splitOnP_ne_nil p cs)
      rw [hsplit] at h
      simp at h

/-- A line that is not empty when it is trimmed has a first word. -/
theorem splitWhitespace_trim_ne_nil {text : String} (h : trim text ≠ "") :
    splitWhitespace (trim text) ≠ [] := by
  intro hnil
  have hall := splitOnP_eq_nil (List.map_eq_nil_iff.mp hnil)
  have hlist : (trim text).toList =
      (text.toList.dropWhile isWhitespace).rdropWhile isWhitespace := String.toList_ofList
  have hne : (text.toList.dropWhile isWhitespace).rdropWhile isWhitespace ≠ [] := by
    intro hempty
    exact h (by rw [trim, hempty])
  rw [hlist] at hall
  exact List.rdropWhile_last_not _ _ hne (hall _ (List.getLast_mem hne))

/-! ## Numbers -/

/-- `str::parse::<u16>`: decimal digits, a plus sign before them or none. -/
def parseU16 (text : String) : Option UInt16 :=
  let digits := match text.toList with
    | '+' :: rest => rest
    | cs => cs
  let value := digits.foldl (fun n c => 10 * n + (c.toNat - '0'.toNat)) 0
  if digits.isEmpty || !digits.all Char.isDigit || 65536 ≤ value then none
  else some (UInt16.ofNat value)

/-! ## Paths -/

/-- A path of a Unix system, as it was written. -/
structure Path where
  text : String
  deriving Repr, DecidableEq, Inhabited

namespace Path

/-- The root, and the names on the way: no empty one, and the current
directory only where the path starts with it. -/
def components (p : Path) : List (List Char) :=
  let names := levels p.text
  let plain := names.filter (fun name => !name.isEmpty && name != ['.'])
  match names with
  | [] :: _ :: _ => ['/'] :: plain
  | ['.'] :: _ => ['.'] :: plain
  | _ => plain

/-- Paths are compared by their components. -/
def same (p q : Path) : Bool := p.components == q.components

/-- The last component, unless it is the root or leads up. -/
def fileName (p : Path) : Option (List Char) :=
  match p.components.getLast? with
  | some name => if name = ['/'] ∨ name = ['.'] ∨ name = ['.', '.'] then none else some name
  | none => none

/-- What follows the last dot of the file name, if the dot does not start it. -/
def extension (p : Path) : Option String :=
  p.fileName.bind fun name =>
    match (name.splitOn '.').reverse with
    | last :: before :: rest =>
      if rest.isEmpty && before.isEmpty then none else some (String.ofList last)
    | _ => none

end Path

example : Path.same ⟨"/etc//mosquitto/./certs/"⟩ ⟨"/etc/mosquitto/certs"⟩ = true := by decide

example : Path.extension ⟨"/etc/mosquitto/certs/edge.crt"⟩ = some "crt" := by decide

end EdgeGateway.Lib
