import BuildPlan.Flag.Digest
import BuildPlan.Proofs.Path.Lexical
import BuildPlan.Proofs.Text.Hex
import BuildPlan.Store.Operations
import BuildPlan.Workspace

/-!
# Where a run keeps its files

The file of flag values and the directory of payload files lie side by side in the output root, and the payload files
in that directory. `locate_file` and `locate_parentPath` give the places that the operations on such files use.
-/

namespace BuildPlan

open Lexical (IsName)

/-! ### Files in directories -/

theorem locate_joinText {name : String} (h : IsName name.toList) (root : String) :
    locate (joinText root name) = locate root ++ [name] := by
  rw [locate, joinText, String.toList_ofList, Lexical.components_join h, List.map_append, List.map_singleton,
    String.ofList_toList]
  rfl

theorem locate_tidyText (path : String) : locate (tidyText path) = locate path := by
  rw [locate, tidyText, String.toList_ofList, Lexical.components_tidy]
  rfl

theorem locate_file {name : String} (h : IsName name.toList) (root : String) :
    locate (tidyText (joinText root name)) = locate root ++ [name] := by
  rw [locate_tidyText, locate_joinText h]

theorem locate_parentPath {name : String} (h : IsName name.toList) (root : String) :
    locate (Store.parentPath (tidyText (joinText root name))) = locate root := by
  have hjoin := Lexical.basename_join h root.toList
  have hname : IsName (Lexical.basename (Lexical.join root.toList name.toList)) := by rwa [hjoin]
  have htidy := Lexical.basename_tidy hname
  have hname' : IsName (Lexical.basename (Lexical.tidy (Lexical.join root.toList name.toList))) := by rwa [htidy, hjoin]
  have hagain := Lexical.basename_tidy hname'
  have hdirname := Lexical.components_dirname (p := Lexical.tidy (Lexical.tidy (Lexical.join root.toList name.toList)))
    (by rwa [hagain])
  rw [Lexical.components_tidy, Lexical.components_tidy, Lexical.components_join h, hagain, htidy, hjoin] at hdirname
  rw [Store.parentPath, locate_tidyText, locate, directoryOf, String.toList_ofList, tidyText, String.toList_ofList,
    tidyText, String.toList_ofList, joinText, String.toList_ofList, List.append_cancel_right hdirname]
  rfl

/-! ### Names -/

theorem ne_of_mem_hexChecksum {text : String} {c : Char} (hc : c ∈ (hexChecksum text).toList) : c ≠ '/' ∧ c ≠ '.' := by
  rw [hexChecksum, String.toList_ofList] at hc
  obtain ⟨digit, hdigit, rfl⟩ := List.mem_map.mp hc
  obtain ⟨d, hd, rfl⟩ := Text.exists_of_mem_hexPadded hdigit
  have hall : ∀ d : Fin 16, (Nat.digitChar d).toUpper ≠ '/' ∧ (Nat.digitChar d).toUpper ≠ '.' := by decide
  exact hall ⟨d, hd⟩

theorem dot_notMem_hexChecksum (text : String) : '.' ∉ (hexChecksum text).toList := fun h =>
  (ne_of_mem_hexChecksum h).2 rfl

theorem isName_hexChecksum (text : String) : IsName (hexChecksum text).toList where
  noSlash h := (ne_of_mem_hexChecksum h).1 rfl
  ne_nil h := by
    have hlength := Text.le_length_hexPadded 8 (Checksum.crc32 (Checksum.utf8 text)).toNat
    rw [hexChecksum, String.toList_ofList, List.map_eq_nil_iff] at h
    rw [h, List.length_nil] at hlength
    omega
  ne_dot h := dot_notMem_hexChecksum text (h ▸ List.mem_cons_self)
  ne_dots h := dot_notMem_hexChecksum text (h ▸ List.mem_cons_self)

theorem isName_flags : IsName "FLAGS.json".toList := ⟨by decide, by decide, by decide, by decide⟩

theorem isName_data : IsName "DATA".toList := ⟨by decide, by decide, by decide, by decide⟩

namespace Workspace

/-- The place of the directory of payload files. -/
def dataPlace (w : Workspace) : Location := locate w.dataDir

theorem dataPlace_eq (w : Workspace) : w.dataPlace = locate w.outputRoot ++ ["DATA"] :=
  locate_joinText isName_data _

theorem locate_flagsFile (w : Workspace) : locate (tidyText w.flagsFile) = locate w.outputRoot ++ ["FLAGS.json"] :=
  locate_file isName_flags _

end Workspace

end BuildPlan
