import Scriptlet.Proofs.Data.Tables
import Scriptlet.Report

/-! Lines under which failures are reported.  A line stays registered until it has been run or a report has cleared it, so
a report shows the one line that failed. -/
namespace Scriptlet
namespace Handler
variable {h : Handler} {path : String} {line : Line} {f : Failure}

/-- A file is known, and none of its lines is being run. -/
def Idle (h : Handler) (path : String) : Prop := h.traceback.get? path = some none

theorem idle_registerFile (h : Handler) (path : String) : (h.registerFile path).Idle path := by
  rw [Idle, registerFile, Table.get?_put, if_pos rfl]

/-- A line that has been run leaves no trace. -/
theorem Idle.removeLine_registerLine (hidle : h.Idle path) (line : Line) :
    (h.registerLine path line).removeLine path = h := by
  have htraceback : ((h.traceback.put path (some line)).put path none) = h.traceback := by
    rw [Table.put_put, Table.put_eq_self hidle]
  rw [registerLine, removeLine, htraceback]

theorem get?_clear (h : Handler) (path : String) :
    h.clear.traceback.get? path = (h.traceback.get? path).map fun _ => none :=
  Table.get?_map h.traceback (fun _ => none) path

theorem idle_clear (hknown : (h.traceback.get? path).isSome) : h.clear.Idle path := by
  obtain ⟨entry, hentry⟩ := Option.isSome_iff_exists.mp hknown
  rw [Idle, get?_clear, hentry, Option.map_some]

def shown (h : Handler) : Except Failure String → String
  | .ok text => text ++ "\n"
  | .error f => h.report f

def lineReport (style : Text.Style) (path : String) (line : Line) (f : Failure) : String :=
  "  File '" ++ path ++ "', line " ++ toString line.number ++ ":\n    " ++ line.text ++ "\n" ++
    style.alarming "error: " ++ f.message ++ String.join (f.details.map ("\n\t" ++ ·)) ++ "\n"

theorem report_eq_lineReport (hline : line.text ≠ "") (hinternal : f.internal = false) (fatal : Bool)
    (style : Text.Style) (path : String) :
    (Handler.mk fatal style [(path, some line)]).report f = lineReport style path line f := by
  have hempty : line.text.isEmpty = false := by simpa using hline
  rw [report, places, List.map_singleton, String.join_cons, String.join_nil, entryText, hempty, hinternal]
  simp only [Bool.false_eq_true, if_false, String.append_empty]
  rfl

end Handler
end Scriptlet
