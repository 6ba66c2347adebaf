import RowFilter.Fault
import RowFilter.Plan.Codec

/-!
# Plan.Saved — plans in files

A file holds the bytes of one plan and nothing else.  Saving can fail only in the file system; loading
can fail there or in the bytes.
-/

namespace RowFilter.Plan

set_option autoImplicit false

/-- The files with the plan of a tree written to the path. -/
def save (files : Files) (path : String) (e : Expr) : Except RowFilter.Fault Files :=
  (files.write path (encode e)).mapError .file

/-- The tree of the plan at the path. -/
def load (files : Files) (path : String) : Except RowFilter.Fault Expr :=
  match files.read path with
  | .error fault => .error (.file fault)
  | .ok bytes => (decode bytes).mapError .plan

end RowFilter.Plan
