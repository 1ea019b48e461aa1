import Telescope.Table.Record

/-!
# File names of tables

A run names its table by a base. A base that ends in `.csv` is the file's name; any other is extended
by the name of the table. The tables of several workers are told apart by the worker's number, put
before the ending.
-/

namespace Telescope.Table

/-- The ending of table files. -/
def ending : List Char := ".csv".toList

/-- The base without its ending, or with the name of the table. -/
def stem (base : List Char) : List Char :=
  if ending.isSuffixOf base then base.take (base.length - ending.length)
  else base ++ "_nt_".toList ++ name.toList

/-- The mark of a worker's table; a run with a single table needs none. -/
def workerMark : Option Nat → List Char
  | none => []
  | some number => "_t".toList ++ Nat.toDigits 10 number

/-- The file of a table. -/
def path (base : String) (worker : Option Nat) : String :=
  String.ofList (stem base.toList ++ workerMark worker ++ ending)

/-- Every path of a table has the ending. -/
theorem ending_suffix_path (base : String) (worker : Option Nat) :
    ending <:+ (path base worker).toList :=
  ⟨stem base.toList ++ workerMark worker, by simp [path]⟩

end Telescope.Table
