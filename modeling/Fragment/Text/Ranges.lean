/-! Sets of code points given as tables of closed intervals. -/
namespace Fragment.Text

/-- Whether some interval of the table holds `n`. -/
def inRanges (table : Array (Nat × Nat)) (n : Nat) : Bool :=
  table.any fun (lo, hi) => lo ≤ n && n ≤ hi

end Fragment.Text
