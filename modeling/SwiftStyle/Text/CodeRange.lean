/-!
# Runs of code points

The character classes of this library are those of the Unicode
Standard, version 17.0, but for the classes of patterns, which know only
the characters that version 16.0 had (`Text.isRecent`). Outside ASCII
each class is a table of runs of code points, and `Text.inRuns` asks
whether a character lies in one of them. The tables start at `U+0080`:
below it every class is given by a rule of its own, so a question about
an ASCII character never looks at a table.
-/

namespace SwiftStyle.Text

/-- **A run of code points**, given by its first and its last one. -/
abbrev CodeRun := Nat × Nat

/-- Whether a character lies in one of the runs. -/
def inRuns (runs : List CodeRun) (c : Char) : Bool :=
  runs.any fun run => decide (run.1 ≤ c.toNat) && decide (c.toNat ≤ run.2)

/-- Lying in one of the runs of two tables is lying in a run of either. -/
theorem inRuns_append (runs others : List CodeRun) (c : Char) :
    inRuns (runs ++ others) c = (inRuns runs c || inRuns others c) :=
  List.any_append

end SwiftStyle.Text
