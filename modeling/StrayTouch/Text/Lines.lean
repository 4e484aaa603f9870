/-!
The lines of a text. A line ends at any of ten characters, or at a carriage return and the line
feed after it; the last one need not end.
-/
namespace StrayTouch.Text

def endsLine (c : Char) : Bool :=
  let n := c.toNat
  (10 ≤ n && n ≤ 13) || (0x1c ≤ n && n ≤ 0x1e) || n == 0x85 || n == 0x2028 || n == 0x2029

/-- The lines of a text whose first line goes on from `before`, which is in reverse. -/
def linesFrom (before : List Char) : List Char → List String
  | [] => if before.isEmpty then [] else [String.ofList before.reverse]
  | '\r' :: '\n' :: rest => String.ofList before.reverse :: linesFrom [] rest
  | c :: rest =>
    if endsLine c then String.ofList before.reverse :: linesFrom [] rest
    else linesFrom (c :: before) rest

def lines (s : String) : List String :=
  linesFrom [] s.toList

theorem linesFrom_of_forall_not_endsLine {cs : List Char} (before : List Char)
    (h : ∀ c ∈ cs, endsLine c = false) (nonempty : before ≠ [] ∨ cs ≠ []) :
    linesFrom before cs = [String.ofList (before.reverse ++ cs)] := by
  induction cs generalizing before with
  | nil => simp_all [linesFrom]
  | cons c rest ih =>
    have plain : endsLine c = false := h c (by simp)
    have later : ∀ d ∈ rest, endsLine d = false := fun d hd => h d (by simp [hd])
    rw [linesFrom]
    · simp [plain, ih (c :: before) later (by simp)]
    · intro _ hr _
      subst hr
      simp [endsLine] at plain

end StrayTouch.Text
