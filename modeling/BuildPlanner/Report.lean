import BuildPlanner.Host
import BuildPlanner.Text.Display

/-!
# Reports

A run reports what it does while it works. A report is a line on the errors of the run that says
first how much it matters; nothing else of the host is changed by it. Characters that would control
the terminal are written out.
-/

namespace BuildPlanner

/-- How much a report matters. -/
inductive Severity where
  /-- It says how something is done, for those who want to know. -/
  | detail
  /-- It says what is done. -/
  | info
  /-- It says what may be wrong. -/
  | warning
deriving DecidableEq, Repr, Inhabited

/-- The word at the front of a report. -/
def Severity.label : Severity → String
  | detail => "DEBUG"
  | info => " INFO"
  | warning => " WARN"

/-- A character as a report shows it. -/
def reportChar (c : Char) : List Char :=
  if ['\x07', '\x08', '\x0c', '\x1b', '\x7f'].contains c then
    '\\' :: 'x' :: (Nat.toDigits 16 c.toNat).leftpad 2 '0'
  else if 0x80 ≤ c.toNat && c.toNat ≤ 0x9f then Text.escape c
  else [c]

/-- A text as a report shows it. -/
def reportText (text : String) : String :=
  .ofList (text.toList.flatMap reportChar)

/-- The host after a report. -/
def Host.report (h : Host) (severity : Severity) (text : String) : Host :=
  if severity = .detail && !h.isVerbose then h
  else { h with errors := h.errors ++ s!"{severity.label} {reportText text}\n" }

/-- Reports something. -/
def Activity.report {ε : Type} (severity : Severity) (text : String) : Activity ε Unit :=
  fun h => (.ok (), h.report severity text)

namespace Host

theorem report_detail (h : Host) (text : String) (quiet : h.isVerbose = false) :
    h.report .detail text = h := by
  simp [report, quiet]

@[simp] theorem tree_report (h : Host) (severity : Severity) (text : String) :
    (h.report severity text).tree = h.tree := by
  unfold report; split <;> rfl

@[simp] theorem workingDirectory_report (h : Host) (severity : Severity) (text : String) :
    (h.report severity text).workingDirectory = h.workingDirectory := by
  unfold report; split <;> rfl

@[simp] theorem output_report (h : Host) (severity : Severity) (text : String) :
    (h.report severity text).output = h.output := by
  unfold report; split <;> rfl

@[simp] theorem clock_report (h : Host) (severity : Severity) (text : String) :
    (h.report severity text).clock = h.clock := by
  unfold report; split <;> rfl

end Host

end BuildPlanner
