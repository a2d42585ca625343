import AfterAction.Report.Document
import AfterAction.Text.Columns

/-!
Pages of styled lines. A report is flattened section by section into lines that fit the page's
width, the lines are dealt out to pages of equal height, and each page ends with a footer.
-/

namespace AfterAction

inductive Style
  | title
  | warning
  | heading
  | body
  /-- Of even character width. -/
  | table
  | footer
  deriving DecidableEq, Repr

def Style.name : Style → String
  | .title => "title"
  | .warning => "warning"
  | .heading => "heading"
  | .body => "body"
  | .table => "table"
  | .footer => "footer"

def Style.byName : List (String × Style) :=
  [("title", .title), ("warning", .warning), ("heading", .heading), ("body", .body),
    ("table", .table), ("footer", .footer)]

structure Line where
  style : Style
  text : String
  deriving DecidableEq, Repr

structure Page where
  lines : List Line
  deriving DecidableEq, Repr

namespace Layout

/-- Lines on a page above its footer. -/
def linesPerPage : Nat := 48

/-- Characters on a line of the table style. -/
def lineWidth : Nat := 95

def partialNotice : String := "PARTIAL - operation not yet complete"

/-- Every line is cut to the width. -/
def line (style : Style) (text : String) : Line := ⟨style, Text.cut lineWidth text⟩

def blank : Line := line .body ""

def count (n : Nat) : String := toString n

def header (r : Report) : List Line :=
  [line .title r.title, line .body r.company] ++
    (if r.isPartial then [line .warning partialNotice] else []) ++ [blank]

def details (r : Report) : List Line :=
  line .heading "Operation Details" ::
    r.metadata.map (fun (key, value) => line .table (Text.padRight 14 key ++ " " ++ value)) ++
    [blank]

def executiveSummary (s : RunStatistics) : List Line := [
  line .heading "Executive Summary",
  line .body (count s.total ++ " techniques executed: " ++ count s.successful ++ " successful, " ++
    count s.failed ++ " failed, " ++ count s.timedOut ++ " timed out."),
  line .body ("Success rate: " ++ percentText s.successRate ++ "%"),
  blank]

def nothingExecuted : Line := line .body "No techniques were executed."

def coverageCells (tactic steps successful share : String) : String :=
  Text.padRight 28 tactic ++ " " ++ Text.padLeft 6 steps ++ " " ++ Text.padLeft 10 successful ++
    " " ++ Text.padLeft 8 share

def coverageLine (c : TacticCoverage) : Line :=
  line .table (coverageCells (Text.cut 28 c.tactic) (count c.steps) (count c.successful)
    (Text.padLeft 7 (percentText c.share) ++ "%"))

def tacticCoverage (coverage : List TacticCoverage) : List Line :=
  line .heading "Tactic Coverage" ::
    (if coverage.isEmpty then [nothingExecuted]
    else line .table (coverageCells "Tactic" "Steps" "Successful" "Share") ::
      coverage.map coverageLine) ++
    [blank]

def coverageRate (s : DetectionSummary) : Binary64 := percent s.detected s.total

def detectionCoverage (detection : DetectionSection) : List Line :=
  line .heading "Detection Coverage" ::
    (match detection with
    | .summary s => [
        line .body ("Detected: " ++ count s.detected ++ "  Evaded: " ++ count s.evaded ++
          "  Pending: " ++ count s.pending),
        line .body ("Detection coverage: " ++ percentText (coverageRate s) ++ "%")]
    | .unavailable reason =>
      [line .warning ("Detection correlation unavailable: " ++ reason)]) ++
    [blank]

def techniqueCells (id name tactic result detection : String) : String :=
  Text.padRight 10 id ++ " " ++ Text.padRight 30 name ++ " " ++ Text.padRight 22 tactic ++ " " ++
    Text.padRight 8 result ++ " " ++ detection

def techniqueLine (row : TechniqueRow) : Line :=
  line .table (techniqueCells (Text.cut 10 row.techniqueId) (Text.cut 30 row.techniqueName)
    (Text.cut 22 row.tactic) row.outcome.name row.detection)

def techniqueDetails (rows : List TechniqueRow) : List Line :=
  line .heading "Technique Details" ::
    if rows.isEmpty then [nothingExecuted]
    else line .table (techniqueCells "ID" "Technique" "Tactic" "Result" "Detection") ::
      rows.map techniqueLine

/-- All lines of a report in the order of its sections. -/
def flatten (r : Report) : List Line :=
  header r ++ details r ++ executiveSummary r.statistics ++ tacticCoverage r.coverage ++
    detectionCoverage r.detection ++ techniqueDetails r.rows

/-- Runs of `size` lines; the last may be shorter. -/
def deal {α : Type} (size : Nat) (xs : List α) : List (List α) :=
  if _ : xs = [] ∨ size = 0 then []
  else xs.take size :: deal size (xs.drop size)
termination_by xs.length
decreasing_by
  rename_i h
  have : xs.length ≠ 0 := by simpa using (not_or.mp h).1
  simp only [List.length_drop]
  omega

def footer (company : String) (number total : Nat) : Line :=
  line .footer (company ++ " | Confidential | Page " ++ count number ++ " of " ++ count total)

/-- Even a report without lines has one page. -/
def paginate (r : Report) : List Page :=
  let parts := deal linesPerPage (flatten r)
  let total := max parts.length 1
  if parts.isEmpty then [⟨[footer r.company 1 total]⟩]
  else parts.mapIdx fun i part => ⟨part ++ [footer r.company (i + 1) total]⟩

end Layout
end AfterAction
