import OrgAlign.Diff.Change
import OrgAlign.Json.Writer
import OrgAlign.Pipeline.Run
import OrgAlign.Text.Table

/-!
# What the command line answers

The texts of results and of failures. A failure is told with everything that it rests on, each with
a number if there are several.
-/

namespace OrgAlign.Command

open Config Org Pipeline Reconcile

/-! ### Results -/

/-- Lines, each with a line end. -/
def lines (ls : List String) : String := (ls.map (· ++ "\n")).foldl (· ++ ·) ""

/-- The word for a severity. -/
def severityLabel : Severity → String
  | .error => "ERROR"
  | .warning => "WARNING"

/-- The head of a table of findings. -/
def findingColumns : List String := ["severity", "kind", "subject", "message"]

/-- A finding as a row of a table. -/
def findingRow (f : Finding) : List String :=
  [severityLabel f.severity, f.kind.name, f.subject, f.message]

/-- Findings under a title. -/
def findingsText (title : String) (fs : List Finding) : String :=
  if fs = [] then lines [title ++ ": none"]
  else lines [title, Text.Table.render findingColumns (fs.map findingRow)]

/-- The outcome of a validation as a value. -/
def validationValue (r : Reconciliation) : Value :=
  .record [("valid", .bool r.errors.isEmpty), ("errors", .seq (r.errors.map Finding.toValue)),
    ("warnings", .seq (r.warnings.map Finding.toValue)), ("organization", r.organization.toValue)]

/-- The outcome of a validation. -/
def validationText (json : Bool) (r : Reconciliation) : String :=
  if json then lines [(Json.write? Json.pretty (validationValue r)).getD ""]
  else
    findingsText "Findings" r.findings ++
      lines [toString r.organization.accounts.length ++ " accounts, " ++
        toString r.organization.ous.length ++ " organizational units reconciled"]

/-- What failed on the way, each on a line of its own. -/
def failureLines (indent : String) (r : Pipeline.Report) : String :=
  lines ((r.corrections.failures ++ r.guard.failures).map fun reason =>
    indent ++ "failed: " ++ reason.getD "")

/-- The calls made to the organization. -/
def callsText (calls : List Call) : String :=
  if calls = [] then lines ["Platform calls: none"]
  else lines ("Platform calls" :: calls.map fun c => "  " ++ c.text)

/-- A diff, with a line end behind it. -/
def diffText (d : Diff.FileDiff) : String :=
  if d.text.toList.getLast? = some '\n' then d.text else d.text ++ "\n"

/-- What a run would do. -/
def planText (r : Pipeline.Report) (calls : List Call) : String :=
  let diffs := Diff.fileDiffs r.changes
  findingsText "Drift" r.drift ++ findingsText "Warnings" r.warnings ++ callsText calls ++
    failureLines "  " r ++
    (if diffs = [] then lines ["No configuration changes."]
    else (diffs.map diffText).foldl (· ++ ·) "")

/-- What became of the configuration. -/
def outcomeText : Option Outcome → String
  | some (.committed id) => "✓ configuration committed (" ++ id ++ ")"
  | _ => "Configuration unchanged."

/-- What a run did. -/
def runText (r : Pipeline.Report) (statePath : String) : String :=
  findingsText "Drift" r.drift ++ findingsText "Warnings" r.warnings ++
    lines [toString r.corrections.created.length ++ " OUs created, " ++
      toString r.corrections.moved.length ++ " accounts moved, " ++
      toString r.guard.attached.length ++ " policies attached, " ++
      toString r.guard.detached.length ++ " detached"] ++
    failureLines "" r ++ lines [outcomeText r.outcome] ++
    (if r.published.isSome then lines ["Published state to " ++ statePath] else "")

/-! ### Failures -/

/-- A text with one indent before its first line and another one before the others. -/
def indented (first others text : String) : String :=
  first ++ String.intercalate ("\n" ++ others)
    ((OrgAlign.Text.splitAt '\n' text.toList).map String.ofList)

/-- A number before the first line of one of several causes. -/
def causeNumber (n : Nat) : String :=
  let digits := Nat.toDigits 10 n
  String.ofList (List.replicate (5 - digits.length) ' ' ++ digits) ++ ": "

/-- Causes under their number, from a number on. -/
def numberedCauses : Nat → List String → String
  | _, [] => ""
  | n, c :: cs =>
    lines [indented (causeNumber n) (String.ofList (List.replicate 7 ' ')) c] ++
      numberedCauses (n + 1) cs

/-- The causes of a failure. -/
def causesText : List String → String
  | [] => ""
  | [c] => "\nCaused by:\n" ++ lines [indented "    " "    " c]
  | cs => "\nCaused by:\n" ++ numberedCauses 0 cs

/-- A failure, given what it says and what everything that it rests on says. -/
def errorText : List String → String
  | [] => ""
  | m :: causes => lines ["Error: " ++ m] ++ causesText causes

end OrgAlign.Command
